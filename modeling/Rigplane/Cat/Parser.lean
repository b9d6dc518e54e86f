import Mathlib.Data.Char
import Mathlib.Data.List.Basic
import Mathlib.Data.List.Lex
import Rigplane.Lib.Pattern

/-!
# CAT templates

`format_command` and `CatCommandParser` of `backends/yaesu_cat/parser.py`.

Both read a template, each in its own way: `format_command` with `string.Formatter` and
`str.format`, the parser by looking for braces itself.  Of the language of `str.format` the model
has replacement fields with a name and a format specification, and doubled braces; a conversion, an
attribute or an index, which no template has, is not read.

A regular expression of `_PLACEHOLDER_REGEX` is a group of a class of characters, and `re` matches
it by backtracking (`Pattern.run`).
-/

namespace Rigplane.Cat

/-- What is passed to a template, and what is parsed. -/
inductive Value where
  | int (number : Int)
  | str (text : List Char)
deriving DecidableEq

inductive CatError where
  /-- `CatFormatError`, with its reason. -/
  | format (reason : String)
  /-- `CatParseError`: the response does not match the pattern. -/
  | parse
  /-- `ValueError`. -/
  | value (reason : String)
deriving DecidableEq

/-! ## Characters -/

/-- The zeros of the blocks of decimal digits (general category Nd). -/
def decimalZeros : List Nat :=
  [0x30, 0x660, 0x6F0, 0x7C0, 0x966, 0x9E6, 0xA66, 0xAE6, 0xB66, 0xBE6, 0xC66, 0xCE6, 0xD66, 0xDE6,
    0xE50, 0xED0, 0xF20, 0x1040, 0x1090, 0x17E0, 0x1810, 0x1946, 0x19D0, 0x1A80, 0x1A90, 0x1B50,
    0x1BB0, 0x1C40, 0x1C50, 0xA620, 0xA8D0, 0xA900, 0xA9D0, 0xA9F0, 0xAA50, 0xABF0, 0xFF10, 0x104A0,
    0x10D30, 0x11066, 0x110F0, 0x11136, 0x111D0, 0x112F0, 0x11450, 0x114D0, 0x11650, 0x116C0,
    0x11730, 0x118E0, 0x11950, 0x11C50, 0x11D50, 0x11DA0, 0x16A60, 0x16AC0, 0x16B50, 0x1D7CE,
    0x1D7D8, 0x1D7E2, 0x1D7EC, 0x1D7F6, 0x1E140, 0x1E2F0, 0x1E950, 0x1FBF0]

/-- The decimal digit that a character is. -/
def digitValue (c : Char) : Option Nat :=
  decimalZeros.findSome? fun start =>
    if start ≤ c.toNat ∧ c.toNat < start + 10 then some (c.toNat - start) else none

/-- `int` of digits. -/
def intOfDigits (text : List Char) : Nat :=
  text.foldl (fun acc c => acc * 10 + (digitValue c).getD 0) 0

/-- The classes of the regular expressions. -/
inductive CharClass where
  /-- `\d`. -/
  | digit
  /-- `.`, which is all but the line feed. -/
  | any
  | oneOf (chars : List Char)
  | noneOf (chars : List Char)
deriving DecidableEq

def CharClass.contains : CharClass → Char → Bool
  | .digit, c => (digitValue c).isSome
  | .any, c => c != '\n'
  | .oneOf chars, c => chars.contains c
  | .noneOf chars, c => !chars.contains c

inductive Converter where
  | int
  | str
deriving DecidableEq

def Converter.apply : Converter → List Char → Value
  | .int, text => .int (intOfDigits text)
  | .str, text => .str text

/-! ## The tables -/

/-- `_ALLOWED_PLACEHOLDERS`. -/
def allowedPlaceholders : List (List Char) :=
  ["freq", "mode", "raw", "level", "state", "sign", "offset", "value", "vfo", "band", "wpm", "code",
    "idx", "delay", "head", "watts", "model", "rx", "tx", "pad", "type", "mem", "tag", "src",
    "func",
    "val", "main", "sub", "chan", "tone", "shift", "receiver"].map String.toList

/-- An entry of `_PLACEHOLDER_REGEX`. -/
structure Placeholder where
  key : List Char
  /-- The name of the group. -/
  name : List Char
  charClass : CharClass
  low : Nat
  high : Nat
  converter : Converter
deriving DecidableEq

/-- A number of so many digits. -/
def digits (key name : String) (low high : Nat) : Placeholder :=
  ⟨key.toList, name.toList, .digit, low, high, .int⟩

/-- A text of so many characters. -/
def chars (name : String) (length : Nat) : Placeholder :=
  ⟨name.toList, name.toList, .any, length, length, .str⟩

/-- `_PLACEHOLDER_REGEX`. -/
def placeholderRegex : List Placeholder :=
  [digits "freq:09d" "freq" 9 9, digits "freq:03d" "freq" 3 3, digits "raw:03d" "raw" 3 3,
    digits "level:03d" "level" 3 3, digits "level:02d" "level" 2 2,
    digits "offset:04d" "offset" 4 4, chars "mode" 1, digits "mode:02d" "mode" 2 2,
    chars "state" 1, digits "state:03d" "state" 3 3,
    ⟨"sign".toList, "sign".toList, .oneOf ['+', '-'], 1, 1, .str⟩, chars "value" 1,
    digits "value:02d" "value" 2 2, chars "vfo" 1, digits "band:02d" "band" 2 2,
    digits "wpm:03d" "wpm" 3 3, digits "code:03d" "code" 3 3, digits "idx:02d" "idx" 2 2,
    digits "delay:04d" "delay" 2 4, chars "head" 1, digits "watts:03d" "watts" 3 3,
    digits "model:04d" "model" 4 4, chars "rx" 1, chars "tx" 1, digits "pad:03d" "pad" 3 3,
    chars "type" 1, digits "type:02d" "type" 2 2, chars "src" 1, chars "func" 1, chars "val" 1,
    digits "val:04d" "val" 4 4, chars "mem" 1, digits "main:03d" "main" 3 3,
    digits "sub:03d" "sub" 3 3, chars "chan" 5, chars "tone" 1, chars "shift" 1,
    ⟨"tag".toList, "tag".toList, .noneOf [';'], 0, 12, .str⟩,
    ⟨"receiver".toList, "receiver".toList, .oneOf ['0', '1'], 1, 1, .int⟩]

/-! ## The formatter -/

/-- What `Formatter.parse` finds in a template. -/
inductive Segment where
  | literal (c : Char)
  | field (name spec : List Char)
deriving DecidableEq

/-- The text before the first colon, and the text behind it. -/
def splitColon (text : List Char) : List Char × List Char :=
  (text.takeWhile (· ≠ ':'), (text.dropWhile (· ≠ ':')).tail)

/-- `Formatter.parse`; `inside` is what was read of a field, backwards. -/
def formatterParse : Option (List Char) → List Char → Except CatError (List Segment)
  | none, [] => .ok []
  | none, '}' :: '}' :: rest => (formatterParse none rest).map (.literal '}' :: ·)
  | none, '}' :: _ => .error (.value "Single '\x7d' encountered in format string")
  | none, '{' :: rest => formatterParse (some []) rest
  | none, c :: rest => (formatterParse none rest).map (.literal c :: ·)
  | some [], '{' :: rest => (formatterParse none rest).map (.literal '{' :: ·)
  | some inside, '}' :: rest =>
      let (name, spec) := splitColon inside.reverse
      (formatterParse none rest).map (.field name spec :: ·)
  | some inside, c :: rest => formatterParse (some (c :: inside)) rest
  | some _, [] => .error (.value "expected '\x7d' before end of string")

/-- `_extract_field_names`. -/
def extractFieldNames (segments : List Segment) : List (List Char) :=
  segments.filterMap fun segment =>
    match segment with
    | .literal _ => none
    | .field name _ => if name = [] then none else some name

/-- The width of a format specification: none, or a zero-padded decimal. -/
def zeroPadded : List Char → Option Nat
  | [] => some 0
  | '0' :: rest =>
      if rest.getLast? = some 'd' ∧ rest.dropLast.all Char.isDigit ∧ rest.dropLast ≠ [] then
        some (Nat.ofDigitChars 10 rest.dropLast 0)
      else none
  | _ => none

/-- `format(number, spec)`: the sign counts for the width. -/
def formatInt (number : Int) (width : Nat) : List Char :=
  if number < 0 then '-' :: (Nat.toDigits 10 number.natAbs).leftpad (width - 1) '0'
  else (Nat.toDigits 10 number.natAbs).leftpad width '0'

def formatValue (value : Value) (spec : List Char) : Except CatError (List Char) :=
  match value, zeroPadded spec with
  | _, none => .error (.format "Invalid format specifier")
  | .int number, some width => .ok (formatInt number width)
  | .str text, some _ =>
      if spec = [] then .ok text
      else .error (.format "Unknown format code 'd' for object of type 'str'")

/-- `template.format(**kwargs)`. -/
def formatSegments (kwargs : List (List Char × Value)) : List Segment → Except CatError (List Char)
  | [] => .ok []
  | .literal c :: rest => (formatSegments kwargs rest).map (c :: ·)
  | .field name spec :: rest =>
      match kwargs.lookup name with
      | none => .error (.format ("'" ++ String.ofList name ++ "'"))
      | some value => do
          let text ← formatValue value spec
          let others ← formatSegments kwargs rest
          return text ++ others

/-- `format_command`. -/
def formatCommand (template : List Char) (kwargs : List (List Char × Value)) :
    Except CatError (List Char) := do
  let segments ← formatterParse none template
  let unknown := (extractFieldNames segments).filter fun name => !allowedPlaceholders.contains name
  if unknown ≠ [] then
    .error (.format ("Unknown placeholder(s): " ++
      ", ".intercalate ((unknown.mergeSort fun a b => decide (a ≤ b)).map String.ofList)))
  else formatSegments kwargs segments

/-! ## The parser -/

abbrev Elem := Pattern.Elem (List Char) Char

/-- The regular expression and the converter of a placeholder. -/
def lookupPlaceholder (placeholder : List Char) : Except CatError Placeholder :=
  let baseName := (splitColon placeholder).1
  if !allowedPlaceholders.contains baseName then
    .error (.value ("Unknown placeholder " ++ String.ofList placeholder ++ " in parse template"))
  else
    match placeholderRegex.find? (·.key == placeholder) with
    | some entry => .ok entry
    | none =>
        match placeholderRegex.find? (·.key == baseName) with
        | some entry => .ok entry
        | none =>
            .error (.value ("No regex mapping for placeholder " ++ String.ofList placeholder))

def Placeholder.elem (entry : Placeholder) : Elem :=
  .group entry.name entry.charClass.contains entry.low entry.high

/-- The parts of the pattern, with the converter of each base name; `inside` is what was read of a
placeholder, backwards. -/
def buildRegex : Option (List Char) → List Char →
    Except CatError (List Elem × List (List Char × Converter))
  | none, [] => .ok ([], [])
  | none, '{' :: rest => buildRegex (some []) rest
  | none, c :: rest => do
      let (elems, converters) ← buildRegex none rest
      return (.literal c :: elems, converters)
  | some inside, '}' :: rest => do
      let entry ← lookupPlaceholder inside.reverse
      let (elems, converters) ← buildRegex none rest
      return (entry.elem :: elems, ((splitColon inside.reverse).1, entry.converter) :: converters)
  | some inside, c :: rest => buildRegex (some (c :: inside)) rest
  | some _, [] => .error (.value "substring not found")

structure CatCommandParser where
  template : List Char
  pattern : List Elem
  converters : List (List Char × Converter)

/-- The names of the groups of a pattern. -/
def groupNames (pattern : List Elem) : List (List Char) :=
  pattern.filterMap fun elem =>
    match elem with
    | .literal _ => none
    | .group name _ _ _ => some name

/-- `CatCommandParser(template)`.  `re` does not take two groups of one name. -/
def CatCommandParser.new (template : List Char) : Except CatError CatCommandParser := do
  let (pattern, converters) ← buildRegex none template
  if (groupNames pattern).Nodup then return ⟨template, pattern, converters⟩
  else .error (.value "redefinition of group name")

/-- `$` is the end, or the place before a line feed there. -/
def atEnd (rest : List Char) : Bool := rest == [] || rest == ['\n']

/-- The groups of a response. -/
def CatCommandParser.groups (parser : CatCommandParser) (response : List Char) :
    Option (List (List Char × List Char)) :=
  Pattern.run atEnd parser.pattern response

/-- `CatCommandParser.parse`. -/
def CatCommandParser.parse (parser : CatCommandParser) (response : List Char) :
    Except CatError (List (List Char × Value)) :=
  match parser.groups response with
  | none => .error .parse
  | some groups =>
      .ok (groups.map fun (name, raw) =>
        (name, ((parser.converters.lookup name).getD .str).apply raw))

end Rigplane.Cat
