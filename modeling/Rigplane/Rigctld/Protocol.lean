import Rigplane.Lib.Dict
import Rigplane.Lib.Words
import Mathlib.Data.List.Intervals
import Mathlib.Data.Nat.Digits.Defs

/-!
# The protocol of rigctld

`rigctld/protocol.py` over the command table of `rigctld/contract.py`: a line of the client becomes
a command, and what the handler answers becomes the bytes of the reply.

The bytes of a line are decoded as ASCII with replacement, so a character is an ASCII one or
U+FFFD, and white space is what `str.split` takes for it below U+0085.
-/

namespace Rigplane.Rigctld

/-! ## The contract -/

/-- `HamlibError`, as far as the server itself answers with it. -/
inductive HamlibError where
  | einval
  | enimpl
  | etimeout
  | eio
deriving DecidableEq

def HamlibError.code : HamlibError → Int
  | einval => -1
  | enimpl => -4
  | etimeout => -5
  | eio => -6

/-- A parsed command. -/
structure RigctldCommand where
  shortCmd : String
  longCmd : String
  args : List (List Char) := []
  isSet : Bool := false
  vfoArg : Option (List Char) := none
deriving DecidableEq

/-- What the handler answers. -/
structure RigctldResponse where
  values : List (List Char) := []
  error : Int := 0
  cmdEcho : List Char := []
deriving DecidableEq

structure CommandDef where
  short : String
  long : String
  isSet : Bool
  minArgs : Nat := 0
  maxArgs : Nat := 0
  acceptsVfoArg : Bool := false
deriving DecidableEq

/-- The arguments of `_register`. -/
def commandDefs : List CommandDef := [
  { short := "f", long := "get_freq", isSet := false, acceptsVfoArg := true },
  { short := "m", long := "get_mode", isSet := false, acceptsVfoArg := true },
  { short := "t", long := "get_ptt", isSet := false, acceptsVfoArg := true },
  { short := "v", long := "get_vfo", isSet := false },
  { short := "j", long := "get_rit", isSet := false, acceptsVfoArg := true },
  { short := "l", long := "get_level", isSet := false, minArgs := 1, maxArgs := 1
    acceptsVfoArg := true },
  { short := "u", long := "get_func", isSet := false, minArgs := 1, maxArgs := 1
    acceptsVfoArg := true },
  { short := "s", long := "get_split_vfo", isSet := false, acceptsVfoArg := true },
  { short := "i", long := "get_split_freq", isSet := false, acceptsVfoArg := true },
  { short := "x", long := "get_split_mode", isSet := false, acceptsVfoArg := true },
  { short := "F", long := "set_freq", isSet := true, minArgs := 1, maxArgs := 1
    acceptsVfoArg := true },
  { short := "M", long := "set_mode", isSet := true, minArgs := 1, maxArgs := 2
    acceptsVfoArg := true },
  { short := "T", long := "set_ptt", isSet := true, minArgs := 1, maxArgs := 1
    acceptsVfoArg := true },
  { short := "V", long := "set_vfo", isSet := true, minArgs := 1, maxArgs := 1 },
  { short := "L", long := "set_level", isSet := true, minArgs := 2, maxArgs := 2
    acceptsVfoArg := true },
  { short := "U", long := "set_func", isSet := true, minArgs := 2, maxArgs := 2
    acceptsVfoArg := true },
  { short := "S", long := "set_split_vfo", isSet := true, minArgs := 2, maxArgs := 2
    acceptsVfoArg := true },
  { short := "I", long := "set_split_freq", isSet := true, minArgs := 1, maxArgs := 1
    acceptsVfoArg := true },
  { short := "X", long := "set_split_mode", isSet := true, minArgs := 1, maxArgs := 2
    acceptsVfoArg := true },
  { short := "q", long := "quit", isSet := false },
  { short := "\\dump_state", long := "dump_state", isSet := false },
  { short := "\\get_info", long := "get_info", isSet := false },
  { short := "\\chk_vfo", long := "chk_vfo", isSet := false },
  { short := "\\get_powerstat", long := "get_powerstat", isSet := false },
  { short := "1", long := "dump_caps", isSet := false },
  { short := "\\power2mW", long := "power2mW", isSet := false, minArgs := 1, maxArgs := 3 },
  { short := "\\mW2power", long := "mW2power", isSet := false, minArgs := 1, maxArgs := 3 },
  { short := "\\get_lock_mode", long := "get_lock_mode", isSet := false },
  { short := "w", long := "send_raw", isSet := false, minArgs := 1, maxArgs := 128 }]

/-- `_register`. -/
def register (defs : List CommandDef) : Dict String CommandDef :=
  defs.foldl (fun table d => (table.set d.short d).set d.long d) .empty

/-- `COMMAND_TABLE`. -/
def commandTable : Dict String CommandDef := register commandDefs

/-- `VFO_LABELS`. -/
def vfoLabels : List (List Char) := ["VFOA".toList, "VFOB".toList, "currVFO".toList]

/-! ## Parsing -/

/-- `raw.decode("ascii", errors="replace")`. -/
def decodeAscii (raw : List UInt8) : List Char :=
  raw.map fun b => if b < 128 then Char.ofNat b.toNat else Char.ofNat 0xFFFD

/-- The white space of `str.strip` and `str.split`. -/
def isSpace (ch : Char) : Bool :=
  (9 ≤ ch.toNat ∧ ch.toNat ≤ 13) ∨ (28 ≤ ch.toNat ∧ ch.toNat ≤ 32)

/-- `str.strip`. -/
def strip (text : List Char) : List Char := (text.dropWhile isSpace).rdropWhile isSpace

/-- `str.split`. -/
def split (text : List Char) : List (List Char) := Words.words isSpace text

/-- The `ValueError`s of `parse_line`; the last two are `ArgumentCountError`s. -/
inductive ParseError where
  | emptyLine
  | unknownCommand (token : List Char)
  | tooFewArgs (token : List Char) (minArgs got : Nat)
  | tooManyArgs (token : List Char) (maxArgs got : Nat)
deriving DecidableEq

/-- The key under which a token is looked up: it loses the backslash of a long name. -/
def lookupKey (token : List Char) : String :=
  String.ofList (if token.head? = some '\\' then token.tail else token)

/-- A leading VFO label is taken off the arguments of a command that may have one. -/
def stripVfo (d : CommandDef) (args : List (List Char)) : Option (List Char) × List (List Char) :=
  match args with
  | first :: rest =>
      if d.acceptsVfoArg ∧ first ∈ vfoLabels then (some first, rest) else (none, args)
  | [] => (none, [])

/-- `parse_line`. -/
def parseLine (line : List UInt8) : Except ParseError RigctldCommand :=
  let text := strip (decodeAscii (line.rdropWhile fun b => b = 13))
  match split text with
  | [] => .error .emptyLine
  | token :: args =>
      match commandTable.get? (lookupKey token) with
      | none => .error (.unknownCommand token)
      | some d =>
          let (vfoArg, args) := stripVfo d args
          if args.length < d.minArgs then .error (.tooFewArgs token d.minArgs args.length)
          else if args.length > d.maxArgs then .error (.tooManyArgs token d.maxArgs args.length)
          else .ok { shortCmd := d.short, longCmd := d.long, args, isSet := d.isSet, vfoArg }

/-- `int(text)`, without its exception. -/
def parseInt (text : List Char) : Option Int :=
  let text := strip text
  let unsigned := if text.head? = some '-' ∨ text.head? = some '+' then text.tail else text
  let groups := unsigned.splitOn '_'
  let digits := groups.flatten
  if (groups.all fun group => group ≠ [] ∧ group.all Char.isDigit) ∧ digits.length ≤ 4300 then
    let magnitude : Int := Nat.ofDigitChars 10 digits 0
    some (if text.head? = some '-' then -magnitude else magnitude)
  else none

/-! ## Formatting -/

/-- `text.encode("ascii")`. -/
def encodeAscii (text : List Char) : Option (List UInt8) :=
  if text.all fun ch => ch.toNat < 128 then some (text.map fun ch => UInt8.ofNat ch.toNat)
  else none

/-- The line of a status, `RPRT` and a number. -/
def statusLine (code : Int) : List Char := "RPRT ".toList ++ (toString code).toList

/-- `"\n".join(lines) + "\n"`. -/
def joinLines (lines : List (List Char)) : List Char := ['\n'].intercalate lines ++ ['\n']

/-- `format_error`. -/
def formatError (code : Int) : Option (List UInt8) := encodeAscii (statusLine code ++ ['\n'])

/-- `_format_normal`. -/
def formatNormal (cmd : RigctldCommand) (resp : RigctldResponse) : Option (List UInt8) :=
  if resp.error ≠ 0 then formatError resp.error
  else if cmd.isSet then formatError 0
  else if resp.values = [] then some []
  else
    (encodeAscii (joinLines resp.values)).bind fun out =>
      if cmd.longCmd = "get_lock_mode" then (formatError 0).map fun status => out ++ status
      else some out

/-- `_format_extended`. -/
def formatExtended (cmd : RigctldCommand) (resp : RigctldResponse) : Option (List UInt8) :=
  let echo := if resp.cmdEcho = [] then cmd.longCmd.toList else resp.cmdEcho
  encodeAscii (joinLines ((echo ++ [':']) :: (resp.values ++ [statusLine resp.error])))

/-- `format_response`, in a session with this `extended_mode`. -/
def formatResponse (cmd : RigctldCommand) (resp : RigctldResponse) (extendedMode : Bool) :
    Option (List UInt8) :=
  if extendedMode then formatExtended cmd resp else formatNormal cmd resp

end Rigplane.Rigctld
