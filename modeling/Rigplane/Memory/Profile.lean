import Mathlib.Data.List.Sort
import Rigplane.Civ.Bcd

/-!
# Memory profiles

The data of `core/types.py` that memory channels are written and read by: `MemoryProfile`, the
layout of the record that is written, `MemoryChannel` and `MemoryEntry`.

A profile is read with its types, so that the checks of `validation_errors` for values of other
types have nothing to find.
-/

namespace Rigplane.Memory

/-! ## Modes, directions and tones -/

/-- `Mode`. -/
inductive Mode where
  | lsb
  | usb
  | am
  | cw
  | rtty
  | fm
  | wfm
  | cwR
  | rttyR
  | psk
  | pskR
  | dv
deriving DecidableEq

/-- The value of a mode. -/
def Mode.code : Mode → Int
  | .lsb => 0x00
  | .usb => 0x01
  | .am => 0x02
  | .cw => 0x03
  | .rtty => 0x04
  | .fm => 0x05
  | .wfm => 0x06
  | .cwR => 0x07
  | .rttyR => 0x08
  | .psk => 0x12
  | .pskR => 0x13
  | .dv => 0x17

/-- The name of a mode. -/
def Mode.name : Mode → String
  | .lsb => "LSB"
  | .usb => "USB"
  | .am => "AM"
  | .cw => "CW"
  | .rtty => "RTTY"
  | .fm => "FM"
  | .wfm => "WFM"
  | .cwR => "CW_R"
  | .rttyR => "RTTY_R"
  | .psk => "PSK"
  | .pskR => "PSK_R"
  | .dv => "DV"

/-- The name with a hyphen, as profiles and entries have it: `name.replace("_", "-")`, which for
these names is `name.replace("_R", "-R")`. -/
def Mode.publicName (mode : Mode) : String :=
  String.ofList (mode.name.toList.map fun c => if c = '_' then '-' else c)

def Mode.all : List Mode :=
  [.lsb, .usb, .am, .cw, .rtty, .fm, .wfm, .cwR, .rttyR, .psk, .pskR, .dv]

/-- `Mode(code)`. -/
def modeOfCode (code : Int) : Option Mode := Mode.all.find? fun mode => mode.code == code

/-- `RepeaterShiftDirection`, as far as memories have it. -/
inductive RepeaterShiftDirection where
  | simplex
  | plus
  | minus
deriving DecidableEq

/-- `ToneSquelchType`, as far as memories have it. -/
inductive ToneSquelchType where
  | off
  | tone
  | tsql
  | dtcs
deriving DecidableEq

/-! ## Channels and entries -/

/-- `MemoryChannel`. -/
structure MemoryChannel where
  channel : Int
  frequencyHz : Int
  mode : Int
  filter : Int
  scan : Int
  datamode : Int
  tonemode : Int
  toneFreqHz : Option Int := none
  tsqlFreqHz : Option Int := none
  name : String := ""
  group : Option Int := none
  duplex : Int := 0
  toneCentihz : Option Int := none
  tsqlCentihz : Option Int := none

/-- `MemoryEntry`. -/
structure MemoryEntry where
  group : Int
  channel : Int
  empty : Bool := false
  frequencyHz : Option Int := none
  mode : Option String := none
  dataMode : Bool := false
  duplex : Option RepeaterShiftDirection := none
  offsetHz : Option Int := none
  toneMode : Option ToneSquelchType := none
  toneCentihz : Option Int := none
  tsqlCentihz : Option Int := none
  dtcsCode : Option Int := none
  name : String := ""
deriving DecidableEq

/-! ## The layout of the record that is written -/

/-- `MEMORY_WRITE_ENCODINGS`. -/
inductive MemoryWriteEncoding where
  | select
  | scan
  | frequency
  | mode
  | modeBcd
  | filter
  | dataMode
  | dataTone
  | duplexTone
  | tone
  | tsql
  | toneHzBcd
  | tsqlHzBcd
  | name
  | nameNul
  | fixed
deriving DecidableEq

/-- The word for an encoding. -/
def MemoryWriteEncoding.word : MemoryWriteEncoding → String
  | .select => "select"
  | .scan => "scan"
  | .frequency => "frequency"
  | .mode => "mode"
  | .modeBcd => "mode_bcd"
  | .filter => "filter"
  | .dataMode => "data_mode"
  | .dataTone => "data_tone"
  | .duplexTone => "duplex_tone"
  | .tone => "tone"
  | .tsql => "tsql"
  | .toneHzBcd => "tone_hz_bcd"
  | .tsqlHzBcd => "tsql_hz_bcd"
  | .name => "name"
  | .nameNul => "name_nul"
  | .fixed => "fixed"

/-- `_WRITE_ENCODING_WIDTHS`. -/
def MemoryWriteEncoding.width : MemoryWriteEncoding → Option Int
  | .frequency => some 5
  | .mode => some 1
  | .modeBcd => some 1
  | .filter => some 1
  | .dataMode => some 1
  | .dataTone => some 1
  | .duplexTone => some 1
  | .tone => some 3
  | .tsql => some 3
  | .toneHzBcd => some 3
  | .tsqlHzBcd => some 3
  | .select => some 1
  | .scan => some 1
  | .name => none
  | .nameNul => none
  | .fixed => none

/-- `MEMORY_WRITE_CLEAR_FORMS`. -/
inductive MemoryWriteClearForm where
  /-- `1a00_ff`. -/
  | contentsFf
  /-- `0b_channel`. -/
  | channel
deriving DecidableEq

/-- `MemoryWriteField`. -/
structure MemoryWriteField where
  field : String
  offset : Int
  length : Int
  encoding : MemoryWriteEncoding
  maxHz : Option Int := none
  value : Option String := none
deriving DecidableEq

/-- `MemoryWriteLayout`. -/
structure MemoryWriteLayout where
  clear : MemoryWriteClearForm
  recordLength : Int
  fields : List MemoryWriteField
  toneMax : Int := 3
  copies : Int := 1
  defaultToneCentihz : Option Int := none

namespace MemoryWriteLayout

/-- Whether the field is the name. -/
def isName (f : MemoryWriteField) : Bool := f.encoding == .name || f.encoding == .nameNul

/-- Whether the field leads the record as its select byte. -/
def leads (f : MemoryWriteField) : Bool := f.encoding == .select && f.offset == 0

/-- `data_block_span`. -/
def dataBlockSpan (layout : MemoryWriteLayout) : Option (Int × Int) :=
  match layout.fields.find? isName with
  | none => none
  | some name =>
      let start :=
        layout.fields.foldl (fun start f => if leads f then f.offset + f.length else start) 0
      if name.offset ≤ start then none else some (start, name.offset)

/-- `wire_record_length`. -/
def wireRecordLength (layout : MemoryWriteLayout) : Int :=
  match layout.dataBlockSpan with
  | none => layout.recordLength
  | some span =>
      if layout.copies ≤ 1 then layout.recordLength
      else layout.recordLength + (layout.copies - 1) * (span.2 - span.1)

/-! ### `validation_errors` -/

/-- `repr` of a name. -/
def quoted (name : String) : String := "'" ++ name ++ "'"

/-- The errors of the numbers of a layout. -/
def numberErrors (layout : MemoryWriteLayout) : List String :=
  (if 1 ≤ layout.recordLength ∧ layout.recordLength ≤ 128 then []
    else ["record_length must be 1..128, got " ++ toString layout.recordLength]) ++
  (if 0 ≤ layout.toneMax ∧ layout.toneMax ≤ 3 then []
    else ["tone_max must be 0..3, got " ++ toString layout.toneMax]) ++
  (if 1 ≤ layout.copies ∧ layout.copies ≤ 2 then []
    else ["copies must be 1..2, got " ++ toString layout.copies])

/-- The errors of the members of a field. -/
def memberErrors (f : MemoryWriteField) : List String :=
  (if f.field = "" then ["empty or non-string field name " ++ quoted f.field] else []) ++
  (match f.encoding, f.maxHz with
    | .frequency, some maxHz =>
        if 0 < maxHz ∧ maxHz ≤ 9999999999 then []
        else ["field " ++ quoted f.field ++ ": max_hz must be 1..9_999_999_999"]
    | _, _ => []) ++
  (match f.encoding, f.value with
    | .fixed, none => ["field " ++ quoted f.field ++ ": a fixed field needs a hex string value"]
    | .fixed, some _ => []
    | _, some _ => ["field " ++ quoted f.field ++ ": value is only valid on a fixed field"]
    | _, none => [])

/-- `0123456789abcdefABCDEF`. -/
def isHexDigit (c : Char) : Bool :=
  ('0' ≤ c && c ≤ '9') || ('a' ≤ c && c ≤ 'f') || ('A' ≤ c && c ≤ 'F')

/-- The errors of the place of a field behind the fields before it, which end at the cursor. -/
def tilingErrors (layout : MemoryWriteLayout) (names : List String) (cursor : Int)
    (f : MemoryWriteField) : List String :=
  (if f.field ∈ names then ["duplicate field name " ++ quoted f.field] else []) ++
  (if f.offset < 0 ∨ f.length < 1 then
      ["field " ++ quoted f.field ++ ": offset/length must be >= 0/1"]
    else if f.offset + f.length > layout.recordLength then
      ["field " ++ quoted f.field ++ " runs past record_length"]
    else if f.offset ≠ cursor then
      ["field " ++ quoted f.field ++ " " ++ (if f.offset < cursor then "overlap" else "a gap") ++
        "s at offset " ++ toString cursor]
    else []) ++
  (match f.encoding.width with
    | some width =>
        if f.length ≠ width then
          ["field " ++ quoted f.field ++ ": encoding " ++ quoted f.encoding.word ++
            " needs length " ++ toString width ++ ", got " ++ toString f.length]
        else []
    | none => []) ++
  (match f.encoding, f.value with
    | .fixed, some value =>
        if (value.length : Int) ≠ 2 * f.length ∨ value.toList.any (fun c => !isHexDigit c) then
          ["field " ++ quoted f.field ++ ": the fixed value must be " ++ toString f.length ++
            " bytes of hex"]
        else []
    | _, _ => [])

/-- The fields in the order of their offsets: the errors of each, and of the end. -/
def tableErrors (layout : MemoryWriteLayout) (names : List String) (cursor : Int) :
    List MemoryWriteField → List String
  | [] =>
      if cursor ≠ layout.recordLength then
        ["the table leaves the last " ++ toString (layout.recordLength - cursor) ++
          " byte(s) undeclared"]
      else []
  | f :: rest =>
      layout.tilingErrors names cursor f ++
        layout.tableErrors (names ++ [f.field]) (f.offset + f.length) rest

/-- How many fields have one of the encodings. -/
def count (layout : MemoryWriteLayout) (encodings : List MemoryWriteEncoding) : Nat :=
  layout.fields.countP fun f => encodings.contains f.encoding

/-- The errors of what the table has more or less often than it must. -/
def countErrors (layout : MemoryWriteLayout) : List String :=
  ([([.frequency], "a frequency"), ([.mode, .modeBcd], "a mode"),
      ([.name, .nameNul], "a name")].flatMap fun (encodings, what) =>
    if layout.count encodings ≠ 1 then ["the table must declare exactly " ++ what ++ " field"]
    else []) ++
  ([MemoryWriteEncoding.tone, .tsql, .toneHzBcd, .tsqlHzBcd, .select].flatMap fun encoding =>
    if layout.count [encoding] > 1 then
      ["the table declares " ++ encoding.word ++ " more than once"]
    else [])

/-- The errors of the default tone and of the repeated block. -/
def blockErrors (layout : MemoryWriteLayout) : List String :=
  (if 0 < layout.count [.tone, .tsql] then
      if layout.defaultToneCentihz.isNone then
        ["the table declares tone/tsql fields but no default_tone_centihz"]
      else []
    else if layout.defaultToneCentihz.isSome then
      ["default_tone_centihz without a tone/tsql field"]
    else []) ++
  (if layout.copies > 1 then
      if !layout.fields.any leads then
        ["copies > 1 needs the select field at offset 0 (the block repeat starts after it)"]
      else if layout.dataBlockSpan.isNone then
        ["copies > 1 needs a name field after the repeated block"]
      else []
    else [])

/-- `validation_errors`. -/
def validationErrors (layout : MemoryWriteLayout) : List String :=
  if layout.fields = [] then "the field table is empty" :: layout.numberErrors
  else
    let errors := layout.numberErrors ++ layout.fields.flatMap memberErrors
    if errors ≠ [] then errors
    else
      let sorted := layout.fields.insertionSort fun f g => f.offset ≤ g.offset
      layout.tableErrors [] 0 sorted ++ layout.countErrors ++ layout.blockErrors

end MemoryWriteLayout

/-! ## Profiles -/

/-- `MemoryAddressing`. -/
inductive MemoryAddressing where
  | groupChannel
  | bandChannel
  | channel
deriving DecidableEq

def MemoryAddressing.word : MemoryAddressing → String
  | .groupChannel => "group_channel"
  | .bandChannel => "band_channel"
  | .channel => "channel"

/-- `MemoryProfile`. -/
structure MemoryProfile where
  addressing : MemoryAddressing
  firstGroup : Int
  lastGroup : Int
  firstChannel : Int
  lastChannel : Int
  ddGroups : List Int := []
  offset10mhzGroups : List Int := []
  /-- A group, and the lowest and the highest frequency of one of its ranges. -/
  frequencyRanges : List (Int × Int × Int) := []
  writeLayout : Option MemoryWriteLayout := none

/-- The addressing names a group. -/
def MemoryProfile.Grouped (memory : MemoryProfile) : Prop :=
  memory.addressing = .groupChannel ∨ memory.addressing = .bandChannel

end Rigplane.Memory
