import Rigplane.Memory.Profile

/-!
# Writing memory channels

`build_memory_contents_set` of `commands/memory.py`: the address of a slot, and the record that the
layout of a profile describes.  A refusal is the text of the exception.
-/

namespace Rigplane.Memory

open Civ

/-! ## Rules that the reader has too -/

/-- `_MODE_DD`. -/
def modeDd : Int := 0x22

/-- `_ADDRESS_LEN`. -/
def addressLen : MemoryAddressing → Option Nat
  | .groupChannel => some 4
  | .bandChannel => some 3
  | .channel => none

/-- The text of a number that may be missing. -/
def optionText : Option Int → String
  | some number => toString number
  | none => "None"

/-- `_dd_memory_mode`. -/
def ddMemoryMode (modeCode : Int) (memory : MemoryProfile) (group : Option Int) :
    Except String Bool :=
  let dd := modeCode == modeDd && group.any memory.ddGroups.contains
  if modeCode = modeDd ∧ dd = false then
    .error ("DD mode is not valid for memory group " ++ optionText group)
  else .ok dd

/-- `_check_duplex_nibble`. -/
def checkDuplexNibble (duplex : Int) (dd : Bool) (memory : MemoryProfile) : Except String Unit :=
  if duplex > (if memory.addressing = .groupChannel then 2 else 3) ∨
      (decide (duplex = 3) ≠ dd ∧ duplex ≠ 0) then
    .error ("duplex nibble " ++ toString duplex ++ " does not fit the mode")
  else .ok ()

/-- The limit of the frequency field of a layout. -/
def layoutMaxHz (layout : MemoryWriteLayout) : Option Int :=
  layout.fields.findSome? fun f => if f.encoding = .frequency then f.maxHz else none

/-- `_ghz_digit_ceiling`. -/
def ghzDigitCeiling (memory : MemoryProfile) : Int :=
  match memory.frequencyRanges with
  | (_, _, high) :: rest =>
      rest.foldl (fun most range => max most (range.2.2 / 1000000000)) (high / 1000000000)
  | [] =>
      match memory.writeLayout.bind layoutMaxHz with
      | some maxHz => maxHz / 1000000000
      | none => frequencyBcdMaxGhzDigit

/-- `_check_frequency_digits`. -/
def checkFrequencyDigits (frequencyHz : Int) (memory : MemoryProfile) : Except String Unit :=
  let ghz := frequencyHz / 1000000000
  let hundredMhz := frequencyHz % 1000000000 / 100000000
  let ceiling := ghzDigitCeiling memory
  if ghz > ceiling then
    if ceiling = 0 then .error "frequency GHz digit is fixed 0"
    else .error "frequency 100 MHz or GHz digit out of range"
  else if hundredMhz > frequencyBcdMax100MhzDigit then
    .error "frequency 100 MHz or GHz digit out of range"
  else .ok ()

/-! ## The address -/

/-- `_encode_memory_address`. -/
def encodeMemoryAddress (memory : MemoryProfile) (group channel : Int) :
    Except String (List UInt8) :=
  if ¬ (memory.firstGroup ≤ group ∧ group ≤ memory.lastGroup) then
    .error ("memory group must be " ++ toString memory.firstGroup ++ "-" ++
      toString memory.lastGroup ++ ", got " ++ toString group)
  else if ¬ (memory.firstChannel ≤ channel ∧ channel ≤ memory.lastChannel) then
    .error ("memory channel must be " ++ toString memory.firstChannel ++ "-" ++
      toString memory.lastChannel ++ ", got " ++ toString channel)
  else
    match memory.addressing with
    | .channel => bcdEncodeValue channel 2
    | .groupChannel => return (← bcdEncodeValue group 2) ++ (← bcdEncodeValue channel 2)
    | .bandChannel => return (← bcdEncodeValue group 1) ++ (← bcdEncodeValue channel 2)

/-- `_required_memory_group`. -/
def requiredMemoryGroup (group : Option Int) (memory : MemoryProfile) (verb : String) :
    Except String Int :=
  match group with
  | some group => .ok group
  | none =>
      if memory.addressing ≠ .channel then
        .error ("a memory group/band is required to " ++ verb ++ " a channel on this radio")
      else .ok 0

/-- `_require_write_layout`. -/
def requireWriteLayout (memory : MemoryProfile) : Except String MemoryWriteLayout :=
  let refusal := "this profile declares no verified memory write layout ([memory].write_layout)"
  match memory.writeLayout with
  | some layout => if layout.validationErrors ≠ [] then .error refusal else .ok layout
  | none => .error refusal

/-! ## Fields -/

/-- `bytes([value])`. -/
def byte (value : Int) : Except String (List UInt8) :=
  if 0 ≤ value ∧ value < 256 then .ok [UInt8.ofNat value.toNat]
  else .error "bytes must be in range(0, 256)"

/-- The value of a hexadecimal digit. -/
def hexValue (c : Char) : Option Nat :=
  if '0' ≤ c ∧ c ≤ '9' then some (c.toNat - '0'.toNat)
  else if 'a' ≤ c ∧ c ≤ 'f' then some (c.toNat - 'a'.toNat + 10)
  else if 'A' ≤ c ∧ c ≤ 'F' then some (c.toNat - 'A'.toNat + 10)
  else none

/-- `bytes.fromhex`, of a text without blanks. -/
def fromHex : List Char → Option (List UInt8)
  | [] => some []
  | [_] => none
  | c :: d :: rest => do
      return UInt8.ofNat ((← hexValue c) * 16 + (← hexValue d)) :: (← fromHex rest)

/-- `_encode_record_frequency`. -/
def encodeRecordFrequency (frequencyHz : Int) (memory : MemoryProfile) (maxHz : Option Int)
    (group : Int) (width : Nat) : Except String (List UInt8) := do
  refuseIf (frequencyHz ≤ 0) ("frequency must be positive, got " ++ toString frequencyHz)
  refuseIf (maxHz.any fun m => decide (frequencyHz > m))
    ("frequency " ++ toString frequencyHz ++ " exceeds the layout limit " ++ optionText maxHz)
  refuseIf (memory.frequencyRanges ≠ [] ∧ ¬ memory.frequencyRanges.any fun (band, low, high) =>
      band == group && decide (low ≤ frequencyHz) && decide (frequencyHz ≤ high))
    ("frequency " ++ toString frequencyHz ++ " is outside memory group " ++ toString group ++
      " ranges")
  checkFrequencyDigits frequencyHz memory
  bcdEncode frequencyHz width

/-- `_encode_record_name`. -/
def encodeRecordName (name : String) (length : Nat) (pad : UInt8) : Except String (List UInt8) :=
  if name.length > length then
    .error ("memory name is " ++ toString name.length ++ " characters, limit is " ++
      toString length)
  else if name.toList.any fun c => decide (c.toNat ≥ 128) then .error "memory name must be ASCII"
  else
    let encoded := name.toList.map fun c => UInt8.ofNat c.toNat
    if encoded.any fun b => !(0x20 ≤ b && b ≤ 0x7E) then
      .error "memory name must be printable ASCII"
    else .ok (encoded ++ List.replicate (length - encoded.length) pad)

/-- `_encode_record_tone`. -/
def encodeRecordTone (centihz defaultCentihz : Option Int)
    (ctcssTonesCentihz : Option (List Int)) : Except String (List UInt8) := do
  encodeToneFreq (← requireProfileTone (centihz.or defaultCentihz) ctcssTonesCentihz)

/-- The text of a mode code that is none. -/
def unknownMode (code : Int) : String :=
  "unknown CI-V mode code 0x" ++
    (if 0 ≤ code ∧ code < 256 then hexByte (UInt8.ofNat code.toNat)
      else (if code < 0 then "-" else "") ++ String.ofList (Nat.toDigits 16 code.natAbs))

/-- The check of the data mode against the number of data modes. -/
def checkDataMode (mem : MemoryChannel) (dataModeCount : Int) : Except String Unit :=
  if 0 ≤ mem.datamode ∧ mem.datamode ≤ dataModeCount then .ok ()
  else .error ("data mode must be 0-" ++ toString dataModeCount ++ ", got " ++
    toString mem.datamode)

/-- The check of the tone mode against the layout. -/
def checkToneMode (mem : MemoryChannel) (layout : MemoryWriteLayout) : Except String Unit :=
  if 0 ≤ mem.tonemode ∧ mem.tonemode ≤ layout.toneMax then .ok ()
  else .error ("tone mode must be 0-" ++ toString layout.toneMax ++ ", got " ++
    toString mem.tonemode)

/-- `_encode_write_field`.  A tone mode is below 16 where it is combined, so that `|` is `+`. -/
def encodeWriteField (f : MemoryWriteField) (mem : MemoryChannel) (memory : MemoryProfile)
    (layout : MemoryWriteLayout) (ctcssTonesCentihz : Option (List Int)) (dataModeCount : Int) :
    Except String (List UInt8) :=
  match f.encoding with
  | .select => .ok [0x00]
  | .scan =>
      if mem.scan = 0 ∨ mem.scan = 1 then byte mem.scan
      else .error ("scan flag must be 0 or 1, got " ++ toString mem.scan)
  | .frequency =>
      encodeRecordFrequency mem.frequencyHz memory f.maxHz (mem.group.getD 0) f.length.toNat
  | .mode => do
      let _ ← ddMemoryMode mem.mode memory mem.group
      refuseIf (mem.mode ≠ modeDd ∧ modeOfCode mem.mode = none) (unknownMode mem.mode)
      byte mem.mode
  | .modeBcd => bcdEncodeValue mem.mode 1
  | .filter =>
      if 1 ≤ mem.filter ∧ mem.filter ≤ 3 then byte mem.filter
      else .error ("filter must be 1-3, got " ++ toString mem.filter)
  | .dataMode => do
      checkDataMode mem dataModeCount
      byte mem.datamode
  | .dataTone => do
      checkDataMode mem dataModeCount
      checkToneMode mem layout
      byte (mem.datamode * 16 + mem.tonemode)
  | .duplexTone => do
      checkDuplexNibble mem.duplex (← ddMemoryMode mem.mode memory mem.group) memory
      checkToneMode mem layout
      byte (mem.duplex * 16 + mem.tonemode)
  | .tone => encodeRecordTone mem.toneCentihz layout.defaultToneCentihz ctcssTonesCentihz
  | .tsql => encodeRecordTone mem.tsqlCentihz layout.defaultToneCentihz ctcssTonesCentihz
  | .toneHzBcd =>
      match mem.toneFreqHz with
      | none => .ok (List.replicate 3 0x00)
      | some hz => bcdEncodeValue hz 3
  | .tsqlHzBcd =>
      match mem.tsqlFreqHz with
      | none => .ok (List.replicate 3 0x00)
      | some hz => bcdEncodeValue hz 3
  | .name => encodeRecordName mem.name f.length.toNat 0x20
  | .nameNul => encodeRecordName mem.name f.length.toNat 0x00
  | .fixed =>
      match f.value with
      | none => .error ("fixed field " ++ MemoryWriteLayout.quoted f.field ++ " declares no value")
      | some value =>
          match fromHex value.toList with
          | some bytes => .ok bytes
          | none => .error "non-hexadecimal number found in fromhex() arg"

/-! ## The record -/

/-- `record[offset : offset + length] = encoded`. -/
def splice (record : List UInt8) (offset length : Int) (encoded : List UInt8) : List UInt8 :=
  record.take offset.toNat ++ encoded ++ record.drop (offset + length).toNat

/-- The length of the block that is repeated. -/
def blockLen (layout : MemoryWriteLayout) : Int :=
  match layout.dataBlockSpan with
  | some span => span.2 - span.1
  | none => 0

/-- How far the repeats move what follows them. -/
def shift (layout : MemoryWriteLayout) : Int := (layout.copies - 1) * blockLen layout

/-- A field in the record. -/
def placeField (layout : MemoryWriteLayout) (f : MemoryWriteField) (encoded record : List UInt8) :
    List UInt8 :=
  match layout.dataBlockSpan with
  | none => splice record f.offset f.length encoded
  | some (start, finish) =>
      if f.offset ≥ finish then splice record (f.offset + shift layout) f.length encoded
      else
        let record := splice record f.offset f.length encoded
        if start ≤ f.offset then
          (List.range (layout.copies - 1).toNat).foldl
            (fun record (copy : Nat) =>
              splice record (f.offset + (copy + 1) * blockLen layout) f.length encoded) record
        else record

/-- The loop of `_write_record`. -/
def writeFields (mem : MemoryChannel) (memory : MemoryProfile) (layout : MemoryWriteLayout)
    (ctcssTonesCentihz : Option (List Int)) (dataModeCount : Int) :
    List MemoryWriteField → List UInt8 → Except String (List UInt8)
  | [], record => .ok record
  | f :: rest, record => do
      let encoded ← encodeWriteField f mem memory layout ctcssTonesCentihz dataModeCount
      writeFields mem memory layout ctcssTonesCentihz dataModeCount rest
        (placeField layout f encoded record)

/-- `_write_record`. -/
def writeRecord (mem : MemoryChannel) (memory : MemoryProfile) (layout : MemoryWriteLayout)
    (ctcssTonesCentihz : Option (List Int)) (dataModeCount : Int) : Except String (List UInt8) :=
  writeFields mem memory layout ctcssTonesCentihz dataModeCount layout.fields
    (List.replicate (layout.recordLength + shift layout).toNat 0)

/-! ## The frame -/

/-- A value that a layout must store unless it is the neutral one. -/
def checkStored (layout : MemoryWriteLayout) (what : String) (neutral : Bool)
    (storedBy : List MemoryWriteEncoding) : Except String Unit :=
  refuseIf (!neutral && !layout.fields.any fun f => storedBy.contains f.encoding)
    ("memory layout cannot store " ++ what)

/-- `_check_field_storage`. -/
def checkFieldStorage (mem : MemoryChannel) (layout : MemoryWriteLayout) : Except String Unit := do
  checkStored layout "filter" (mem.filter == 1) [.filter]
  checkStored layout "scan" (mem.scan == 0) [.scan]
  checkStored layout "datamode" (mem.datamode == 0) [.dataMode, .dataTone]
  checkStored layout "tonemode" (mem.tonemode == 0) [.dataTone, .duplexTone]
  checkStored layout "duplex" (mem.duplex == 0) [.duplexTone]
  checkStored layout "tone_freq_hz" mem.toneFreqHz.isNone [.toneHzBcd]
  checkStored layout "tsql_freq_hz" mem.tsqlFreqHz.isNone [.tsqlHzBcd]
  checkStored layout "tone_centihz" mem.toneCentihz.isNone [.tone]
  checkStored layout "tsql_centihz" mem.tsqlCentihz.isNone [.tsql]

/-- The tone of an active tone mode is given, and one of the profile. -/
def checkActiveTone (mem : MemoryChannel) (centihz : Bool) (ctcssTonesCentihz : Option (List Int)) :
    Except String Unit :=
  if centihz ∧ (mem.tonemode = 1 ∨ mem.tonemode = 2) then
    match if mem.tonemode = 1 then mem.toneCentihz else mem.tsqlCentihz with
    | none => .error "active tone mode requires an explicit tone frequency"
    | some tone => do
        let _ ← requireProfileTone (some tone) ctcssTonesCentihz
  else .ok ()

/-- `_check_tone_representation`. -/
def checkToneRepresentation (mem : MemoryChannel) (layout : MemoryWriteLayout)
    (ctcssTonesCentihz : Option (List Int)) : Except String Unit := do
  let centihz := layout.fields.any fun f => f.encoding == .tone || f.encoding == .tsql
  let hz := layout.fields.any fun f => f.encoding == .toneHzBcd || f.encoding == .tsqlHzBcd
  refuseIf (mem.tonemode = 3 ∧
      layout.fields.any fun f => f.field == "dtcs" && f.encoding == .fixed)
    "DTCS mode requires a caller-supplied code; this field is fixed"
  checkActiveTone mem centihz ctcssTonesCentihz
  refuseIf (centihz ∧ (mem.toneFreqHz.isSome ∨ mem.tsqlFreqHz.isSome))
    ("this record stores tones in exact centi-Hz: use tone_centihz/tsql_centihz, " ++
      "not tone_freq_hz/tsql_freq_hz")
  refuseIf (hz ∧ (mem.toneCentihz.isSome ∨ mem.tsqlCentihz.isSome))
    ("this record stores tones in Hz: use tone_freq_hz/tsql_freq_hz, " ++
      "not tone_centihz/tsql_centihz")

/-- The mode is one of the profile, or DD in one of its groups. -/
def checkMode (mem : MemoryChannel) (memory : MemoryProfile) (group : Int) (modes : List String) :
    Except String Unit :=
  if mem.mode = modeDd then do
    let _ ← ddMemoryMode mem.mode memory (some group)
  else
    match modeOfCode mem.mode with
    | none => .error (unknownMode mem.mode)
    | some mode =>
        if mode.publicName ∈ modes then .ok ()
        else .error ("mode " ++ mode.name ++ " is not declared by the active profile")

/-- `build_memory_contents_set`, from the wire tuple that the command map has for it. -/
def buildMemoryContentsSet (mem : MemoryChannel) (memory : MemoryProfile) (toAddr fromAddr : UInt8)
    (wire : WireTuple) (modes : List String) (ctcssTonesCentihz : Option (List Int))
    (dataModeCount : Int) : Except String (List UInt8) := do
  let layout ← requireWriteLayout memory
  let group ← requiredMemoryGroup mem.group memory "write"
  let address ← encodeMemoryAddress memory group mem.channel
  checkMode mem memory group modes
  checkToneRepresentation mem layout ctcssTonesCentihz
  checkFieldStorage mem layout
  let record ← writeRecord mem memory layout ctcssTonesCentihz dataModeCount
  return buildFromMap wire toAddr fromAddr (address ++ record) none

end Rigplane.Memory
