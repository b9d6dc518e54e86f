import Mathlib.Data.List.DropRight
import Rigplane.Memory.Contents

/-!
# Reading memory channels

`parse_memory_entry` of `commands/memory.py`, which reads the reply to `1A 00` at fixed places.
-/

namespace Rigplane.Memory

open Civ PackedDecimal

/-- `_MEMORY_BLOCK_LEN`. -/
def memoryBlockLen : Nat := 47

/-- `_MEMORY_NAME_LEN`. -/
def memoryNameLen : Nat := 16

/-- `_DUPLEX_BY_NIBBLE.get`. -/
def duplexByNibble : Nat → Option RepeaterShiftDirection
  | 0 => some .simplex
  | 1 => some .minus
  | 2 => some .plus
  | _ => none

/-- `_TONE_MODE_BY_NIBBLE`, and the error for what it lacks. -/
def toneModeByNibble : Nat → Except String ToneSquelchType
  | 0 => .ok .off
  | 1 => .ok .tone
  | 2 => .ok .tsql
  | 3 => .ok .dtcs
  | nibble => .error ("unknown tone mode nibble " ++ toString nibble)

/-- `data[start:stop]`. -/
def slice (data : List UInt8) (start stop : Nat) : List UInt8 := (data.take stop).drop start

/-- What `_parse_block` returns. -/
structure BlockFields where
  frequencyHz : Int
  mode : String
  dataMode : Bool
  duplex : Option RepeaterShiftDirection
  offsetHz : Int
  toneMode : ToneSquelchType
  toneCentihz : Int
  tsqlCentihz : Int
  dtcsCode : Int
deriving DecidableEq

/-- The digits of a DTCS code are octal and the first is zero. -/
def dtcsDigits (first second : UInt8) : Bool :=
  decide (high first = 0) && decide (low first ≤ 7) && decide (high second ≤ 7) &&
    decide (low second ≤ 7)

/-- The digits of a tone: a fixed zero byte, then a 100 Hz digit of 0-2. -/
def toneDigits (first second : UInt8) : Bool := first == 0 && decide (high second ≤ 2)

/-- The name of the mode of a block. -/
def modeText (modeCode : UInt8) (dd : Bool) : String :=
  match modeOfCode modeCode.toNat with
  | some mode => mode.publicName
  | none => if dd then "DD" else "0x" ++ (hexByte modeCode).toUpper

/-- `_parse_block`, of the 47 bytes of a block. -/
def parseBlock (block : List UInt8) (memory : MemoryProfile) (group : Int) :
    Except String BlockFields := do
  let byteAt := fun i => block.getD i 0
  refuseIf (byteAt 7 ≠ 0 ∧ byteAt 7 ≠ 1)
    ("data mode byte must be 00 or 01, got " ++ (hexByte (byteAt 7)).toUpper)
  refuseIf (byteAt 9 ≠ 0x00 ∧ byteAt 9 ≠ 0x10 ∧ byteAt 9 ≠ 0x20)
    ("digital squelch byte must be X0, got " ++ (hexByte (byteAt 9)).toUpper)
  let duplexNibble := high (byteAt 8)
  let toneMode ← toneModeByNibble (low (byteAt 8))
  let dd ← ddMemoryMode (byteAt 5).toNat memory (some group)
  checkDuplexNibble duplexNibble dd memory
  let frequencyHz ← bcdDecode (slice block 0 5)
  checkFrequencyDigits frequencyHz memory
  refuseIf (high (byteAt 22) ≠ 0 ∧ group ∉ memory.offset10mhzGroups)
    ("offset 10 MHz digit is not valid for memory group " ++ toString group)
  refuseIf (¬ (toneDigits (byteAt 10) (byteAt 11) && toneDigits (byteAt 13) (byteAt 14)))
    "tone frequency digits out of range"
  refuseIf (¬ dtcsDigits (byteAt 17) (byteAt 18))
    ("DTCS code is not three octal digits: " ++ hexByte (byteAt 17) ++ hexByte (byteAt 18))
  -- the bytes of the offset, most significant first
  let offset ← bcdDecodeValue [byteAt 22, byteAt 21, byteAt 20]
  let tone ← bcdDecodeValue (slice block 10 13)
  let tsql ← bcdDecodeValue (slice block 13 16)
  return {
    frequencyHz := frequencyHz
    mode := modeText (byteAt 5) dd
    dataMode := byteAt 7 == 1
    duplex := duplexByNibble duplexNibble
    offsetHz := offset * 100
    toneMode := toneMode
    toneCentihz := tone * 10
    tsqlCentihz := tsql * 10
    dtcsCode := low (byteAt 17) * 100 + high (byteAt 18) * 10 + low (byteAt 18) }

/-- `rstrip` of a text whose only blanks are spaces. -/
def rstrip (chars : List Char) : String := String.ofList (chars.rdropWhile (· = ' '))

/-- The text of a name: the zeros are spaces. -/
def nameText (nameRaw : List UInt8) : String :=
  rstrip (nameRaw.map fun b => if b = 0 then ' ' else Char.ofNat b.toNat)

/-- The reply for a slot that is not empty, from its select byte on. -/
def parseRecord (addressLen : Nat) (record : List UInt8) (memory : MemoryProfile)
    (group channel : Nat) : Except String MemoryEntry := do
  let select := record.getD 0 0
  let maxSplit := if memory.addressing = .groupChannel then 1 else 0
  refuseIf (high select > maxSplit ∨ low select > 3)
    ("unknown select/split byte " ++ (hexByte select).toUpper)
  let expected := 1 + 2 * memoryBlockLen + memoryNameLen
  refuseIf (record.length ≠ expected)
    ("memory reply is " ++ toString (addressLen + record.length) ++ " bytes, expected " ++
      toString (addressLen + expected))
  let fields ← parseBlock (slice record 1 (1 + memoryBlockLen)) memory group
  let _ ← parseBlock (slice record (1 + memoryBlockLen) (expected - memoryNameLen)) memory group
  let nameRaw := slice record (expected - memoryNameLen) expected
  refuseIf (nameRaw.any fun b => !((0x20 ≤ b && b ≤ 0x7E) || b == 0))
    "memory name is not printable ASCII"
  return {
    group := group
    channel := channel
    name := nameText nameRaw
    frequencyHz := some fields.frequencyHz
    mode := some fields.mode
    dataMode := fields.dataMode
    duplex := fields.duplex
    offsetHz := some fields.offsetHz
    toneMode := some fields.toneMode
    toneCentihz := some fields.toneCentihz
    tsqlCentihz := some fields.tsqlCentihz
    dtcsCode := some fields.dtcsCode }

/-- `parse_memory_entry`. -/
def parseMemoryEntry (data : List UInt8) (memory : MemoryProfile) : Except String MemoryEntry :=
  match addressLen memory.addressing with
  | none => .error (memory.addressing.word ++ " is not a CI-V memory layout")
  | some addressLen => do
      let groupLen := addressLen - 2
      refuseIf (data.length < addressLen + 1)
        ("memory reply too short: " ++ toString data.length ++ " bytes")
      let group ← bcdDecodeValue (data.take groupLen)
      let channel ← bcdDecodeValue (slice data groupLen addressLen)
      refuseIf (¬ (memory.firstGroup ≤ group ∧ (group : Int) ≤ memory.lastGroup ∧
          memory.firstChannel ≤ channel ∧ (channel : Int) ≤ memory.lastChannel))
        ("memory reply address " ++ toString group ++ "/" ++ toString channel ++
          " is outside the profile")
      let record := data.drop addressLen
      if record = [0xFF] then return { group := group, channel := channel, empty := true }
      else parseRecord addressLen record memory group channel

end Rigplane.Memory
