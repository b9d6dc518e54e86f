import Rigplane.Civ.Frame
import Rigplane.Lib.PackedDecimal

/-!
# Binary coded decimals of CI-V

`bcd_encode_value` and `_bcd_decode_value` of `commands/_codec.py`, which have the high digits
first, `bcd_encode` and `bcd_decode` of `core/types.py`, which have them last, and the tone
frequencies of `commands/tone.py`.  What a function refuses it refuses with the text of its
`ValueError`.
-/

namespace Rigplane.Civ

open PackedDecimal

/-- `if condition: raise ValueError(text)`. -/
def refuseIf (condition : Prop) [Decidable condition] (text : String) : Except String Unit :=
  if condition then .error text else .ok ()

/-- The text of a byte that is no pair of digits. -/
def invalidDigit (index : Nat) (byte : UInt8) : String :=
  "Invalid BCD digit in byte " ++ toString index ++ ": 0x" ++ hexByte byte

/-! ## Values -/

/-- `bcd_encode_value`. -/
def bcdEncodeValue (value : Int) (byteCount : Nat) : Except String (List UInt8) :=
  if value < 0 then .error ("BCD value must be non-negative, got " ++ toString value)
  else if value > 10 ^ (byteCount * 2) - 1 then
    .error ("BCD value must fit in " ++ toString byteCount ++ " byte(s), got " ++ toString value)
  else .ok (littleEndian byteCount value.toNat).reverse

/-- The loop of `_bcd_decode_value`. -/
def bcdDecodeValueFrom (index value : Nat) : List UInt8 → Except String Nat
  | [] => .ok value
  | byte :: rest =>
      if high byte > 9 ∨ low byte > 9 then .error (invalidDigit index byte)
      else bcdDecodeValueFrom (index + 1) (value * 100 + high byte * 10 + low byte) rest

/-- `_bcd_decode_value`. -/
def bcdDecodeValue (data : List UInt8) : Except String Nat := bcdDecodeValueFrom 0 0 data

/-! ## Frequencies -/

/-- `FREQUENCY_BCD_WIDTHS`. -/
def frequencyBcdWidths : List Nat := [5, 6]

/-- `FREQUENCY_BCD_MAX_GHZ_DIGIT`. -/
def frequencyBcdMaxGhzDigit : Int := 1

/-- `FREQUENCY_BCD_MAX_100MHZ_DIGIT`. -/
def frequencyBcdMax100MhzDigit : Int := 4

/-- `bcd_encode`. -/
def bcdEncode (freqHz : Int) (width : Nat) : Except String (List UInt8) :=
  if freqHz < 0 then .error ("Frequency must be non-negative, got " ++ toString freqHz)
  else if width ∉ frequencyBcdWidths then
    .error ("Frequency BCD width must be 5 or 6 bytes, got " ++ toString width)
  else if freqHz ≥ 10 ^ (width * 2) then
    .error ("Frequency " ++ toString freqHz ++ " exceeds " ++ toString (width * 2) ++ " digits")
  else .ok (littleEndian width freqHz.toNat)

/-- The loop of `bcd_decode`. -/
def bcdDecodeFrom (index freq : Nat) : List UInt8 → Except String Nat
  | [] => .ok freq
  | byte :: rest =>
      if high byte > 9 ∨ low byte > 9 then .error (invalidDigit index byte)
      else
        bcdDecodeFrom (index + 1)
          (freq + low byte * 10 ^ (2 * index) + high byte * 10 ^ (2 * index + 1)) rest

/-- `bcd_decode`. -/
def bcdDecode (data : List UInt8) : Except String Nat :=
  if data.length ∉ frequencyBcdWidths then
    .error ("BCD frequency data must be 5 bytes (6 for SHF fields), got " ++ toString data.length)
  else bcdDecodeFrom 0 0 data

/-! ## Tones -/

/-- The loop of `_require_ctcss_domain`, after the tone `previous`. -/
def requireCtcssTones (previous : Option Int) : List Int → Except String Unit
  | [] => .ok ()
  | tone :: rest => do
      refuseIf (tone % 10 ≠ 0)
        "CTCSS tone domain entries must be representable in 0.1 Hz CI-V BCD"
      let _ ← bcdEncodeValue (tone / 10) 3
      refuseIf (previous.any fun p => decide (tone ≤ p))
        "CTCSS tone domain entries must be strictly ascending"
      requireCtcssTones (some tone) rest

/-- `_require_ctcss_domain`. -/
def requireCtcssDomain (ctcssTonesCentihz : Option (List Int)) : Except String (List Int) :=
  match ctcssTonesCentihz with
  | none | some [] => .error "CTCSS tone domain must be a non-empty tuple"
  | some tones => do
      requireCtcssTones none tones
      return tones

/-- `_require_profile_tone`, where no tone is the `TypeError`. -/
def requireProfileTone (freqCentihz : Option Int) (ctcssTonesCentihz : Option (List Int)) :
    Except String Int :=
  match freqCentihz with
  | none => .error "Tone frequency must be an exact int in centiHz"
  | some freqCentihz => do
      let domain ← requireCtcssDomain ctcssTonesCentihz
      refuseIf (freqCentihz ∉ domain)
        ("Tone frequency " ++ toString freqCentihz ++ " is not declared by the active profile")
      return freqCentihz

/-- `_encode_tone_freq`. -/
def encodeToneFreq (freqCentihz : Int) : Except String (List UInt8) :=
  if freqCentihz % 10 ≠ 0 then
    .error "Tone frequency must be representable in 0.1 Hz CI-V BCD"
  else bcdEncodeValue (freqCentihz / 10) 3

/-! ## Reading back -/

@[simp] theorem refuseIf_eq_ok {condition : Prop} [Decidable condition] {text : String} {u : Unit} :
    refuseIf condition text = .ok u ↔ ¬ condition := by
  rw [refuseIf]
  split
  · exact ⟨fun h => (by cases h), fun h => absurd ‹_› h⟩
  · exact ⟨fun _ => ‹_›, fun _ => rfl⟩

theorem refuseIf_of_not {condition : Prop} [Decidable condition] {text : String}
    (h : ¬ condition) : refuseIf condition text = .ok () := refuseIf_eq_ok.mpr h

theorem bcdEncodeValue_eq_ok {value : Int} {byteCount : Nat} {bytes : List UInt8} :
    bcdEncodeValue value byteCount = .ok bytes ↔
      0 ≤ value ∧ value < 100 ^ byteCount ∧
        bytes = (littleEndian byteCount value.toNat).reverse := by
  have hpow : (10 : Int) ^ (byteCount * 2) = 100 ^ byteCount := by
    rw [Nat.mul_comm, pow_mul]
    rfl
  rw [bcdEncodeValue, hpow]
  split
  · exact ⟨fun h => (by cases h), fun h => (by omega)⟩
  · split
    · exact ⟨fun h => (by cases h), fun h => (by omega)⟩
    · constructor
      · intro h
        cases h
        exact ⟨by omega, by omega, rfl⟩
      · rintro ⟨-, -, rfl⟩
        rfl

theorem bcdDecodeValueFrom_eq_ok {index seen value : Nat} {data : List UInt8} :
    bcdDecodeValueFrom index seen data = .ok value ↔
      (∀ b ∈ data, IsPair b) ∧ data.foldl (fun n b => n * 100 + pair b) seen = value := by
  induction data generalizing index seen with
  | nil => simp [bcdDecodeValueFrom]
  | cons b rest ih =>
      rw [bcdDecodeValueFrom, List.forall_mem_cons]
      split
      · rename_i hbad
        constructor
        · intro h
          cases h
        · rintro ⟨⟨⟨hhigh, hlow⟩, -⟩, -⟩
          omega
      · rename_i hgood
        have hpair : IsPair b := by
          simp only [not_or, Nat.not_lt] at hgood
          exact hgood
        rw [ih, List.foldl_cons, pair, ← Nat.add_assoc]
        simp [hpair]

theorem bcdDecodeValue_eq_ok {data : List UInt8} {value : Nat} :
    bcdDecodeValue data = .ok value ↔
      (∀ b ∈ data, IsPair b) ∧ value = PackedDecimal.value data.reverse := by
  rw [bcdDecodeValue, bcdDecodeValueFrom_eq_ok, foldl_pair, Nat.zero_mul, Nat.zero_add, eq_comm]

/-- What `bcd_encode_value` writes reads back. -/
theorem bcdDecodeValue_encode {value : Int} {byteCount : Nat} {bytes : List UInt8}
    (h : bcdEncodeValue value byteCount = .ok bytes) :
    bcdDecodeValue bytes = .ok value.toNat := by
  obtain ⟨hpos, hlt, rfl⟩ := bcdEncodeValue_eq_ok.mp h
  rw [bcdDecodeValue_eq_ok, List.reverse_reverse, value_littleEndian]
  · exact ⟨fun b hb => isPair_littleEndian (List.mem_reverse.mp hb), rfl⟩
  · have hcast : ((value.toNat : Nat) : Int) < ((100 ^ byteCount : Nat) : Int) := by
      rw [Int.toNat_of_nonneg hpos]
      exact_mod_cast hlt
    exact_mod_cast hcast

theorem length_of_bcdEncodeValue {value : Int} {byteCount : Nat} {bytes : List UInt8}
    (h : bcdEncodeValue value byteCount = .ok bytes) : bytes.length = byteCount := by
  obtain ⟨-, -, rfl⟩ := bcdEncodeValue_eq_ok.mp h
  rw [List.length_reverse, length_littleEndian]

theorem bcdEncode_eq_ok {freqHz : Int} {width : Nat} {bytes : List UInt8}
    (h : bcdEncode freqHz width = .ok bytes) :
    0 ≤ freqHz ∧ width ∈ frequencyBcdWidths ∧ freqHz < 100 ^ width ∧
      bytes = littleEndian width freqHz.toNat := by
  have hpow : (10 : Int) ^ (width * 2) = 100 ^ width := by
    rw [Nat.mul_comm, pow_mul]
    rfl
  rw [bcdEncode, hpow] at h
  split at h
  · cases h
  · split at h
    · cases h
    · rename_i hwidth
      split at h
      · cases h
      · cases h
        exact ⟨by omega, Decidable.not_not.mp hwidth, by omega, rfl⟩

theorem bcdDecodeFrom_eq_ok {index seen : Nat} {data : List UInt8}
    (h : ∀ b ∈ data, IsPair b) :
    bcdDecodeFrom index seen data = .ok (seen + 100 ^ index * PackedDecimal.value data) := by
  induction data generalizing index seen with
  | nil => rfl
  | cons b rest ih =>
      obtain ⟨hb, hrest⟩ := List.forall_mem_cons.mp h
      have hgood : ¬ (high b > 9 ∨ low b > 9) := by
        rw [not_or, Nat.not_lt, Nat.not_lt]
        exact hb
      rw [bcdDecodeFrom, if_neg hgood, ih hrest, PackedDecimal.value, pair, pow_succ, pow_succ,
        pow_mul]
      congr 1
      norm_num
      ring

/-- What `bcd_encode` writes reads back. -/
theorem bcdDecode_encode {freqHz : Int} {width : Nat} {bytes : List UInt8}
    (h : bcdEncode freqHz width = .ok bytes) : bcdDecode bytes = .ok freqHz.toNat := by
  obtain ⟨hpos, hwidth, hlt, rfl⟩ := bcdEncode_eq_ok h
  rw [bcdDecode, length_littleEndian, if_neg (by simpa using hwidth),
    bcdDecodeFrom_eq_ok fun b hb => isPair_littleEndian hb, pow_zero, Nat.one_mul, Nat.zero_add,
    value_littleEndian]
  have hcast : ((freqHz.toNat : Nat) : Int) < ((100 ^ width : Nat) : Int) := by
    rw [Int.toNat_of_nonneg hpos]
    exact_mod_cast hlt
  exact_mod_cast hcast

end Rigplane.Civ
