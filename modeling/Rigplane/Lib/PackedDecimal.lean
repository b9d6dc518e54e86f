import Mathlib.Data.List.Basic
import Mathlib.Tactic.Ring

/-!
# Packed decimal numbers

A byte holds two decimal digits, the tens in its high nibble.  `littleEndian` writes a number with
the low pair first, and `value` reads a list of pairs so; the big-endian form is the reverse of
both.
-/

namespace PackedDecimal

/-! ## Pairs of digits -/

def high (b : UInt8) : Nat := b.toNat / 16

def low (b : UInt8) : Nat := b.toNat % 16

/-- Both nibbles are decimal digits. -/
def IsPair (b : UInt8) : Prop := high b ≤ 9 ∧ low b ≤ 9

instance (b : UInt8) : Decidable (IsPair b) := inferInstanceAs (Decidable (_ ∧ _))

/-- The number that the two digits are. -/
def pair (b : UInt8) : Nat := high b * 10 + low b

/-- The byte of a number below a hundred. -/
def pack (n : Nat) : UInt8 := UInt8.ofNat (n / 10 * 16 + n % 10)

theorem toNat_pack {n : Nat} (h : n < 100) : (pack n).toNat = n / 10 * 16 + n % 10 := by
  rw [pack, UInt8.toNat_ofNat']
  omega

theorem high_pack {n : Nat} (h : n < 100) : high (pack n) = n / 10 := by
  rw [high, toNat_pack h]
  omega

theorem low_pack {n : Nat} (h : n < 100) : low (pack n) = n % 10 := by
  rw [low, toNat_pack h]
  omega

theorem isPair_pack {n : Nat} (h : n < 100) : IsPair (pack n) := by
  rw [IsPair, high_pack h, low_pack h]
  omega

@[simp] theorem pair_pack {n : Nat} (h : n < 100) : pair (pack n) = n := by
  rw [pair, high_pack h, low_pack h]
  omega

/-! ## Numbers -/

/-- A number in so many bytes, its low pair first. -/
def littleEndian : Nat → Nat → List UInt8
  | 0, _ => []
  | width + 1, n => pack (n % 100) :: littleEndian width (n / 100)

/-- The number that the pairs are, the low one first. -/
def value : List UInt8 → Nat
  | [] => 0
  | b :: rest => pair b + 100 * value rest

@[simp] theorem length_littleEndian (width n : Nat) : (littleEndian width n).length = width := by
  induction width generalizing n with
  | zero => rfl
  | succ width ih => simp only [littleEndian, List.length_cons, ih]

theorem isPair_littleEndian {width n : Nat} {b : UInt8} (h : b ∈ littleEndian width n) :
    IsPair b := by
  induction width generalizing n with
  | zero => cases h
  | succ width ih =>
      rcases List.mem_cons.mp h with rfl | h
      · exact isPair_pack (Nat.mod_lt n (by decide))
      · exact ih h

theorem value_littleEndian {width n : Nat} (h : n < 100 ^ width) :
    value (littleEndian width n) = n := by
  induction width generalizing n with
  | zero =>
      have hzero : n = 0 := by simpa using h
      rw [hzero]
      rfl
  | succ width ih =>
      have hrest : n / 100 < 100 ^ width := Nat.div_lt_of_lt_mul (by rwa [Nat.mul_comm])
      rw [littleEndian, value, pair_pack (Nat.mod_lt n (by decide)), ih hrest]
      omega

theorem value_append_singleton (bytes : List UInt8) (b : UInt8) :
    value (bytes ++ [b]) = value bytes + 100 ^ bytes.length * pair b := by
  induction bytes with
  | nil => simp [value]
  | cons c rest ih =>
      rw [List.cons_append, value, ih, value, List.length_cons]
      ring

/-- Reading the pairs from the high one, with what was read before. -/
theorem foldl_pair (seen : Nat) (bytes : List UInt8) :
    bytes.foldl (fun n b => n * 100 + pair b) seen =
      seen * 100 ^ bytes.length + value bytes.reverse := by
  induction bytes generalizing seen with
  | nil => simp [value]
  | cons b rest ih =>
      rw [List.foldl_cons, ih, List.reverse_cons, value_append_singleton, List.length_reverse,
        List.length_cons]
      ring

end PackedDecimal
