import Mathlib.Data.List.Basic
import Mathlib.Tactic.Ring

/-!
# Big-endian numbers

`bytes width n` is the number `n` in `width` bytes, the high byte first, and `value` reads a list of
bytes so.  A number that fits is read back.
-/

namespace BigEndian

/-- The low `width` bytes of a number, the high one first. -/
def bytes : Nat → Nat → List UInt8
  | 0, _ => []
  | width + 1, n => UInt8.ofNat (n / 256 ^ width) :: bytes width n

/-- The number that bytes are. -/
def value (list : List UInt8) : Nat := list.foldl (fun acc b => acc * 256 + b.toNat) 0

@[simp] theorem length_bytes (width n : Nat) : (bytes width n).length = width := by
  induction width with
  | zero => rfl
  | succ width ih => simp [bytes, ih]

theorem foldl_bytes (width n acc : Nat) :
    (bytes width n).foldl (fun acc b => acc * 256 + b.toNat) acc =
      acc * 256 ^ width + n % 256 ^ width := by
  induction width generalizing acc with
  | zero => simp [bytes, Nat.mod_one]
  | succ width ih =>
      have hmod : n % 256 ^ (width + 1) =
          n / 256 ^ width % 256 * 256 ^ width + n % 256 ^ width := by
        rw [pow_succ, Nat.mod_mul, Nat.add_comm, Nat.mul_comm]
      simp only [bytes, List.foldl_cons, ih, UInt8.toNat_ofNat', Nat.reducePow]
      rw [hmod, pow_succ]
      ring

theorem value_bytes {width n : Nat} (h : n < 256 ^ width) : value (bytes width n) = n := by
  rw [value, foldl_bytes, Nat.zero_mul, Nat.zero_add, Nat.mod_eq_of_lt h]

end BigEndian
