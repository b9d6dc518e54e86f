import Mathlib.Data.BitVec

/-!
# Numbers that go round

A counter of `w` bits goes round, so two of its values have no order of their own, only the
distance `ahead a b` from one to the other: how often `a` is counted up until it is `b`.
Distances add up as long as they stay below a whole turn (`ahead_trans`, `ahead_sub`).
-/

namespace Circular

variable {w : Nat} {a b c : BitVec w}

/-- How far `b` is ahead of `a`: `(b - a) mod 2^w`. -/
def ahead (a b : BitVec w) : Nat := (b - a).toNat

theorem ahead_lt (a b : BitVec w) : ahead a b < 2 ^ w := (b - a).isLt

/-- The distance, without the remainder. -/
theorem ahead_eq (a b : BitVec w) : ahead a b =
    if a.toNat ≤ b.toNat then b.toNat - a.toNat else 2 ^ w + b.toNat - a.toNat := by
  have ha := a.isLt
  have hb := b.isLt
  rw [ahead, BitVec.toNat_sub]
  split
  · rename_i h
    have hsplit : 2 ^ w - a.toNat + b.toNat = b.toNat - a.toNat + 2 ^ w := by omega
    rw [hsplit, Nat.add_mod_right, Nat.mod_eq_of_lt (by omega)]
  · rename_i h
    have hsplit : 2 ^ w - a.toNat + b.toNat = 2 ^ w + b.toNat - a.toNat := by omega
    rw [hsplit, Nat.mod_eq_of_lt (by omega)]

@[simp] theorem ahead_self (a : BitVec w) : ahead a a = 0 := by
  rw [ahead_eq, if_pos le_rfl, Nat.sub_self]

theorem ahead_eq_zero : ahead a b = 0 ↔ a = b := by
  have ha := a.isLt
  refine ⟨fun h => BitVec.eq_of_toNat_eq ?_, fun h => h ▸ ahead_self a⟩
  rw [ahead_eq] at h
  split at h <;> omega

/-- Distances add up within one turn. -/
theorem ahead_trans (h : ahead a b + ahead b c < 2 ^ w) : ahead a c = ahead a b + ahead b c := by
  have ha := a.isLt
  have hb := b.isLt
  have hc := c.isLt
  rw [ahead_eq, ahead_eq] at h
  rw [ahead_eq, ahead_eq, ahead_eq]
  split at h <;> split at h <;> split <;> omega

/-- Between two numbers ahead of a third. -/
theorem ahead_sub (h : ahead a b ≤ ahead a c) : ahead b c = ahead a c - ahead a b := by
  have ha := a.isLt
  have hb := b.isLt
  have hc := c.isLt
  rw [ahead_eq, ahead_eq] at h
  rw [ahead_eq, ahead_eq, ahead_eq]
  split at h <;> split at h <;> split <;> omega

/-- The way there and back is a whole turn. -/
theorem ahead_swap (h : a ≠ b) : ahead b a = 2 ^ w - ahead a b := by
  have ha := a.isLt
  have hb := b.isLt
  have hne : a.toNat ≠ b.toNat := fun heq => h (BitVec.eq_of_toNat_eq heq)
  rw [ahead_eq, ahead_eq]
  split <;> split <;> omega

theorem ahead_inj (h : ahead a b = ahead a c) : b = c := by
  have hb := ahead_sub h.le
  rw [h, Nat.sub_self] at hb
  exact ahead_eq_zero.mp hb

/-- Counting up `k` times. -/
theorem ahead_add_ofNat (a : BitVec w) {k : Nat} (hk : k < 2 ^ w) :
    ahead a (a + BitVec.ofNat w k) = k := by
  rw [ahead, add_sub_cancel_left, BitVec.toNat_ofNat, Nat.mod_eq_of_lt hk]

theorem add_ofNat_ahead (a b : BitVec w) : a + BitVec.ofNat w (ahead a b) = b :=
  ahead_inj (ahead_add_ofNat a (ahead_lt a b))

end Circular
