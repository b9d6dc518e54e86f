import Rigplane.Lib.Runs

/-!
# Round-robin scans

A cursor goes around `n` positions.  A turn visits some positions from the cursor on and leaves the
cursor behind the last one, so the position that a turn has not reached is nearer by what the turn
visited. `exec_reaches` is the rule for runs: where every turn visits at least `k` positions, no
position waits for more than `n / k` turns, rounded up.
-/

namespace RoundRobin

/-- How many positions come before `i`, from the cursor on. -/
def distance (n cursor i : Nat) : Nat := (i + n - cursor) % n

variable {n cursor i v : Nat}

theorem distance_lt (cursor : Nat) (hi : i < n) :
    distance n cursor i < n := Nat.mod_lt _ (Nat.zero_lt_of_lt hi)

/-- The position after that many visits. -/
theorem add_distance_mod (hcursor : cursor < n) (hi : i < n) :
    (cursor + distance n cursor i) % n = i := by
  rw [distance, Nat.add_mod_mod, show cursor + (i + n - cursor) = i + n by omega, Nat.add_mod_right,
    Nat.mod_eq_of_lt hi]

theorem distance_advance (hcursor : cursor < n) (hi : i < n) (hv : v ≤ distance n cursor i) :
    distance n ((cursor + v) % n) i = distance n cursor i - v := by
  have hcases : distance n cursor i = if cursor ≤ i then i - cursor else i + n - cursor := by
    rw [distance]
    split
    · rw [show i + n - cursor = i - cursor + n by omega, Nat.add_mod_right,
        Nat.mod_eq_of_lt (by omega)]
    · exact Nat.mod_eq_of_lt (by omega)
  by_cases hle : cursor ≤ i
  · rw [hcases, if_pos hle] at hv ⊢
    rw [Nat.mod_eq_of_lt (by omega : cursor + v < n), distance,
      show i + n - (cursor + v) = i - (cursor + v) + n by omega, Nat.add_mod_right,
      Nat.mod_eq_of_lt (by omega)]
    omega
  · rw [hcases, if_neg hle] at hv ⊢
    by_cases hwrap : cursor + v < n
    · rw [Nat.mod_eq_of_lt hwrap, distance, Nat.mod_eq_of_lt (by omega)]
      omega
    · rw [Nat.mod_eq_sub_mod (by omega), Nat.mod_eq_of_lt (by omega), distance,
        show i + n - (cursor + v - n) = i - (cursor + v - n) + n by omega, Nat.add_mod_right,
        Nat.mod_eq_of_lt (by omega)]
      omega

variable {σ α : Type*} {step : σ → α → Option σ} {turn : α → Bool} {ok : σ → α → Prop} {k : Nat}

/-- A run with turns enough reaches the position in one of them. -/
theorem exec_reaches (pos : σ → Nat) (Reaches : σ → α → σ → Prop) (hi : i < n)
    (hpos : ∀ s, pos s < n)
    (hturn : ∀ s a s', ok s a → turn a = true → step s a = some s' →
      Reaches s a s' ∨ ∃ v, k ≤ v ∧ v ≤ distance n (pos s) i ∧ pos s' = (pos s + v) % n)
    (hother : ∀ s a s', turn a = false → step s a = some s' → pos s' = pos s)
    {s s' : σ} {as : List α} (h : Runs.exec step s as = some s') (hok : Runs.Along step ok s as)
    (hcount : distance n (pos s) i < k * as.countP turn) :
    ∃ pre a post m m', as = pre ++ a :: post ∧ Runs.exec step s pre = some m ∧ step m a = some m' ∧
      turn a = true ∧ Reaches m a m' := by
  induction as generalizing s with
  | nil => simp at hcount
  | cons a as ih =>
      obtain ⟨m, hs, hr⟩ := Runs.exec_cons_eq_some.mp h
      obtain ⟨ha, hrest⟩ := hok.cons hs
      have hlater (hnear : distance n (pos m) i < k * as.countP turn) :
          ∃ pre b post m m', a :: as = pre ++ b :: post ∧ Runs.exec step s pre = some m ∧
            step m b = some m' ∧ turn b = true ∧ Reaches m b m' := by
        obtain ⟨pre, b, post, m₁, m₂, rfl, h₁, h₂⟩ := ih hr hrest hnear
        exact ⟨a :: pre, b, post, m₁, m₂, rfl, Runs.exec_cons_eq_some.mpr ⟨m, hs, h₁⟩, h₂⟩
      cases hturned : turn a with
      | false =>
          rw [List.countP_cons_of_neg (by rw [hturned]; exact Bool.false_ne_true)] at hcount
          rw [← hother s a m hturned hs] at hcount
          exact hlater hcount
      | true =>
          rw [List.countP_cons_of_pos hturned, Nat.mul_succ] at hcount
          rcases hturn s a m ha hturned hs with hreached | ⟨v, hk, hv, hpos'⟩
          · exact ⟨[], a, as, s, m, rfl, rfl, hs, hturned, hreached⟩
          · refine hlater ?_
            rw [hpos', distance_advance (hpos s) hi hv]
            omega

end RoundRobin
