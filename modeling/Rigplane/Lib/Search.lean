import Mathlib.Data.List.Infix

/-!
# Searching a list

`find` is the `find` of byte strings: the first index, from a start on, where a pattern stands.
What is found splits the list, and the pattern stands nowhere before (`Found`); what is not found
stands nowhere (`index_eq_none`).
-/

namespace Search

variable {α : Type*} {sub l : List α} {i : Nat}

/-! ## The first place of a pattern -/

/-- The pattern stands at an index, and at none before. -/
structure Found (sub l : List α) (i : Nat) : Prop where
  here : sub <+: l.drop i
  before : ∀ j < i, ¬ sub <+: l.drop j

/-- The list around what was found. -/
theorem Found.split (h : Found sub l i) : l = l.take i ++ (sub ++ l.drop (i + sub.length)) := by
  obtain ⟨rest, hrest⟩ := h.here
  have hdrop : l.drop (i + sub.length) = rest := by
    rw [← List.drop_drop, ← hrest, List.drop_left]
  rw [hdrop, hrest, List.take_append_drop]

theorem Found.add_length_le (h : Found sub l i) (hsub : sub ≠ []) : i + sub.length ≤ l.length := by
  have hle := h.here.length_le
  have hpos := List.length_pos_iff.mpr hsub
  rw [List.length_drop] at hle
  omega

/-- Nothing of the pattern stands before what was found, not even in part. -/
theorem Found.absent_before (h : Found sub l i) {front : List α} (hfront : front <+: l)
    (hlen : front.length < i + sub.length) : ¬ sub <:+: front := by
  rintro ⟨pre, post, heq⟩
  obtain ⟨rest, rfl⟩ := hfront
  refine h.before pre.length ?_ ?_
  · have hlength := congrArg List.length heq
    simp only [List.length_append] at hlength
    omega
  · rw [← heq, List.append_assoc, List.append_assoc, List.drop_left]
    exact List.prefix_append sub (post ++ rest)

/-- A single symbol stands nowhere before its first index. -/
theorem Found.not_mem {x : α} (h : Found [x] l i) : x ∉ l.take i := fun hmem => by
  refine h.absent_before (List.take_prefix i l) ?_ ((List.singleton_infix_iff x _).mpr hmem)
  exact Nat.lt_succ_of_le (List.length_take_le i l)

/-! ## Finding it -/

variable [DecidableEq α]

/-- The first index where the pattern stands. -/
def index (sub : List α) : List α → Option Nat
  | [] => if sub = [] then some 0 else none
  | x :: l => if sub <+: x :: l then some 0 else (index sub l).map (· + 1)

/-- `l.find(sub, start)`. -/
def find (sub : List α) (start : Nat) (l : List α) : Option Nat :=
  (index sub (l.drop start)).map (· + start)

theorem index_eq_none : index sub l = none ↔ ¬ sub <:+: l := by
  induction l with
  | nil =>
      rw [index, List.infix_nil]
      split
      · rename_i h
        exact iff_of_false (Option.some_ne_none 0) (not_not.mpr h)
      · rename_i h
        exact iff_of_true rfl h
  | cons x l ih =>
      rw [index, List.infix_cons_iff, not_or]
      split
      · rename_i h
        exact iff_of_false (Option.some_ne_none 0) fun hand => hand.1 h
      · rename_i h
        rw [Option.map_eq_none_iff, ih, and_iff_right h]

theorem index_singleton_eq_none {x : α} : index [x] l = none ↔ x ∉ l := by
  rw [index_eq_none, List.singleton_infix_iff]

theorem found_of_index (h : index sub l = some i) : Found sub l i := by
  induction l generalizing i with
  | nil =>
      rw [index] at h
      split at h
      · rename_i hsub
        cases h
        rw [hsub]
        exact ⟨List.nil_prefix, fun j hj => absurd hj (Nat.not_lt_zero j)⟩
      · cases h
  | cons x l ih =>
      rw [index] at h
      split at h
      · rename_i hsub
        cases h
        exact ⟨hsub, fun j hj => absurd hj (Nat.not_lt_zero j)⟩
      · rename_i hsub
        obtain ⟨k, hk, rfl⟩ := Option.map_eq_some_iff.mp h
        obtain ⟨hhere, hbefore⟩ := ih hk
        refine ⟨hhere, fun j hj => ?_⟩
        cases j with
        | zero => exact hsub
        | succ j => exact hbefore j (by omega)

/-- What `find` finds lies from its start on and within the list. -/
theorem find_bounds {start : Nat} (hsub : sub ≠ []) (h : find sub start l = some i) :
    start ≤ i ∧ i + sub.length ≤ l.length := by
  obtain ⟨k, hk, rfl⟩ := Option.map_eq_some_iff.mp h
  have hle := (found_of_index hk).add_length_le hsub
  have hpos := List.length_pos_iff.mpr hsub
  rw [List.length_drop] at hle
  omega

end Search
