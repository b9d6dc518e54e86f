import Mathlib.Data.List.Basic

/-!
# Patterns of literals and greedy groups

A pattern is a list of literals and of groups, and a group captures between `low` and `high` symbols
of a class.  `run` matches as a backtracking engine does: each group takes as much as it can, and
gives symbols back only where the rest does not match.

`Fills` says which text a list of captures stands for.  A match is such a text (`run_fills`), and of
the captures that a text admits the match is the one that is `Greedy` at every group (`run_greedy`).
-/

namespace Pattern

variable {ν α : Type*}

inductive Elem (ν α : Type*) where
  | literal (symbol : α)
  | group (name : ν) (isIn : α → Bool) (low high : Nat)

/-- The lengths that a group tries, the greatest first. -/
def lengths (low high : Nat) : List Nat := (List.range' low (high + 1 - low)).reverse

theorem mem_lengths {low high n : Nat} : n ∈ lengths low high ↔ low ≤ n ∧ n ≤ high := by
  simp only [lengths, List.mem_reverse, List.mem_range'_1]
  omega

/-- The group takes that many symbols of the text. -/
def takes (isIn : α → Bool) (n : Nat) (text : List α) : Bool :=
  decide (n ≤ text.length) && (text.take n).all isIn

/-- The captures of the first match that leaves a rest that may be final. -/
def run [DecidableEq α] (final : List α → Bool) :
    List (Elem ν α) → List α → Option (List (ν × List α))
  | [], text => if final text then some [] else none
  | .literal symbol :: elems, text =>
      match text with
      | [] => none
      | c :: text => if c = symbol then run final elems text else none
  | .group name isIn low high :: elems, text =>
      (lengths low high).findSome? fun n =>
        if takes isIn n text then
          (run final elems (text.drop n)).map fun captures => (name, text.take n) :: captures
        else none

/-- The text that captures stand for. -/
inductive Fills : List (Elem ν α) → List (ν × List α) → List α → Prop where
  | nil : Fills [] [] []
  | literal {symbol elems captures text} :
      Fills elems captures text → Fills (.literal symbol :: elems) captures (symbol :: text)
  | group {name isIn low high elems captures piece text} :
      (∀ c ∈ piece, isIn c = true) → low ≤ piece.length → piece.length ≤ high →
      Fills elems captures text →
      Fills (.group name isIn low high :: elems) ((name, piece) :: captures) (piece ++ text)

/-- A match stands for the text up to a final rest. -/
theorem run_fills [DecidableEq α] {final : List α → Bool} {elems : List (Elem ν α)} {text : List α}
    {captures : List (ν × List α)} (h : run final elems text = some captures) :
    ∃ filled rest, text = filled ++ rest ∧ final rest = true ∧ Fills elems captures filled := by
  induction elems generalizing text captures with
  | nil =>
      simp only [run] at h
      split at h
      · cases h
        exact ⟨[], text, rfl, by assumption, .nil⟩
      · cases h
  | cons elem elems ih =>
      cases elem with
      | literal symbol =>
          cases text with
          | nil => cases h
          | cons c text =>
              simp only [run] at h
              split at h
              · rename_i hc
                obtain ⟨filled, rest, rfl, hrest, hfills⟩ := ih h
                subst hc
                exact ⟨c :: filled, rest, rfl, hrest, .literal hfills⟩
              · cases h
      | group name isIn low high =>
          simp only [run] at h
          obtain ⟨n, hn, h⟩ := List.exists_of_findSome?_eq_some h
          obtain ⟨hlow, hhigh⟩ := mem_lengths.mp hn
          split at h
          · rename_i htakes
            obtain ⟨hlength, hall⟩ := Bool.and_eq_true_iff.mp htakes
            rw [decide_eq_true_iff] at hlength
            obtain ⟨others, hothers, rfl⟩ := Option.map_eq_some_iff.mp h
            obtain ⟨filled, rest, hdrop, hrest, hfills⟩ := ih hothers
            have hpiece : (text.take n).length = n := List.length_take_of_le hlength
            refine ⟨text.take n ++ filled, rest, ?_, hrest, ?_⟩
            · rw [List.append_assoc, ← hdrop, List.take_append_drop]
            · exact .group (List.all_eq_true.mp hall) (by omega) (by omega) hfills
          · cases h

/-- Captures of which each group has all it can take, before the given rest. -/
inductive Greedy (rest : List α) : List (Elem ν α) → List (ν × List α) → List α → Prop where
  | nil : Greedy rest [] [] []
  | literal {symbol elems captures text} :
      Greedy rest elems captures text →
      Greedy rest (.literal symbol :: elems) captures (symbol :: text)
  | group {name isIn low high elems captures piece text} :
      (∀ c ∈ piece, isIn c = true) → low ≤ piece.length →
      piece.length = high ∨
        (piece.length ≤ high ∧ ∀ c ∈ (text ++ rest).head?, isIn c = false) →
      Greedy rest elems captures text →
      Greedy rest (.group name isIn low high :: elems) ((name, piece) :: captures) (piece ++ text)

theorem Greedy.fills {rest : List α} {elems : List (Elem ν α)} {captures : List (ν × List α)}
    {text : List α} (h : Greedy rest elems captures text) : Fills elems captures text := by
  induction h with
  | nil => exact .nil
  | literal _ ih => exact .literal ih
  | group hall hlow hmost _ ih =>
      refine .group hall hlow ?_ ih
      rcases hmost with hmost | hmost
      · exact Nat.le_of_eq hmost
      · exact hmost.1

theorem lengths_eq {low high : Nat} (h : low ≤ high) :
    lengths low high = high :: (List.range' low (high - low)).reverse := by
  have hsucc : high + 1 - low = high - low + 1 := by omega
  have hlast : low + (high - low) = high := by omega
  rw [lengths, hsucc, List.range'_1_concat, List.reverse_append, hlast]
  rfl

theorem findSome?_lengths {β : Type*} {low high n : Nat} {f : Nat → Option β} {b : β}
    (hlow : low ≤ n) (hhigh : n ≤ high) (hmore : ∀ m, n < m → m ≤ high → f m = none)
    (hn : f n = some b) : (lengths low high).findSome? f = some b := by
  obtain ⟨k, rfl⟩ := Nat.exists_eq_add_of_le hhigh
  induction k with
  | zero =>
      rw [lengths_eq (by omega), List.findSome?_cons]
      simp only [Nat.add_zero, hn]
  | succ k ih =>
      rw [lengths_eq (by omega), List.findSome?_cons, hmore (n + (k + 1)) (by omega) (by omega)]
      exact ih (by omega) fun m hm hle => hmore m hm (by omega)

/-- Greedy captures are the match. -/
theorem run_greedy [DecidableEq α] {final : List α → Bool} {rest : List α}
    (hrest : final rest = true) {elems : List (Elem ν α)} {captures : List (ν × List α)}
    {text : List α} (h : Greedy rest elems captures text) :
    run final elems (text ++ rest) = some captures := by
  induction h with
  | nil => simp only [List.nil_append, run, hrest, if_true]
  | literal h ih => simp only [List.cons_append, run, if_true, ih]
  | @group name isIn low high elems captures piece text hall hlow hmost h ih =>
      have hhigh : piece.length ≤ high := by
        rcases hmost with hmost | hmost
        · exact Nat.le_of_eq hmost
        · exact hmost.1
      rw [List.append_assoc, run]
      refine findSome?_lengths hlow hhigh ?_ ?_
      · intro m hm hle
        rcases hmost with hmost | ⟨-, hnext⟩
        · omega
        · rw [if_neg]
          intro htakes
          obtain ⟨hlength, htaken⟩ := Bool.and_eq_true_iff.mp htakes
          rw [decide_eq_true_iff, List.length_append] at hlength
          cases hafter : text ++ rest with
          | nil =>
              rw [hafter, List.length_nil] at hlength
              omega
          | cons c after =>
              have hin : isIn c = true := by
                refine List.all_eq_true.mp htaken c ?_
                obtain ⟨k, rfl⟩ := Nat.exists_eq_add_of_lt hm
                rw [hafter, Nat.add_assoc, List.take_length_add_append, List.take_succ_cons]
                exact List.mem_append_right _ List.mem_cons_self
              rw [hnext c (by rw [hafter]; rfl)] at hin
              cases hin
      · have htakes : takes isIn piece.length (piece ++ (text ++ rest)) = true := by
          simp only [takes, List.length_append, Nat.le_add_right, decide_true, List.take_left,
            Bool.true_and, List.all_eq_true]
          exact hall
        rw [if_pos htakes, List.drop_left, List.take_left, ih]
        rfl

end Pattern
