import Mathlib.Data.List.Basic

/-!
# Writing pieces into a record

`put` overwrites a record with a piece at a place.  Pieces that lie apart, and inside the record,
all stand when they have been written, whatever the order, and no other place has changed.
-/

namespace Overwrite

variable {α : Type*}

/-- The record with the piece at the place. -/
def put (record : List α) (piece : Nat × List α) : List α :=
  record.take piece.1 ++ piece.2 ++ record.drop (piece.1 + piece.2.length)

/-- The place belongs to the piece. -/
def Covers (piece : Nat × List α) (i : Nat) : Prop :=
  piece.1 ≤ i ∧ i < piece.1 + piece.2.length

/-- The pieces share no place. -/
def Apart (piece other : Nat × List α) : Prop :=
  piece.1 + piece.2.length ≤ other.1 ∨ other.1 + other.2.length ≤ piece.1

theorem Apart.not_covers {piece other : Nat × List α} (h : Apart piece other) {i : Nat}
    (hi : Covers piece i) : ¬ Covers other i := by
  intro ho
  obtain ⟨h1, h2⟩ := hi
  obtain ⟨h3, h4⟩ := ho
  rcases h with h | h <;> omega

theorem length_put {record : List α} {piece : Nat × List α}
    (h : piece.1 + piece.2.length ≤ record.length) : (put record piece).length = record.length := by
  simp only [put, List.length_append, List.length_take, List.length_drop]
  omega

theorem getElem?_put {record : List α} {piece : Nat × List α}
    (h : piece.1 + piece.2.length ≤ record.length) {i : Nat} (hi : Covers piece i) :
    (put record piece)[i]? = piece.2[i - piece.1]? := by
  obtain ⟨hle, hlt⟩ := hi
  have htake : (record.take piece.1).length = piece.1 := by
    rw [List.length_take]
    omega
  rw [put, List.append_assoc, List.getElem?_append_right (by omega), htake,
    List.getElem?_append_left (by omega)]

theorem getElem?_put_of_not {record : List α} {piece : Nat × List α}
    (h : piece.1 + piece.2.length ≤ record.length) {i : Nat} (hi : ¬ Covers piece i) :
    (put record piece)[i]? = record[i]? := by
  have htake : (record.take piece.1).length = piece.1 := by
    rw [List.length_take]
    omega
  rw [Covers, not_and_or, Nat.not_le, Nat.not_lt] at hi
  rcases hi with hi | hi
  · rw [put, List.append_assoc, List.getElem?_append_left (by omega), List.getElem?_take_of_lt hi]
  · rw [put, List.getElem?_append_right (by rw [List.length_append]; omega), List.length_append,
      htake, List.getElem?_drop]
    congr 1
    omega

/-- What stands in a record after the pieces have been written into it. -/
theorem foldl_put {pieces : List (Nat × List α)} {record : List α}
    (hin : ∀ piece ∈ pieces, piece.1 + piece.2.length ≤ record.length)
    (hapart : pieces.Pairwise Apart) :
    (pieces.foldl put record).length = record.length ∧
      (∀ piece ∈ pieces, ∀ i, Covers piece i →
        (pieces.foldl put record)[i]? = piece.2[i - piece.1]?) ∧
      ∀ i, (∀ piece ∈ pieces, ¬ Covers piece i) →
        (pieces.foldl put record)[i]? = record[i]? := by
  induction pieces generalizing record with
  | nil => exact ⟨rfl, fun piece hp => (by cases hp), fun _ _ => rfl⟩
  | cons piece rest ih =>
      obtain ⟨hpiece, hrest⟩ := List.forall_mem_cons.mp hin
      obtain ⟨hfirst, hothers⟩ := List.pairwise_cons.mp hapart
      have hlength := length_put hpiece
      have hrest' : ∀ other ∈ rest, other.1 + other.2.length ≤ (put record piece).length := by
        rw [hlength]
        exact hrest
      obtain ⟨hlen, hstand, hsame⟩ := ih hrest' hothers
      refine ⟨hlen.trans hlength, ?_, ?_⟩
      · intro other ho i hi
        rcases List.mem_cons.mp ho with rfl | ho
        · rw [List.foldl_cons, hsame i fun later hl => (hfirst later hl).not_covers hi,
            getElem?_put hpiece hi]
        · exact hstand other ho i hi
      · intro i hi
        obtain ⟨hi, hlater⟩ := List.forall_mem_cons.mp hi
        rw [List.foldl_cons, hsame i hlater, getElem?_put_of_not hpiece hi]

end Overwrite
