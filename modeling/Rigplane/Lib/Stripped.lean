import Mathlib.Data.List.DropRight

/-!
# Stripped texts

A text is stripped when it has no blank at its ends, whatever a blank is.  Stripping a text gives a
stripped one (`stripped_strip`) and leaves a stripped one as it is (`Stripped.strip_eq`).  Stripped
pieces with a separator between them are a stripped text.
-/

namespace Stripping

variable {α : Type*} (blank : α → Bool)

def strip (text : List α) : List α := (text.dropWhile blank).rdropWhile blank

structure Stripped (text : List α) : Prop where
  head : ∀ x ∈ text.head?, blank x = false
  last : ∀ x ∈ text.getLast?, blank x = false

variable {blank} {text left right : List α}

theorem stripped_nil : Stripped blank ([] : List α) := ⟨nofun, nofun⟩

theorem Stripped.strip_eq (h : Stripped blank text) : strip blank text = text := by
  have hleft : text.dropWhile blank = text := by
    cases text with
    | nil => rfl
    | cons x text => exact List.dropWhile_cons_of_neg (by simp [h.head x rfl])
  rw [strip, hleft, List.rdropWhile_eq_self_iff]
  intro hne
  rw [h.last _ (List.getLast?_eq_some_getLast hne)]
  exact Bool.false_ne_true

theorem stripped_strip (text : List α) : Stripped blank (strip blank text) where
  head := by
    intro x hx
    have hprefix : strip blank text <+: text.dropWhile blank := List.rdropWhile_prefix _ _
    obtain ⟨more, hmore⟩ := hprefix
    have hhead : (text.dropWhile blank).head? = some x := by
      rw [← hmore, List.head?_append, hx]
      rfl
    have hnot := List.head?_dropWhile_not blank text
    rw [hhead] at hnot
    exact hnot
  last := by
    intro x hx
    obtain ⟨hne, rfl⟩ := List.mem_getLast?_eq_getLast hx
    exact eq_false_of_ne_true (List.rdropWhile_last_not blank _ hne)

/-- A piece of a stripped text is stripped where the text ends and where it is cut. -/
theorem Stripped.append (hleft : Stripped blank left) (hright : Stripped blank right)
    (hleft_ne : left ≠ []) (hright_ne : right ≠ []) (mid : List α) :
    Stripped blank (left ++ mid ++ right) where
  head := by
    intro x hx
    rw [List.append_assoc, List.head?_append_of_ne_nil _ hleft_ne] at hx
    exact hleft.head x hx
  last := by
    intro x hx
    rw [List.getLast?_append_of_ne_nil _ hright_ne] at hx
    exact hright.last x hx

theorem Stripped.intercalate {pieces : List (List α)} (sep : α)
    (h : ∀ piece ∈ pieces, piece ≠ [] ∧ Stripped blank piece) :
    Stripped blank ([sep].intercalate pieces) := by
  induction pieces with
  | nil => exact stripped_nil
  | cons piece rest ih =>
      obtain ⟨⟨hne, hpiece⟩, hrest⟩ := List.forall_mem_cons.mp h
      cases rest with
      | nil => simpa using hpiece
      | cons next rest =>
          rw [List.intercalate_cons_cons]
          refine hpiece.append (ih hrest) hne ?_ [sep]
          have hnext := (hrest next List.mem_cons_self).1
          cases rest with
          | nil => simpa using hnext
          | cons => simp [List.intercalate_cons_cons, hnext]

end Stripping
