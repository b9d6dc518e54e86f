import Mathlib.Data.List.DropRight

/-!
# Words

A text is cut into words at its blanks, whatever a blank is.  `words` is the function, which drops
the empty pieces between two blanks, and `Spelled` is the grammar: a gap, a word, and a rest that
starts with a blank or is empty.  `spelled_iff` says that they agree, so a text has one reading.
-/

namespace Words

variable {α : Type*} (blank : α → Bool)

/-- The words of a text. -/
def words (text : List α) : List (List α) := (text.splitOnP blank).filter fun w => w ≠ []

/-- A word is not empty and has no blank. -/
structure Word (w : List α) : Prop where
  ne_nil : w ≠ []
  solid : ∀ x ∈ w, blank x = false

instance (w : List α) [DecidableEq α] : Decidable (Word blank w) :=
  decidable_of_iff (w ≠ [] ∧ ∀ x ∈ w, blank x = false)
    ⟨fun h => ⟨h.1, h.2⟩, fun h => ⟨h.ne_nil, h.solid⟩⟩

/-- The text consists of these words, with blanks between them. -/
inductive Spelled : List (List α) → List α → Prop where
  | nil {gap : List α} : (∀ x ∈ gap, blank x) → Spelled [] gap
  | cons {gap w rest : List α} {ws : List (List α)} : (∀ x ∈ gap, blank x) → Word blank w →
      (∀ x ∈ rest.head?, blank x) → Spelled ws rest → Spelled (w :: ws) (gap ++ w ++ rest)

variable {blank}
variable {text gap w rest : List α} {ws : List (List α)}

@[simp] theorem words_nil : words blank [] = [] := by simp [words]

theorem words_blank {x : α} (hx : blank x) : words blank (x :: text) = words blank text := by
  simp [words, List.splitOnP_cons_eq_if_modifyHead, hx]

theorem words_gap (hgap : ∀ x ∈ gap, blank x) : words blank (gap ++ text) = words blank text := by
  induction gap with
  | nil => rfl
  | cons x gap ih =>
      rw [List.cons_append, words_blank (hgap x List.mem_cons_self)]
      exact ih fun y hy => hgap y (List.mem_cons_of_mem _ hy)

theorem words_solid (hw : Word blank w) : words blank w = [w] := by
  rw [words, List.splitOnP_eq_singleton hw.solid]
  simp [hw.ne_nil]

theorem words_word (hw : Word blank w) (hrest : ∀ x ∈ rest.head?, blank x) :
    words blank (w ++ rest) = w :: words blank rest := by
  cases rest with
  | nil => rw [List.append_nil, words_solid hw, words_nil]
  | cons x rest =>
      have hx : blank x := hrest x rfl
      rw [words_blank hx, words, List.splitOnP_append_cons_of_forall_mem hw.solid _ hx,
        List.filter_cons_of_pos (by simp [hw.ne_nil])]
      rfl

/-! ## The grammar -/

theorem Spelled.words (h : Spelled blank ws text) : words blank text = ws := by
  induction h with
  | nil hgap =>
      rename_i gap
      have hwords : Words.words blank (gap ++ []) = Words.words blank [] := words_gap hgap
      rw [List.append_nil] at hwords
      rw [hwords, words_nil]
  | cons hgap hw hrest _ ih => rw [List.append_assoc, words_gap hgap, words_word hw hrest, ih]

theorem Spelled.blank_cons {x : α} (hx : blank x) (h : Spelled blank ws text) :
    Spelled blank ws (x :: text) := by
  have hgap {gap : List α} (hgap : ∀ y ∈ gap, blank y) : ∀ y ∈ x :: gap, blank y :=
    List.forall_mem_cons.mpr ⟨hx, hgap⟩
  cases h with
  | nil hblank => exact .nil (hgap hblank)
  | cons hblank hw hrest hws => exact .cons (hgap hblank) hw hrest hws

theorem no_gap : ∀ x ∈ ([] : List α), blank x := by simp

/-- A character before the text begins a word of its own, or makes the first word longer. -/
theorem Spelled.solid_cons {x : α} (hx : blank x = false) (h : Spelled blank ws text) :
    ∃ ws', Spelled blank ws' (x :: text) := by
  have hone : Word blank [x] := ⟨List.cons_ne_nil _ _, by simpa using hx⟩
  cases h with
  | nil hgap =>
      refine ⟨[[x]], .cons no_gap hone (fun y hy => ?_) (.nil hgap)⟩
      exact hgap y (List.mem_of_mem_head? hy)
  | cons hgap hw hrest hws =>
      rename_i gap w rest ws
      cases gap with
      | nil =>
          have hlonger : Word blank (x :: w) :=
            ⟨List.cons_ne_nil _ _, List.forall_mem_cons.mpr ⟨hx, hw.solid⟩⟩
          exact ⟨_, .cons no_gap hlonger hrest hws⟩
      | cons y gap =>
          refine ⟨_, .cons no_gap hone (fun z hz => ?_) (.cons hgap hw hrest hws)⟩
          cases hz
          exact hgap y List.mem_cons_self

theorem exists_spelled (blank : α → Bool) (text : List α) : ∃ ws, Spelled blank ws text := by
  induction text with
  | nil => exact ⟨[], .nil (by simp)⟩
  | cons x text ih =>
      obtain ⟨ws, h⟩ := ih
      cases hx : blank x with
      | true => exact ⟨ws, h.blank_cons hx⟩
      | false => exact h.solid_cons hx

/-- A text is spelled by its words, and by no others. -/
theorem spelled_iff : Spelled blank ws text ↔ words blank text = ws := by
  refine ⟨Spelled.words, fun h => ?_⟩
  obtain ⟨ws', hspelled⟩ := exists_spelled blank text
  rw [← h, hspelled.words]
  exact hspelled

/-! ## Stripping -/

theorem words_dropWhile (text : List α) :
    words blank (text.dropWhile blank) = words blank text := by
  have h : words blank (text.takeWhile blank ++ text.dropWhile blank) =
      words blank (text.dropWhile blank) := words_gap fun x hx => List.mem_takeWhile_imp hx
  rw [← h, List.takeWhile_append_dropWhile]

theorem Spelled.append (h : Spelled blank ws text) (hgap : ∀ x ∈ gap, blank x) :
    Spelled blank ws (text ++ gap) := by
  induction h with
  | nil hblank =>
      refine .nil fun x hx => ?_
      rcases List.mem_append.mp hx with hx | hx
      · exact hblank x hx
      · exact hgap x hx
  | cons hblank hw hrest _ ih =>
      rename_i rest _ _
      rw [List.append_assoc]
      refine .cons hblank hw (fun x hx => ?_) ih
      cases rest with
      | nil => exact hgap x (List.mem_of_mem_head? hx)
      | cons y rest => exact hrest x hx

theorem words_rdropWhile (text : List α) :
    words blank (text.rdropWhile blank) = words blank text := by
  obtain ⟨ws, h⟩ := exists_spelled blank (text.rdropWhile blank)
  have happend : Spelled blank ws (text.rdropWhile blank ++ text.rtakeWhile blank) :=
    h.append fun x hx => List.mem_rtakeWhile_imp hx
  have htext : text.rdropWhile blank ++ text.rtakeWhile blank = text := by
    rw [List.rdropWhile, List.rtakeWhile, ← List.reverse_append,
      List.takeWhile_append_dropWhile, List.reverse_reverse]
  rw [htext] at happend
  rw [h.words, happend.words]

/-- One blank between the words, and none around them. -/
theorem spelled_intercalate {x : α} (hx : blank x) (hws : ∀ w ∈ ws, Word blank w) :
    Spelled blank ws ([x].intercalate ws) := by
  induction ws with
  | nil => exact .nil (by simp)
  | cons w ws ih =>
      obtain ⟨hw, hws⟩ := List.forall_mem_cons.mp hws
      have hrest := ih hws
      cases ws with
      | nil =>
          have hone : Spelled blank [w] ([] ++ w ++ []) := .cons (by simp) hw (by simp)
            (.nil (by simp))
          simpa using hone
      | cons v ws =>
          have hmore : Spelled blank (w :: v :: ws) ([] ++ w ++ x :: [x].intercalate (v :: ws)) :=
            .cons (by simp) hw (by simpa using hx) (hrest.blank_cons hx)
          simpa using hmore

theorem mem_intercalate {x y : α} (h : y ∈ [x].intercalate ws) : y = x ∨ ∃ w ∈ ws, y ∈ w := by
  induction ws with
  | nil => cases h
  | cons w ws ih =>
      cases ws with
      | nil => exact .inr ⟨w, List.mem_cons_self, by simpa using h⟩
      | cons v ws =>
          rw [List.intercalate_cons_cons, List.append_assoc] at h
          rcases List.mem_append.mp h with hy | hy
          · exact .inr ⟨w, List.mem_cons_self, hy⟩
          rcases List.mem_append.mp hy with hy | hy
          · exact .inl (List.mem_singleton.mp hy)
          · obtain hy | ⟨u, hu, hy⟩ := ih hy
            · exact .inl hy
            · exact .inr ⟨u, List.mem_cons_of_mem _ hu, hy⟩

/-! ## Lines -/

/-- The lines, each with its terminator. -/
def closed (x : α) (lines : List (List α)) : List α := lines.flatMap fun line => line ++ [x]

@[simp] theorem closed_nil (x : α) : closed x [] = [] := rfl

@[simp] theorem closed_cons (x : α) (line : List α) (lines : List (List α)) :
    closed x (line :: lines) = line ++ x :: closed x lines := by simp [closed]

theorem closed_append (x : α) (lines more : List (List α)) :
    closed x (lines ++ more) = closed x lines ++ closed x more := List.flatMap_append

theorem map_closed {β : Type*} (f : α → β) (x : α) (lines : List (List α)) :
    (closed x lines).map f = closed (f x) (lines.map (List.map f)) := by
  induction lines with
  | nil => rfl
  | cons line lines ih => simp [ih]

/-- A text is cut in one way at the first character of a kind. -/
theorem append_cons_inj {p : α → Prop} {x y : α} {u v rest rest' : List α} (hu : ∀ a ∈ u, ¬ p a)
    (hv : ∀ a ∈ v, ¬ p a) (hx : p x) (hy : p y) (h : u ++ x :: rest = v ++ y :: rest') :
    u = v ∧ x = y ∧ rest = rest' := by
  induction u generalizing v with
  | nil =>
      cases v with
      | nil =>
          obtain ⟨hhead, htail⟩ := List.cons.inj h
          exact ⟨rfl, hhead, htail⟩
      | cons z v =>
          rw [(List.cons.inj h).1] at hx
          exact absurd hx (hv z List.mem_cons_self)
  | cons z u ih =>
      cases v with
      | nil =>
          rw [← (List.cons.inj h).1] at hy
          exact absurd hy (hu z List.mem_cons_self)
      | cons z' v =>
          obtain ⟨hhead, htail⟩ := List.cons.inj h
          obtain ⟨hwords, hcut, hrest⟩ := ih (fun a ha => hu a (List.mem_cons_of_mem _ ha))
            (fun a ha => hv a (List.mem_cons_of_mem _ ha)) htail
          exact ⟨by rw [hhead, hwords], hcut, hrest⟩

theorem closed_inj {x : α} {lines lines' : List (List α)} (hlines : ∀ line ∈ lines, x ∉ line)
    (hlines' : ∀ line ∈ lines', x ∉ line) (h : closed x lines = closed x lines') :
    lines = lines' := by
  induction lines generalizing lines' with
  | nil =>
      cases lines' with
      | nil => rfl
      | cons line' lines' => simp at h
  | cons line lines ih =>
      cases lines' with
      | nil => simp at h
      | cons line' lines' =>
          rw [closed_cons, closed_cons] at h
          obtain ⟨hline, hmore⟩ := List.forall_mem_cons.mp hlines
          obtain ⟨hline', hmore'⟩ := List.forall_mem_cons.mp hlines'
          have hfree {line : List α} (h : x ∉ line) : ∀ a ∈ line, a ≠ x := by
            rintro a ha rfl
            exact h ha
          obtain ⟨hhead, -, hrest⟩ := append_cons_inj (hfree hline) (hfree hline')
            (p := fun a => a = x) rfl rfl h
          rw [hhead, ih hmore hmore' hrest]

/-- The terminator between the lines, and once more at the end. -/
theorem intercalate_append {x : α} {lines : List (List α)} (h : lines ≠ []) :
    [x].intercalate lines ++ [x] = closed x lines := by
  induction lines with
  | nil => exact absurd rfl h
  | cons line lines ih =>
      cases lines with
      | nil => simp
      | cons next lines =>
          have hmore := ih (List.cons_ne_nil _ _)
          rw [closed_cons, ← hmore]
          simp

end Words
