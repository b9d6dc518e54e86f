import Rigplane.Memory.Profile

/-!
# Layouts without errors

What a layout that `validation_errors` finds nothing in has: its fields lie apart, they cover the
record, and each has the length that its encoding needs.
-/

namespace Rigplane.Memory

namespace MemoryWriteLayout

/-- The first place behind a field. -/
def stop (f : MemoryWriteField) : Int := f.offset + f.length

/-- The fields share no place. -/
def Apart (f g : MemoryWriteField) : Prop := stop f ≤ g.offset ∨ stop g ≤ f.offset

theorem Apart.symm {f g : MemoryWriteField} (h : Apart f g) : Apart g f := Or.symm h

/-- A field of a layout without errors. -/
structure FieldOk (layout : MemoryWriteLayout) (f : MemoryWriteField) : Prop where
  offset : 0 ≤ f.offset
  length : 1 ≤ f.length
  inside : stop f ≤ layout.recordLength
  width : ∀ width, f.encoding.width = some width → f.length = width
  fixed : f.encoding = .fixed → ∃ value, f.value = some value ∧
    (value.length : Int) = 2 * f.length ∧ ∀ c ∈ value.toList, isHexDigit c = true

/-- A layout without errors, as far as the record that is written depends on it. -/
structure Valid (layout : MemoryWriteLayout) : Prop where
  toneMax : 0 ≤ layout.toneMax ∧ layout.toneMax ≤ 3
  copies : 1 ≤ layout.copies ∧ layout.copies ≤ 2
  length : 1 ≤ layout.recordLength
  fields : ∀ f ∈ layout.fields, layout.FieldOk f
  apart : layout.fields.Pairwise Apart
  covered : ∀ i, 0 ≤ i → i < layout.recordLength → ∃ f ∈ layout.fields, f.offset ≤ i ∧ i < stop f
  repeated : 1 < layout.copies → (∃ f ∈ layout.fields, leads f = true) ∧
    layout.dataBlockSpan.isSome = true
  named : layout.count [.name, .nameNul] = 1

theorem fixed_of_memberErrors {f : MemoryWriteField} (h : memberErrors f = [])
    (hfixed : f.encoding = .fixed) : ∃ value, f.value = some value := by
  rw [memberErrors, hfixed] at h
  cases hvalue : f.value with
  | some value => exact ⟨value, rfl⟩
  | none => simp [hvalue] at h

theorem tilingErrors_nil {layout : MemoryWriteLayout} {names : List String} {cursor : Int}
    {f : MemoryWriteField} (h : layout.tilingErrors names cursor f = [])
    (hmember : memberErrors f = []) (hcursor : 0 ≤ cursor) :
    f.offset = cursor ∧ layout.FieldOk f := by
  simp only [tilingErrors, List.append_eq_nil_iff] at h
  obtain ⟨⟨⟨-, hplace⟩, hwidth⟩, hfixed⟩ := h
  have hat : 1 ≤ f.length ∧ stop f ≤ layout.recordLength ∧ f.offset = cursor := by
    split at hplace
    · cases hplace
    · split at hplace
      · cases hplace
      · split at hplace
        · cases hplace
        · simp only [stop]
          omega
  refine ⟨hat.2.2, by omega, hat.1, hat.2.1, ?_, ?_⟩
  · intro width hw
    rw [hw] at hwidth
    dsimp only at hwidth
    split at hwidth
    · cases hwidth
    · omega
  · intro henc
    obtain ⟨value, hvalue⟩ := fixed_of_memberErrors hmember henc
    rw [henc, hvalue] at hfixed
    dsimp only at hfixed
    split at hfixed
    · cases hfixed
    · rename_i hok
      rw [not_or, Decidable.not_not] at hok
      refine ⟨value, hvalue, hok.1, fun c hc => ?_⟩
      by_contra hbad
      exact hok.2 (List.any_eq_true.mpr ⟨c, hc, by simpa using hbad⟩)

/-- The fields from a cursor on, in the order of their offsets. -/
theorem tableErrors_nil {layout : MemoryWriteLayout} {names : List String} {cursor : Int}
    {fields : List MemoryWriteField} (h : layout.tableErrors names cursor fields = [])
    (hmember : ∀ f ∈ fields, memberErrors f = []) (hcursor : 0 ≤ cursor) :
    (∀ f ∈ fields, layout.FieldOk f ∧ cursor ≤ f.offset) ∧
      fields.Pairwise (fun f g => stop f ≤ g.offset) ∧ cursor ≤ layout.recordLength ∧
      ∀ i, cursor ≤ i → i < layout.recordLength → ∃ f ∈ fields, f.offset ≤ i ∧ i < stop f := by
  induction fields generalizing names cursor with
  | nil =>
      rw [tableErrors] at h
      split at h
      · cases h
      · exact ⟨fun f hf => (by cases hf), List.Pairwise.nil, by omega, fun i _ _ => (by omega)⟩
  | cons f rest ih =>
      rw [tableErrors, List.append_eq_nil_iff] at h
      obtain ⟨hf, hrest⟩ := List.forall_mem_cons.mp hmember
      obtain ⟨hat, hok⟩ := tilingErrors_nil h.1 hf hcursor
      have hnext : cursor ≤ stop f := by
        have := hok.length
        simp only [stop]
        omega
      obtain ⟨hall, hpair, hend, hcover⟩ := ih h.2 hrest (Int.le_trans hcursor hnext)
      refine ⟨?_, List.pairwise_cons.mpr ⟨fun g hg => (hall g hg).2, hpair⟩,
        Int.le_trans hnext hend, ?_⟩
      · intro g hg
        rcases List.mem_cons.mp hg with rfl | hg
        · exact ⟨hok, Int.le_of_eq hat.symm⟩
        · exact ⟨(hall g hg).1, Int.le_trans hnext (hall g hg).2⟩
      · intro i hi hlt
        rcases Int.lt_or_le i (stop f) with hin | hout
        · exact ⟨f, List.mem_cons_self, by omega, hin⟩
        · obtain ⟨g, hg, hcov⟩ := hcover i hout hlt
          exact ⟨g, List.mem_cons_of_mem _ hg, hcov⟩

theorem valid_of_validationErrors {layout : MemoryWriteLayout}
    (h : layout.validationErrors = []) : layout.Valid := by
  rw [validationErrors] at h
  split at h
  · cases h
  · dsimp only at h
    split at h
    · contradiction
    · rename_i hempty herrors
      rw [Decidable.not_not, List.append_eq_nil_iff] at herrors
      obtain ⟨hnumber, hmember⟩ := herrors
      rw [List.flatMap_eq_nil_iff] at hmember
      simp only [List.append_eq_nil_iff] at h
      obtain ⟨⟨htable, hcount⟩, hblock⟩ := h
      have hperm := List.perm_insertionSort (fun f g => f.offset ≤ g.offset) layout.fields
      obtain ⟨hall, hpair, -, hcover⟩ := tableErrors_nil htable
        (fun f hf => hmember f (hperm.mem_iff.mp hf)) (Int.le_refl 0)
      simp only [numberErrors, List.append_eq_nil_iff, ite_eq_left_iff, reduceCtorEq, imp_false,
        Decidable.not_not] at hnumber
      refine ⟨hnumber.1.2, hnumber.2, hnumber.1.1.1, ?_, ?_, ?_, ?_, ?_⟩
      · exact fun f hf => (hall f (hperm.mem_iff.mpr hf)).1
      · exact (hperm.pairwise_iff fun h => Apart.symm h).mp (hpair.imp fun h => Or.inl h)
      · intro i hi hlt
        obtain ⟨f, hf, hcov⟩ := hcover i hi hlt
        exact ⟨f, hperm.mem_iff.mp hf, hcov⟩
      · intro hcopies
        simp only [blockErrors, List.append_eq_nil_iff] at hblock
        have hrepeat := hblock.2
        rw [if_pos hcopies] at hrepeat
        split at hrepeat
        · cases hrepeat
        · rename_i hleads
          split at hrepeat
          · cases hrepeat
          · rename_i hspan
            rw [Bool.not_eq_true, Bool.not_eq_false', List.any_eq_true] at hleads
            exact ⟨hleads, by simpa [Option.isSome_iff_ne_none] using hspan⟩
      · simp only [countErrors, List.append_eq_nil_iff, List.flatMap_cons, ite_eq_right_iff,
          reduceCtorEq, imp_false, Decidable.not_not] at hcount
        exact hcount.1.2.2.1

end MemoryWriteLayout

end Rigplane.Memory
