import Rigplane.Memory.Entry
import Rigplane.Memory.Record

/-!
# The documented record

The layouts that tile the record of the guides: a select byte, a block of 47 bytes that is written
twice, and a name of 16 bytes.  Fields that the write interface does not expose are constants.
-/

namespace Rigplane.Memory

open Civ PackedDecimal MemoryWriteLayout

/-! ## Layouts -/

/-- A place of the documented record that is no constant: offset, length and encodings. -/
structure DocumentedField where
  offset : Int
  length : Int
  encodings : List MemoryWriteEncoding
deriving DecidableEq

namespace DocumentedField

def select : DocumentedField := ⟨0, 1, [.select]⟩

def frequency : DocumentedField := ⟨1, 5, [.frequency]⟩

def mode : DocumentedField := ⟨6, 1, [.mode]⟩

def filter : DocumentedField := ⟨7, 1, [.filter]⟩

def dataMode : DocumentedField := ⟨8, 1, [.dataMode]⟩

def duplexTone : DocumentedField := ⟨9, 1, [.duplexTone]⟩

def tone : DocumentedField := ⟨11, 3, [.tone]⟩

def tsql : DocumentedField := ⟨14, 3, [.tsql]⟩

def name : DocumentedField := ⟨48, 16, [.name, .nameNul]⟩

end DocumentedField

/-- The select byte, the fields of the block in the order of the guides, and the name. -/
def documentedFields : List DocumentedField :=
  [.select, .frequency, .mode, .filter, .dataMode, .duplexTone, .tone, .tsql, .name]

/-- The field is the documented one. -/
def DocumentedField.Is (row : DocumentedField) (f : MemoryWriteField) : Prop :=
  f.offset = row.offset ∧ f.length = row.length ∧ f.encoding ∈ row.encodings

instance (row : DocumentedField) (f : MemoryWriteField) : Decidable (row.Is f) :=
  inferInstanceAs (Decidable (_ ∧ _ ∧ _))

/-- The layout tiles the documented record, whose other fields are constants. -/
structure Documented (layout : MemoryWriteLayout) : Prop where
  recordLength : layout.recordLength = 64
  copies : layout.copies = 2
  fields : ∀ row ∈ documentedFields, ∃ f ∈ layout.fields, row.Is f
  others : ∀ f ∈ layout.fields, f.encoding = .fixed ∨ ∃ row ∈ documentedFields, row.Is f

/-- The field is a constant with a byte at the place. -/
def hasConstant (place : Int) (f : MemoryWriteField) : Bool :=
  f.encoding == .fixed && decide (f.offset ≤ place) && decide (place < stop f)

/-- The byte of the constants of a layout at a place. -/
def constantAt (layout : MemoryWriteLayout) (place : Int) : UInt8 :=
  match layout.fields.find? (hasConstant place) with
  | some f =>
      ((f.value.bind fun value => fromHex value.toList).getD []).getD (place - f.offset).toNat 0
  | none => 0

theorem find?_hasConstant {layout : MemoryWriteLayout} (hvalid : layout.Valid)
    {f : MemoryWriteField} (hf : f ∈ layout.fields) {place : Int}
    (hplace : hasConstant place f = true) :
    layout.fields.find? (hasConstant place) = some f := by
  cases hfind : layout.fields.find? (hasConstant place) with
  | none => exact absurd hplace (List.find?_eq_none.mp hfind f hf)
  | some g =>
      have hg := List.find?_some hfind
      simp only [hasConstant, Bool.and_eq_true, decide_eq_true_eq] at hg hplace
      rcases eq_or_ne f g with rfl | hne
      · rfl
      · have hapart := apart_of_mem hvalid hf (List.mem_of_find?_eq_some hfind) hne
        simp only [Apart] at hapart
        omega

namespace Documented

variable {layout : MemoryWriteLayout}

theorem fixed_not_documented : ∀ row ∈ documentedFields, .fixed ∉ row.encodings := by decide

theorem row_unique : ∀ row ∈ documentedFields, ∀ other ∈ documentedFields,
    ∀ encoding ∈ row.encodings, encoding ∈ other.encodings → row = other := by decide

/-- The encoding of a field tells its place. -/
theorem row_of_encoding (h : Documented layout) {f : MemoryWriteField} (hf : f ∈ layout.fields)
    (row : DocumentedField) (hrow : row ∈ documentedFields) (henc : f.encoding ∈ row.encodings) :
    row.Is f := by
  rcases h.others f hf with hfixed | ⟨other, hother, his⟩
  · rw [hfixed] at henc
    exact absurd henc (fixed_not_documented row hrow)
  · rw [row_unique row hrow other hother f.encoding henc his.2.2]
    exact his

theorem foldl_leads {fields : List MemoryWriteField} (first : Int) {start : Int}
    (h : ∀ f ∈ fields, leads f = true → stop f = first) :
    fields.foldl (fun start f => if leads f then f.offset + f.length else start) start =
      if fields.any leads then first else start := by
  induction fields generalizing start with
  | nil => rfl
  | cons f rest ih =>
      obtain ⟨hf, hrest⟩ := List.forall_mem_cons.mp h
      rw [List.foldl_cons, ih hrest, List.any_cons]
      cases hlead : leads f with
      | false => rfl
      | true =>
          have hstop : f.offset + f.length = first := hf hlead
          simp [hstop]

theorem dataBlockSpan (h : Documented layout) : layout.dataBlockSpan = some (1, 48) := by
  have hstart : layout.fields.foldl
      (fun start f => if leads f then f.offset + f.length else start) 0 = 1 := by
    rw [foldl_leads 1]
    · obtain ⟨f, hf, hoffset, -, henc⟩ := h.fields .select (by decide)
      rw [if_pos]
      refine List.any_eq_true.mpr ⟨f, hf, ?_⟩
      rw [leads, List.mem_singleton.mp henc, hoffset]
      rfl
    · intro f hf hlead
      simp only [leads, Bool.and_eq_true, beq_iff_eq] at hlead
      have hrow := h.row_of_encoding hf .select (by decide)
        (List.mem_singleton.mpr hlead.1)
      rw [stop, hrow.1, hrow.2.1]
      rfl
  have hname : ∀ f ∈ layout.fields, isName f = true → f.offset = 48 := by
    intro f hf hname
    refine (h.row_of_encoding hf .name (by decide) ?_).1
    simpa [isName, DocumentedField.name] using hname
  rw [MemoryWriteLayout.dataBlockSpan]
  split
  · rename_i hnone
    obtain ⟨f, hf, -, -, henc⟩ := h.fields .name (by decide)
    refine absurd ?_ (List.find?_eq_none.mp hnone f hf)
    simpa [isName, DocumentedField.name] using henc
  · rename_i name hfind
    rw [hstart, hname name (List.mem_of_find?_eq_some hfind) (by simpa using List.find?_some hfind)]
    rfl

theorem shift (h : Documented layout) : Memory.shift layout = 47 := by
  rw [Memory.shift, blockLen, h.dataBlockSpan, h.copies]
  rfl

/-- The places of a field of the block. -/
theorem mem_places (h : Documented layout) {f : MemoryWriteField} (hfirst : 1 ≤ f.offset)
    (hlast : f.offset < 48) : f.offset ∈ places layout f ∧ f.offset + 47 ∈ places layout f := by
  have hplaces := mem_places_twice h.copies h.dataBlockSpan (by decide) f
  exact ⟨(hplaces _).mpr (.inl ⟨rfl, hlast⟩), (hplaces _).mpr (.inr ⟨rfl, hfirst⟩)⟩

end Documented

end Rigplane.Memory
