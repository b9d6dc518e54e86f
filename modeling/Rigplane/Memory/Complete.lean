import Rigplane.Memory.ReadBack

/-!
# The record is complete

For every layout without errors the record that is written has the length of the wire, each field
stands where the table declares it, the repeats of the block are equal, and nothing of what stood in
the record before is left.
-/

namespace Rigplane.Memory

open Civ MemoryWriteLayout

/-- Where a record has a field: a field behind the repeated block is moved by the repeats. -/
def declaredPlace (layout : MemoryWriteLayout) (f : MemoryWriteField) : Int :=
  match layout.dataBlockSpan with
  | some (_, finish) =>
      if finish ≤ f.offset then f.offset + (layout.wireRecordLength - layout.recordLength)
      else f.offset
  | none => f.offset

/-- A record that holds what its layout declares, and nothing else. -/
structure Complete (mem : MemoryChannel) (memory : MemoryProfile) (layout : MemoryWriteLayout)
    (ctcss : Option (List Int)) (dataModeCount : Int) (record : List UInt8) : Prop where
  length : (record.length : Int) = layout.wireRecordLength
  fields : ∀ f ∈ layout.fields, ∃ bytes,
    encodeWriteField f mem memory layout ctcss dataModeCount = .ok bytes ∧
    (bytes.length : Int) = f.length ∧ 0 ≤ declaredPlace layout f ∧
    slice record (declaredPlace layout f).toNat (declaredPlace layout f + f.length).toNat = bytes
  /-- The copies of the block. -/
  repeated : ∀ start finish, layout.dataBlockSpan = some (start, finish) →
    0 ≤ start ∧ start < finish ∧ ∀ copy : Nat, (copy : Int) < layout.copies →
      slice record (start + copy * (finish - start)).toNat
        (finish + copy * (finish - start)).toNat =
        slice record start.toNat finish.toNat
  /-- Each byte is one of a field. -/
  covered : ∀ i < record.length, ∃ f ∈ layout.fields, ∃ place ∈ places layout f,
    place ≤ i ∧ (i : Int) < place + f.length
  /-- The fields write the same record over any other. -/
  written : ∀ before : List UInt8, before.length = record.length →
    writeFields mem memory layout ctcss dataModeCount layout.fields before = .ok record

section

variable {mem : MemoryChannel} {memory : MemoryProfile} {layout : MemoryWriteLayout}
  {ctcss : Option (List Int)} {dataModeCount : Int} {record : List UInt8}

theorem wireRecordLength_eq (hvalid : layout.Valid) :
    layout.wireRecordLength = layout.recordLength + shift layout := by
  rw [wireRecordLength]
  rcases places_cases hvalid with ⟨hcopies, hshift⟩ | ⟨hcopies, start, finish, hspan, -, hshift⟩
  · rw [hshift, Int.add_zero]
    cases layout.dataBlockSpan with
    | none => rfl
    | some span => exact if_pos (by omega)
  · rw [hspan, hshift, hcopies]
    dsimp only
    rw [if_neg (by omega)]
    omega

theorem declaredPlace_mem (hvalid : layout.Valid) (f : MemoryWriteField) :
    declaredPlace layout f ∈ places layout f := by
  rw [declaredPlace, places, wireRecordLength_eq hvalid]
  cases layout.dataBlockSpan with
  | none => exact List.mem_singleton_self _
  | some span =>
      dsimp only
      split
      · rw [List.mem_singleton]
        omega
      · split
        · exact List.mem_cons_self
        · exact List.mem_singleton_self _

theorem start_nonneg (hvalid : layout.Valid) {start finish : Int}
    (h : layout.dataBlockSpan = some (start, finish)) : 0 ≤ start := by
  rw [dataBlockSpan] at h
  cases hname : layout.fields.find? isName with
  | none =>
      rw [hname] at h
      cases h
  | some name =>
      rw [hname] at h
      have hstart := start_cases layout.fields 0
      dsimp only at h
      split at h
      · cases h
      · cases h
        rcases hstart with hzero | ⟨f, hf, -, hstop⟩
        · rw [hzero]
        · rw [hstop, stop]
          have := (hvalid.fields f hf).offset
          have := (hvalid.fields f hf).length
          omega

/-- Every place of the record is one of a field. -/
theorem covered_of_valid (hvalid : layout.Valid) {i : Int} (hi : 0 ≤ i)
    (hlt : i < layout.recordLength + shift layout) :
    ∃ f ∈ layout.fields, ∃ place ∈ places layout f, place ≤ i ∧ i < place + f.length := by
  rcases places_cases hvalid with ⟨hcopies, hshift⟩ | ⟨hcopies, start, finish, hspan, hends, hshift⟩
  · obtain ⟨f, hf, hle, hstop⟩ := hvalid.covered i hi (by omega)
    exact ⟨f, hf, f.offset, by rw [mem_places_once hcopies]; exact List.mem_singleton_self _, hle,
      hstop⟩
  · have hplaces := mem_places_twice hcopies hspan hends.order
    rcases Int.lt_or_le i finish with hfirst | hlater
    -- in the first copy, or before it
    · obtain ⟨f, hf, hle, hstop⟩ := hvalid.covered i hi (by have := hends.ends; omega)
      exact ⟨f, hf, f.offset, (hplaces f _).mpr (.inl ⟨rfl, by omega⟩), hle, hstop⟩
    -- in the repeat, or behind it
    · obtain ⟨f, hf, hle, hstop⟩ := hvalid.covered (i - (finish - start))
        (by have := start_nonneg hvalid hspan; omega) (by omega)
      have hback : start ≤ f.offset := by
        by_contra hbefore
        have := hends.before f hf (by omega)
        omega
      simp only [stop] at hstop
      exact ⟨f, hf, f.offset + (finish - start), (hplaces f _).mpr (.inr ⟨rfl, hback⟩), by omega,
        by omega⟩

/-- A byte of the block stands in its repeat too. -/
theorem block_repeated (hvalid : layout.Valid)
    (h : writeRecord mem memory layout ctcss dataModeCount = .ok record)
    (hcopies : layout.copies = 2)
    {start finish : Int} (hspan : layout.dataBlockSpan = some (start, finish)) {i : Int}
    (hi : start ≤ i) (hlt : i < finish) :
    record[(i + (finish - start)).toNat]? = record[i.toNat]? := by
  have hends := span_of_dataBlockSpan hvalid hspan
  have hstart := start_nonneg hvalid hspan
  obtain ⟨f, hf, hle, hstop⟩ := hvalid.covered i (by omega) (by have := hends.ends; omega)
  have hback : start ≤ f.offset := by
    by_contra hbefore
    have := hends.before f hf (by omega)
    omega
  have hplaces := mem_places_twice hcopies hspan hends.order f
  obtain ⟨-, hstands⟩ := (writeRecord_eq_ok hvalid h).2 f hf
  simp only [stop] at hstop
  have hfirst := hstands _ ((hplaces _).mpr (.inl ⟨rfl, by omega⟩)) (i - f.offset).toNat (by omega)
  have hagain := hstands _ ((hplaces _).mpr (.inr ⟨rfl, hback⟩)) (i - f.offset).toNat (by omega)
  rw [show f.offset.toNat + (i - f.offset).toNat = i.toNat by omega] at hfirst
  rw [show (f.offset + (finish - start)).toNat + (i - f.offset).toNat =
    (i + (finish - start)).toNat by omega] at hagain
  rw [hagain, hfirst]

/-- What is written of a layout without errors is complete. -/
theorem complete_of_writeRecord (hvalid : layout.Valid)
    (h : writeRecord mem memory layout ctcss dataModeCount = .ok record) :
    Complete mem memory layout ctcss dataModeCount record := by
  obtain ⟨hlength, hfields⟩ := writeRecord_eq_ok hvalid h
  have hroom : 0 ≤ layout.recordLength + shift layout := by
    have := hvalid.length
    rcases places_cases hvalid with ⟨-, hshift⟩ | ⟨-, start, finish, -, hends, hshift⟩
    · omega
    · have := hends.order
      omega
  have hcovered : ∀ i < record.length, ∃ f ∈ layout.fields, ∃ place ∈ places layout f,
      place ≤ i ∧ (i : Int) < place + f.length :=
    fun i hi => covered_of_valid hvalid (by omega) (by omega)
  refine ⟨?_, ?_, ?_, hcovered, ?_⟩
  · rw [wireRecordLength_eq hvalid, hlength]
    omega
  · intro f hf
    obtain ⟨hencode, hstands⟩ := hfields f hf
    have hwidth := length_of_encodeWriteField (hvalid.fields f hf) hencode
    have hplace := declaredPlace_mem hvalid f
    have hinside := place_inside hvalid hf hplace
    refine ⟨_, hencode, hwidth, hinside.1, slice_eq (by omega) (by omega) fun i hi => ?_⟩
    exact hstands _ hplace i (by omega)
  · intro start finish hspan
    have hstart := start_nonneg hvalid hspan
    have hends := span_of_dataBlockSpan hvalid hspan
    have horder := hends.order
    refine ⟨hstart, horder, fun copy hcopy => ?_⟩
    rcases places_cases hvalid with ⟨hcopies, -⟩ | ⟨hcopies, first, last, hspan', -, hshift⟩
    · obtain rfl : copy = 0 := by omega
      simp
    · rw [hspan] at hspan'
      cases hspan'
      obtain rfl | rfl : copy = 0 ∨ copy = 1 := by omega
      · simp
      · have hin : finish + (finish - start) ≤ record.length := by
          have := hends.ends
          omega
        rw [Int.natCast_one, Int.one_mul]
        refine slice_eq ?_ (by omega) fun i hi => ?_
        · rw [slice, List.length_drop, List.length_take]
          omega
        · rw [slice, List.length_drop, List.length_take] at hi
          have hagain := block_repeated hvalid h hcopies hspan (i := start + i) (by omega)
            (by omega)
          rw [getElem?_slice record (by omega)]
          rw [show (start + (finish - start)).toNat + i = (start + i + (finish - start)).toNat by
            omega, hagain]
          congr 1
          omega
  · intro before hbefore
    obtain ⟨written, hwritten⟩ :=
      writeFields_of_encoded before fun f hf => (hfields f hf).1
    have hstands := writeFields_stands hvalid (by omega) hwritten
    rw [hwritten]
    refine congrArg Except.ok (List.ext_getElem? fun i => ?_)
    rcases Nat.lt_or_ge i record.length with hin | hout
    · obtain ⟨f, hf, place, hplace, hle, hlt⟩ := hcovered i hin
      have hpos := (place_inside hvalid hf hplace).1
      have hnew := (hstands.2 f hf).2 place hplace (i - place).toNat (by omega)
      have hold := (hfields f hf).2 place hplace (i - place).toNat (by omega)
      rw [show place.toNat + (i - place).toNat = i by omega] at hnew hold
      rw [hnew, hold]
    · rw [List.getElem?_eq_none hout, List.getElem?_eq_none
        (by rw [hstands.1, ← hlength]; exact hout)]

end

/-- The record of every channel that is accepted under a layout without errors is complete. -/
theorem accepted_complete {mem : MemoryChannel} {memory : MemoryProfile}
    {layout : MemoryWriteLayout} {toAddr fromAddr : UInt8} {wire : WireTuple} {modes : List String}
    {ctcss : Option (List Int)} {dataModeCount : Int} {frame : List UInt8}
    (hlayout : memory.writeLayout = some layout) (herrors : layout.validationErrors = [])
    (h : buildMemoryContentsSet mem memory toAddr fromAddr wire modes ctcss dataModeCount =
      .ok frame) :
    ∃ address record, writeRecord mem memory layout ctcss dataModeCount = .ok record ∧
      frame = buildFromMap wire toAddr fromAddr (address ++ record) none ∧
      Complete mem memory layout ctcss dataModeCount record := by
  obtain ⟨layout', hrequire, h⟩ := bind_eq_ok.mp h
  obtain ⟨_, -, h⟩ := bind_eq_ok.mp h
  obtain ⟨address, -, h⟩ := bind_eq_ok.mp h
  obtain ⟨_, -, h⟩ := bind_eq_ok.mp h
  obtain ⟨_, -, h⟩ := bind_eq_ok.mp h
  obtain ⟨_, -, h⟩ := bind_eq_ok.mp h
  obtain ⟨record, hrecord, h⟩ := bind_eq_ok.mp h
  cases h
  simp only [requireWriteLayout, hlayout, herrors, ne_eq, not_true_eq_false, if_false] at hrequire
  cases hrequire
  exact ⟨address, record, hrecord, rfl,
    complete_of_writeRecord (valid_of_validationErrors herrors) hrecord⟩

theorem accepted_complete_repeater :
    ∃ frame, buildMemoryContentsSet (repeater 1) ic705Memory 0xA4 0xE0 ⟨0x1A, [0x00]⟩ ["FM"]
        (some [8850]) 1 = .ok frame ∧
      ∃ address record, writeRecord (repeater 1) ic705Memory ic705Layout (some [8850]) 1 =
          .ok record ∧
        frame = buildFromMap ⟨0x1A, [0x00]⟩ 0xA4 0xE0 (address ++ record) none ∧
        Complete (repeater 1) ic705Memory ic705Layout (some [8850]) 1 record := by
  obtain ⟨frame, hframe⟩ : ∃ frame, buildMemoryContentsSet (repeater 1) ic705Memory 0xA4 0xE0
      ⟨0x1A, [0x00]⟩ ["FM"] (some [8850]) 1 = .ok frame := by
    refine eq_ok_of_isOk ?_
    decide +kernel
  exact ⟨frame, hframe, accepted_complete rfl (by decide +kernel) hframe⟩

end Rigplane.Memory
