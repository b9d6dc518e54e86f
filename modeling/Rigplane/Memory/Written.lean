import Rigplane.Memory.Documented

/-!
# What a documented record holds

Each field of a documented record stands where the guides have it, in both blocks, and what the
write of each field accepts says how it reads back.
-/

namespace Rigplane.Memory

open Civ PackedDecimal MemoryWriteLayout

/-! ## The places of the record -/

theorem getElem?_slice (data : List UInt8) {start stop i : Nat} (h : start + i < stop) :
    (slice data start stop)[i]? = data[start + i]? := by
  rw [slice, List.getElem?_drop, List.getElem?_take_of_lt h]

/-- A part of a record, from what stands there. -/
theorem slice_eq {data bytes : List UInt8} {start stop : Nat}
    (hlength : stop = start + bytes.length)
    (hstop : stop ≤ data.length) (h : ∀ i < bytes.length, data[start + i]? = bytes[i]?) :
    slice data start stop = bytes := by
  refine List.ext_getElem? fun i => ?_
  rcases Nat.lt_or_ge i bytes.length with hin | hout
  · rw [getElem?_slice data (by omega), h i hin]
  · rw [List.getElem?_eq_none hout, List.getElem?_eq_none]
    rw [slice, List.length_drop, List.length_take]
    omega

section

variable {mem : MemoryChannel} {memory : MemoryProfile} {layout : MemoryWriteLayout}
  {ctcss : Option (List Int)} {dataModeCount : Int} {record : List UInt8}

/-- A record of a documented layout. -/
structure Written (mem : MemoryChannel) (memory : MemoryProfile) (layout : MemoryWriteLayout)
    (ctcss : Option (List Int)) (dataModeCount : Int) (record : List UInt8) : Prop where
  valid : layout.Valid
  documented : Documented layout
  writes : writeRecord mem memory layout ctcss dataModeCount = .ok record

theorem Written.length (h : Written mem memory layout ctcss dataModeCount record) :
    record.length = 111 := by
  rw [(writeRecord_eq_ok h.valid h.writes).1, h.documented.shift, h.documented.recordLength]
  rfl

/-- A documented field stands at its places with the bytes that it is encoded as. -/
theorem Written.field (h : Written mem memory layout ctcss dataModeCount record)
    (row : DocumentedField) (hrow : row ∈ documentedFields) :
    ∃ f ∈ layout.fields, ∃ bytes, row.Is f ∧ (bytes.length : Int) = row.length ∧
      encodeWriteField f mem memory layout ctcss dataModeCount = .ok bytes ∧
      ∀ place ∈ places layout f, ∀ i < bytes.length, record[place.toNat + i]? = bytes[i]? := by
  obtain ⟨f, hf, his⟩ := h.documented.fields row hrow
  obtain ⟨hencode, hstands⟩ := (writeRecord_eq_ok h.valid h.writes).2 f hf
  have hlength := length_of_encodeWriteField (h.valid.fields f hf) hencode
  refine ⟨f, hf, _, his, by rw [hlength, his.2.1], hencode, fun place hplace i hi => ?_⟩
  exact hstands place hplace i (by omega)

/-- The field at a place of the first block. -/
theorem Written.covering (h : Written mem memory layout ctcss dataModeCount record) {i : Nat}
    (hfirst : 1 ≤ i) (hlast : i < 48) :
    ∃ f ∈ layout.fields, 1 ≤ f.offset ∧ f.offset ≤ i ∧ (i : Int) < f.offset + f.length ∧
      ∃ bytes, encodeWriteField f mem memory layout ctcss dataModeCount = .ok bytes ∧
        (i - f.offset.toNat < bytes.length) ∧
        record[i]? = bytes[i - f.offset.toNat]? ∧ record[i + 47]? = bytes[i - f.offset.toNat]? := by
  obtain ⟨f, hf, hle, hlt⟩ := h.valid.covered i (by omega)
    (by rw [h.documented.recordLength]; omega)
  have hspan := span_of_dataBlockSpan h.valid h.documented.dataBlockSpan
  have hoffset : 1 ≤ f.offset := by
    by_contra hbefore
    have := hspan.before f hf (by omega)
    omega
  simp only [stop] at hlt
  obtain ⟨hencode, hstands⟩ := (writeRecord_eq_ok h.valid h.writes).2 f hf
  have hlength := length_of_encodeWriteField (h.valid.fields f hf) hencode
  obtain ⟨hone, htwo⟩ := h.documented.mem_places hoffset (by omega)
  have hone := hstands _ hone (i - f.offset.toNat) (by omega)
  have htwo := hstands _ htwo (i - f.offset.toNat) (by omega)
  rw [show f.offset.toNat + (i - f.offset.toNat) = i by omega] at hone
  rw [show (f.offset + 47).toNat + (i - f.offset.toNat) = i + 47 by omega] at htwo
  exact ⟨f, hf, hoffset, hle, hlt, _, hencode, by omega, hone, htwo⟩

/-- The second block is the first again. -/
theorem Written.repeated (h : Written mem memory layout ctcss dataModeCount record) {i : Nat}
    (hfirst : 1 ≤ i) (hlast : i < 48) : record[i + 47]? = record[i]? := by
  obtain ⟨f, -, -, -, -, bytes, -, -, hone, htwo⟩ := h.covering hfirst hlast
  rw [hone, htwo]

/-- The constants of a layout stand in the first block. -/
theorem Written.constant (h : Written mem memory layout ctcss dataModeCount record) {i : Nat}
    (hi : i = 10 ∨ 17 ≤ i ∧ i < 48) : record[i]? = some (constantAt layout i) := by
  obtain ⟨f, hf, -, hle, hlt, bytes, hencode, hin, hstands, -⟩ :=
    h.covering (by omega : 1 ≤ i) (by omega)
  have hfixed : f.encoding = .fixed := by
    rcases h.documented.others f hf with hfixed | ⟨row, hrow, hoffset, hlength, -⟩
    · exact hfixed
    · simp only [documentedFields, List.mem_cons, List.not_mem_nil, or_false] at hrow
      rcases hrow with rfl | rfl | rfl | rfl | rfl | rfl | rfl | rfl | rfl <;>
        simp only [DocumentedField.select, DocumentedField.frequency, DocumentedField.mode,
          DocumentedField.filter, DocumentedField.dataMode, DocumentedField.duplexTone,
          DocumentedField.tone, DocumentedField.tsql, DocumentedField.name] at hoffset hlength <;>
        omega
  have hfind : layout.fields.find? (hasConstant i) = some f :=
    find?_hasConstant h.valid hf (by simp [hasConstant, hfixed, hle, stop, hlt])
  obtain ⟨value, hvalue, -⟩ := (h.valid.fields f hf).fixed hfixed
  rw [encodeWriteField, hfixed, hvalue] at hencode
  dsimp only at hencode
  split at hencode
  · rename_i hhex
    cases hencode
    have hplace : ((i : Int) - f.offset).toNat = i - f.offset.toNat := by
      have := (h.valid.fields f hf).offset
      omega
    rw [hstands, constantAt, hfind]
    simp only [hvalue, Option.bind_some, hhex, Option.getD_some, hplace]
    rw [List.getD_eq_getElem?_getD, List.getElem?_eq_getElem hin, Option.getD_some]
  · cases hencode

theorem getD_of_slice {data bytes : List UInt8} {start stop : Nat}
    (h : slice data start stop = bytes) {i : Nat} (hi : start + i < stop) :
    data.getD (start + i) 0 = bytes.getD i 0 := by
  rw [List.getD_eq_getElem?_getD, List.getD_eq_getElem?_getD, ← h, getElem?_slice data hi]

/-- A field of the block, in the block. -/
theorem Written.part (h : Written mem memory layout ctcss dataModeCount record)
    (row : DocumentedField) (hrow : row ∈ documentedFields) (start stop : Nat)
    (hstart : row.offset = start + 1) (hstop : row.length = stop - start) (hend : stop ≤ 47) :
    ∃ f bytes, row.Is f ∧ encodeWriteField f mem memory layout ctcss dataModeCount = .ok bytes ∧
      slice (slice record 1 48) start stop = bytes := by
  obtain ⟨f, hf, bytes, his, hlength, hencode, hstands⟩ := h.field row hrow
  refine ⟨f, bytes, his, hencode, slice_eq ?_ ?_ fun i hi => ?_⟩
  · have := (h.valid.fields f hf).length
    have := his.2.1
    omega
  · rw [slice, List.length_drop, List.length_take, h.length]
    omega
  · have hplace := (h.documented.mem_places (f := f) (by rw [his.1]; omega)
      (by rw [his.1]; omega)).1
    have hat := hstands f.offset hplace i hi
    have his := his.1
    rw [getElem?_slice record (by omega), ← hat]
    congr 1
    omega

/-! ## Values -/

theorem encodeRecordTone_eq_ok {centihz defaultCentihz : Option Int} {bytes : List UInt8}
    (h : encodeRecordTone centihz defaultCentihz ctcss = .ok bytes) :
    ∃ tone, centihz.or defaultCentihz = some tone ∧ 0 ≤ tone ∧ tone % 10 = 0 ∧
      bcdDecodeValue bytes = .ok (tone / 10).toNat ∧
      ∃ first second third, bytes = [first, second, third] ∧
        (toneDigits first second = true ↔ tone < 30000) := by
  obtain ⟨tone, htone, h⟩ := bind_eq_ok.mp h
  have hsome : centihz.or defaultCentihz = some tone := by
    cases hgiven : centihz.or defaultCentihz with
    | none =>
        rw [hgiven] at htone
        cases htone
    | some given =>
        rw [hgiven] at htone
        obtain ⟨_, _, htone⟩ := bind_eq_ok.mp htone
        obtain ⟨_, _, htone⟩ := bind_eq_ok.mp htone
        cases htone
        rfl
  rw [encodeToneFreq] at h
  split at h
  · cases h
  · obtain ⟨hpos, hlt, hbytes⟩ := bcdEncodeValue_eq_ok.mp h
    refine ⟨tone, hsome, by omega, by omega, bcdDecodeValue_encode h, ?_⟩
    simp only [littleEndian, List.reverse_cons, List.reverse_nil, List.nil_append,
      List.cons_append] at hbytes
    refine ⟨_, _, _, hbytes, ?_⟩
    have hn : (tone / 10).toNat < 1000000 := by omega
    have hfirst : pack ((tone / 10).toNat / 100 / 100 % 100) = 0 ↔
        (tone / 10).toNat / 100 / 100 % 100 = 0 := by
      rw [← UInt8.toNat_inj, toNat_pack (Nat.mod_lt _ (by decide))]
      simp only [UInt8.toNat_zero]
      omega
    rw [toneDigits, Bool.and_eq_true, beq_iff_eq, decide_eq_true_iff, hfirst,
      high_pack (Nat.mod_lt _ (by decide))]
    omega

theorem encode_frequency {f : MemoryWriteField} {bytes : List UInt8}
    (hf : DocumentedField.frequency.Is f)
    (h : encodeWriteField f mem memory layout ctcss dataModeCount = .ok bytes) :
    checkFrequencyDigits mem.frequencyHz memory = .ok () ∧ 0 ≤ mem.frequencyHz ∧
      bcdDecode bytes = .ok mem.frequencyHz.toNat := by
  rw [encodeWriteField, List.mem_singleton.mp hf.2.2] at h
  obtain ⟨hdigits, hbcd⟩ := encodeRecordFrequency_eq_ok h
  exact ⟨hdigits, (bcdEncode_eq_ok hbcd).1, bcdDecode_encode hbcd⟩

theorem encode_mode {f : MemoryWriteField} {bytes : List UInt8} (hf : DocumentedField.mode.Is f)
    (h : encodeWriteField f mem memory layout ctcss dataModeCount = .ok bytes) :
    (∃ dd, ddMemoryMode mem.mode memory mem.group = .ok dd) ∧
      (mem.mode = modeDd ∨ modeOfCode mem.mode ≠ none) ∧
      0 ≤ mem.mode ∧ mem.mode < 256 ∧ bytes = [UInt8.ofNat mem.mode.toNat] := by
  rw [encodeWriteField, List.mem_singleton.mp hf.2.2] at h
  obtain ⟨dd, hdd, h⟩ := bind_eq_ok.mp h
  obtain ⟨_, hknown, h⟩ := bind_eq_ok.mp h
  rw [refuseIf_eq_ok, not_and_or, Decidable.not_not] at hknown
  exact ⟨⟨dd, hdd⟩, hknown, byte_eq_ok.mp h⟩

theorem encode_dataMode {f : MemoryWriteField} {bytes : List UInt8}
    (hf : DocumentedField.dataMode.Is f)
    (h : encodeWriteField f mem memory layout ctcss dataModeCount = .ok bytes) :
    0 ≤ mem.datamode ∧ mem.datamode < 256 ∧ bytes = [UInt8.ofNat mem.datamode.toNat] := by
  rw [encodeWriteField, List.mem_singleton.mp hf.2.2] at h
  obtain ⟨_, _, h⟩ := bind_eq_ok.mp h
  exact byte_eq_ok.mp h

theorem encode_duplexTone {f : MemoryWriteField} {bytes : List UInt8}
    (hf : DocumentedField.duplexTone.Is f)
    (h : encodeWriteField f mem memory layout ctcss dataModeCount = .ok bytes) :
    (∃ dd, ddMemoryMode mem.mode memory mem.group = .ok dd ∧
        checkDuplexNibble mem.duplex dd memory = .ok ()) ∧
      0 ≤ mem.tonemode ∧ mem.tonemode ≤ layout.toneMax ∧
      0 ≤ mem.duplex * 16 + mem.tonemode ∧ mem.duplex * 16 + mem.tonemode < 256 ∧
      bytes = [UInt8.ofNat (mem.duplex * 16 + mem.tonemode).toNat] := by
  rw [encodeWriteField, List.mem_singleton.mp hf.2.2] at h
  obtain ⟨dd, hdd, h⟩ := bind_eq_ok.mp h
  obtain ⟨_, hduplex, h⟩ := bind_eq_ok.mp h
  obtain ⟨_, htone, h⟩ := bind_eq_ok.mp h
  rw [checkToneMode] at htone
  split at htone
  · rename_i hrange
    exact ⟨⟨dd, hdd, hduplex⟩, hrange.1, hrange.2, byte_eq_ok.mp h⟩
  · cases htone

theorem encode_name {f : MemoryWriteField} {bytes : List UInt8} (hf : DocumentedField.name.Is f)
    (h : encodeWriteField f mem memory layout ctcss dataModeCount = .ok bytes) :
    ∃ pad, (pad = 0x20 ∨ pad = 0x00) ∧ encodeRecordName mem.name 16 pad = .ok bytes := by
  obtain ⟨-, hlength, henc⟩ := hf
  rw [encodeWriteField] at h
  rcases List.mem_cons.mp henc with hname | hnul
  · rw [hname] at h
    dsimp only at h
    rw [hlength] at h
    exact ⟨0x20, .inl rfl, h⟩
  · rw [List.mem_singleton.mp hnul] at h
    dsimp only at h
    rw [hlength] at h
    exact ⟨0x00, .inr rfl, h⟩

/-- A name reads back without its trailing spaces. -/
theorem nameText_encode {name : String} {length : Nat} {pad : UInt8} {bytes : List UInt8}
    (hpad : pad = 0x20 ∨ pad = 0x00) (h : encodeRecordName name length pad = .ok bytes) :
    nameText bytes = rstrip name.toList ∧
      ∀ b ∈ bytes, (0x20 ≤ b ∧ b ≤ 0x7E) ∨ b = 0 := by
  obtain ⟨-, hprint, rfl⟩ := encodeRecordName_eq_ok h
  have hchar : ∀ c ∈ name.toList, (UInt8.ofNat c.toNat).toNat = c.toNat := by
    intro c hc
    have := hprint c hc
    rw [UInt8.toNat_ofNat']
    omega
  have hpadText : (if pad = 0 then ' ' else Char.ofNat pad.toNat) = ' ' := by
    rcases hpad with rfl | rfl <;> rfl
  have htext : (name.toList.map fun c => UInt8.ofNat c.toNat).map
      (fun b => if b = 0 then ' ' else Char.ofNat b.toNat) = name.toList := by
    rw [List.map_map]
    refine (List.map_congr_left fun c hc => ?_).trans (List.map_id _)
    have hne : UInt8.ofNat c.toNat ≠ 0 := by
      intro hzero
      have htoNat := hchar c hc
      rw [hzero] at htoNat
      have := hprint c hc
      simp only [UInt8.toNat_zero] at htoNat
      omega
    rw [Function.comp_apply, if_neg hne, hchar c hc, Char.ofNat_toNat]
    rfl
  constructor
  · rw [nameText, List.map_append, htext, List.map_replicate, hpadText, rstrip, rstrip]
    congr 1
    generalize length - name.length = missing
    induction missing with
    | zero => rw [List.replicate_zero, List.append_nil]
    | succ missing ih =>
        rw [List.replicate_succ', ← List.append_assoc, List.rdropWhile_concat_pos _ _ _
          (by simp), ih]
  · intro b hb
    rcases List.mem_append.mp hb with hb | hb
    · obtain ⟨c, hc, rfl⟩ := List.mem_map.mp hb
      have := hprint c hc
      have htoNat := hchar c hc
      rw [UInt8.le_iff_toNat_le, UInt8.le_iff_toNat_le, htoNat]
      exact .inl this
    · rw [List.eq_of_mem_replicate hb]
      rcases hpad with rfl | rfl <;> decide

end

end Rigplane.Memory
