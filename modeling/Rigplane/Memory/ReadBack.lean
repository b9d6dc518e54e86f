import Rigplane.Memory.Written

/-!
# Written channels read back

A channel that is written to a documented record reads back exactly where its data mode, its tones
and the constants of the layout are such as the reader knows.
-/

namespace Rigplane.Memory

open Civ PackedDecimal MemoryWriteLayout

/-- The entry says what the channel says; RPS is no direction. -/
structure Same (mem : MemoryChannel) (entry : MemoryEntry) : Prop where
  group : mem.group = some entry.group
  channel : entry.channel = mem.channel
  full : entry.empty = false
  frequencyHz : entry.frequencyHz = some mem.frequencyHz
  mode : (∃ mode, modeOfCode mem.mode = some mode ∧ entry.mode = some mode.publicName) ∨
    (mem.mode = modeDd ∧ entry.mode = some "DD")
  dataMode : entry.dataMode = decide (mem.datamode ≠ 0)
  duplex : (mem.duplex, entry.duplex) ∈
    [(0, some .simplex), (1, some .minus), (2, some .plus), (3, none)]
  toneMode : (mem.tonemode, entry.toneMode) ∈
    [(0, some .off), (1, some .tone), (2, some .tsql), (3, some .dtcs)]
  toneCentihz : ∀ tone, mem.toneCentihz = some tone → entry.toneCentihz = some tone
  tsqlCentihz : ∀ tone, mem.tsqlCentihz = some tone → entry.tsqlCentihz = some tone
  name : entry.name = rstrip mem.name.toList

/-- The reader takes the frame of the channel, and its entry says what the channel says. -/
def ReadsBack (mem : MemoryChannel) (memory : MemoryProfile) (toAddr fromAddr : UInt8)
    (frame : List UInt8) : Prop :=
  ∃ data entry, frame = buildCivFrame toAddr fromAddr 0x1A (some 0x00) data ∧
    parseMemoryEntry data memory = .ok entry ∧ Same mem entry

/-- The data mode, the tones and the constants are such as the reader knows. -/
structure Readable (mem : MemoryChannel) (memory : MemoryProfile) (layout : MemoryWriteLayout) :
    Prop where
  dataMode : mem.datamode ≤ 1
  tone : ∀ tone, mem.toneCentihz.or layout.defaultToneCentihz = some tone → tone < 30000
  tsql : ∀ tone, mem.tsqlCentihz.or layout.defaultToneCentihz = some tone → tone < 30000
  digitalSquelch : constantAt layout 10 = 0x00 ∨ constantAt layout 10 = 0x10 ∨
    constantAt layout 10 = 0x20
  dtcs : dtcsDigits (constantAt layout 18) (constantAt layout 19) = true
  offset : IsPair (constantAt layout 21) ∧ IsPair (constantAt layout 22) ∧
    IsPair (constantAt layout 23)
  offset10mhz : high (constantAt layout 23) = 0 ∨
    ∃ group ∈ memory.offset10mhzGroups, mem.group = some group

/-! ## The reader -/

theorem parseBlock_eq_ok {block : List UInt8} {memory : MemoryProfile} {group : Int}
    {fields : BlockFields} :
    parseBlock block memory group = .ok fields ↔
      (block.getD 7 0 = 0 ∨ block.getD 7 0 = 1) ∧
      (block.getD 9 0 = 0x00 ∨ block.getD 9 0 = 0x10 ∨ block.getD 9 0 = 0x20) ∧
      (high (block.getD 22 0) = 0 ∨ group ∈ memory.offset10mhzGroups) ∧
      toneDigits (block.getD 10 0) (block.getD 11 0) = true ∧
      toneDigits (block.getD 13 0) (block.getD 14 0) = true ∧
      dtcsDigits (block.getD 17 0) (block.getD 18 0) = true ∧
      ∃ toneMode dd frequencyHz offset tone tsql,
        toneModeByNibble (low (block.getD 8 0)) = .ok toneMode ∧
        ddMemoryMode (block.getD 5 0).toNat memory (some group) = .ok dd ∧
        checkDuplexNibble (high (block.getD 8 0)) dd memory = .ok () ∧
        bcdDecode (slice block 0 5) = .ok frequencyHz ∧
        checkFrequencyDigits frequencyHz memory = .ok () ∧
        bcdDecodeValue [block.getD 22 0, block.getD 21 0, block.getD 20 0] = .ok offset ∧
        bcdDecodeValue (slice block 10 13) = .ok tone ∧
        bcdDecodeValue (slice block 13 16) = .ok tsql ∧
        fields = {
          frequencyHz := frequencyHz
          mode := modeText (block.getD 5 0) dd
          dataMode := block.getD 7 0 == 1
          duplex := duplexByNibble (high (block.getD 8 0))
          offsetHz := offset * 100
          toneMode := toneMode
          toneCentihz := tone * 10
          tsqlCentihz := tsql * 10
          dtcsCode := low (block.getD 17 0) * 100 + high (block.getD 18 0) * 10 +
            low (block.getD 18 0) } := by
  simp only [parseBlock, bind_eq_ok, refuseIf_eq_ok, not_and_or, Decidable.not_not,
    Bool.and_eq_true, not_or]
  constructor
  · rintro ⟨_, h7, _, h9, toneMode, htone, dd, hdd, _, hduplex, frequencyHz, hfreq, _, hdigits, _,
      h22, _, ⟨h10, h13⟩, _, h17, offset, hoffset, tone, ht, tsql, hq, hfields⟩
    cases hfields
    exact ⟨h7, h9, h22, h10, h13, h17, toneMode, dd, frequencyHz, offset, tone, tsql, htone, hdd,
      hduplex, hfreq, hdigits, hoffset, ht, hq, rfl⟩
  · rintro ⟨h7, h9, h22, h10, h13, h17, toneMode, dd, frequencyHz, offset, tone, tsql, htone, hdd,
      hduplex, hfreq, hdigits, hoffset, ht, hq, rfl⟩
    exact ⟨(), h7, (), h9, toneMode, htone, dd, hdd, (), hduplex, frequencyHz, hfreq, (), hdigits,
      (), h22, (), ⟨h10, h13⟩, (), h17, offset, hoffset, tone, ht, tsql, hq, rfl⟩

section

variable {mem : MemoryChannel} {memory : MemoryProfile} {layout : MemoryWriteLayout}
  {ctcss : Option (List Int)} {dataModeCount : Int} {record : List UInt8}

/-! ## The block -/

theorem Written.constantByte (h : Written mem memory layout ctcss dataModeCount record) {i : Nat}
    (hi : i = 9 ∨ 16 ≤ i ∧ i < 47) :
    (slice record 1 48).getD i 0 = constantAt layout ((i : Int) + 1) := by
  have hconstant := h.constant (i := i + 1) (by omega)
  rw [List.getD_eq_getElem?_getD, getElem?_slice record (by omega), Nat.add_comm, hconstant]
  rfl

/-- What the reader finds in the block of a record. -/
structure BlockBytes (mem : MemoryChannel) (memory : MemoryProfile) (layout : MemoryWriteLayout)
    (block : List UInt8) (dd : Bool) (tone tsql : Int) : Prop where
  frequency : bcdDecode (slice block 0 5) = .ok mem.frequencyHz.toNat
  positive : 0 ≤ mem.frequencyHz
  digits : checkFrequencyDigits mem.frequencyHz memory = .ok ()
  mode : ((block.getD 5 0).toNat : Int) = mem.mode
  ddMode : ddMemoryMode mem.mode memory mem.group = .ok dd
  known : mem.mode = modeDd ∨ modeOfCode mem.mode ≠ none
  dataMode : ((block.getD 7 0).toNat : Int) = mem.datamode
  duplex : (high (block.getD 8 0) : Int) = mem.duplex
  duplexFits : checkDuplexNibble mem.duplex dd memory = .ok ()
  toneMode : (low (block.getD 8 0) : Int) = mem.tonemode
  toneModes : mem.tonemode ≤ 3
  toneIs : mem.toneCentihz.or layout.defaultToneCentihz = some tone
  toneTenths : 0 ≤ tone ∧ tone % 10 = 0
  toneBytes : bcdDecodeValue (slice block 10 13) = .ok (tone / 10).toNat
  toneRead : toneDigits (block.getD 10 0) (block.getD 11 0) = true ↔ tone < 30000
  tsqlIs : mem.tsqlCentihz.or layout.defaultToneCentihz = some tsql
  tsqlTenths : 0 ≤ tsql ∧ tsql % 10 = 0
  tsqlBytes : bcdDecodeValue (slice block 13 16) = .ok (tsql / 10).toNat
  tsqlRead : toneDigits (block.getD 13 0) (block.getD 14 0) = true ↔ tsql < 30000
  constants : ∀ i : Nat, i = 9 ∨ 16 ≤ i ∧ i < 47 →
    block.getD i 0 = constantAt layout ((i : Int) + 1)

theorem Written.blockBytes (h : Written mem memory layout ctcss dataModeCount record) :
    ∃ dd tone tsql, BlockBytes mem memory layout (slice record 1 48) dd tone tsql := by
  have hone : ∀ {start : Nat} {value : Int}, 0 ≤ value → value < 256 →
      slice (slice record 1 48) start (start + 1) = [UInt8.ofNat value.toNat] →
      (((slice record 1 48).getD start 0).toNat : Int) = value := by
    intro start value hpos hlt hslice
    have hat := getD_of_slice hslice (i := 0) (by omega)
    rw [Nat.add_zero] at hat
    rw [hat, List.getD_cons_zero, UInt8.toNat_ofNat']
    omega
  obtain ⟨f, freq, hf, hfreq, hfreqAt⟩ := h.part .frequency (by decide) 0 5 rfl rfl (by decide)
  obtain ⟨hdigits, hpos, hdecode⟩ := encode_frequency hf hfreq
  obtain ⟨f, mode, hf, hmode, hmodeAt⟩ := h.part .mode (by decide) 5 6 rfl rfl (by decide)
  obtain ⟨-, hknown, hmodePos, hmodeLt, rfl⟩ := encode_mode hf hmode
  obtain ⟨f, data, hf, hdata, hdataAt⟩ := h.part .dataMode (by decide) 7 8 rfl rfl (by decide)
  obtain ⟨hdataPos, hdataLt, rfl⟩ := encode_dataMode hf hdata
  obtain ⟨f, duplex, hf, hduplex, hduplexAt⟩ := h.part .duplexTone (by decide) 8 9 rfl rfl
    (by decide)
  obtain ⟨⟨dd, hdd, hfits⟩, htonePos, htoneMax, hbytePos, hbyteLt,
    rfl⟩ := encode_duplexTone hf hduplex
  obtain ⟨f, toneBytes, hf, htone, htoneAt⟩ := h.part .tone (by decide) 10 13 rfl rfl (by decide)
  rw [encodeWriteField, List.mem_singleton.mp hf.2.2] at htone
  obtain ⟨tone, htoneIs, htone0, htone10, htoneDecode, b0, b1, b2, rfl, htoneDigits⟩ :=
    encodeRecordTone_eq_ok htone
  obtain ⟨f, tsqlBytes, hf, htsql, htsqlAt⟩ := h.part .tsql (by decide) 13 16 rfl rfl (by decide)
  rw [encodeWriteField, List.mem_singleton.mp hf.2.2] at htsql
  obtain ⟨tsql, htsqlIs, htsql0, htsql10, htsqlDecode, c0, c1, c2, rfl, htsqlDigits⟩ :=
    encodeRecordTone_eq_ok htsql
  have hmax := h.valid.toneMax.2
  have hbyte := hone hbytePos hbyteLt hduplexAt
  exact ⟨dd, tone, tsql, {
    frequency := by rw [hfreqAt, hdecode]
    positive := hpos
    digits := hdigits
    mode := hone hmodePos hmodeLt hmodeAt
    ddMode := hdd
    known := hknown
    dataMode := hone hdataPos hdataLt hdataAt
    duplex := by
      rw [high]
      omega
    duplexFits := hfits
    toneMode := by
      rw [low]
      omega
    toneModes := by omega
    toneIs := htoneIs
    toneTenths := ⟨htone0, htone10⟩
    toneBytes := by rw [htoneAt, htoneDecode]
    toneRead := by
      rw [getD_of_slice htoneAt (i := 0) (by decide), getD_of_slice htoneAt (i := 1) (by decide)]
      exact htoneDigits
    tsqlIs := htsqlIs
    tsqlTenths := ⟨htsql0, htsql10⟩
    tsqlBytes := by rw [htsqlAt, htsqlDecode]
    tsqlRead := by
      rw [getD_of_slice htsqlAt (i := 0) (by decide), getD_of_slice htsqlAt (i := 1) (by decide)]
      exact htsqlDigits
    constants := fun i hi => h.constantByte hi }⟩

/-! ## Taking the block -/

theorem dd_of_ok {code : Int} {group : Option Int} {dd : Bool}
    (h : ddMemoryMode code memory group = .ok dd) : dd = true ↔ code = modeDd := by
  rw [ddMemoryMode] at h
  split at h
  · cases h
  · rename_i hok
    cases h
    constructor
    · intro hdd
      rw [Bool.and_eq_true, beq_iff_eq] at hdd
      exact hdd.1
    · intro hcode
      by_contra hdd
      exact hok ⟨hcode, Bool.eq_false_iff.mpr hdd⟩

theorem duplex_of_ok {duplex : Int} {dd : Bool} (hpos : 0 ≤ duplex)
    (h : checkDuplexNibble duplex dd memory = .ok ()) :
    (duplex, duplexByNibble duplex.toNat) ∈
      [(0, some RepeaterShiftDirection.simplex), (1, some .minus), (2, some .plus), (3, none)] := by
  have hle : duplex ≤ 3 := by
    have hlimit : (if memory.addressing = .groupChannel then (2 : Int) else 3) ≤ 3 := by
      split <;> decide
    rw [checkDuplexNibble] at h
    generalize (if memory.addressing = .groupChannel then (2 : Int) else 3) = limit at h hlimit
    split at h
    · cases h
    · omega
  obtain rfl | rfl | rfl | rfl : duplex = 0 ∨ duplex = 1 ∨ duplex = 2 ∨ duplex = 3 := by omega
  all_goals decide

theorem toneMode_of_le {tonemode : Int} (hpos : 0 ≤ tonemode) (hle : tonemode ≤ 3) :
    ∃ toneMode, toneModeByNibble tonemode.toNat = .ok toneMode ∧
      (tonemode, some toneMode) ∈ [(0, some ToneSquelchType.off), (1, some .tone), (2, some .tsql),
        (3, some .dtcs)] := by
  obtain rfl | rfl | rfl | rfl : tonemode = 0 ∨ tonemode = 1 ∨ tonemode = 2 ∨ tonemode = 3 := by
    omega
  · exact ⟨.off, rfl, by decide⟩
  · exact ⟨.tone, rfl, by decide⟩
  · exact ⟨.tsql, rfl, by decide⟩
  · exact ⟨.dtcs, rfl, by decide⟩

/-- The fields of a block say what the channel says. -/
structure SameFields (mem : MemoryChannel) (fields : BlockFields) : Prop where
  frequencyHz : fields.frequencyHz = mem.frequencyHz
  mode : (∃ mode, modeOfCode mem.mode = some mode ∧ fields.mode = mode.publicName) ∨
    (mem.mode = modeDd ∧ fields.mode = "DD")
  dataMode : fields.dataMode = decide (mem.datamode ≠ 0)
  duplex : (mem.duplex, fields.duplex) ∈
    [(0, some .simplex), (1, some .minus), (2, some .plus), (3, none)]
  toneMode : (mem.tonemode, some fields.toneMode) ∈
    [(0, some .off), (1, some .tone), (2, some .tsql), (3, some .dtcs)]
  toneCentihz : ∀ tone, mem.toneCentihz = some tone → fields.toneCentihz = tone
  tsqlCentihz : ∀ tone, mem.tsqlCentihz = some tone → fields.tsqlCentihz = tone

variable {block : List UInt8} {dd : Bool} {tone tsql : Int} {group : Int}

/-- The reader takes the block where it is readable. -/
theorem BlockBytes.parse (hb : BlockBytes mem memory layout block dd tone tsql)
    (hgroup : mem.group = some group) (hr : Readable mem memory layout) :
    ∃ fields, parseBlock block memory group = .ok fields := by
  obtain ⟨toneMode, htoneMode, -⟩ := toneMode_of_le
    (by have := hb.toneMode; omega : 0 ≤ mem.tonemode) hb.toneModes
  have h17 : block.getD 17 0 = constantAt layout 18 := hb.constants 17 (by decide)
  have h18 : block.getD 18 0 = constantAt layout 19 := hb.constants 18 (by decide)
  have h20 : block.getD 20 0 = constantAt layout 21 := hb.constants 20 (by decide)
  have h21 : block.getD 21 0 = constantAt layout 22 := hb.constants 21 (by decide)
  have h22 : block.getD 22 0 = constantAt layout 23 := hb.constants 22 (by decide)
  have h9 : block.getD 9 0 = constantAt layout 10 := hb.constants 9 (by decide)
  have hoffset : ∀ b ∈ [block.getD 22 0, block.getD 21 0, block.getD 20 0], IsPair b := by
    rw [h20, h21, h22]
    simp only [List.mem_cons, List.not_mem_nil, or_false, forall_eq_or_imp, forall_eq]
    exact ⟨hr.offset.2.2, hr.offset.2.1, hr.offset.1⟩
  refine ⟨_, parseBlock_eq_ok.mpr ⟨?_, ?_, ?_, ?_, ?_, ?_, toneMode, dd, _, _, _, _, ?_, ?_, ?_,
    hb.frequency, ?_, bcdDecodeValue_eq_ok.mpr ⟨hoffset, rfl⟩, hb.toneBytes, hb.tsqlBytes, rfl⟩⟩
  · have hdata := hb.dataMode
    have hle := hr.dataMode
    rw [← UInt8.toNat_inj, ← UInt8.toNat_inj]
    simp only [UInt8.toNat_zero, UInt8.toNat_one]
    omega
  · rw [h9]
    exact hr.digitalSquelch
  · rw [h22]
    refine hr.offset10mhz.imp_right ?_
    rintro ⟨other, hother, hmem⟩
    rw [hgroup] at hmem
    cases hmem
    exact hother
  · exact hb.toneRead.mpr (hr.tone tone hb.toneIs)
  · exact hb.tsqlRead.mpr (hr.tsql tsql hb.tsqlIs)
  · rw [h17, h18]
    exact hr.dtcs
  · have hlow : low (block.getD 8 0) = mem.tonemode.toNat := by
      have := hb.toneMode
      omega
    rw [hlow, htoneMode]
  · rw [hb.mode, ← hgroup, hb.ddMode]
  · rw [hb.duplex, hb.duplexFits]
  · rw [Int.toNat_of_nonneg hb.positive, hb.digits]

/-- What the reader takes is readable, and says what the channel says. -/
theorem BlockBytes.readable (hb : BlockBytes mem memory layout block dd tone tsql)
    (hgroup : mem.group = some group) {fields : BlockFields}
    (h : parseBlock block memory group = .ok fields) :
    Readable mem memory layout ∧ SameFields mem fields := by
  have h17 : block.getD 17 0 = constantAt layout 18 := hb.constants 17 (by decide)
  have h18 : block.getD 18 0 = constantAt layout 19 := hb.constants 18 (by decide)
  have h20 : block.getD 20 0 = constantAt layout 21 := hb.constants 20 (by decide)
  have h21 : block.getD 21 0 = constantAt layout 22 := hb.constants 21 (by decide)
  have h22 : block.getD 22 0 = constantAt layout 23 := hb.constants 22 (by decide)
  have h9 : block.getD 9 0 = constantAt layout 10 := hb.constants 9 (by decide)
  have hdata := hb.dataMode
  obtain ⟨hdata7, hsquelch, h10mhz, htone, htsql, hdtcs, toneMode, dd', freq, offset, tone', tsql',
    htoneMode, hdd, hduplex, hfreq, hdigits, hoffset, htoneIs, htsqlIs,
      rfl⟩ := parseBlock_eq_ok.mp h
  rw [← UInt8.toNat_inj, ← UInt8.toNat_inj] at hdata7
  simp only [UInt8.toNat_zero, UInt8.toNat_one] at hdata7
  constructor
  · refine ⟨by omega, ?_, ?_, by rw [← h9]; exact hsquelch, by rw [← h17, ← h18]; exact hdtcs, ?_,
      ?_⟩
    · intro given hgiven
      rw [hb.toneIs] at hgiven
      cases hgiven
      exact hb.toneRead.mp htone
    · intro given hgiven
      rw [hb.tsqlIs] at hgiven
      cases hgiven
      exact hb.tsqlRead.mp htsql
    · have hpairs := (bcdDecodeValue_eq_ok.mp hoffset).1
      rw [h20, h21, h22] at hpairs
      simp only [List.mem_cons, List.not_mem_nil, or_false, forall_eq_or_imp, forall_eq] at hpairs
      exact ⟨hpairs.2.2, hpairs.2.1, hpairs.1⟩
    · rw [← h22]
      exact h10mhz.imp_right fun hmem => ⟨group, hmem, hgroup⟩
  · have htones := hb.toneTenths
    have htsqls := hb.tsqlTenths
    refine ⟨?_, ?_, ?_, ?_, ?_, ?_, ?_⟩
    · rw [hb.frequency] at hfreq
      cases hfreq
      exact Int.toNat_of_nonneg hb.positive
    · have hddIs := dd_of_ok hdd
      rw [hb.mode] at hddIs
      dsimp only [modeText]
      rw [hb.mode]
      cases hmode : modeOfCode mem.mode with
      | some mode => exact .inl ⟨mode, rfl, rfl⟩
      | none =>
          have hcode : mem.mode = modeDd := hb.known.resolve_right fun hne => hne hmode
          rw [hddIs.mpr hcode]
          exact .inr ⟨hcode, rfl⟩
    · have hone : (block.getD 7 0 == 1) = decide (mem.datamode ≠ 0) := by
        rw [Bool.eq_iff_iff, beq_iff_eq, decide_eq_true_iff, ← UInt8.toNat_inj, UInt8.toNat_one]
        omega
      exact hone
    · have hnibble : high (block.getD 8 0) = mem.duplex.toNat := by
        have := hb.duplex
        omega
      dsimp only
      rw [hnibble]
      exact duplex_of_ok (by have := hb.duplex; omega) hb.duplexFits
    · have hnibble : low (block.getD 8 0) = mem.tonemode.toNat := by
        have := hb.toneMode
        omega
      obtain ⟨toneMode', htoneMode', hmem⟩ := toneMode_of_le
        (by have := hb.toneMode; omega : 0 ≤ mem.tonemode) hb.toneModes
      rw [hnibble, htoneMode'] at htoneMode
      cases htoneMode
      exact hmem
    · intro given hgiven
      have hsame := hb.toneIs
      rw [hgiven, Option.some_or] at hsame
      cases hsame
      rw [hb.toneBytes] at htoneIs
      cases htoneIs
      dsimp only
      omega
    · intro given hgiven
      have hsame := hb.tsqlIs
      rw [hgiven, Option.some_or] at hsame
      cases hsame
      rw [hb.tsqlBytes] at htsqlIs
      cases htsqlIs
      dsimp only
      omega

/-! ## Taking the record -/

theorem Written.select (h : Written mem memory layout ctcss dataModeCount record) :
    record.getD 0 0 = 0 := by
  obtain ⟨f, hf, bytes, his, -, hencode, hstands⟩ := h.field .select (by decide)
  rw [encodeWriteField, List.mem_singleton.mp his.2.2] at hencode
  cases hencode
  have hplaces := mem_places_twice h.documented.copies h.documented.dataBlockSpan (by decide) f
  have hat := hstands f.offset ((hplaces _).mpr (.inl ⟨rfl, by rw [his.1]; decide⟩)) 0 (by decide)
  rw [his.1] at hat
  rw [List.getD_eq_getElem?_getD]
  exact congrArg (Option.getD · 0) hat

theorem Written.secondBlock (h : Written mem memory layout ctcss dataModeCount record) :
    slice record 48 95 = slice record 1 48 := by
  have hlength := h.length
  refine slice_eq ?_ (by omega) fun i hi => ?_
  · rw [slice, List.length_drop, List.length_take]
    omega
  · rw [slice, List.length_drop, List.length_take] at hi
    rw [getElem?_slice record (by omega), ← h.repeated (by omega : 1 ≤ 1 + i) (by omega)]
    congr 1
    omega

theorem Written.name (h : Written mem memory layout ctcss dataModeCount record) :
    nameText (slice record 95 111) = rstrip mem.name.toList ∧
      ∀ b ∈ slice record 95 111, (0x20 ≤ b ∧ b ≤ 0x7E) ∨ b = 0 := by
  obtain ⟨f, hf, bytes, his, hlength, hencode, hstands⟩ := h.field .name (by decide)
  obtain ⟨pad, hpad, hname⟩ := encode_name his hencode
  have hplaces := mem_places_twice h.documented.copies h.documented.dataBlockSpan (by decide) f
  have hoffset : f.offset = 48 := his.1
  have hlen : bytes.length = 16 := length_of_encodeRecordName hname
  have hslice : slice record 95 111 = bytes := by
    refine slice_eq (by omega) (by rw [h.length]) fun i hi => ?_
    have hat := hstands (f.offset + (48 - 1))
      ((hplaces _).mpr (.inr ⟨rfl, by rw [hoffset]; decide⟩)) i hi
    rw [hoffset] at hat
    exact hat
  rw [hslice]
  exact nameText_encode hpad hname

/-- The reader takes the record as far as it takes the block. -/
theorem Written.parseRecord (h : Written mem memory layout ctcss dataModeCount record)
    (addressLen group channel : Nat) (entry : MemoryEntry) :
    Memory.parseRecord addressLen record memory group channel = .ok entry ↔
      ∃ fields, parseBlock (slice record 1 48) memory group = .ok fields ∧
        entry = {
          group := group
          channel := channel
          name := rstrip mem.name.toList
          frequencyHz := some fields.frequencyHz
          mode := some fields.mode
          dataMode := fields.dataMode
          duplex := fields.duplex
          offsetHz := some fields.offsetHz
          toneMode := some fields.toneMode
          toneCentihz := some fields.toneCentihz
          tsqlCentihz := some fields.tsqlCentihz
          dtcsCode := some fields.dtcsCode } := by
  obtain ⟨hname, hprint⟩ := h.name
  have hprint : ¬ (slice record 95 111).any
      (fun b => !((0x20 ≤ b && b ≤ 0x7E) || b == 0)) = true := by
    rw [List.any_eq_true]
    rintro ⟨b, hb, hbad⟩
    simp only [Bool.not_eq_true', Bool.or_eq_false_iff, Bool.and_eq_false_iff,
      decide_eq_false_iff_not,
      beq_eq_false_iff_ne] at hbad
    rcases hprint b hb with ⟨hlow, hhigh⟩ | hzero
    · exact hbad.1.elim (fun hno => hno hlow) fun hno => hno hhigh
    · exact hbad.2 hzero
  have hselect : ¬ (high (record.getD 0 0) > (if memory.addressing = .groupChannel then 1 else 0) ∨
      low (record.getD 0 0) > 3) := by
    rw [h.select]
    simp [high, low]
  have hlen : ¬ record.length ≠ 1 + 2 * memoryBlockLen + memoryNameLen := by
    rw [h.length]
    decide
  rw [Memory.parseRecord]
  simp only [bind_eq_ok, refuseIf_eq_ok]
  constructor
  · rintro ⟨_, -, _, -, fields, hfields, _, -, _, -, hentry⟩
    cases hentry
    exact ⟨fields, hfields, by rw [← hname]; rfl⟩
  · rintro ⟨fields, hfields, rfl⟩
    refine ⟨(), hselect, (), hlen, fields, hfields, fields, ?_, (), hprint, ?_⟩
    · rw [← hfields]
      exact congrArg (parseBlock · memory group) h.secondBlock
    · rw [← hname]
      rfl

/-- The two numbers of an address, as they are written. -/
structure AddressBytes (group channel : Int) (byteCount : Nat)
    (groupBytes channelBytes : List UInt8) : Prop where
  groupLength : groupBytes.length = byteCount
  channelLength : channelBytes.length = 2
  groupRead : bcdDecodeValue groupBytes = .ok group.toNat
  channelRead : bcdDecodeValue channelBytes = .ok channel.toNat
  positive : 0 ≤ group ∧ 0 ≤ channel

theorem addressBytes_of_ok {channel : Int} {byteCount : Nat} {address : List UInt8}
    (h : (do return (← bcdEncodeValue group byteCount) ++ (← bcdEncodeValue channel 2)) =
      Except.ok address) :
    ∃ groupBytes channelBytes, address = groupBytes ++ channelBytes ∧
      AddressBytes group channel byteCount groupBytes channelBytes := by
  obtain ⟨groupBytes, hg, h⟩ := bind_eq_ok.mp h
  obtain ⟨channelBytes, hc, h⟩ := bind_eq_ok.mp h
  cases h
  exact ⟨groupBytes, channelBytes, rfl, length_of_bcdEncodeValue hg, length_of_bcdEncodeValue hc,
    bcdDecodeValue_encode hg, bcdDecodeValue_encode hc, (bcdEncodeValue_eq_ok.mp hg).1,
    (bcdEncodeValue_eq_ok.mp hc).1⟩

theorem encodeMemoryAddress_eq_ok {channel : Int} {address : List UInt8}
    (hgrouped : memory.Grouped) (h : encodeMemoryAddress memory group channel = .ok address) :
    (memory.firstGroup ≤ group ∧ group ≤ memory.lastGroup ∧
      memory.firstChannel ≤ channel ∧ channel ≤ memory.lastChannel) ∧
    ∃ byteCount groupBytes channelBytes, addressLen memory.addressing = some (byteCount + 2) ∧
      address = groupBytes ++ channelBytes ∧
      AddressBytes group channel byteCount groupBytes channelBytes := by
  rw [encodeMemoryAddress] at h
  split at h
  · cases h
  · rename_i hgroup
    split at h
    · cases h
    · rename_i hchannel
      rw [Decidable.not_not] at hgroup hchannel
      refine ⟨⟨hgroup.1, hgroup.2, hchannel.1, hchannel.2⟩, ?_⟩
      rcases hgrouped with haddressing | haddressing
      · rw [haddressing] at h ⊢
        obtain ⟨groupBytes, channelBytes, haddress⟩ := addressBytes_of_ok h
        exact ⟨2, groupBytes, channelBytes, rfl, haddress⟩
      · rw [haddressing] at h ⊢
        obtain ⟨groupBytes, channelBytes, haddress⟩ := addressBytes_of_ok h
        exact ⟨1, groupBytes, channelBytes, rfl, haddress⟩

/-- The reader finds the address and the record of what was written. -/
theorem Written.parseMemoryEntry (h : Written mem memory layout ctcss dataModeCount record)
    (hgrouped : memory.Grouped) {channel : Int} {address : List UInt8}
    (haddress : encodeMemoryAddress memory group channel = .ok address) :
    0 ≤ group ∧ 0 ≤ channel ∧ ∃ addressLen, Memory.parseMemoryEntry (address ++ record) memory =
      Memory.parseRecord addressLen record memory group.toNat channel.toNat := by
  obtain ⟨hbounds, byteCount, groupBytes, channelBytes, hlen, rfl, hbytes⟩ :=
    encodeMemoryAddress_eq_ok hgrouped haddress
  have hgroupLength := hbytes.groupLength
  have hchannelLength := hbytes.channelLength
  have hrecord := h.length
  have htake : (groupBytes ++ channelBytes ++ record).take (byteCount + 2 - 2) = groupBytes := by
    rw [Nat.add_sub_cancel, ← hgroupLength, List.append_assoc, List.take_left]
  have hslice : slice (groupBytes ++ channelBytes ++ record) (byteCount + 2 - 2) (byteCount + 2) =
      channelBytes := by
    have hstop : byteCount + 2 = (groupBytes ++ channelBytes).length := by
      rw [List.length_append]
      omega
    rw [slice, hstop, List.take_left, ← hstop, Nat.add_sub_cancel, ← hgroupLength, List.drop_left]
  have hdrop : (groupBytes ++ channelBytes ++ record).drop (byteCount + 2) = record := by
    have hstop : byteCount + 2 = (groupBytes ++ channelBytes).length := by
      rw [List.length_append]
      omega
    rw [hstop, List.drop_left]
  refine ⟨hbytes.positive.1, hbytes.positive.2, byteCount + 2, ?_⟩
  rw [Memory.parseMemoryEntry, hlen]
  dsimp only
  rw [htake, hslice, hdrop, hbytes.groupRead, hbytes.channelRead]
  have hshort : ¬ (groupBytes ++ channelBytes ++ record).length < byteCount + 2 + 1 := by
    rw [List.length_append, List.length_append]
    omega
  have hinside : ¬ ¬ (memory.firstGroup ≤ (group.toNat : Int) ∧
      (group.toNat : Int) ≤ memory.lastGroup ∧ memory.firstChannel ≤ (channel.toNat : Int) ∧
      (channel.toNat : Int) ≤ memory.lastChannel) := by
    rw [Decidable.not_not, Int.toNat_of_nonneg hbytes.positive.1,
      Int.toNat_of_nonneg hbytes.positive.2]
    exact hbounds
  have hfull : record ≠ [0xFF] := by
    rintro rfl
    cases hrecord
  rw [refuseIf_of_not hshort, ok_bind, ok_bind, ok_bind, refuseIf_of_not hinside, ok_bind]
  exact if_neg hfull

end

/-! ## The frame -/

/-- What an accepted channel of a grouped profile is written as. -/
theorem buildMemoryContentsSet_eq_ok {mem : MemoryChannel} {memory : MemoryProfile}
    {layout : MemoryWriteLayout} {toAddr fromAddr : UInt8} {wire : WireTuple}
    {modes : List String} {ctcss : Option (List Int)} {dataModeCount : Int} {frame : List UInt8}
    (hlayout : memory.writeLayout = some layout) (hgrouped : memory.Grouped)
    (h : buildMemoryContentsSet mem memory toAddr fromAddr wire modes ctcss dataModeCount =
      .ok frame) :
    ∃ group address record, layout.validationErrors = [] ∧ mem.group = some group ∧
      encodeMemoryAddress memory group mem.channel = .ok address ∧
      writeRecord mem memory layout ctcss dataModeCount = .ok record ∧
      frame = buildFromMap wire toAddr fromAddr (address ++ record) none := by
  obtain ⟨layout', hrequire, h⟩ := bind_eq_ok.mp h
  obtain ⟨group, hgroup, h⟩ := bind_eq_ok.mp h
  obtain ⟨address, haddress, h⟩ := bind_eq_ok.mp h
  obtain ⟨_, -, h⟩ := bind_eq_ok.mp h
  obtain ⟨_, -, h⟩ := bind_eq_ok.mp h
  obtain ⟨_, -, h⟩ := bind_eq_ok.mp h
  obtain ⟨record, hrecord, h⟩ := bind_eq_ok.mp h
  cases h
  simp only [requireWriteLayout, hlayout] at hrequire
  split at hrequire
  · cases hrequire
  · rename_i hvalid
    cases hrequire
    rw [Decidable.not_not] at hvalid
    cases hmem : mem.group with
    | some given =>
        rw [hmem] at hgroup
        cases hgroup
        exact ⟨group, address, record, hvalid, rfl, haddress, hrecord, rfl⟩
    | none =>
        rw [hmem, requiredMemoryGroup] at hgroup
        rcases hgrouped with haddressing | haddressing <;> rw [haddressing] at hgroup <;>
          cases hgroup

theorem buildCivFrame_inj {toAddr fromAddr command : UInt8} {sub : Option UInt8}
    {data data' : List UInt8}
    (h : buildCivFrame toAddr fromAddr command sub data =
      buildCivFrame toAddr fromAddr command sub data') : data = data' := by
  rw [buildCivFrame, buildCivFrame] at h
  exact List.append_cancel_left (List.append_cancel_right h)

/-- A channel that is accepted for a documented record reads back exactly where it is readable. -/
theorem reads_back_iff {mem : MemoryChannel} {memory : MemoryProfile} {layout : MemoryWriteLayout}
    {toAddr fromAddr : UInt8} {modes : List String} {ctcss : Option (List Int)}
    {dataModeCount : Int} {frame : List UInt8} (hlayout : memory.writeLayout = some layout)
    (hgrouped : memory.Grouped) (hdocumented : Documented layout)
    (hbuild : buildMemoryContentsSet mem memory toAddr fromAddr ⟨0x1A, [0x00]⟩ modes ctcss
      dataModeCount = .ok frame) :
    ReadsBack mem memory toAddr fromAddr frame ↔ Readable mem memory layout := by
  obtain ⟨group, address, record, hvalid, hgroup, haddress, hrecord, rfl⟩ :=
    buildMemoryContentsSet_eq_ok hlayout hgrouped hbuild
  have hwritten : Written mem memory layout ctcss dataModeCount record :=
    ⟨valid_of_validationErrors hvalid, hdocumented, hrecord⟩
  obtain ⟨dd, tone, tsql, hblock⟩ := hwritten.blockBytes
  obtain ⟨hgroupPos, hchannelPos, addressLen, hparse⟩ :=
    hwritten.parseMemoryEntry hgrouped haddress
  have hframe : buildFromMap ⟨0x1A, [0x00]⟩ toAddr fromAddr (address ++ record) none =
      buildCivFrame toAddr fromAddr 0x1A (some 0x00) (address ++ record) := rfl
  have hmem : mem.group = some (group.toNat : Int) := by
    rw [hgroup, Int.toNat_of_nonneg hgroupPos]
  constructor
  · rintro ⟨data, entry, hdata, hentry, -⟩
    rw [← buildCivFrame_inj (hframe.symm.trans hdata), hparse, hwritten.parseRecord] at hentry
    obtain ⟨fields, hfields, -⟩ := hentry
    exact (hblock.readable hmem hfields).1
  · intro hreadable
    obtain ⟨fields, hfields⟩ := hblock.parse hmem hreadable
    have hsame := (hblock.readable hmem hfields).2
    have hentry := (hwritten.parseRecord addressLen group.toNat mem.channel.toNat _).mpr
      ⟨fields, hfields, rfl⟩
    refine ⟨address ++ record, _, hframe, hparse.trans hentry, ?_⟩
    exact {
      group := hmem
      channel := Int.toNat_of_nonneg hchannelPos
      full := rfl
      frequencyHz := congrArg some hsame.frequencyHz
      mode := hsame.mode.imp (fun ⟨mode, hmode, htext⟩ => ⟨mode, hmode, congrArg some htext⟩)
        (And.imp_right (congrArg some))
      dataMode := hsame.dataMode
      duplex := hsame.duplex
      toneMode := hsame.toneMode
      toneCentihz := fun tone htone => congrArg some (hsame.toneCentihz tone htone)
      tsqlCentihz := fun tone htone => congrArg some (hsame.tsqlCentihz tone htone)
      name := rfl }

/-- The layout of the IC-705. -/
def ic705Layout : MemoryWriteLayout where
  clear := .contentsFf
  recordLength := 64
  copies := 2
  defaultToneCentihz := some 8850
  fields := [
    { field := "select", offset := 0, length := 1, encoding := .select },
    { field := "frequency", offset := 1, length := 5, encoding := .frequency,
      maxHz := some 999999999 },
    { field := "mode", offset := 6, length := 1, encoding := .mode },
    { field := "filter", offset := 7, length := 1, encoding := .filter },
    { field := "data_mode", offset := 8, length := 1, encoding := .dataMode },
    { field := "duplex_tone", offset := 9, length := 1, encoding := .duplexTone },
    { field := "digital_squelch", offset := 10, length := 1, encoding := .fixed,
      value := some "00" },
    { field := "tone", offset := 11, length := 3, encoding := .tone },
    { field := "tsql", offset := 14, length := 3, encoding := .tsql },
    { field := "dtcs", offset := 17, length := 3, encoding := .fixed, value := some "000023" },
    { field := "dv_code", offset := 20, length := 1, encoding := .fixed, value := some "00" },
    { field := "duplex_offset", offset := 21, length := 3, encoding := .fixed,
      value := some "000000" },
    { field := "callsigns", offset := 24, length := 24, encoding := .fixed,
      value := some "202020202020202020202020202020202020202020202020" },
    { field := "name", offset := 48, length := 16, encoding := .name }]

/-- A profile with the layout of the IC-705. -/
def ic705Memory : MemoryProfile where
  addressing := .groupChannel
  firstGroup := 0
  lastGroup := 99
  firstChannel := 0
  lastChannel := 99
  writeLayout := some ic705Layout

/-- A repeater channel with a tone and a data mode. -/
def repeater (datamode : Int) : MemoryChannel where
  channel := 7
  frequencyHz := 145600000
  mode := 0x05
  filter := 1
  scan := 0
  datamode := datamode
  tonemode := 1
  name := "DB0ABC "
  group := some 3
  duplex := 1
  toneCentihz := some 8850

theorem documented_ic705Layout : Documented ic705Layout where
  recordLength := rfl
  copies := rfl
  fields := by decide
  others := by decide

theorem reads_back_repeater :
    ∃ frame, buildMemoryContentsSet (repeater 1) ic705Memory 0xA4 0xE0 ⟨0x1A, [0x00]⟩ ["FM"]
        (some [8850]) 1 = .ok frame ∧ ReadsBack (repeater 1) ic705Memory 0xA4 0xE0 frame := by
  obtain ⟨frame, hframe⟩ : ∃ frame, buildMemoryContentsSet (repeater 1) ic705Memory 0xA4 0xE0
      ⟨0x1A, [0x00]⟩ ["FM"] (some [8850]) 1 = .ok frame := by
    refine eq_ok_of_isOk ?_
    decide +kernel
  refine ⟨frame, hframe, (reads_back_iff rfl (.inl rfl) documented_ic705Layout hframe).mpr ?_⟩
  refine ⟨by decide, ?_, ?_, by decide +kernel, by decide +kernel, by decide +kernel, ?_⟩
  · intro tone htone
    cases htone
    decide
  · intro tone htone
    cases htone
    decide
  · exact .inl (by decide +kernel)

/-- A second data mode is written where the profile counts two, and the reader refuses it. -/
theorem second_data_mode :
    ¬ ∀ (mem : MemoryChannel) (memory : MemoryProfile) (layout : MemoryWriteLayout)
      (toAddr fromAddr : UInt8) (modes : List String) (ctcss : Option (List Int))
      (dataModeCount : Int) (frame : List UInt8), memory.writeLayout = some layout →
      memory.Grouped → Documented layout →
      buildMemoryContentsSet mem memory toAddr fromAddr ⟨0x1A, [0x00]⟩ modes ctcss dataModeCount =
        .ok frame → ReadsBack mem memory toAddr fromAddr frame := by
  intro hall
  obtain ⟨frame, hframe⟩ : ∃ frame, buildMemoryContentsSet (repeater 2) ic705Memory 0xA4 0xE0
      ⟨0x1A, [0x00]⟩ ["FM"] (some [8850]) 2 = .ok frame := by
    refine eq_ok_of_isOk ?_
    decide +kernel
  obtain ⟨data, entry, hdata, hentry, -⟩ := hall (repeater 2) ic705Memory ic705Layout 0xA4 0xE0
    ["FM"] (some [8850]) 2 frame rfl (.inl rfl) documented_ic705Layout hframe
  have hrefused : (do
      let frame ← buildMemoryContentsSet (repeater 2) ic705Memory 0xA4 0xE0 ⟨0x1A, [0x00]⟩ ["FM"]
        (some [8850]) 2
      parseMemoryEntry (frame.drop 6).dropLast ic705Memory).isOk = false := by
    decide +kernel
  have hbody : (frame.drop 6).dropLast = data := by
    rw [hdata]
    exact List.dropLast_concat
  rw [hframe, ok_bind, hbody, hentry] at hrefused
  cases hrefused

end Rigplane.Memory
