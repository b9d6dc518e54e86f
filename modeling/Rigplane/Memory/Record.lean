import Mathlib.Data.List.Pairwise
import Rigplane.Lib.Overwrite
import Rigplane.Memory.Contents
import Rigplane.Memory.Layout

/-!
# The record that is written

Each field of a layout without errors is as long as the layout says, and stands in the record at its
place and, where its block is repeated, at the same place of the repeat.
-/

namespace Rigplane.Memory

open Civ PackedDecimal MemoryWriteLayout

/-- The bind of a computation that may refuse. -/
theorem bind_eq_ok {ε α β : Type} {x : Except ε α} {f : α → Except ε β} {b : β} :
    x >>= f = .ok b ↔ ∃ a, x = .ok a ∧ f a = .ok b := by
  cases x with
  | error e => exact ⟨fun h => (by cases h), fun ⟨a, ha, _⟩ => (by cases ha)⟩
  | ok a => exact ⟨fun h => ⟨a, rfl, h⟩, fun ⟨a', ha, h⟩ => (by cases ha; exact h)⟩

theorem ok_bind {ε α β : Type} (a : α) (f : α → Except ε β) : (Except.ok a >>= f) = f a := rfl

theorem eq_ok_of_isOk {ε α : Type} {x : Except ε α} (h : x.isOk = true) : ∃ a, x = .ok a := by
  cases x with
  | error e => cases h
  | ok a => exact ⟨a, rfl⟩

/-! ## The length of a field -/

theorem byte_eq_ok {value : Int} {bytes : List UInt8} :
    byte value = .ok bytes ↔ 0 ≤ value ∧ value < 256 ∧ bytes = [UInt8.ofNat value.toNat] := by
  rw [byte]
  split
  · rename_i h
    constructor
    · intro hb
      cases hb
      exact ⟨h.1, h.2, rfl⟩
    · rintro ⟨-, -, rfl⟩
      rfl
  · rename_i h
    constructor
    · intro hb
      cases hb
    · rintro ⟨h1, h2, -⟩
      exact absurd ⟨h1, h2⟩ h

theorem length_fromHex {chars : List Char} {bytes : List UInt8} (h : fromHex chars = some bytes) :
    chars.length = 2 * bytes.length := by
  induction chars using fromHex.induct generalizing bytes with
  | case1 =>
      cases h
      rfl
  | case2 c => cases h
  | case3 c d rest ih =>
      simp only [fromHex, Option.bind_eq_bind, Option.pure_def, Option.bind_eq_some_iff,
        Option.some.injEq] at h
      obtain ⟨hc, -, hd, -, more, hmore, rfl⟩ := h
      rw [List.length_cons, List.length_cons, List.length_cons, ih hmore]
      omega

theorem encodeRecordName_eq_ok {name : String} {length : Nat} {pad : UInt8} {bytes : List UInt8}
    (h : encodeRecordName name length pad = .ok bytes) :
    name.length ≤ length ∧ (∀ c ∈ name.toList, 0x20 ≤ c.toNat ∧ c.toNat ≤ 0x7E) ∧
      bytes = (name.toList.map fun c => UInt8.ofNat c.toNat) ++
        List.replicate (length - name.length) pad := by
  rw [encodeRecordName] at h
  split at h
  · cases h
  · split at h
    · cases h
    · rename_i hascii
      dsimp only at h
      split at h
      · cases h
      · rename_i hprint
        cases h
        refine ⟨by omega, ?_, by rw [List.length_map, String.length_toList]⟩
        intro c hc
        have hlt : c.toNat < 128 := by
          rw [List.any_eq_true] at hascii
          exact Nat.lt_of_not_le fun hge => hascii ⟨c, hc, by simpa using hge⟩
        have hprintable : 0x20 ≤ UInt8.ofNat c.toNat ∧ UInt8.ofNat c.toNat ≤ 0x7E := by
          rw [List.any_eq_true] at hprint
          by_contra hbad
          refine hprint ⟨_, List.mem_map.mpr ⟨c, hc, rfl⟩, ?_⟩
          rw [Bool.not_eq_true', ← Bool.not_eq_true, Bool.and_eq_true, decide_eq_true_iff,
            decide_eq_true_iff]
          exact hbad
        rw [UInt8.le_iff_toNat_le, UInt8.le_iff_toNat_le, UInt8.toNat_ofNat'] at hprintable
        have h1 : (0x20 : UInt8).toNat = 0x20 := rfl
        have h2 : (0x7E : UInt8).toNat = 0x7E := rfl
        omega

theorem length_of_encodeRecordName {name : String} {length : Nat} {pad : UInt8}
    {bytes : List UInt8} (h : encodeRecordName name length pad = .ok bytes) :
    bytes.length = length := by
  obtain ⟨hle, -, rfl⟩ := encodeRecordName_eq_ok h
  rw [List.length_append, List.length_map, String.length_toList, List.length_replicate]
  omega

theorem length_of_encodeToneFreq {tone : Int} {bytes : List UInt8}
    (h : encodeToneFreq tone = .ok bytes) : bytes.length = 3 := by
  rw [encodeToneFreq] at h
  split at h
  · cases h
  · exact length_of_bcdEncodeValue h

theorem length_of_encodeRecordTone {centihz defaultCentihz : Option Int} {ctcss : Option (List Int)}
    {bytes : List UInt8} (h : encodeRecordTone centihz defaultCentihz ctcss = .ok bytes) :
    bytes.length = 3 := by
  obtain ⟨tone, -, h⟩ := bind_eq_ok.mp h
  exact length_of_encodeToneFreq h

theorem encodeRecordFrequency_eq_ok {frequencyHz group : Int} {memory : MemoryProfile}
    {maxHz : Option Int} {width : Nat} {bytes : List UInt8}
    (h : encodeRecordFrequency frequencyHz memory maxHz group width = .ok bytes) :
    checkFrequencyDigits frequencyHz memory = .ok () ∧ bcdEncode frequencyHz width = .ok bytes := by
  obtain ⟨-, -, h⟩ := bind_eq_ok.mp h
  obtain ⟨-, -, h⟩ := bind_eq_ok.mp h
  obtain ⟨-, -, h⟩ := bind_eq_ok.mp h
  obtain ⟨_, hdigits, h⟩ := bind_eq_ok.mp h
  exact ⟨hdigits, h⟩

/-- A field of a layout without errors is as long as the layout says. -/
theorem length_of_encodeWriteField {f : MemoryWriteField} {mem : MemoryChannel}
    {memory : MemoryProfile} {layout : MemoryWriteLayout} {ctcss : Option (List Int)}
    {dataModeCount : Int} {bytes : List UInt8} (hf : layout.FieldOk f)
    (h : encodeWriteField f mem memory layout ctcss dataModeCount = .ok bytes) :
    (bytes.length : Int) = f.length := by
  have hbyte : ∀ {value : Int}, byte value = .ok bytes → bytes.length = 1 := by
    intro value hb
    rw [(byte_eq_ok.mp hb).2.2]
    rfl
  have hwidth := hf.width
  have hpos := hf.length
  rw [encodeWriteField] at h
  cases henc : f.encoding <;> rw [henc] at h hwidth <;> dsimp only at h <;>
    simp only [MemoryWriteEncoding.width, Option.some.injEq, reduceCtorEq, forall_eq',
      false_imp_iff, implies_true] at hwidth
  case select =>
    cases h
    exact hwidth.symm
  case scan =>
    split at h
    · rw [hbyte h, hwidth]
      rfl
    · cases h
  case frequency =>
    have hbcd := bcdEncode_eq_ok (encodeRecordFrequency_eq_ok h).2
    rw [hbcd.2.2.2, length_littleEndian]
    omega
  case mode =>
    obtain ⟨_, _, h⟩ := bind_eq_ok.mp h
    obtain ⟨_, _, h⟩ := bind_eq_ok.mp h
    rw [hbyte h, hwidth]
    rfl
  case modeBcd =>
    rw [length_of_bcdEncodeValue h, hwidth]
    rfl
  case filter =>
    split at h
    · rw [hbyte h, hwidth]
      rfl
    · cases h
  case dataMode =>
    obtain ⟨_, _, h⟩ := bind_eq_ok.mp h
    rw [hbyte h, hwidth]
    rfl
  case dataTone =>
    obtain ⟨_, _, h⟩ := bind_eq_ok.mp h
    obtain ⟨_, _, h⟩ := bind_eq_ok.mp h
    rw [hbyte h, hwidth]
    rfl
  case duplexTone =>
    obtain ⟨_, _, h⟩ := bind_eq_ok.mp h
    obtain ⟨_, _, h⟩ := bind_eq_ok.mp h
    obtain ⟨_, _, h⟩ := bind_eq_ok.mp h
    rw [hbyte h, hwidth]
    rfl
  case tone =>
    rw [length_of_encodeRecordTone h, hwidth]
    rfl
  case tsql =>
    rw [length_of_encodeRecordTone h, hwidth]
    rfl
  case toneHzBcd =>
    split at h
    · cases h
      rw [hwidth]
      rfl
    · rw [length_of_bcdEncodeValue h, hwidth]
      rfl
  case tsqlHzBcd =>
    split at h
    · cases h
      rw [hwidth]
      rfl
    · rw [length_of_bcdEncodeValue h, hwidth]
      rfl
  case name =>
    rw [length_of_encodeRecordName h]
    omega
  case nameNul =>
    rw [length_of_encodeRecordName h]
    omega
  case fixed =>
    obtain ⟨value, hvalue, hlength, -⟩ := hf.fixed henc
    rw [hvalue] at h
    dsimp only at h
    split at h
    · rename_i hhex
      cases h
      have hchars := length_fromHex hhex
      rw [String.length_toList] at hchars
      omega
    · cases h

/-! ## The places of a field -/

/-- The places at which a field is written. -/
def places (layout : MemoryWriteLayout) (f : MemoryWriteField) : List Int :=
  match layout.dataBlockSpan with
  | none => [f.offset]
  | some (start, finish) =>
      if f.offset ≥ finish then [f.offset + shift layout]
      else if start ≤ f.offset then
        f.offset :: (List.range (layout.copies - 1).toNat).map
          fun (copy : Nat) => f.offset + (copy + 1) * blockLen layout
      else [f.offset]

theorem placeField_eq (layout : MemoryWriteLayout) (f : MemoryWriteField)
    (encoded record : List UInt8) :
    placeField layout f encoded record =
      (places layout f).foldl (fun r place => splice r place f.length encoded) record := by
  rw [placeField, places]
  cases layout.dataBlockSpan with
  | none => rfl
  | some span =>
      dsimp only
      split
      · rfl
      · split
        · rw [List.foldl_cons, List.foldl_map]
        · rfl

/-- The block that is repeated, with the fields on its two ends. -/
structure Span (layout : MemoryWriteLayout) (start finish : Int) : Prop where
  order : start < finish
  ends : finish ≤ layout.recordLength
  /-- No field crosses an end of the block. -/
  inside : ∀ f ∈ layout.fields, f.offset < finish → stop f ≤ finish
  before : ∀ f ∈ layout.fields, f.offset < start → stop f ≤ start

theorem apart_of_mem {layout : MemoryWriteLayout} (hvalid : layout.Valid) {f g : MemoryWriteField}
    (hf : f ∈ layout.fields) (hg : g ∈ layout.fields) (hne : f ≠ g) : Apart f g :=
  have : Std.Symm Apart := ⟨fun _ _ h => Apart.symm h⟩
  hvalid.apart.forall hf hg hne

/-- The start of the block is the record's, or the end of a select byte that leads it. -/
theorem start_cases (fields : List MemoryWriteField) (start : Int) :
    fields.foldl (fun start f => if leads f then f.offset + f.length else start) start = start ∨
      ∃ f ∈ fields, leads f = true ∧
        fields.foldl (fun start f => if leads f then f.offset + f.length else start) start =
          stop f := by
  induction fields generalizing start with
  | nil => exact .inl rfl
  | cons f rest ih =>
      rw [List.foldl_cons]
      rcases ih (if leads f then f.offset + f.length else start) with hsame | ⟨g, hg, hlead, hstart⟩
      · rw [hsame]
        split
        · exact .inr ⟨f, List.mem_cons_self, ‹_›, rfl⟩
        · exact .inl rfl
      · exact .inr ⟨g, List.mem_cons_of_mem _ hg, hlead, hstart⟩

theorem span_of_dataBlockSpan {layout : MemoryWriteLayout} (hvalid : layout.Valid)
    {start finish : Int} (h : layout.dataBlockSpan = some (start, finish)) :
    Span layout start finish := by
  rw [dataBlockSpan] at h
  split at h
  · cases h
  · rename_i name hname
    dsimp only at h
    split at h
    · cases h
    · rename_i hroom
      have hmem := List.mem_of_find?_eq_some hname
      have hnameOk := hvalid.fields name hmem
      have hstart := start_cases layout.fields 0
      generalize layout.fields.foldl
        (fun start f => if leads f then f.offset + f.length else start) 0 = first at h hroom hstart
      cases h
      refine ⟨by omega, ?_, ?_, ?_⟩
      · have := hnameOk.inside
        have := hnameOk.length
        simp only [stop] at *
        omega
      · intro f hf hlt
        have hne : f ≠ name := fun he => by rw [he] at hlt; omega
        have hlength := hnameOk.length
        rcases apart_of_mem hvalid hf hmem hne with hap | hap
        · exact hap
        · simp only [stop] at hap ⊢
          omega
      · intro f hf hlt
        have hfOk := hvalid.fields f hf
        rcases hstart with hzero | ⟨sel, hsel, hlead, hzero⟩
        · have := hfOk.offset
          omega
        · simp only [leads, Bool.and_eq_true, beq_iff_eq] at hlead
          rcases eq_or_ne f sel with rfl | hne
          · omega
          · have := hfOk.offset
            have := hfOk.length
            rcases apart_of_mem hvalid hf hsel hne with hap | hap
            · simp only [stop] at hap hlt ⊢
              omega
            · simp only [stop] at hap hlt hzero ⊢
              omega

theorem mem_places_once {layout : MemoryWriteLayout} (hcopies : layout.copies = 1)
    (f : MemoryWriteField) : places layout f = [f.offset] := by
  rw [places, shift, hcopies]
  cases layout.dataBlockSpan with
  | none => rfl
  | some span =>
      dsimp only
      split
      · simp
      · split
        · rfl
        · rfl

theorem mem_places_twice {layout : MemoryWriteLayout} (hcopies : layout.copies = 2)
    {start finish : Int} (hspan : layout.dataBlockSpan = some (start, finish))
    (horder : start < finish) (f : MemoryWriteField) (place : Int) :
    place ∈ places layout f ↔ (place = f.offset ∧ f.offset < finish) ∨
      (place = f.offset + (finish - start) ∧ start ≤ f.offset) := by
  have hblock : blockLen layout = finish - start := by rw [blockLen, hspan]
  have hshift : shift layout = finish - start := by
    rw [shift, hcopies, hblock]
    omega
  have hrange : List.range (layout.copies - 1).toNat = [0] := by
    rw [hcopies]
    rfl
  rw [places, hspan, hshift, hrange, hblock]
  dsimp only
  split
  · rw [List.mem_singleton]
    omega
  · split
    · simp only [List.map_cons, List.map_nil, List.mem_cons, List.not_mem_nil, or_false,
        Int.natCast_zero, Int.zero_add, Int.one_mul]
      omega
    · rw [List.mem_singleton]
      omega

/-- The places of a field, by the number of copies. -/
theorem places_cases {layout : MemoryWriteLayout} (hvalid : layout.Valid) :
    (layout.copies = 1 ∧ shift layout = 0) ∨
    (layout.copies = 2 ∧ ∃ start finish, layout.dataBlockSpan = some (start, finish) ∧
      Span layout start finish ∧ shift layout = finish - start) := by
  rcases Int.lt_or_le 1 layout.copies with hmany | hone
  · have htwo : layout.copies = 2 := by
      have := hvalid.copies.2
      omega
    obtain ⟨⟨start, finish⟩, hspan⟩ := Option.isSome_iff_exists.mp (hvalid.repeated hmany).2
    refine .inr ⟨htwo, start, finish, hspan, span_of_dataBlockSpan hvalid hspan, ?_⟩
    rw [shift, blockLen, hspan, htwo]
    exact Int.one_mul _
  · have hcopies : layout.copies = 1 := by
      have := hvalid.copies.1
      omega
    exact .inl ⟨hcopies, by rw [shift, hcopies]; simp⟩

/-- A place of a field, and its end, are in the record. -/
theorem place_inside {layout : MemoryWriteLayout} (hvalid : layout.Valid) {f : MemoryWriteField}
    (hf : f ∈ layout.fields) {place : Int} (hplace : place ∈ places layout f) :
    0 ≤ place ∧ place + f.length ≤ layout.recordLength + shift layout := by
  have hok := hvalid.fields f hf
  have hoffset := hok.offset
  have hinside := hok.inside
  simp only [stop] at hinside
  rcases places_cases hvalid with ⟨hcopies, hshift⟩ | ⟨hcopies, start, finish, hspan, hends, hshift⟩
  · rw [mem_places_once hcopies, List.mem_singleton] at hplace
    omega
  · rw [mem_places_twice hcopies hspan hends.order] at hplace
    have := hends.order
    omega

theorem places_apart {layout : MemoryWriteLayout} (hvalid : layout.Valid) {f g : MemoryWriteField}
    (hf : f ∈ layout.fields) (hg : g ∈ layout.fields) (hapart : Apart f g) {p q : Int}
    (hp : p ∈ places layout f) (hq : q ∈ places layout g) :
    p + f.length ≤ q ∨ q + g.length ≤ p := by
  simp only [Apart, stop] at hapart
  rcases places_cases hvalid with ⟨hcopies, -⟩ | ⟨hcopies, start, finish, hspan, hends, -⟩
  · rw [mem_places_once hcopies, List.mem_singleton] at hp hq
    omega
  · rw [mem_places_twice hcopies hspan hends.order] at hp hq
    have hinF := hends.inside f hf
    have hinG := hends.inside g hg
    simp only [stop] at hinF hinG
    rcases hp with ⟨rfl, hpf⟩ | ⟨rfl, hps⟩ <;> rcases hq with ⟨rfl, hqf⟩ | ⟨rfl, hqs⟩ <;> omega

theorem places_pairwise {layout : MemoryWriteLayout} (hvalid : layout.Valid) {f : MemoryWriteField}
    (hf : f ∈ layout.fields) :
    (places layout f).Pairwise fun p q => p + f.length ≤ q ∨ q + f.length ≤ p := by
  rcases places_cases hvalid with ⟨hcopies, -⟩ | ⟨hcopies, start, finish, hspan, hends, -⟩
  · rw [mem_places_once hcopies]
    exact List.pairwise_singleton _ _
  · have hrange : List.range (layout.copies - 1).toNat = [0] := by
      rw [hcopies]
      rfl
    have hblock : blockLen layout = finish - start := by rw [blockLen, hspan]
    have hin := hends.inside f hf
    simp only [stop] at hin
    rw [places, hspan, hrange, hblock]
    dsimp only
    split
    · exact List.pairwise_singleton _ _
    · split
      · simp only [List.map_cons, List.map_nil, Int.natCast_zero, Int.zero_add, Int.one_mul]
        refine List.pairwise_pair.mpr ?_
        omega
      · exact List.pairwise_singleton _ _

/-! ## The whole record -/

section

variable {mem : MemoryChannel} {memory : MemoryProfile} {layout : MemoryWriteLayout}
  {ctcss : Option (List Int)} {dataModeCount : Int}

/-- The bytes of a field that is not refused. -/
def encoded (mem : MemoryChannel) (memory : MemoryProfile) (layout : MemoryWriteLayout)
    (ctcss : Option (List Int)) (dataModeCount : Int) (f : MemoryWriteField) : List UInt8 :=
  match encodeWriteField f mem memory layout ctcss dataModeCount with
  | .ok bytes => bytes
  | .error _ => []

theorem writeFields_eq_ok {fields : List MemoryWriteField} {record written : List UInt8}
    (h : writeFields mem memory layout ctcss dataModeCount fields record = .ok written) :
    (∀ f ∈ fields, encodeWriteField f mem memory layout ctcss dataModeCount =
        .ok (encoded mem memory layout ctcss dataModeCount f)) ∧
      written = fields.foldl (fun record f =>
        placeField layout f (encoded mem memory layout ctcss dataModeCount f) record) record := by
  induction fields generalizing record with
  | nil =>
      cases h
      exact ⟨fun f hf => (by cases hf), rfl⟩
  | cons f rest ih =>
      obtain ⟨bytes, hbytes, hrest⟩ := bind_eq_ok.mp h
      obtain ⟨hall, hwritten⟩ := ih hrest
      have hencoded : encoded mem memory layout ctcss dataModeCount f = bytes := by
        rw [encoded, hbytes]
      refine ⟨List.forall_mem_cons.mpr ⟨by rw [hencoded, hbytes], hall⟩, ?_⟩
      rw [List.foldl_cons, hencoded]
      exact hwritten

theorem writeFields_of_encoded {fields : List MemoryWriteField} (record : List UInt8)
    (h : ∀ f ∈ fields, encodeWriteField f mem memory layout ctcss dataModeCount =
      .ok (encoded mem memory layout ctcss dataModeCount f)) :
    ∃ written, writeFields mem memory layout ctcss dataModeCount fields record = .ok written := by
  induction fields generalizing record with
  | nil => exact ⟨record, rfl⟩
  | cons f rest ih =>
      obtain ⟨hf, hrest⟩ := List.forall_mem_cons.mp h
      rw [writeFields, hf, ok_bind]
      exact ih _ hrest

/-- What a field writes, and where. -/
def pieces (mem : MemoryChannel) (memory : MemoryProfile) (layout : MemoryWriteLayout)
    (ctcss : Option (List Int)) (dataModeCount : Int) (f : MemoryWriteField) :
    List (Nat × List UInt8) :=
  (places layout f).map fun place => (place.toNat, encoded mem memory layout ctcss dataModeCount f)

/-- Whatever stood there before, the record keeps its length, and each field stands at each of its
places. -/
theorem writeFields_stands {start record : List UInt8} (hvalid : layout.Valid)
    (hstart : start.length = (layout.recordLength + shift layout).toNat)
    (h : writeFields mem memory layout ctcss dataModeCount layout.fields start = .ok record) :
    record.length = (layout.recordLength + shift layout).toNat ∧
    ∀ f ∈ layout.fields,
      encodeWriteField f mem memory layout ctcss dataModeCount =
        .ok (encoded mem memory layout ctcss dataModeCount f) ∧
      ∀ place ∈ places layout f, ∀ i : Nat, (i : Int) < f.length →
        record[place.toNat + i]? = (encoded mem memory layout ctcss dataModeCount f)[i]? := by
  obtain ⟨hall, hwritten⟩ := writeFields_eq_ok h
  have hlength : ∀ f ∈ layout.fields,
      ((encoded mem memory layout ctcss dataModeCount f).length : Int) = f.length :=
    fun f hf => length_of_encodeWriteField (hvalid.fields f hf) (hall f hf)
  have hput : ∀ (fields : List MemoryWriteField) (start : List UInt8),
      (∀ f ∈ fields, f ∈ layout.fields) →
      fields.foldl (fun record f =>
        placeField layout f (encoded mem memory layout ctcss dataModeCount f) record) start =
      (fields.flatMap (pieces mem memory layout ctcss dataModeCount)).foldl Overwrite.put
        start := by
    intro fields
    induction fields with
    | nil => exact fun _ _ => rfl
    | cons f rest ih =>
        intro start hmem
        obtain ⟨hf, hrest⟩ := List.forall_mem_cons.mp hmem
        rw [List.foldl_cons, ih _ hrest, List.flatMap_cons, List.foldl_append,
          placeField_eq, pieces,
          List.foldl_map]
        congr 1
        refine List.foldl_ext _ _ _ fun r place hplace => ?_
        have hpos := (place_inside hvalid hf hplace).1
        rw [splice, Overwrite.put]
        have hend : (place + f.length).toNat = place.toNat +
            (encoded mem memory layout ctcss dataModeCount f).length := by
          have := hlength f hf
          omega
        rw [hend]
  rw [hput layout.fields _ fun f hf => hf] at hwritten
  have hmem : ∀ piece ∈ layout.fields.flatMap (pieces mem memory layout ctcss dataModeCount),
      ∃ f ∈ layout.fields, ∃ place ∈ places layout f,
        piece = (place.toNat, encoded mem memory layout ctcss dataModeCount f) := by
    intro piece hpiece
    obtain ⟨f, hf, hpiece⟩ := List.mem_flatMap.mp hpiece
    obtain ⟨place, hplace, rfl⟩ := List.mem_map.mp hpiece
    exact ⟨f, hf, place, hplace, rfl⟩
  have hspec := @Overwrite.foldl_put UInt8
    (layout.fields.flatMap (pieces mem memory layout ctcss dataModeCount))
    start ?_ ?_
  · rw [← hwritten, hstart] at hspec
    refine ⟨hspec.1, fun f hf => ⟨hall f hf, fun place hplace i hi => ?_⟩⟩
    have hcover := hspec.2.1
      (place.toNat, encoded mem memory layout ctcss dataModeCount f)
      (List.mem_flatMap.mpr ⟨f, hf, List.mem_map.mpr ⟨place, hplace, rfl⟩⟩) (place.toNat + i)
      ⟨Nat.le_add_right _ _, by have := hlength f hf; dsimp only; omega⟩
    rw [hcover, Nat.add_sub_cancel_left]
  · intro piece hpiece
    obtain ⟨f, hf, place, hplace, rfl⟩ := hmem piece hpiece
    have := place_inside hvalid hf hplace
    have := hlength f hf
    rw [hstart]
    dsimp only
    omega
  · rw [List.pairwise_flatMap]
    constructor
    · intro f hf
      refine List.pairwise_map.mpr ((places_pairwise hvalid hf).imp_of_mem ?_)
      intro p q hp hq hpq
      have := place_inside hvalid hf hp
      have := place_inside hvalid hf hq
      have := hlength f hf
      simp only [Overwrite.Apart]
      omega
    · refine hvalid.apart.imp_of_mem fun {f g} hf hg hapart x hx y hy => ?_
      obtain ⟨p, hp, rfl⟩ := List.mem_map.mp hx
      obtain ⟨q, hq, rfl⟩ := List.mem_map.mp hy
      have := place_inside hvalid hf hp
      have := place_inside hvalid hg hq
      have := hlength f hf
      have := hlength g hg
      have := places_apart hvalid hf hg hapart hp hq
      simp only [Overwrite.Apart]
      omega

/-- The record has its length, and each field stands at each of its places. -/
theorem writeRecord_eq_ok {record : List UInt8} (hvalid : layout.Valid)
    (h : writeRecord mem memory layout ctcss dataModeCount = .ok record) :
    record.length = (layout.recordLength + shift layout).toNat ∧
    ∀ f ∈ layout.fields,
      encodeWriteField f mem memory layout ctcss dataModeCount =
        .ok (encoded mem memory layout ctcss dataModeCount f) ∧
      ∀ place ∈ places layout f, ∀ i : Nat, (i : Int) < f.length →
        record[place.toNat + i]? = (encoded mem memory layout ctcss dataModeCount f)[i]? :=
  writeFields_stands hvalid List.length_replicate h

end

end Rigplane.Memory
