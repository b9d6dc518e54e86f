import Mathlib.Data.Int.ConditionallyCompleteOrder
import Mathlib.Tactic.Linarith
import Rigplane.ControlDomain.Decimals

/-!
# The lattices of a valid domain

The raw axis and the display axis are lattices of indices (`RawGrid`, `DisplayGrid`).  A
valid identity, linear or centered domain maps one onto the other by a shift of the index
(`valid_shift`), whichever point of the axis the mapping is anchored at.

Everything here is about the browser's functions, which do not raise.
-/

namespace Rigplane.ControlDomain

open Decimal

namespace Frontend

variable {domain : Domain} {values : Axis} {raw : Json} {index : Int} {d : Decimal}

/-! ## The raw axis -/

theorem safeInteger_range {n : Int} (h : safeInteger raw = some n) :
    -safeIntegerMax ≤ n ∧ n ≤ safeIntegerMax := by
  rw [safeInteger.eq_def] at h
  split at h
  · split at h
    · rename_i hrange
      cases h
      exact hrange
    · cases h
  · split at h
    · rename_i hrange
      cases h
      exact hrange.2
    · cases h
  · cases h

/-- The raw axis of a domain, with the indices of its ends. -/
structure RawGrid (domain : Domain) where
  rawMin : Int
  rawMax : Int
  rawStep : Int
  rawOrigin : Int
  minIndex : Int
  maxIndex : Int
  read_min : safeInteger (Json.get domain "raw_min") = some rawMin
  read_max : safeInteger (Json.get domain "raw_max") = some rawMax
  read_step : safeInteger (Json.get domain "raw_step") = some rawStep
  read_origin : safeInteger (Json.get domain "raw_origin") = some rawOrigin
  min_lt_max : rawMin < rawMax
  step_pos : 0 < rawStep
  min_le_origin : rawMin ≤ rawOrigin
  origin_le_max : rawOrigin ≤ rawMax
  min_eq : rawMin = rawOrigin + minIndex * rawStep
  max_eq : rawMax = rawOrigin + maxIndex * rawStep

theorem tdiv_of_dvd {difference unit : Int} (h : difference.tmod unit = 0) :
    difference = difference.tdiv unit * unit :=
  (Int.tdiv_mul_cancel (Int.dvd_of_tmod_eq_zero h)).symm

/-- An index is only found on a raw axis that is sound. -/
theorem rawGrid_of_index (h : rawIndex domain raw = some index) : Nonempty (RawGrid domain) := by
  rw [rawIndex] at h
  split at h
  · rename_i n rawMin rawMax rawStep rawOrigin _ hmin hmax hstep horigin
    split at h
    · cases h
    · rename_i hbounds
      split at h
      · cases h
      · rename_i haligned
        rw [not_or, not_not, not_not] at haligned
        have hmin_eq := tdiv_of_dvd haligned.1
        have hmax_eq := tdiv_of_dvd haligned.2
        exact ⟨⟨rawMin, rawMax, rawStep, rawOrigin, _, _, hmin, hmax, hstep, horigin, by omega,
          by omega, by omega, by omega, by rw [← hmin_eq]; omega, by rw [← hmax_eq]; omega⟩⟩
  · cases h

namespace RawGrid

variable (grid : RawGrid domain)

theorem index_iff : rawIndex domain raw = some index ↔ ∃ n, safeInteger raw = some n ∧
    grid.rawMin ≤ n ∧ n ≤ grid.rawMax ∧ n = grid.rawOrigin + index * grid.rawStep := by
  have hpos := grid.step_pos
  have haligned : ∀ n k : Int, n = grid.rawOrigin + k * grid.rawStep →
      (n - grid.rawOrigin).tmod grid.rawStep = 0 ∧ (n - grid.rawOrigin).tdiv grid.rawStep = k := by
    intro n k hn
    have hsub : n - grid.rawOrigin = k * grid.rawStep := by omega
    rw [hsub]
    exact ⟨Int.mul_tmod_left _ _, Int.mul_tdiv_cancel _ hpos.ne'⟩
  obtain ⟨hmin, -⟩ := haligned _ _ grid.min_eq
  obtain ⟨hmax, -⟩ := haligned _ _ grid.max_eq
  have hlt := grid.min_lt_max
  have hlow := grid.min_le_origin
  have hhigh := grid.origin_le_max
  rw [rawIndex, grid.read_min, grid.read_max, grid.read_step, grid.read_origin]
  cases safeInteger raw with
  | none => simp
  | some n =>
      dsimp only
      constructor
      · intro h
        split at h
        · cases h
        · split at h
          · cases h
          · split at h
            · rename_i hbounds _ hdvd
              have heq := tdiv_of_dvd hdvd
              rw [Option.some.inj h] at heq
              exact ⟨n, rfl, by omega, by omega, by omega⟩
            · cases h
      · rintro ⟨m, hm, hge, hle, heq⟩
        cases hm
        obtain ⟨hmod, hdiv⟩ := haligned n index heq
        rw [if_neg (by omega), if_neg (by rw [hmin, hmax]; simp), if_pos hmod, hdiv]

theorem range_iff : (grid.rawMin ≤ grid.rawOrigin + index * grid.rawStep ∧
      grid.rawOrigin + index * grid.rawStep ≤ grid.rawMax) ↔
    grid.minIndex ≤ index ∧ index ≤ grid.maxIndex := by
  have hmin := grid.min_eq
  have hmax := grid.max_eq
  have hpos := grid.step_pos
  constructor
  · rintro ⟨h1, h2⟩
    exact ⟨le_of_mul_le_mul_right (by omega) hpos, le_of_mul_le_mul_right (by omega) hpos⟩
  · rintro ⟨h1, h2⟩
    have h1' := mul_le_mul_of_nonneg_right h1 hpos.le
    have h2' := mul_le_mul_of_nonneg_right h2 hpos.le
    exact ⟨by omega, by omega⟩

theorem index_range (h : rawIndex domain raw = some index) :
    grid.minIndex ≤ index ∧ index ≤ grid.maxIndex := by
  obtain ⟨n, -, h1, h2, rfl⟩ := grid.index_iff.mp h
  exact grid.range_iff.mp ⟨h1, h2⟩

theorem index_min : rawIndex domain (Json.get domain "raw_min") = some grid.minIndex :=
  grid.index_iff.mpr ⟨_, grid.read_min, le_rfl, grid.min_lt_max.le, grid.min_eq⟩

theorem index_max : rawIndex domain (Json.get domain "raw_max") = some grid.maxIndex :=
  grid.index_iff.mpr ⟨_, grid.read_max, grid.min_lt_max.le, le_rfl, grid.max_eq⟩

theorem index_origin {domain : Domain} (grid : RawGrid domain) :
    rawIndex domain (Json.get domain "raw_origin") = some 0 :=
  grid.index_iff.mpr ⟨_, grid.read_origin, grid.min_le_origin, grid.origin_le_max, by omega⟩

theorem safe_of_mem {n : Int} (h1 : grid.rawMin ≤ n) (h2 : n ≤ grid.rawMax) :
    -safeIntegerMax ≤ n ∧ n ≤ safeIntegerMax := by
  have hmin := safeInteger_range grid.read_min
  have hmax := safeInteger_range grid.read_max
  exact ⟨hmin.1.trans h1, h2.trans hmax.2⟩

/-- Every index between the ends is the index of a raw value. -/
theorem index_of_range (h : grid.minIndex ≤ index ∧ index ≤ grid.maxIndex) :
    rawIndex domain (.int (grid.rawOrigin + index * grid.rawStep)) = some index := by
  obtain ⟨h1, h2⟩ := grid.range_iff.mpr h
  refine grid.index_iff.mpr ⟨_, ?_, h1, h2, rfl⟩
  rw [safeInteger, if_pos (grid.safe_of_mem h1 h2)]

end RawGrid

/-! ## The display axis -/

/-- The display axis, with the indices of its ends. -/
structure DisplayGrid (values : Axis) where
  minIndex : Int
  maxIndex : Int
  step_pos : 0 < values.displayStep.value
  min_eq : values.displayMin.value =
    values.displayOrigin.value + minIndex * values.displayStep.value
  max_eq : values.displayMax.value =
    values.displayOrigin.value + maxIndex * values.displayStep.value

theorem displayGrid_of_axis (h : axis domain = some values) : Nonempty (DisplayGrid values) := by
  rw [axis] at h
  split at h
  · split at h
    · cases h
    · split at h
      · cases h
      · split at h
        · cases h
        · rename_i hlattice
          cases h
          rw [not_or] at hlattice
          obtain ⟨low, hlow⟩ := Option.ne_none_iff_exists'.mp hlattice.1
          obtain ⟨high, hhigh⟩ := Option.ne_none_iff_exists'.mp hlattice.2
          obtain ⟨hpos, hlow_eq⟩ := lattice_eq_some.mp hlow
          obtain ⟨-, hhigh_eq⟩ := lattice_eq_some.mp hhigh
          exact ⟨⟨low, high, hpos, hlow_eq, hhigh_eq⟩⟩
  · cases h

theorem inRange_iff : inRange d values = true ↔
    values.displayMin.value ≤ d.value ∧ d.value ≤ values.displayMax.value := by
  rw [inRange, Bool.and_eq_true, decide_eq_true_iff, decide_eq_true_iff, compare_nonneg,
    compare_nonpos]

namespace DisplayGrid

variable (grid : DisplayGrid values)

/-- The value of an index of the display axis. -/
def valueAt (values : Axis) (index : Int) : ℚ :=
  values.displayOrigin.value + index * values.displayStep.value

include grid

theorem valueAt_le {i j : Int} : valueAt values i ≤ valueAt values j ↔ i ≤ j := by
  have hpos := grid.step_pos
  rw [valueAt, valueAt, add_le_add_iff_left, mul_le_mul_iff_left₀ hpos, Int.cast_le]

theorem valueAt_inj {i j : Int} (h : valueAt values i = valueAt values j) : i = j :=
  le_antisymm (grid.valueAt_le.mp h.le) (grid.valueAt_le.mp h.ge)

theorem lattice_iff {i : Int} :
    lattice d values.displayOrigin values.displayStep = some i ↔ d.value = valueAt values i := by
  rw [lattice_eq_some, and_iff_right grid.step_pos]
  rfl

theorem lattice_min : lattice values.displayMin values.displayOrigin values.displayStep =
    some grid.minIndex := grid.lattice_iff.mpr grid.min_eq

theorem lattice_max : lattice values.displayMax values.displayOrigin values.displayStep =
    some grid.maxIndex := grid.lattice_iff.mpr grid.max_eq

theorem inAxis_iff : inAxis d values = true ↔
    ∃ i, d.value = valueAt values i ∧ grid.minIndex ≤ i ∧ i ≤ grid.maxIndex := by
  have hrange : inAxis d values = (inRange d values &&
      (lattice d values.displayOrigin values.displayStep).isSome) := rfl
  rw [hrange, Bool.and_eq_true, inRange_iff, Option.isSome_iff_exists, grid.min_eq, grid.max_eq]
  constructor
  · rintro ⟨⟨hlow, hhigh⟩, i, hi⟩
    have hvalue := grid.lattice_iff.mp hi
    rw [hvalue] at hlow hhigh
    exact ⟨i, hvalue, grid.valueAt_le.mp hlow, grid.valueAt_le.mp hhigh⟩
  · rintro ⟨i, hvalue, hlow, hhigh⟩
    rw [hvalue]
    exact ⟨⟨grid.valueAt_le.mpr hlow, grid.valueAt_le.mpr hhigh⟩, i, grid.lattice_iff.mpr hvalue⟩

theorem textInAxis_of_index {i : Int} (hvalue : d.value = valueAt values i)
    (hlow : grid.minIndex ≤ i) (hhigh : i ≤ grid.maxIndex) :
    textInAxis d values = some (text d) := by
  rw [textInAxis, if_pos (grid.inAxis_iff.mpr ⟨i, hvalue, hlow, hhigh⟩)]

end DisplayGrid

/-! ## Validity -/

/-- The mapping of a domain. -/
def mapping (domain : Domain) : Option String := (Json.get domain "mapping").asStr

/-- What a domain of each mapping has to be valid. -/
inductive Valid (domain : Domain) (values : Axis) : Prop
  | identity (hmapping : mapping domain = some "identity")
      (hidentity : isIdentity domain values = true)
  | linear (hmapping : mapping domain = some "linear") {rawMin rawOrigin originIndex : Int}
      (hscalar : scalarIndex domain = some (rawMin, rawOrigin))
      (horigin : lattice values.displayOrigin values.displayMin values.displayStep =
        some originIndex)
      (hsame : rawOrigin - rawMin = originIndex)
        (hcardinality : sameCardinality domain values = true)
  | centered (hmapping : mapping domain = some "centered")
      (haligned : centeredAligned domain values = true)
  | lookup (hmapping : mapping domain = some "lookup") {points : List LookupPoint}
      (hpoints : Frontend.lookup domain values = some points)

theorem valid_cases (h : validDomain domain values = true) : Valid domain values := by
  rw [validDomain] at h
  split at h
  · cases h
  · split at h
    · cases h
    · dsimp only at h
      split at h
      · rename_i hmapping
        exact .identity hmapping h
      · split at h
        · rename_i hmapping
          split at h
          · rename_i rawMin rawOrigin originIndex hscalar horigin
            rw [Bool.and_eq_true] at h
            exact .linear hmapping hscalar horigin (of_decide_eq_true h.1) h.2
          · cases h
        · split at h
          · rename_i hmapping
            exact .centered hmapping h
          · rw [Bool.and_eq_true] at h
            obtain ⟨points, hpoints⟩ := Option.isSome_iff_exists.mp h.2
            exact .lookup (of_decide_eq_true h.1) hpoints

theorem quantization_of_valid (h : validDomain domain values = true) :
    ∃ quantization ∈ quantizations, (Json.get domain "quantization").asStr = some quantization := by
  rw [validDomain] at h
  split at h
  · cases h
  · rename_i quantization hquantization
    split at h
    · cases h
    · rename_i hmem
      exact ⟨quantization, not_not.mp hmem, hquantization⟩

theorem sameCardinality_iff (raw : RawGrid domain) (display : DisplayGrid values) :
    sameCardinality domain values = true ↔
      raw.maxIndex - raw.minIndex = display.maxIndex - display.minIndex := by
  rw [sameCardinality, raw.index_min, raw.index_max, display.lattice_min, display.lattice_max]
  exact decide_eq_true_iff

/-- An identity domain has the same axis on both sides. -/
theorem isIdentity_spec (h : isIdentity domain values = true) :
    ∃ raw : RawGrid domain, (raw.rawMin : ℚ) = values.displayMin.value ∧
      (raw.rawMax : ℚ) = values.displayMax.value ∧ (raw.rawStep : ℚ) = values.displayStep.value ∧
      (raw.rawOrigin : ℚ) = values.displayOrigin.value := by
  rw [isIdentity] at h
  split at h
  · cases h
  · rename_i hnone
    rw [not_or] at hnone
    obtain ⟨index, hindex⟩ := Option.ne_none_iff_exists'.mp hnone.1
    obtain ⟨raw⟩ := rawGrid_of_index hindex
    have hvalue : ∀ n : Int, (⟨n, 0⟩ : Decimal).value = n := fun n => by
      rw [Decimal.value]
      simp
    simp only [List.all_cons, List.all_nil, Bool.and_true, Bool.and_eq_true, raw.read_min,
      raw.read_max, raw.read_step, raw.read_origin, decide_eq_true_iff, compare_zero, hvalue] at h
    exact ⟨raw, h⟩

theorem scalarIndex_spec {rawMin rawOrigin : Int}
    (h : scalarIndex domain = some (rawMin, rawOrigin)) :
    ∃ raw : RawGrid domain, rawMin = raw.minIndex ∧ rawOrigin = 0 := by
  rw [scalarIndex] at h
  split at h
  · rename_i hmin horigin
    cases h
    obtain ⟨raw⟩ := rawGrid_of_index hmin
    rw [raw.index_min] at hmin
    rw [raw.index_origin] at horigin
    exact ⟨raw, (Option.some.inj hmin).symm, (Option.some.inj horigin).symm⟩
  · cases h

theorem centeredAligned_spec (h : centeredAligned domain values = true) :
    ∃ (raw : RawGrid domain) (center : Int) (displayCenter : Decimal) (offset : Int),
      rawIndex domain (Json.get domain "raw_center") = some center ∧
      decimal (Json.get domain "display_center") = some displayCenter ∧
      lattice displayCenter values.displayMin values.displayStep = some offset ∧
      center - raw.minIndex = offset ∧ sameCardinality domain values = true := by
  rw [centeredAligned] at h
  split at h
  · cases h
  · dsimp only at h
    split at h
    · rename_i rawMin center displayCenter offset hmin hcenter hdisplay hoffset
      obtain ⟨raw⟩ := rawGrid_of_index hmin
      rw [raw.index_min] at hmin
      rw [hdisplay, Option.bind_some] at hoffset
      rw [Bool.and_eq_true, Bool.and_eq_true, ← Option.some.inj hmin] at h
      exact ⟨raw, center, displayCenter, offset, hcenter, hdisplay, hoffset,
        of_decide_eq_true h.1.2, h.2⟩
    · cases h

/-! ## Decode -/

theorem decode_of_valid {n : Int} (haxis : axis domain = some values)
    (hvalid : validDomain domain values = true) (hindex : rawIndex domain raw = some index)
    (hsafe : safeInteger raw = some n) :
    decodeControlDomain domain raw =
      if mapping domain = some "identity" then
        if isIdentity domain values then some (text ⟨n, 0⟩) else none
      else if mapping domain = some "lookup" then
        match lookup domain values with
        | none => none
        | some points => (points.find? fun point => point.raw = n).map LookupPoint.display
      else if mapping domain = some "linear" then
        textInAxis (add values.displayOrigin index values.displayStep) values
      else if mapping domain = some "centered" then
        match rawIndex domain (Json.get domain "raw_center"),
          decimal (Json.get domain "display_center") with
        | some center, some displayCenter =>
            textInAxis (add displayCenter (index - center) values.displayStep) values
        | _, _ => none
      else none := by
  rw [decodeControlDomain, haxis, hindex, hsafe]
  dsimp only
  rw [if_neg (by rw [hvalid]; decide)]
  rfl

/-- A raw value is an integer of the axis. -/
theorem safe_of_index (h : rawIndex domain raw = some index) : ∃ n, safeInteger raw = some n := by
  obtain ⟨grid⟩ := rawGrid_of_index h
  obtain ⟨n, hn, -⟩ := grid.index_iff.mp h
  exact ⟨n, hn⟩

/-- A mapping of one axis onto the other. -/
def Scalar (domain : Domain) : Prop :=
  mapping domain = some "identity" ∨ mapping domain = some "linear" ∨
    mapping domain = some "centered"

/-- The display axis is the raw axis, its indices shifted. -/
structure Shifted (raw : RawGrid domain) (display : DisplayGrid values) (shift : Int) : Prop where
  min : display.minIndex = raw.minIndex + shift
  max : display.maxIndex = raw.maxIndex + shift
  decode : ∀ {value : Json} {index : Int}, rawIndex domain value = some index →
    ∃ d : Decimal, decodeControlDomain domain value = some (text d) ∧
      d.value = DisplayGrid.valueAt values (index + shift)

theorem identity_shift (haxis : axis domain = some values)
    (hvalid : validDomain domain values = true) (hmapping : mapping domain = some "identity")
    (hidentity : isIdentity domain values = true) (display : DisplayGrid values) :
    ∃ raw : RawGrid domain, Shifted raw display 0 ∧
      ∀ i : Int, ((raw.rawOrigin + i * raw.rawStep : Int) : ℚ) = DisplayGrid.valueAt values i := by
  obtain ⟨raw, hmin, hmax, hstep, horigin⟩ := isIdentity_spec hidentity
  have hindex : ∀ n i : Int, n = raw.rawOrigin + i * raw.rawStep →
      (n : ℚ) = DisplayGrid.valueAt values i := by
    intro n i hn
    rw [hn, DisplayGrid.valueAt, ← hstep, ← horigin]
    push_cast
    rfl
  refine ⟨raw, ⟨?_, ?_, ?_⟩, fun i => hindex _ i rfl⟩
  · rw [add_zero]
    exact display.valueAt_inj (display.min_eq.symm.trans (hmin.symm.trans (hindex _ _ raw.min_eq)))
  · rw [add_zero]
    exact display.valueAt_inj (display.max_eq.symm.trans (hmax.symm.trans (hindex _ _ raw.max_eq)))
  · intro value index hvalue
    obtain ⟨n, hsafe, -, -, hn⟩ := raw.index_iff.mp hvalue
    refine ⟨⟨n, 0⟩, ?_, ?_⟩
    · rw [decode_of_valid haxis hvalid hvalue hsafe, if_pos hmapping, if_pos hidentity]
    · rw [add_zero, ← hindex n index hn, Decimal.value]
      simp

theorem linear_shift (haxis : axis domain = some values)
    (hvalid : validDomain domain values = true) (hmapping : mapping domain = some "linear")
    {rawMin rawOrigin originIndex : Int} (hscalar : scalarIndex domain = some (rawMin, rawOrigin))
    (horigin : lattice values.displayOrigin values.displayMin values.displayStep = some originIndex)
    (hsame : rawOrigin - rawMin = originIndex) (hcardinality : sameCardinality domain values = true)
    (display : DisplayGrid values) : ∃ raw : RawGrid domain, Shifted raw display 0 := by
  obtain ⟨raw, hmin, hzero⟩ := scalarIndex_spec hscalar
  have hvalue := (lattice_eq_some.mp horigin).2
  rw [display.min_eq] at hvalue
  have hindex : display.minIndex = raw.minIndex := by
    rw [← hsame, hzero, hmin] at hvalue
    refine display.valueAt_inj ?_
    rw [DisplayGrid.valueAt, DisplayGrid.valueAt]
    push_cast at hvalue
    linear_combination -hvalue
  have hcard := (sameCardinality_iff raw display).mp hcardinality
  refine ⟨raw, by omega, by omega, ?_⟩
  intro value index hindex_value
  obtain ⟨n, hsafe⟩ := safe_of_index hindex_value
  have hrange := raw.index_range hindex_value
  have hadd := add_value values.displayOrigin index values.displayStep
  refine ⟨add values.displayOrigin index values.displayStep, ?_, ?_⟩
  · rw [decode_of_valid haxis hvalid hindex_value hsafe, hmapping]
    exact display.textInAxis_of_index hadd (by omega) (by omega)
  · rw [add_zero]
    exact hadd

theorem centered_shift (haxis : axis domain = some values)
    (hvalid : validDomain domain values = true) (hmapping : mapping domain = some "centered")
    (haligned : centeredAligned domain values = true) (display : DisplayGrid values) :
    ∃ (raw : RawGrid domain) (shift center : Int) (displayCenter : Decimal),
      Shifted raw display shift ∧ rawIndex domain (Json.get domain "raw_center") = some center ∧
      decimal (Json.get domain "display_center") = some displayCenter ∧
      displayCenter.value = DisplayGrid.valueAt values (center + shift) := by
  obtain ⟨raw, center, displayCenter, offset, hcenter, hdisplay, hoffset, hsame, hcard⟩ :=
    centeredAligned_spec haligned
  have hcard := (sameCardinality_iff raw display).mp hcard
  have hvalue := (lattice_eq_some.mp hoffset).2
  have hcenter_value : displayCenter.value =
      DisplayGrid.valueAt values (center + (display.minIndex - raw.minIndex)) := by
    have hcenter_eq : center = raw.minIndex + offset := by omega
    rw [hvalue, display.min_eq, DisplayGrid.valueAt, hcenter_eq]
    push_cast
    ring
  refine ⟨raw, display.minIndex - raw.minIndex, center, displayCenter,
    ⟨by omega, by omega, ?_⟩, hcenter, hdisplay, hcenter_value⟩
  intro value index hindex_value
  obtain ⟨n, hsafe⟩ := safe_of_index hindex_value
  have hrange := raw.index_range hindex_value
  have hadd : (add displayCenter (index - center) values.displayStep).value =
      DisplayGrid.valueAt values (index + (display.minIndex - raw.minIndex)) := by
    rw [add_value, hcenter_value, DisplayGrid.valueAt, DisplayGrid.valueAt]
    push_cast
    ring
  refine ⟨add displayCenter (index - center) values.displayStep, ?_, hadd⟩
  rw [decode_of_valid haxis hvalid hindex_value hsafe, hmapping, hcenter, hdisplay]
  exact display.textInAxis_of_index hadd (by omega) (by omega)

theorem valid_shift (haxis : axis domain = some values)
    (hvalid : validDomain domain values = true) (hscalar : Scalar domain)
    (display : DisplayGrid values) :
    ∃ (raw : RawGrid domain) (shift : Int), Shifted raw display shift := by
  cases valid_cases hvalid with
  | identity hmapping hidentity =>
      obtain ⟨raw, hshift, -⟩ := identity_shift haxis hvalid hmapping hidentity display
      exact ⟨raw, 0, hshift⟩
  | linear hmapping hscalarIndex horigin hsame hcardinality =>
      obtain ⟨raw, hshift⟩ :=
        linear_shift haxis hvalid hmapping hscalarIndex horigin hsame hcardinality display
      exact ⟨raw, 0, hshift⟩
  | centered hmapping haligned =>
      obtain ⟨raw, shift, center, displayCenter, hshift, -⟩ :=
        centered_shift haxis hvalid hmapping haligned display
      exact ⟨raw, shift, hshift⟩
  | lookup hmapping hpoints =>
      rcases hscalar with h | h | h
      all_goals
        rw [hmapping] at h
        exact absurd (Option.some.inj h) (by decide)

/-! ## Quantize -/

theorem floorDivide_eq {value divisor : Int} (h : 0 < divisor) :
    floorDivide value divisor = value / divisor := by
  have hmul := Int.tdiv_mul_add_tmod value divisor
  rw [floorDivide]
  split
  · rename_i hneg
    have hbound := Int.lt_tmod_of_pos value h
    have hsign : 0 ≤ (-value).tmod divisor := Int.tmod_nonneg divisor (by omega)
    rw [Int.neg_tmod] at hsign
    have hpos : 0 < value.tmod divisor + divisor := by omega
    have hlt : value.tmod divisor + divisor < divisor := by omega
    have heq : value = (value.tmod divisor + divisor) + divisor * (value.tdiv divisor - 1) := by
      rw [mul_sub, mul_comm divisor]
      omega
    rw [heq, Int.add_mul_ediv_left _ _ h.ne', Int.ediv_eq_zero_of_lt hpos.le hlt, ← heq]
    omega
  · rename_i hnot
    have hsign : 0 ≤ value.tmod divisor := by
      by_cases hneg : value < 0
      · have hzero : value.tmod divisor = 0 := by
          by_contra hne
          exact hnot ⟨hneg, hne⟩
        omega
      · exact Int.tmod_nonneg _ (by omega)
    have hlt : value.tmod divisor < divisor := Int.tmod_lt_of_pos value h
    have heq : value = value.tmod divisor + divisor * value.tdiv divisor := by
      rw [mul_comm divisor]
      omega
    rw [heq, Int.add_mul_ediv_left _ _ h.ne', Int.ediv_eq_zero_of_lt hsign hlt, ← heq]
    omega

/-- The steps from the origin to a value, on a common scale, and the length of a step. -/
def distance (values : Axis) (value : Decimal) : Int × Int :=
  let scale := max (max value.scale values.displayOrigin.scale) values.displayStep.scale
  (value.scaleTo scale - values.displayOrigin.scaleTo scale, values.displayStep.scaleTo scale)

theorem distance_value (values : Axis) (value : Decimal) : ∃ unit : ℚ, 0 < unit ∧
    ((distance values value).1 : ℚ) = (value.value - values.displayOrigin.value) * unit ∧
    ((distance values value).2 : ℚ) = values.displayStep.value * unit := by
  refine ⟨10 ^ max (max value.scale values.displayOrigin.scale) values.displayStep.scale,
    by positivity, ?_, ?_⟩
  · rw [distance]
    dsimp only
    push_cast
    rw [scaleTo_value (by omega), scaleTo_value (by omega)]
    ring
  · exact scaleTo_value (le_max_right _ _)

/-- A value of the lattice is whole steps away, and conversely. -/
theorem distance_iff {value : Decimal} {i : Int} :
    (distance values value).1 = i * (distance values value).2 ↔
    value.value = DisplayGrid.valueAt values i := by
  obtain ⟨unit, hunit, hdiff, hstep⟩ := distance_value values value
  rw [← Int.cast_inj (α := ℚ)]
  push_cast
  rw [hdiff, hstep, DisplayGrid.valueAt, ← mul_assoc, mul_left_inj' hunit.ne', sub_eq_iff_eq_add']

theorem quantized_eq (domain : Domain) (values : Axis) (value : Decimal)
    (hpos : 0 < (distance values value).2) :
    quantized domain values value =
      (quantizedIndex (Json.get domain "quantization").asStr
        ((distance values value).1 / (distance values value).2)
        ((distance values value).1 % (distance values value).2) (distance values value).2).map
          fun index => add values.displayOrigin index values.displayStep := by
  have hremainder : ∀ difference unit : Int, difference - difference / unit * unit =
      difference % unit := fun difference unit => by
    rw [Int.emod_def, mul_comm]
  rw [quantized, align_triple]
  dsimp only
  change 0 < values.displayStep.scaleTo _ at hpos
  rw [floorDivide_eq hpos, hremainder]
  simp only [distance]
  generalize quantizedIndex _ _ _ _ = picked
  cases picked <;> rfl

/-- A posture picks the quotient or, above it, the next index. -/
theorem quantizedIndex_cases {quantization : Option String} {quotient remainder step : Int}
    (hremainder : 0 ≤ remainder) (hstep : 0 < step)
    (h : quantizedIndex quantization quotient remainder step = some index) :
    index = quotient ∨ index = quotient + 1 ∧ 0 < remainder := by
  rw [quantizedIndex] at h
  split at h
  · exact .inl (Option.some.inj h).symm
  split at h
  · have heq := Option.some.inj h
    split at heq
    · exact .inl heq.symm
    · exact .inr ⟨heq.symm, by omega⟩
  split at h
  · split at h
    · cases h
    · exact .inl (Option.some.inj h).symm
  split at h
  · have heq := Option.some.inj h
    split at heq
    · exact .inr ⟨heq.symm, by omega⟩
    · exact .inl heq.symm
  split at h
  · have heq := Option.some.inj h
    split at heq
    · exact .inr ⟨heq.symm, by omega⟩
    · exact .inl heq.symm
  · cases h

/-- Only `reject` refuses, and only where there is a remainder. -/
theorem quantizedIndex_none {quantization : String} (hmem : quantization ∈ quantizations)
    {quotient remainder step : Int} : quantizedIndex
    (some quantization) quotient remainder step = none ↔
      quantization = "reject" ∧ remainder ≠ 0 := by
  simp only [quantizations, List.mem_cons, List.not_mem_nil, or_false] at hmem
  rcases hmem with rfl | rfl | rfl | rfl | rfl <;> simp [quantizedIndex]

namespace DisplayGrid

variable (grid : DisplayGrid values)

include grid

theorem distance_pos (value : Decimal) : 0 < (distance values value).2 := by
  obtain ⟨unit, hunit, -, hstep⟩ := distance_value values value
  rw [← Int.cast_pos (R := ℚ), hstep]
  exact mul_pos grid.step_pos hunit

theorem distance_range {value : Decimal} (h : inRange value values = true) :
    grid.minIndex * (distance values value).2 ≤ (distance values value).1 ∧
      (distance values value).1 ≤ grid.maxIndex * (distance values value).2 := by
  obtain ⟨unit, hunit, hdiff, hstep⟩ := distance_value values value
  obtain ⟨hlow, hhigh⟩ := inRange_iff.mp h
  rw [grid.min_eq] at hlow
  rw [grid.max_eq] at hhigh
  rw [← Int.cast_le (R := ℚ), ← Int.cast_le (R := ℚ)]
  push_cast
  rw [hdiff, hstep, ← mul_assoc, ← mul_assoc]
  exact ⟨mul_le_mul_of_nonneg_right (by linarith) hunit.le,
    mul_le_mul_of_nonneg_right (by linarith) hunit.le⟩

/-- What a value in the range is quantized to lies on the axis. -/
theorem quantized_spec {value result : Decimal} (hrange : inRange value values = true)
    (h : quantized domain values value = some result) :
    ∃ i, result = add values.displayOrigin i values.displayStep ∧ grid.minIndex ≤ i ∧
      i ≤ grid.maxIndex := by
  have hpos := grid.distance_pos value
  obtain ⟨hlow, hhigh⟩ := grid.distance_range hrange
  rw [quantized_eq domain values value hpos, Option.map_eq_some_iff] at h
  obtain ⟨i, hindex, rfl⟩ := h
  generalize distance values value = steps at *
  have hemod := Int.emod_nonneg steps.1 hpos.ne'
  have hsplit := Int.mul_ediv_add_emod steps.1 steps.2
  have hquotient_low : grid.minIndex ≤ steps.1 / steps.2 := Int.le_ediv_of_mul_le hpos hlow
  have hquotient_high : steps.1 / steps.2 ≤ grid.maxIndex := by
    refine le_of_mul_le_mul_right ?_ hpos
    rw [mul_comm]
    omega
  refine ⟨i, rfl, ?_⟩
  rcases quantizedIndex_cases hemod hpos hindex with rfl | ⟨rfl, hremainder⟩
  · exact ⟨hquotient_low, hquotient_high⟩
  · refine ⟨by omega, ?_⟩
    have hlt : steps.1 / steps.2 < grid.maxIndex := by
      refine lt_of_mul_lt_mul_right ?_ hpos.le
      rw [mul_comm]
      omega
    omega

theorem quantized_none_iff (value : Decimal) (hvalid : validDomain domain values = true) :
    quantized domain values value = none ↔
      (Json.get domain "quantization").asStr = some "reject" ∧
        lattice value values.displayOrigin values.displayStep = none := by
  have hpos := grid.distance_pos value
  obtain ⟨quantization, hmem, hquantization⟩ := quantization_of_valid hvalid
  rw [quantized_eq domain values value hpos, Option.map_eq_none_iff, hquantization,
    quantizedIndex_none hmem, Option.some_inj]
  have hwhole : (distance values value).1 % (distance values value).2 = 0 ↔
      ∃ i, lattice value values.displayOrigin values.displayStep = some i := by
    constructor
    · intro hzero
      have hsplit := Int.mul_ediv_add_emod (distance values value).1 (distance values value).2
      rw [hzero, add_zero, mul_comm] at hsplit
      exact ⟨_, grid.lattice_iff.mpr (distance_iff.mp hsplit.symm)⟩
    · rintro ⟨i, hi⟩
      rw [distance_iff.mpr (grid.lattice_iff.mp hi), Int.mul_emod_left]
  rw [ne_eq, hwhole, ← Option.ne_none_iff_exists', not_not]

end DisplayGrid

end Frontend

end Rigplane.ControlDomain
