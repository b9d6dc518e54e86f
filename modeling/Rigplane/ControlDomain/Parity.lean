import Rigplane.ControlDomain.Restoration

/-!
# The two halves agree

The Python half takes integers only, so what it does is what the browser does with the
domain whose floats are left out (`integersOnly`), unless a conversion raises.  `guarded`
pairs the two: each function of the Python half is the browser's, behind the conversions
that come before its result.
-/

namespace Rigplane.ControlDomain

open Decimal

/-! ## A domain without its floats -/

def blankValue : Json → Json
  | .float _ => .null
  | value => value

/-- An item of a lookup list. -/
def blankItem : Json → Json
  | .obj record => .obj (record.map fun entry => (entry.1, blankValue entry.2))
  | item => item

def blankField : Json → Json
  | .float _ => .null
  | .arr items => .arr (items.map blankItem)
  | value => value

/-- The domain that has null wherever a number it uses is a float. -/
def integersOnly (domain : Domain) : Domain :=
  domain.map fun entry => (entry.1, blankField entry.2)

theorem get_map {blank : Json → Json} (hnull : blank .null = .null) (fields : List (String × Json))
    (key : String) :
    Json.get (fields.map fun entry => (entry.1, blank entry.2)) key = blank
      (Json.get fields key) := by
  rw [Json.get, Json.get]
  induction fields with
  | nil => exact hnull.symm
  | cons entry rest ih =>
      rw [List.map_cons, Dict.find, Dict.find]
      split
      · rfl
      · exact ih

@[simp] theorem get_integersOnly (domain : Domain) (key : String) :
    Json.get (integersOnly domain) key = blankField (Json.get domain key) := get_map rfl domain key

theorem get_blankRecord (record : List (String × Json)) (key : String) :
    Json.get (record.map fun entry => (entry.1, blankValue entry.2)) key =
      blankValue (Json.get record key) := get_map rfl record key

@[simp] theorem asStr_blankField (value : Json) : (blankField value).asStr = value.asStr := by
  cases value <;> rfl

@[simp] theorem asStr_blankValue (value : Json) : (blankValue value).asStr = value.asStr := by
  cases value <;> rfl

@[simp] theorem blankValue_int (n : Int) : blankValue (.int n) = .int n := rfl

theorem decimal_congr {value value' : Json} (h : value.asStr = value'.asStr) :
    Frontend.decimal value = Frontend.decimal value' := by
  rw [Frontend.decimal, Frontend.decimal, h]

@[simp] theorem decimal_blankField (value : Json) :
    Frontend.decimal (blankField value) = Frontend.decimal value :=
  decimal_congr (asStr_blankField value)

@[simp] theorem safeInteger_blankField (value : Json) :
    Frontend.safeInteger (blankField value) = Python.safeInt value := by
  cases value <;> rfl

@[simp] theorem safeInteger_blankValue (value : Json) :
    Frontend.safeInteger (blankValue value) = Python.safeInt value := by
  cases value <;> rfl

/-! ## The raw axis -/

theorem fmod_eq_zero_iff {difference unit : Int} :
    difference.fmod unit = 0 ↔ difference.tmod unit = 0 :=
  ⟨fun h => Int.tmod_eq_zero_of_dvd (Int.dvd_of_fmod_eq_zero h),
    fun h => Int.fmod_eq_zero_of_dvd (Int.dvd_of_tmod_eq_zero h)⟩

theorem Python.rawIndex_eq (domain : Domain) {raw raw' : Json}
    (h : Frontend.safeInteger raw' = Python.safeInt raw) :
    Python.rawIndex domain raw = Frontend.rawIndex (integersOnly domain) raw' := by
  rw [Python.rawIndex, Frontend.rawIndex]
  simp only [get_integersOnly, safeInteger_blankField, h]
  rcases Python.safeInt raw with _ | raw
  · rfl
  rcases Python.safeInt (Json.get domain "raw_min") with _ | rawMin
  · rfl
  rcases Python.safeInt (Json.get domain "raw_max") with _ | rawMax
  · rfl
  rcases Python.safeInt (Json.get domain "raw_step") with _ | rawStep
  · rfl
  rcases Python.safeInt (Json.get domain "raw_origin") with _ | rawOrigin
  · rfl
  dsimp only
  by_cases hbounds : rawMin ≥ rawMax ∨ rawStep ≤ 0 ∨ rawOrigin < rawMin ∨ rawOrigin > rawMax ∨
      raw < rawMin ∨ raw > rawMax
  · rw [if_pos (by omega), if_pos hbounds]
  · have hindex : (if (raw - rawOrigin).fmod rawStep = 0 then
        some ((raw - rawOrigin).fdiv rawStep) else none) = _ := fdiv_eq_tdiv (by omega)
    rw [if_neg (by omega), if_neg hbounds]
    simp only [ne_eq, fmod_eq_zero_iff, ite_not] at hindex ⊢
    split
    · rfl
    · exact hindex

theorem Python.rawIndex_get (domain : Domain) (key : String) :
    Python.rawIndex domain (Json.get domain key) =
      Frontend.rawIndex (integersOnly domain) (Json.get (integersOnly domain) key) :=
  Python.rawIndex_eq domain (by rw [get_integersOnly, safeInteger_blankField])

theorem Python.rawIndex_int (domain : Domain) (raw : Int) :
    Python.rawIndex domain (.int raw) = Frontend.rawIndex (integersOnly domain) (.int raw) :=
  Python.rawIndex_eq domain rfl

/-! ## The display axis -/

theorem Python.inAxis_eq (value : Decimal) (values : Axis) :
    Python.inAxis value values = Frontend.inAxis value values := by
  rw [Python.inAxis, Frontend.inAxis, Python.compare_eq, Python.compare_eq, Python.lattice_eq]

theorem Python.inRange_eq (value : Decimal) (values : Axis) :
    Python.inRange value values = Frontend.inRange value values := by
  rw [Python.inRange, Frontend.inRange, Python.compare_eq, Python.compare_eq]

/-- A decimal of the display axis is too long. -/
def axisOverlong (domain : Domain) : Bool :=
  overlong (Json.get domain "display_min") || overlong (Json.get domain "display_max") ||
    overlong (Json.get domain "display_step") || overlong (Json.get domain "display_origin")

theorem Frontend.axis_integersOnly (domain : Domain) :
    Frontend.axis (integersOnly domain) = Frontend.axis domain := by
  rw [Frontend.axis, Frontend.axis]
  simp only [get_integersOnly, decimal_blankField]

theorem Python.axis_eq (domain : Domain) :
    Python.axis domain = guarded (axisOverlong domain) (Frontend.axis domain) := by
  rw [Python.axis, axisOverlong, Frontend.axis]
  simp only [Python.parseDecimal_eq, guarded_bind, Python.compare_eq, Python.lattice_eq]
  generalize overlong (Json.get domain "display_min") = lowRaises
  generalize overlong (Json.get domain "display_max") = highRaises
  generalize overlong (Json.get domain "display_step") = stepRaises
  generalize overlong (Json.get domain "display_origin") = originRaises
  cases lowRaises <;> cases highRaises <;> cases stepRaises <;> cases originRaises <;> try rfl
  simp only [Bool.or_false, Bool.false_eq_true, if_false, guarded]
  rcases Frontend.decimal (Json.get domain "display_min") with _ | low
  · rfl
  rcases Frontend.decimal (Json.get domain "display_max") with _ | high
  · rfl
  rcases Frontend.decimal (Json.get domain "display_step") with _ | step
  · rfl
  rcases Frontend.decimal (Json.get domain "display_origin") with _ | origin
  · rfl
  dsimp only
  split
  · rfl
  · split
    · rfl
    · split <;> rfl

/-! ## Lookup points -/

@[simp] theorem recordKeys_blank (record : List (String × Json)) :
    recordKeys (record.map fun entry => (entry.1, blankValue entry.2)) = recordKeys record := by
  rw [recordKeys, recordKeys, List.map_map]
  rfl

theorem pointKeys_iff {record : List (String × Json)} : ¬ Python.PointKeys record ↔
    (recordKeys record).length ≠ 2 ∨ "raw" ∉ recordKeys record ∨ "display" ∉ recordKeys record := by
  have hnodup : (recordKeys record).Nodup := List.nodup_dedup _
  have htwo : ["raw", "display"].Nodup := by decide
  rw [← not_and_or, ← not_and_or, not_iff_not, Python.PointKeys]
  refine and_congr_left fun hmem => ⟨fun hall => ?_, fun hlen => ?_⟩
  · have hperm : (recordKeys record).Perm ["raw", "display"] := by
      refine (List.perm_ext_iff_of_nodup hnodup htwo).mpr fun key => ?_
      rw [List.mem_cons, List.mem_singleton]
      exact ⟨hall key, fun h => h.elim (fun h => h ▸ hmem.1) fun h => h ▸ hmem.2⟩
    exact hperm.length_eq
  · have hsub : ["raw", "display"].Subperm (recordKeys record) := by
      refine htwo.subperm fun key hkey => ?_
      rcases List.mem_cons.mp hkey with rfl | hkey
      · exact hmem.1
      · rw [List.mem_singleton.mp hkey]
        exact hmem.2
    have hperm := hsub.perm_of_length_le (by rw [hlen]; rfl)
    intro key hkey
    have := hperm.mem_iff.mpr hkey
    simpa using this

/-- The display of a point is too long. -/
def roundOverlong : Json → Bool
  | .obj record => Python.PointKeys record && overlong (Json.get record "display")
  | _ => false

/-- A display that the loop of the lookup points comes to is too long. -/
def lookupOverlong (domain : Domain) (values : Axis) (found : Frontend.Points) : List Json → Bool
  | [] => false
  | item :: rest =>
      roundOverlong item ||
        match Frontend.lookupRound domain values found item with
        | none => false
        | some found => lookupOverlong domain values found rest

/-- A point as the browser keeps it. -/
def toPoint (point : Python.LookupPoint) : Frontend.LookupPoint := ⟨point.raw, point.text⟩

/-- Both halves have found the same points. -/
structure SamePoints (found : Python.Points) (found' : Frontend.Points) : Prop where
  points : found'.points = found.points.map toPoint
  parsed : ∀ point ∈ found.points, Frontend.decimal (.str point.text) = some point.display
  rawDirection : found'.rawDirection = found.rawDirection
  displayDirection : found'.displayDirection = found.displayDirection

theorem Frontend.decimal_of_asStr {value : Json} {text : String} (h : value.asStr = some text) :
    Frontend.decimal value = Frontend.decimal (.str text) := decimal_congr h

theorem direction_eq (left right : Int) :
    Python.direction left right = if left > right then 1 else if left < right then -1 else 0 := by
  rw [Python.direction]
  split <;> split <;> omega

theorem Python.lookupRound_eq {found : Python.Points} {found' : Frontend.Points}
    (hsame : SamePoints found found') (domain : Domain) (values : Axis) (item : Json) :
    ∃ result, Python.lookupRound domain values found item = guarded (roundOverlong item) result ∧
      Option.Rel SamePoints result
        (Frontend.lookupRound (integersOnly domain) values found' (blankItem item)) := by
  cases item with
  | obj record =>
      rw [Python.lookupRound, blankItem, Frontend.lookupRound, roundOverlong]
      dsimp only
      rw [recordKeys_blank]
      by_cases hkeys : Python.PointKeys record
      · rw [if_neg (not_not.mpr hkeys), if_neg fun h => pointKeys_iff.mpr h hkeys,
          decide_eq_true hkeys, Bool.true_and, Python.parseDecimal_eq, guarded_bind]
        simp only [get_blankRecord, safeInteger_blankValue, asStr_blankValue,
          Python.rawIndex_int, Python.inAxis_eq]
        generalize overlong (Json.get record "display") = raises
        have hreach : ∀ {body : Except Python.Raised (Option Python.Points)} {browser},
            (∃ result, body = .ok result ∧ Option.Rel SamePoints result browser) →
            ∃ result, (if raises = true then .error .valueError else body) = guarded raises result ∧
              Option.Rel SamePoints result browser := by
          rintro body browser ⟨result, rfl, hrel⟩
          exact ⟨result, rfl, hrel⟩
        refine hreach ?_
        rcases Python.safeInt (Json.get record "raw") with _ | raw
        · exact ⟨none, rfl, .none⟩
        rcases htext : (Json.get record "display").asStr with _ | displayText
        · exact ⟨none, rfl, .none⟩
        rw [Frontend.decimal_of_asStr htext]
        dsimp only
        rcases hdisplay : Frontend.decimal (.str displayText) with _ | display
        · exact ⟨none, rfl, .none⟩
        dsimp only
        split
        · exact ⟨none, rfl, .none⟩
        · have hlast : found'.points.getLast? = found.points.getLast?.map toPoint := by
            rw [hsame.points, List.getLast?_map]
          have hparsed : ∀ point ∈ found.points ++ [Python.LookupPoint.mk raw displayText display],
              Frontend.decimal (.str point.text) = some point.display := by
            intro point hmem
            rcases List.mem_append.mp hmem with hold | hnew
            · exact hsame.parsed point hold
            · rw [List.mem_singleton.mp hnew]
              exact hdisplay
          have hpoints : found'.points ++ [Frontend.LookupPoint.mk raw displayText] =
              (found.points ++ [Python.LookupPoint.mk raw displayText display]).map toPoint := by
            rw [List.map_append, hsame.points]
            rfl
          rw [hlast]
          rcases hprevious : found.points.getLast? with _ | previous
          · exact ⟨_, rfl, .some
              (SamePoints.mk hpoints hparsed hsame.rawDirection hsame.displayDirection)⟩
          · have hdec := hsame.parsed previous (List.mem_of_getLast? hprevious)
            dsimp only [Option.map_some, toPoint]
            rw [hdec, Option.getD_some, Python.compare_eq, direction_eq, hsame.rawDirection,
              hsame.displayDirection]
            generalize (if raw > previous.raw then (1 : Int) else _) = next
            split
            · exact ⟨none, rfl, .none⟩
            · exact ⟨_, rfl, .some (SamePoints.mk hpoints hparsed rfl rfl)⟩
      · rw [if_pos hkeys, if_pos (pointKeys_iff.mp hkeys), decide_eq_false hkeys]
        exact ⟨none, rfl, .none⟩
  | null | bool | int | float | str | arr => exact ⟨none, rfl, .none⟩

theorem Python.lookupLoop_eq {found : Python.Points} {found' : Frontend.Points}
    (hsame : SamePoints found found') (domain : Domain) (values : Axis) (items : List Json) :
    ∃ result, Python.lookupLoop domain values found items =
        guarded (lookupOverlong (integersOnly domain) values found' (items.map blankItem)) result ∧
      Option.Rel (fun points points' => points' = points.map toPoint) result
        (Frontend.lookupLoop (integersOnly domain) values found' (items.map blankItem)) := by
  induction items generalizing found found' with
  | nil => exact ⟨_, rfl, .some hsame.points⟩
  | cons item rest ih =>
      obtain ⟨next, hround, hrel⟩ := Python.lookupRound_eq hsame domain values item
      have hitem : roundOverlong (blankItem item) = roundOverlong item := by
        cases item with
        | obj record =>
            have hkeys : Python.PointKeys (record.map fun entry => (entry.1, blankValue entry.2)) =
                Python.PointKeys record := by
              unfold Python.PointKeys
              rw [recordKeys_blank]
            simp only [blankItem, roundOverlong, hkeys, get_blankRecord, overlong,
              asStr_blankValue]
        | null | bool | int | float | str | arr => rfl
      rw [Python.lookupLoop, hround, guarded_bind, List.map_cons, lookupOverlong, hitem,
        Frontend.lookupLoop]
      generalize Frontend.lookupRound _ values found' (blankItem item) = next' at *
      cases hrel with
      | none =>
          refine ⟨none, ?_, .none⟩
          rw [Bool.or_false]
          rfl
      | some hnext =>
          obtain ⟨result, hloop, hrest⟩ := ih hnext
          refine ⟨result, ?_, hrest⟩
          dsimp only
          rw [hloop]
          cases roundOverlong item <;> rfl

/-- A display of the lookup list that is read is too long. -/
def pointsOverlong (domain : Domain) (values : Axis) : Bool :=
  match Json.get domain "lookup" with
  | .arr items => lookupOverlong domain values {} items
  | _ => false

theorem Python.lookupPoints_eq (domain : Domain) (values : Axis) :
    ∃ result, Python.lookupPoints domain values =
        guarded (pointsOverlong (integersOnly domain) values) result ∧
      Option.Rel (fun points points' => points' = points.map toPoint) result
        (Frontend.lookup (integersOnly domain) values) := by
  rw [Python.lookupPoints, Frontend.lookup, pointsOverlong, get_integersOnly]
  cases Json.get domain "lookup" with
  | arr items =>
      cases items with
      | nil => exact ⟨none, rfl, .none⟩
      | cons item rest =>
          have hsame : SamePoints {} {} :=
            ⟨rfl, fun _ hmem => absurd hmem List.not_mem_nil, rfl, rfl⟩
          exact Python.lookupLoop_eq hsame domain values (item :: rest)
  | null | bool | int | float | str | obj => exact ⟨none, rfl, .none⟩

/-! ## Validity -/

theorem Python.scalarIndex_eq (domain : Domain) :
    Python.scalarIndex domain = Frontend.scalarIndex (integersOnly domain) := by
  rw [Python.scalarIndex, Python.rawIndex_get, Python.rawIndex_get]
  rfl

theorem Python.sameCardinality_eq (domain : Domain) (values : Axis) :
    Python.sameCardinality domain values = Frontend.sameCardinality
      (integersOnly domain) values := by
  rw [Python.sameCardinality, Python.rawIndex_get, Python.rawIndex_get, Python.lattice_eq,
    Python.lattice_eq]
  rfl

theorem Python.isIdentity_eq (domain : Domain) (values : Axis) :
    Python.isIdentity domain values = Frontend.isIdentity (integersOnly domain) values := by
  rw [Frontend.isIdentity, ← Python.rawIndex_get, ← Python.rawIndex_get]
  simp only [get_integersOnly, safeInteger_blankField, ← Python.compare_eq]
  rfl

@[simp] theorem overlong_blankField (value : Json) :
    overlong (blankField value) = overlong value := by
  rw [overlong, overlong, asStr_blankField]

theorem Python.centeredAligned_eq (domain : Domain) (values : Axis) :
    Python.centeredAligned domain values =
      guarded ((Json.get (integersOnly domain) "mapping").asStr = some "centered" &&
          overlong (Json.get (integersOnly domain) "display_center"))
        (Frontend.centeredAligned (integersOnly domain) values) := by
  rw [Python.centeredAligned, Frontend.centeredAligned]
  simp only [Python.rawIndex_get, Python.sameCardinality_eq, Python.parseDecimal_eq, guarded_bind,
    Python.inAxis_eq, Python.lattice_eq]
  simp only [get_integersOnly, asStr_blankField, decimal_blankField, overlong_blankField]
  split
  · rename_i hmapping
    rw [decide_eq_false hmapping]
    rfl
  · rename_i hmapping
    rw [decide_eq_true (not_not.mp hmapping), Bool.true_and, guarded]
    split
    · rfl
    · rcases Frontend.rawIndex _ (blankField (Json.get domain "raw_min")) with _ | rawMin
      · rfl
      rcases Frontend.rawIndex _ (blankField (Json.get domain "raw_center")) with _ | rawCenter
      · rfl
      rcases Frontend.decimal (Json.get domain "display_center") with _ | center
      · rfl
      dsimp only [Option.bind_some]
      rcases Frontend.lattice center values.displayMin values.displayStep with _ | offset <;> rfl

/-- A decimal that the validity of a domain depends on is too long. -/
def validOverlong (domain : Domain) (values : Axis) : Bool :=
  (Json.get domain "quantization").asStr.any (· ∈ quantizations) &&
    (((Json.get domain "mapping").asStr = some "centered" &&
        overlong (Json.get domain "display_center")) ||
      ((Json.get domain "mapping").asStr = some "lookup" && pointsOverlong domain values))

theorem Python.validDomain_eq (domain : Domain) (values : Axis) :
    Python.validDomain domain values = guarded (validOverlong (integersOnly domain) values)
      (Frontend.validDomain (integersOnly domain) values) := by
  obtain ⟨points, hpoints, hrel⟩ := Python.lookupPoints_eq domain values
  rw [Python.validDomain, Frontend.validDomain, validOverlong, hpoints, Python.centeredAligned_eq,
    Python.scalarIndex_eq, Python.isIdentity_eq, Python.sameCardinality_eq, Python.lattice_eq]
  simp only [get_integersOnly, asStr_blankField]
  rcases (Json.get domain "quantization").asStr with _ | quantization
  · rfl
  dsimp only [Option.any_some]
  by_cases hquantization : quantization ∈ quantizations
  · rw [if_neg (not_not.mpr hquantization), if_neg (not_not.mpr hquantization),
      decide_eq_true hquantization, Bool.true_and]
    generalize (Json.get domain "mapping").asStr = mapping
    by_cases hidentity : mapping = some "identity"
    · rw [hidentity]
      rfl
    rw [if_neg hidentity, if_neg hidentity]
    by_cases hlinear : mapping = some "linear"
    · rw [hlinear]
      rfl
    rw [if_neg hlinear, if_neg hlinear]
    by_cases hcentered : mapping = some "centered"
    · rw [hcentered, overlong_blankField, if_pos rfl, if_pos rfl]
      generalize overlong (Json.get domain "display_center") = raises
      cases raises <;> rfl
    rw [if_neg hcentered, if_neg hcentered]
    by_cases hlookup : mapping = some "lookup"
    · rw [hlookup, if_pos rfl, guarded_bind]
      generalize pointsOverlong (integersOnly domain) values = raises
      generalize Frontend.lookup (integersOnly domain) values = points' at *
      cases hrel with
      | none => cases raises <;> rfl
      | some h => cases raises <;> rfl
    · rw [if_neg hlookup, decide_eq_false hcentered, decide_eq_false hlookup]
      rfl
  · rw [if_pos hquantization, if_pos hquantization, decide_eq_false hquantization]
    rfl

theorem Python.domainIsExact_eq (domain : Domain) (values : Axis) :
    Python.domainIsExact domain values =
      guarded ((Json.get (integersOnly domain) "restoration").asStr = some "exact" &&
          (Json.get (integersOnly domain) "mapping").asStr = some "lookup" &&
          pointsOverlong (integersOnly domain) values)
        (Frontend.domainIsExact (integersOnly domain) values) := by
  obtain ⟨points, hpoints, hrel⟩ := Python.lookupPoints_eq domain values
  rw [Python.domainIsExact, Frontend.domainIsExact, hpoints, Python.rawIndex_get,
    Python.rawIndex_get]
  simp only [get_integersOnly, asStr_blankField]
  generalize (Json.get domain "restoration").asStr = restoration
  generalize (Json.get domain "mapping").asStr = mapping
  generalize pointsOverlong (integersOnly domain) values = raises
  generalize Frontend.lookup (integersOnly domain) values = points' at *
  by_cases hexact : restoration = some "exact"
  · rw [if_neg (not_not.mpr hexact), if_neg (not_not.mpr hexact), decide_eq_true hexact,
      Bool.true_and]
    by_cases hlookup : mapping = some "lookup"
    · rw [if_neg (not_not.mpr hlookup), if_neg (not_not.mpr hlookup), decide_eq_true hlookup,
        Bool.true_and, guarded_bind, guarded]
      split
      · rfl
      · rcases Frontend.rawIndex _ (blankField (Json.get domain "raw_min")) with _ | low
        · rfl
        rcases Frontend.rawIndex _ (blankField (Json.get domain "raw_max")) with _ | high
        · rfl
        cases hrel with
        | none => rfl
        | some h =>
            dsimp only
            rw [h, List.length_map]
            rfl
    · rw [if_pos hlookup, if_pos hlookup, decide_eq_false hlookup]
      rfl
  · rw [if_pos hexact, if_pos hexact, decide_eq_false hexact]
    rfl

/-! ## Decode -/

/-- A value is rendered, and too long. -/
def resultOverlong (result : Decimal) (values : Axis) : Bool :=
  Frontend.inAxis result values && tooLong result

theorem Python.textInAxis_eq (result : Decimal) (values : Axis) :
    Python.textInAxis result values =
      guarded (resultOverlong result values) (Frontend.textInAxis result values) := by
  rw [Python.textInAxis, Frontend.textInAxis, resultOverlong, Python.inAxis_eq, Python.text_eq,
    guarded_bind]
  generalize tooLong result = long
  cases Frontend.inAxis result values <;> cases long <;> rfl

/-- The value a linear or a centered domain gives an index of its raw axis. -/
def decodedValue (domain : Domain) (values : Axis) (index : Int) : Option Decimal :=
  if (Json.get domain "mapping").asStr = some "linear" then
    some (Frontend.add values.displayOrigin index values.displayStep)
  else if (Json.get domain "mapping").asStr = some "centered" then
    match Frontend.rawIndex domain (Json.get domain "raw_center"),
      Frontend.decimal (Json.get domain "display_center") with
    | some center, some displayCenter =>
        some (Frontend.add displayCenter (index - center) values.displayStep)
    | _, _ => none
  else none

/-- A conversion of a decode is too long. -/
def decodeOverlong (domain : Domain) (raw : Json) : Bool :=
  axisOverlong domain ||
    match Frontend.axis domain, Frontend.rawIndex domain raw with
    | some values, some index =>
        validOverlong domain values ||
          (Frontend.validDomain domain values &&
            (decodedValue domain values index).any fun result => resultOverlong result values)
    | _, _ => false

theorem tooLong_safe {raw : Int} (hlow : -safeIntegerMax ≤ raw) (hhigh : raw ≤ safeIntegerMax) :
    tooLong ⟨raw, 0⟩ = false := by
  have hpow : 10 ^ 16 ≤ 10 ^ Python.maxStrDigits := Nat.pow_le_pow_right (by omega) (by decide)
  have hsafe : safeIntegerMax < 10 ^ 16 := by decide
  refine decide_eq_false (not_le.mpr (lt_of_lt_of_le ?_ hpow))
  change raw.natAbs < _
  omega

theorem safeInt_range {value : Json} {raw : Int} (h : Python.safeInt value = some raw) :
    -safeIntegerMax ≤ raw ∧ raw ≤ safeIntegerMax := by
  cases value with
  | int n =>
      rw [Python.safeInt] at h
      split at h
      · cases h
        assumption
      · cases h
  | null | bool | float | str | arr | obj => cases h

theorem axisOverlong_integersOnly (domain : Domain) :
    axisOverlong (integersOnly domain) = axisOverlong domain := by
  simp only [axisOverlong, get_integersOnly, overlong_blankField]

theorem valid_quantization {domain : Domain} {values : Axis}
    (hvalid : Frontend.validDomain domain values = true) :
    (Json.get domain "quantization").asStr.any (· ∈ quantizations) = true := by
  rw [Frontend.validDomain] at hvalid
  split at hvalid
  · cases hvalid
  · rename_i quantization hquantization
    split at hvalid
    · cases hvalid
    · rename_i hmem
      rw [hquantization]
      exact decide_eq_true (not_not.mp hmem)

/-- Where the validity of a valid domain is read without a conversion too long, so are its
center and its lookup points. -/
theorem validOverlong_false {domain : Domain} {values : Axis}
    (hshort : validOverlong domain values = false)
    (hvalid : Frontend.validDomain domain values = true) :
    ((Json.get domain "mapping").asStr = some "centered" →
      overlong (Json.get domain "display_center") = false) ∧
    ((Json.get domain "mapping").asStr = some "lookup" → pointsOverlong domain values = false) := by
  rw [validOverlong, valid_quantization hvalid, Bool.true_and, Bool.or_eq_false_iff] at hshort
  refine ⟨fun hmapping => ?_, fun hmapping => ?_⟩
  · have := hshort.1
    rwa [decide_eq_true hmapping, Bool.true_and] at this
  · have := hshort.2
    rwa [decide_eq_true hmapping, Bool.true_and] at this

theorem Frontend.rawIndex_of_unsafe {domain : Domain} {raw : Json}
    (h : Frontend.safeInteger raw = none) : Frontend.rawIndex domain raw = none := by
  rw [Frontend.rawIndex, h]

theorem find?_map_toPoint (points : List Python.LookupPoint) (raw : Int) :
    ((points.map toPoint).find? fun point => point.raw = raw).map Frontend.LookupPoint.display =
      (points.find? fun point => point.raw = raw).map Python.LookupPoint.text := by
  rw [List.find?_map, Option.map_map]
  rfl

theorem Python.decode_eq (domain : Domain) (raw : Json) :
    Python.decodeControlDomain domain raw =
      guarded (decodeOverlong (integersOnly domain) (blankValue raw))
        (Frontend.decodeControlDomain (integersOnly domain) (blankValue raw)) := by
  have hindex : Python.rawIndex domain raw =
      Frontend.rawIndex (integersOnly domain) (blankValue raw) :=
    Python.rawIndex_eq domain (safeInteger_blankValue raw)
  rw [Python.decodeControlDomain, Frontend.decodeControlDomain, decodeOverlong, Python.axis_eq,
    guarded_bind, hindex, axisOverlong_integersOnly, Frontend.axis_integersOnly,
    safeInteger_blankValue]
  cases axisOverlong domain with
  | true => rfl
  | false =>
      rw [Bool.false_or, if_neg Bool.false_ne_true]
      rcases Frontend.axis domain with _ | values
      · rfl
      rcases hsafe : Python.safeInt raw with _ | safe
      · rw [Frontend.rawIndex_of_unsafe ((safeInteger_blankValue raw).trans hsafe)]
        rfl
      rcases Frontend.rawIndex (integersOnly domain) (blankValue raw) with _ | index
      · rfl
      dsimp only
      rw [Python.validDomain_eq, guarded_bind]
      cases hshort : validOverlong (integersOnly domain) values with
      | true => rfl
      | false =>
          rw [Bool.false_or, if_neg Bool.false_ne_true]
          cases hvalid : Frontend.validDomain (integersOnly domain) values with
          | false => rfl
          | true =>
              obtain ⟨hcenter, hpoints⟩ := validOverlong_false hshort hvalid
              have hmapping : (Json.get (integersOnly domain) "mapping").asStr =
                  (Json.get domain "mapping").asStr := by
                rw [get_integersOnly, asStr_blankField]
              rw [decodedValue]
              rw [hmapping] at hcenter hpoints ⊢
              rw [if_neg (by decide : ¬ (true = false)), Bool.true_and]
              generalize (Json.get domain "mapping").asStr = mapping at *
              by_cases hidentity : mapping = some "identity"
              · obtain ⟨hlow, hhigh⟩ := safeInt_range hsafe
                rw [hidentity, Python.isIdentity_eq, Python.text_eq, tooLong_safe hlow hhigh]
                cases Frontend.isIdentity (integersOnly domain) values <;> rfl
              by_cases hlookup : mapping = some "lookup"
              · obtain ⟨points, hread, hrel⟩ := Python.lookupPoints_eq domain values
                rw [hlookup, hread, hpoints hlookup]
                generalize Frontend.lookup (integersOnly domain) values = points' at *
                cases hrel with
                | none => rfl
                | some h =>
                    rw [h]
                    dsimp only
                    rw [find?_map_toPoint]
                    rfl
              by_cases hlinear : mapping = some "linear"
              · rw [hlinear, Python.textInAxis_eq]
                rfl
              by_cases hcentered : mapping = some "centered"
              · rw [hcentered, Python.rawIndex_get, Python.parseDecimal_eq]
                have hcenter := hcenter hcentered
                rw [get_integersOnly, overlong_blankField] at hcenter
                rw [hcenter, get_integersOnly, get_integersOnly, decimal_blankField]
                rcases Frontend.rawIndex _ (blankField (Json.get domain "raw_center")) with
                  _ | center
                · rfl
                rcases Frontend.decimal (Json.get domain "display_center") with _ | displayCenter
                · rfl
                exact Python.textInAxis_eq _ _
              · simp only [hidentity, hlookup, hlinear, hcentered, if_false]
                rfl

/-! ## Quantize -/

theorem Python.quantized_eq (domain : Domain) {values : Axis} (grid : Frontend.DisplayGrid values)
    (value : Decimal) :
    Python.quantized domain values value =
      Frontend.quantized (integersOnly domain) values value := by
  have hpos := grid.distance_pos value
  have halign : Python.align [value, values.displayOrigin, values.displayStep] =
      Frontend.align [value, values.displayOrigin, values.displayStep] := rfl
  rw [Frontend.quantized_eq _ _ _ hpos, Python.quantized, halign, Frontend.align_triple]
  dsimp only
  rw [Frontend.distance] at hpos ⊢
  dsimp only at hpos ⊢
  rw [Int.fdiv_eq_ediv_of_nonneg _ hpos.le, Int.fmod_eq_emod_of_nonneg _ hpos.le, get_integersOnly,
    asStr_blankField]
  have hpicked : ∀ quantization quotient remainder step,
      Python.quantizedIndex quantization quotient remainder step =
        Frontend.quantizedIndex quantization quotient remainder step := fun _ _ _ _ => rfl
  rw [hpicked]
  generalize Frontend.quantizedIndex _ _ _ _ = picked
  cases picked <;> rfl

/-- A conversion of a quantization is too long. -/
def quantizeOverlong (domain : Domain) (display : Json) : Bool :=
  axisOverlong domain || overlong display ||
    match Frontend.axis domain, Frontend.decimal display with
    | some values, some value =>
        Frontend.inRange value values &&
          (validOverlong domain values ||
            (Frontend.validDomain domain values &&
              (Frontend.quantized domain values value).any fun result =>
                resultOverlong result values))
    | _, _ => false

theorem Python.quantize_eq (domain : Domain) (display : Json) :
    Python.quantizeControlDomain domain display =
      guarded (quantizeOverlong (integersOnly domain) display)
        (Frontend.quantizeControlDomain (integersOnly domain) display) := by
  rw [Python.quantizeControlDomain, Frontend.quantizeControlDomain, quantizeOverlong,
    Python.axis_eq, guarded_bind, axisOverlong_integersOnly, Frontend.axis_integersOnly]
  cases axisOverlong domain with
  | true => rfl
  | false =>
      rw [Bool.false_or, if_neg Bool.false_ne_true, Python.parseDecimal_eq, guarded_bind]
      cases overlong display with
      | true => rfl
      | false =>
          rw [Bool.false_or, if_neg Bool.false_ne_true]
          rcases haxis : Frontend.axis domain with _ | values
          · rfl
          rcases Frontend.decimal display with _ | value
          · rfl
          obtain ⟨grid⟩ := Frontend.displayGrid_of_axis haxis
          dsimp only
          rw [Python.inRange_eq, Python.validDomain_eq, Python.quantized_eq domain grid]
          cases Frontend.inRange value values with
          | false => rfl
          | true =>
              cases validOverlong (integersOnly domain) values with
              | true => rfl
              | false =>
                  cases Frontend.validDomain (integersOnly domain) values with
                  | false => rfl
                  | true =>
                      rcases Frontend.quantized (integersOnly domain) values value with _ | result
                      · rfl
                      exact Python.textInAxis_eq result values

/-! ## Encode -/

theorem add_scale (origin : Decimal) (n : Int) (step : Decimal) :
    (Frontend.add origin n step).scale = max origin.scale step.scale := by
  rw [Frontend.add, Frontend.align_pair]

theorem tooLong_of_scale {a b : Decimal} (hvalue : a.value = b.value) (hscale : a.scale ≤ b.scale)
    (hshort : tooLong b = false) : tooLong a = false := by
  have heq := (scaleTo_eq hscale le_rfl).mpr hvalue
  rw [scaleTo, scaleTo, Nat.sub_self, pow_zero, mul_one] at heq
  have hlt : b.coefficient.natAbs < 10 ^ Python.maxStrDigits :=
    not_le.mp (of_decide_eq_false hshort)
  rw [← heq, Int.natAbs_mul] at hlt
  refine decide_eq_false (not_le.mpr (lt_of_le_of_lt ?_ hlt))
  refine Nat.le_mul_of_pos_right _ (Int.natAbs_pos.mpr ?_)
  positivity

theorem scale_of_short {value : Json} {d : Decimal} (hd : Frontend.decimal value = some d)
    (hshort : overlong value = false) : d.scale < Python.maxStrDigits := by
  obtain ⟨w, rfl, rfl⟩ := Frontend.decimal_eq_some.mp hd
  rw [overlong_chars, decide_eq_false_iff_not, not_lt, List.length_append] at hshort
  have hinteger := List.length_pos_of_ne_nil w.integer_ne_nil
  exact lt_of_lt_of_le (by change w.fraction.length < _; omega) hshort

/-- A text of few digits is parsed again. -/
theorem overlong_text {d : Decimal} (hscale : d.scale < Python.maxStrDigits)
    (hshort : tooLong d = false) : overlong (.str (Frontend.text d)) = false := by
  obtain ⟨w, htext, -, hvalue⟩ := Frontend.decimal_text d
  have hw_scale := w.scale_le hvalue
  have hw_short := tooLong_of_scale hvalue hw_scale hshort
  have hlen : (Nat.toDigits 10 w.decimal.coefficient.natAbs).length ≤ Python.maxStrDigits :=
    (Nat.length_toDigits_le_iff (by omega) (by decide)).mpr
      (not_le.mp (of_decide_eq_false hw_short))
  rw [htext, overlong_chars, decide_eq_false_iff_not, not_lt, ← w.digits_decimal, digits,
    List.length_leftpad]
  exact max_le (by omega) hlen

/-- A conversion of an encode is too long. -/
def encodeOverlong (domain : Domain) (display : Json) : Bool :=
  axisOverlong domain ||
    match Frontend.axis domain with
    | none => false
    | some values =>
        validOverlong domain values ||
          (Frontend.validDomain domain values && Frontend.domainIsExact domain values &&
            quantizeOverlong domain display)

variable {domain : Domain} {values : Axis}

/-- A decimal with the value of a grid point has no more digits after the point than the grid. -/
theorem scale_of_valueAt {value : Json} {d : Decimal} {i : Int}
    (hd : Frontend.decimal value = some d)
    (hvalue : d.value = Frontend.DisplayGrid.valueAt values i) :
    d.scale ≤ max values.displayOrigin.scale values.displayStep.scale := by
  obtain ⟨w, -, rfl⟩ := Frontend.decimal_eq_some.mp hd
  rw [← add_scale values.displayOrigin i]
  refine w.scale_le (hvalue.trans ?_)
  rw [Frontend.add_value]
  rfl

theorem decodedValue_scale {index : Int} {result : Decimal}
    (haxis : Frontend.axis domain = some values)
    (hvalid : Frontend.validDomain domain values = true)
    (h : decodedValue domain values index = some result) :
    result.scale ≤ max values.displayOrigin.scale values.displayStep.scale := by
  obtain ⟨grid⟩ := Frontend.displayGrid_of_axis haxis
  rw [decodedValue] at h
  split at h
  · rw [← Option.some.inj h, add_scale]
  split at h
  · rename_i hmapping
    have haligned : Frontend.centeredAligned domain values = true := by
      rw [Frontend.validDomain.eq_def, hmapping] at hvalid
      split at hvalid
      · cases hvalid
      split at hvalid
      · cases hvalid
      · exact hvalid
    obtain ⟨raw, shift, center, displayCenter, -, hcenter, hdisplay, hvalue⟩ :=
      Frontend.centered_shift haxis hvalid hmapping haligned grid
    rw [hcenter, hdisplay] at h
    rw [← Option.some.inj h, add_scale]
    exact max_le (scale_of_valueAt hdisplay hvalue) (le_max_right _ _)
  · cases h

theorem decode_of_decodedValue {raw : Json} {index : Int} {result : Decimal}
    (haxis : Frontend.axis domain = some values)
    (hvalid : Frontend.validDomain domain values = true)
    (hindex : Frontend.rawIndex domain raw = some index)
    (h : decodedValue domain values index = some result) :
    Frontend.decodeControlDomain domain raw = Frontend.textInAxis result values := by
  obtain ⟨n, hsafe⟩ := Frontend.safe_of_index hindex
  rw [Frontend.decode_of_valid haxis hvalid hindex hsafe, Frontend.mapping]
  rw [decodedValue] at h
  split at h
  · rename_i hmapping
    rw [hmapping, ← Option.some.inj h]
    rfl
  split at h
  · rename_i hmapping
    rw [hmapping]
    rcases hcenter : Frontend.rawIndex domain (Json.get domain "raw_center") with _ | center
    · rw [hcenter] at h
      cases h
    rcases hdisplay : Frontend.decimal (Json.get domain "display_center") with _ | displayCenter
    · rw [hcenter, hdisplay] at h
      cases h
    rw [hcenter, hdisplay] at h
    rw [← Option.some.inj h]
    rfl
  · cases h

/-- Where a raw value is decoded to a text that is short enough, nothing of its decode is too
long. -/
theorem decode_short {n : Int} {d : Decimal} (haxis : Frontend.axis domain = some values)
    (hvalid : Frontend.validDomain domain values = true) (hlong : axisOverlong domain = false)
    (hshort : validOverlong domain values = false)
    (hdecode : Frontend.decodeControlDomain domain (.int n) = some (Frontend.text d))
    (hscale : d.scale = max values.displayOrigin.scale values.displayStep.scale)
    (hd : tooLong d = false) : decodeOverlong domain (.int n) = false := by
  rw [decodeOverlong, hlong, haxis, Bool.false_or]
  rcases hindex : Frontend.rawIndex domain (.int n) with _ | index
  · rfl
  dsimp only
  rw [hshort, hvalid, Bool.false_or, Bool.true_and]
  rcases hresult : decodedValue domain values index with _ | result
  · rfl
  have htext := decode_of_decodedValue haxis hvalid hindex hresult
  have hle := decodedValue_scale haxis hvalid hresult
  rw [hdecode, Frontend.textInAxis] at htext
  split at htext
  · have hvalue := Frontend.text_eq_iff.mp (Option.some.inj htext)
    rw [Option.any_some, resultOverlong, tooLong_of_scale hvalue.symm (by omega) hd, Bool.and_false]
  · cases htext

theorem Python.restored_eq {n : Int} {s : String}
    (hdecode : Frontend.decodeControlDomain (integersOnly domain) (.int n) = some s)
    (hshort : decodeOverlong (integersOnly domain) (.int n) = false) :
    Python.restored domain n s = .ok (Frontend.restored (integersOnly domain) n s) := by
  rw [Python.restored, Frontend.restored, Python.rawIndex_int, Python.decode_eq, guarded_bind]
  rw [blankValue_int, hshort, if_neg Bool.false_ne_true, hdecode]
  by_cases hsafe : -safeIntegerMax ≤ n ∧ n ≤ safeIntegerMax
  · rcases Frontend.rawIndex (integersOnly domain) (.int n) with _ | index
    · rw [if_neg (not_not.mpr hsafe), if_pos rfl, if_neg fun h => h.2.1 rfl]
    · rw [if_neg (not_not.mpr hsafe), if_neg (Option.some_ne_none _),
        if_neg (not_not.mpr rfl), if_pos ⟨hsafe, Option.some_ne_none _, rfl⟩]
      rfl
  · rw [if_pos hsafe, if_neg fun h => hsafe h.1]

theorem Frontend.axis_decimals (haxis : Frontend.axis domain = some values) :
    Frontend.decimal (Json.get domain "display_step") = some values.displayStep ∧
      Frontend.decimal (Json.get domain "display_origin") = some values.displayOrigin := by
  rw [Frontend.axis] at haxis
  split at haxis
  · rename_i hstep horigin
    split at haxis
    · cases haxis
    split at haxis
    · cases haxis
    split at haxis
    · cases haxis
    · cases haxis
      exact ⟨hstep, horigin⟩
  · cases haxis

/-- What a quantization has rendered is parsed and decoded again without a conversion too
long. -/
theorem quantized_short {display : Json} {s : String} (haxis : Frontend.axis domain = some values)
    (hvalid : Frontend.validDomain domain values = true)
    (hshort : validOverlong domain values = false)
    (hquantize : quantizeOverlong domain display = false)
    (hquantized : Frontend.quantizeControlDomain domain display = some s) :
    overlong (.str s) = false ∧
      ∀ n, Frontend.decodeControlDomain domain (.int n) = some s →
        decodeOverlong domain (.int n) = false := by
  obtain ⟨grid⟩ := Frontend.displayGrid_of_axis haxis
  obtain ⟨value, k, hvalue, hrange, -, hresult, hlow, hhigh, rfl⟩ :=
    (Frontend.quantize_eq_some haxis grid).mp hquantized
  have hscale := add_scale values.displayOrigin k values.displayStep
  have hin :
      Frontend.inAxis (Frontend.add values.displayOrigin k values.displayStep) values = true :=
    grid.inAxis_iff.mpr ⟨k, Frontend.add_value _ _ _, hlow, hhigh⟩
  rw [quantizeOverlong, haxis, hvalue, Bool.or_eq_false_iff, Bool.or_eq_false_iff] at hquantize
  obtain ⟨⟨hlong, -⟩, hquantize⟩ := hquantize
  dsimp only at hquantize
  rw [hrange, hshort, hresult, Option.any_some, resultOverlong, hin] at hquantize
  simp only [Bool.true_and, Bool.false_or] at hquantize
  rw [hvalid, Bool.true_and] at hquantize
  refine ⟨overlong_text ?_ hquantize, fun n hdecode =>
    decode_short haxis hvalid hlong hshort hdecode hscale hquantize⟩
  obtain ⟨hstep, horigin⟩ := Frontend.axis_decimals haxis
  rw [axisOverlong, Bool.or_eq_false_iff, Bool.or_eq_false_iff] at hlong
  rw [hscale]
  exact max_lt (scale_of_short horigin hlong.2) (scale_of_short hstep hlong.1.2)

theorem exactOverlong_false (hshort : validOverlong domain values = false)
    (hvalid : Frontend.validDomain domain values = true) :
    (decide ((Json.get domain "restoration").asStr = some "exact") &&
      decide ((Json.get domain "mapping").asStr = some "lookup") &&
        pointsOverlong domain values) = false := by
  by_cases hlookup : (Json.get domain "mapping").asStr = some "lookup"
  · rw [(validOverlong_false hshort hvalid).2 hlookup, Bool.and_false]
  · rw [decide_eq_false hlookup, Bool.and_false, Bool.false_and]

theorem Python.encode_of_exact {display : Json} {s : String}
    (haxis : Frontend.axis (integersOnly domain) = some values)
    (hvalid : Frontend.validDomain (integersOnly domain) values = true)
    (hexact : Frontend.domainIsExact (integersOnly domain) values = true)
    (hshort : validOverlong (integersOnly domain) values = false)
    (hquantize : quantizeOverlong (integersOnly domain) display = false)
    (hquantized : Frontend.quantizeControlDomain (integersOnly domain) display = some s) :
    Python.encodeControlDomain domain display =
      .ok (Frontend.encodeControlDomain (integersOnly domain) display) := by
  have hmapping : (Json.get domain "mapping").asStr = Frontend.mapping (integersOnly domain) := by
    rw [Frontend.mapping, get_integersOnly, asStr_blankField]
  have hsafe : ∀ key, Python.safeInt (Json.get domain key) =
      Frontend.safeInteger (Json.get (integersOnly domain) key) := by
    intro key
    rw [get_integersOnly, safeInteger_blankField]
  have hlong : axisOverlong domain = false := by
    rw [quantizeOverlong, axisOverlong_integersOnly, Bool.or_eq_false_iff,
      Bool.or_eq_false_iff] at hquantize
    exact hquantize.1.1
  obtain ⟨hcenter, hpoints⟩ := validOverlong_false hshort hvalid
  obtain ⟨hparsed, hdecoded⟩ := quantized_short haxis hvalid hshort hquantize hquantized
  have hbrowser := Frontend.encode_of_exact haxis hvalid hexact hquantized
  rw [Python.encodeControlDomain, Python.axis_eq, hlong, ← Frontend.axis_integersOnly, haxis,
    guarded_bind, if_neg Bool.false_ne_true]
  dsimp only
  rw [Python.validDomain_eq, hshort, hvalid, guarded_bind, if_neg Bool.false_ne_true,
    if_neg (not_not.mpr rfl), Python.domainIsExact_eq, exactOverlong_false hshort hvalid,
    hexact, guarded_bind,
    if_neg Bool.false_ne_true, if_neg (not_not.mpr rfl), Python.quantize_eq, hquantize, hquantized,
    guarded_bind, if_neg Bool.false_ne_true]
  dsimp only
  simp only [hmapping, hsafe, Python.isIdentity_eq, Python.parseDecimal_eq, hparsed, guarded_bind,
    Bool.false_eq_true, if_false, Python.rawIndex_int, Python.rawIndex_get, Python.lattice_eq]
  have hrestored : Frontend.Scalar (integersOnly domain) → ∀ n,
      Frontend.encodeControlDomain (integersOnly domain) display =
        Frontend.restored (integersOnly domain) n s →
      Python.restored domain n s = .ok (Frontend.restored (integersOnly domain) n s) := by
    intro hscalar n hn
    obtain ⟨m, hencode, -⟩ := Frontend.encode_scalar haxis hvalid hscalar hexact hquantized
    rw [hn, Frontend.restored] at hencode
    split at hencode
    · rename_i hsame
      exact Python.restored_eq hsame.2.2 (hdecoded n hsame.2.2)
    · cases hencode
  by_cases hidentity : Frontend.mapping (integersOnly domain) = some "identity"
  · rw [hbrowser, if_pos hidentity, if_pos hidentity]
    cases Frontend.isIdentity (integersOnly domain) values with
    | false => rfl
    | true =>
        rw [if_neg (not_not.mpr rfl), if_neg (by decide)]
        rcases Frontend.decimal (.str s) with _ | value
        · rfl
        rcases Frontend.safeInteger (Json.get (integersOnly domain) "raw_min") with _ | rawMin
        · rfl
        rcases Frontend.safeInteger (Json.get (integersOnly domain) "raw_max") with _ | rawMax
        · rfl
        dsimp only
        by_cases hout : value.scale ≠ 0 ∨ value.coefficient < rawMin ∨ value.coefficient > rawMax
        · rw [if_pos hout, if_pos (by omega)]
          rfl
        · rw [if_neg hout, if_neg (by omega)]
          rcases Frontend.rawIndex (integersOnly domain) (.int value.coefficient) with _ | index
          all_goals rfl
  rw [if_neg hidentity]
  rw [if_neg hidentity] at hbrowser
  by_cases hlookup : Frontend.mapping (integersOnly domain) = some "lookup"
  · obtain ⟨points, hread, hrel⟩ := Python.lookupPoints_eq domain values
    rw [hbrowser, if_pos hlookup, if_pos hlookup, hread, hpoints hlookup]
    generalize Frontend.lookup (integersOnly domain) values = points' at *
    cases hrel with
    | none => rfl
    | @some points points' hsame =>
        have hfilter : ∀ points : List Python.LookupPoint,
            (points.map toPoint).filter (fun point => point.display = s) =
              (points.filter fun point => point.text = s).map toPoint := by
          intro points
          rw [List.filter_map]
          rfl
        rw [hsame, guarded_bind, if_neg Bool.false_ne_true]
        dsimp only
        rw [hfilter]
        generalize List.filter _ points = found
        rcases found with _ | ⟨point, _ | ⟨second, rest⟩⟩
        all_goals rfl
  rw [if_neg hlookup]
  rw [if_neg hlookup] at hbrowser
  rcases htarget : Frontend.decimal (.str s) with _ | target
  · rw [hbrowser, htarget]
    rfl
  rw [htarget] at hbrowser
  dsimp only at hbrowser ⊢
  by_cases hlinear : Frontend.mapping (integersOnly domain) = some "linear"
  · have hrestored := hrestored (.inr (.inl hlinear))
    rw [hbrowser, if_pos hlinear, if_pos hlinear]
    rw [if_pos hlinear] at hbrowser
    generalize Frontend.lattice target values.displayOrigin values.displayStep = displayIndex at *
    generalize Frontend.safeInteger (Json.get (integersOnly domain) "raw_origin") = rawOrigin at *
    generalize Frontend.safeInteger (Json.get (integersOnly domain) "raw_step") = rawStep at *
    rcases displayIndex with _ | displayIndex
    · rfl
    rcases rawOrigin with _ | rawOrigin
    · rfl
    rcases rawStep with _ | rawStep
    · rfl
    exact hrestored _ hbrowser
  rw [if_neg hlinear]
  rw [if_neg hlinear] at hbrowser
  by_cases hcentered : Frontend.mapping (integersOnly domain) = some "centered"
  · have hrestored := hrestored (.inr (.inr hcentered))
    have hcenter := hcenter hcentered
    rw [get_integersOnly, overlong_blankField] at hcenter
    rw [hbrowser, if_pos hcentered, if_pos hcentered, hcenter]
    rw [if_pos hcentered] at hbrowser
    have hdisplay : Frontend.decimal (Json.get (integersOnly domain) "display_center") =
        Frontend.decimal (Json.get domain "display_center") := by
      rw [get_integersOnly, decimal_blankField]
    rw [hdisplay] at hbrowser ⊢
    generalize Frontend.rawIndex _ (Json.get (integersOnly domain) "raw_center") = center at *
    generalize Frontend.decimal (Json.get domain "display_center") = displayCenter at *
    generalize Frontend.safeInteger (Json.get (integersOnly domain) "raw_center") = rawCenter at *
    generalize Frontend.safeInteger (Json.get (integersOnly domain) "raw_step") = rawStep at *
    rcases center with _ | center
    · rfl
    rcases displayCenter with _ | displayCenter
    · rfl
    rcases rawCenter with _ | rawCenter
    · rfl
    rcases rawStep with _ | rawStep
    · rfl
    dsimp only at hbrowser ⊢
    generalize Frontend.lattice target displayCenter values.displayStep = offset at *
    rcases offset with _ | offset
    · rfl
    exact hrestored _ hbrowser
  · rw [hbrowser, if_neg hcentered, if_neg hcentered]
    rfl

/-- An encode checks the domain, and then goes on from the quantization. -/
theorem Python.encode_start (display : Json)
    (haxis : Frontend.axis (integersOnly domain) = some values)
    (hlong : axisOverlong domain = false) (hshort :
    validOverlong (integersOnly domain) values = false) :
    ∃ rest : Option String → Except Python.Raised (Option Int), rest none = .ok none ∧
      Python.encodeControlDomain domain display =
        if Frontend.validDomain (integersOnly domain) values = true ∧
            Frontend.domainIsExact (integersOnly domain) values = true then
          Python.quantizeControlDomain domain display >>= rest
        else .ok none := by
  rw [Python.encodeControlDomain, Python.axis_eq, hlong, ← Frontend.axis_integersOnly, haxis,
    guarded_bind, if_neg Bool.false_ne_true]
  dsimp only
  rw [Python.validDomain_eq, hshort, guarded_bind, if_neg Bool.false_ne_true]
  cases hvalid : Frontend.validDomain (integersOnly domain) values with
  | false =>
      have hnot : ¬ (false = true ∧ Frontend.domainIsExact (integersOnly domain) values = true) :=
        fun h => Bool.false_ne_true h.1
      refine ⟨fun _ => .ok none, rfl, ?_⟩
      rw [if_pos Bool.false_ne_true, if_neg hnot]
      rfl
  | true =>
      rw [if_neg (not_not.mpr rfl), Python.domainIsExact_eq,
        exactOverlong_false hshort hvalid, guarded_bind, if_neg Bool.false_ne_true]
      cases Frontend.domainIsExact (integersOnly domain) values with
      | false =>
          have hnot : ¬ (true = true ∧ false = true) := fun h => Bool.false_ne_true h.2
          refine ⟨fun _ => .ok none, rfl, ?_⟩
          rw [if_pos Bool.false_ne_true, if_neg hnot]
          rfl
      | true =>
          have hboth : true = true ∧ true = true := ⟨rfl, rfl⟩
          refine ⟨?_, ?_, ?_⟩
          rotate_left 2
          · rw [if_neg (not_not.mpr rfl), if_pos hboth]
          · rfl

theorem Python.encode_eq (domain : Domain) (display : Json) :
    Python.encodeControlDomain domain display =
      guarded (encodeOverlong (integersOnly domain) display)
        (Frontend.encodeControlDomain (integersOnly domain) display) := by
  have haxis_eq := Frontend.axis_integersOnly domain
  rcases haxis : Frontend.axis domain with _ | values
  · rw [Python.encodeControlDomain, Frontend.encodeControlDomain, encodeOverlong, Python.axis_eq,
      guarded_bind, axisOverlong_integersOnly, haxis_eq, haxis, Bool.or_false]
    rfl
  cases hlong : axisOverlong domain with
  | true =>
      rw [Python.encodeControlDomain, encodeOverlong, Python.axis_eq,
        axisOverlong_integersOnly, hlong]
      rfl
  | false =>
  cases hshort : validOverlong (integersOnly domain) values with
  | true =>
      rw [Python.encodeControlDomain, encodeOverlong, Python.axis_eq, axisOverlong_integersOnly,
        hlong, haxis_eq, haxis, guarded_bind, if_neg Bool.false_ne_true]
      dsimp only
      rw [Python.validDomain_eq, hshort]
      rfl
  | false =>
  rw [← haxis_eq] at haxis
  obtain ⟨rest, hnone, hpython⟩ := Python.encode_start display haxis hlong hshort
  rw [encodeOverlong, haxis, axisOverlong_integersOnly, hlong]
  dsimp only
  rw [hshort, Bool.false_or, Bool.false_or]
  by_cases hchecks : Frontend.validDomain (integersOnly domain) values = true ∧
      Frontend.domainIsExact (integersOnly domain) values = true
  · obtain ⟨hvalid, hexact⟩ := hchecks
    rw [hvalid, hexact, Bool.true_and, Bool.true_and]
    cases hquantize : quantizeOverlong (integersOnly domain) display with
    | true =>
        rw [hpython, if_pos ⟨hvalid, hexact⟩, Python.quantize_eq, hquantize]
        rfl
    | false =>
        rcases hquantized : Frontend.quantizeControlDomain (integersOnly domain) display with _ | s
        · rw [hpython, if_pos ⟨hvalid, hexact⟩, Python.quantize_eq, hquantize, hquantized,
            guarded_bind, if_neg Bool.false_ne_true, hnone, Frontend.encodeControlDomain, haxis,
            hquantized]
          dsimp only
          rw [ite_self]
          rfl
        · exact Python.encode_of_exact haxis hvalid hexact hshort hquantize hquantized
  · rw [hpython, if_neg hchecks, Frontend.encodeControlDomain, haxis]
    have hshut : (Frontend.validDomain (integersOnly domain) values &&
        Frontend.domainIsExact (integersOnly domain) values) = false := by
      rw [← Bool.not_eq_true, Bool.and_eq_true]
      exact hchecks
    rw [← Bool.and_eq_true, Bool.not_eq_true] at hchecks
    dsimp only
    rw [hshut, if_pos (Bool.and_eq_false_iff.mp hshut)]
    rfl

end Rigplane.ControlDomain
