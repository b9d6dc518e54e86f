import Rigplane.ControlDomain.Parity

/-!
# When the two halves return the same

Two things tell the halves apart.  A conversion too long raises in the Python half, and the
browser has a result.  A number written as a float is an integer to the browser, and nothing
to the Python half.

A domain that reads no float has the same reads with its floats left out, and every function
of the browser has the same result (`SameReads`).  A domain that reads one is not valid
without it (`validDomain_floatRead`), so the Python half has no result there, and agrees
where the browser has none either.
-/

namespace Rigplane.ControlDomain

open Decimal

variable {domain domain' : Domain} {values : Axis}

/-! ## What the browser reads of a domain -/

/-- The browser reads the same of two domains. -/
structure SameReads (domain domain' : Domain) : Prop where
  strings : ∀ key, (Json.get domain' key).asStr = (Json.get domain key).asStr
  rawMin : Frontend.safeInteger (Json.get domain' "raw_min") =
    Frontend.safeInteger (Json.get domain "raw_min")
  rawMax : Frontend.safeInteger (Json.get domain' "raw_max") =
    Frontend.safeInteger (Json.get domain "raw_max")
  rawStep : Frontend.safeInteger (Json.get domain' "raw_step") =
    Frontend.safeInteger (Json.get domain "raw_step")
  rawOrigin : Frontend.safeInteger (Json.get domain' "raw_origin") =
    Frontend.safeInteger (Json.get domain "raw_origin")
  rawCenter : Frontend.mapping domain = some "centered" →
    Frontend.safeInteger (Json.get domain' "raw_center") =
      Frontend.safeInteger (Json.get domain "raw_center")
  lookup : Frontend.mapping domain = some "lookup" →
    ∀ values, Frontend.lookup domain' values = Frontend.lookup domain values

namespace SameReads

theorem rawIndex (h : SameReads domain domain') {raw raw' : Json}
    (hraw : Frontend.safeInteger raw' = Frontend.safeInteger raw) :
    Frontend.rawIndex domain' raw' = Frontend.rawIndex domain raw := by
  rw [Frontend.rawIndex, Frontend.rawIndex, hraw, h.rawMin, h.rawMax, h.rawStep, h.rawOrigin]

theorem rawIndex_int (h : SameReads domain domain') (n : Int) :
    Frontend.rawIndex domain' (.int n) = Frontend.rawIndex domain (.int n) := h.rawIndex rfl

theorem decimal (h : SameReads domain domain') (key : String) :
    Frontend.decimal (Json.get domain' key) = Frontend.decimal (Json.get domain key) :=
  decimal_congr (h.strings key)

theorem axis (h : SameReads domain domain') : Frontend.axis domain' = Frontend.axis domain := by
  rw [Frontend.axis, Frontend.axis, h.decimal, h.decimal, h.decimal, h.decimal]

theorem sameCardinality (h : SameReads domain domain') (values : Axis) :
    Frontend.sameCardinality domain' values = Frontend.sameCardinality domain values := by
  rw [Frontend.sameCardinality, Frontend.sameCardinality, h.rawIndex h.rawMin, h.rawIndex h.rawMax]

theorem isIdentity (h : SameReads domain domain') (values : Axis) :
    Frontend.isIdentity domain' values = Frontend.isIdentity domain values := by
  rw [Frontend.isIdentity, Frontend.isIdentity, h.rawIndex h.rawMin, h.rawIndex h.rawMax]
  simp only [List.all_cons, List.all_nil, h.rawMin, h.rawMax, h.rawStep, h.rawOrigin]

theorem centeredAligned (h : SameReads domain domain') (values : Axis) :
    Frontend.centeredAligned domain' values = Frontend.centeredAligned domain values := by
  rw [Frontend.centeredAligned, Frontend.centeredAligned, h.strings "mapping"]
  by_cases hcentered : (Json.get domain "mapping").asStr = some "centered"
  · rw [h.rawIndex h.rawMin, h.rawIndex (h.rawCenter hcentered), h.decimal, h.sameCardinality]
  · rw [if_pos hcentered, if_pos hcentered]

theorem validDomain (h : SameReads domain domain') (values : Axis) :
    Frontend.validDomain domain' values = Frontend.validDomain domain values := by
  have hlookup := h.lookup
  rw [Frontend.mapping] at hlookup
  rw [Frontend.validDomain, Frontend.validDomain, h.strings, h.strings, h.isIdentity,
    Frontend.scalarIndex, Frontend.scalarIndex, h.rawIndex h.rawMin, h.rawIndex h.rawOrigin,
    h.sameCardinality, h.centeredAligned]
  by_cases hmapping : (Json.get domain "mapping").asStr = some "lookup"
  · rw [hlookup hmapping]
  · simp only [hmapping, decide_false, Bool.false_and]

theorem domainIsExact (h : SameReads domain domain') (values : Axis) :
    Frontend.domainIsExact domain' values = Frontend.domainIsExact domain values := by
  have hlookup := h.lookup
  rw [Frontend.mapping] at hlookup
  rw [Frontend.domainIsExact, Frontend.domainIsExact, h.strings, h.strings]
  by_cases hmapping : (Json.get domain "mapping").asStr = some "lookup"
  · rw [h.rawIndex h.rawMin, h.rawIndex h.rawMax, hlookup hmapping]
  · rw [if_pos hmapping, if_pos hmapping]

theorem decode (h : SameReads domain domain') (raw : Json) :
    Frontend.decodeControlDomain domain' raw = Frontend.decodeControlDomain domain raw := by
  have hlookup := h.lookup
  have hcenter := h.rawCenter
  rw [Frontend.mapping] at hlookup hcenter
  rw [Frontend.decodeControlDomain, Frontend.decodeControlDomain, h.axis, h.rawIndex rfl]
  simp only [h.validDomain, h.isIdentity, h.strings, h.decimal]
  by_cases hmapping : (Json.get domain "mapping").asStr = some "lookup"
  · simp only [hlookup hmapping, hmapping, Option.some.injEq, String.reduceEq, if_false, if_true]
  by_cases hcentered : (Json.get domain "mapping").asStr = some "centered"
  · rw [h.rawIndex (hcenter hcentered)]
    simp only [hmapping, if_false]
  · simp only [hmapping, hcentered, if_false]

theorem quantize (h : SameReads domain domain') (display : Json) :
    Frontend.quantizeControlDomain domain' display =
      Frontend.quantizeControlDomain domain display := by
  rw [Frontend.quantizeControlDomain, Frontend.quantizeControlDomain, h.axis]
  simp only [h.validDomain, Frontend.quantized, h.strings]

theorem restored (h : SameReads domain domain') (raw : Int) (s : String) :
    Frontend.restored domain' raw s = Frontend.restored domain raw s := by
  rw [Frontend.restored, Frontend.restored, h.rawIndex rfl, h.decode]

theorem encode (h : SameReads domain domain') (display : Json) :
    Frontend.encodeControlDomain domain' display = Frontend.encodeControlDomain domain display := by
  have hlookup := h.lookup
  have hcenter := h.rawCenter
  rw [Frontend.mapping] at hlookup hcenter
  rw [Frontend.encodeControlDomain, Frontend.encodeControlDomain, h.axis]
  simp only [h.validDomain, h.domainIsExact, h.quantize, h.isIdentity, h.strings, h.rawMin,
    h.rawMax, h.rawStep, h.rawOrigin, h.restored, h.decimal, h.rawIndex_int]
  by_cases hmapping : (Json.get domain "mapping").asStr = some "lookup"
  · simp only [hlookup hmapping, hmapping, Option.some.injEq, String.reduceEq, if_false, if_true]
  by_cases hcentered : (Json.get domain "mapping").asStr = some "centered"
  · rw [h.rawIndex (hcenter hcentered), hcenter hcentered]
    simp only [hmapping, if_false]
  · simp only [hmapping, hcentered, if_false]

end SameReads

/-! ## Floats -/

/-- A number written with a fraction or an exponent. -/
def isFloat : Json → Bool
  | .float _ => true
  | _ => false

/-- The raw value of a lookup item is a float. -/
def pointFloat : Json → Bool
  | .obj record => isFloat (Json.get record "raw")
  | _ => false

/-- A lookup list holds a float. -/
def listFloat : Json → Bool
  | .arr items => items.any pointFloat
  | _ => false

/-- A raw number that the mapping of a domain uses is a float. -/
def floatRead (domain : Domain) : Bool :=
  isFloat (Json.get domain "raw_min") || isFloat (Json.get domain "raw_max") ||
    isFloat (Json.get domain "raw_step") || isFloat (Json.get domain "raw_origin") ||
    (Frontend.mapping domain = some "centered" && isFloat (Json.get domain "raw_center")) ||
    (Frontend.mapping domain = some "lookup" && listFloat (Json.get domain "lookup"))

theorem safeInteger_of_not_float {value : Json} (h : isFloat value = false) :
    Frontend.safeInteger (blankField value) = Frontend.safeInteger value := by
  cases value with
  | float value => cases h
  | null | bool | int | str | arr | obj => rfl

theorem blankValue_of_not_float {value : Json} (h : isFloat value = false) :
    blankValue value = value := by
  cases value with
  | float value => cases h
  | null | bool | int | str | arr | obj => rfl

theorem safeInteger_of_float {value : Json} (h : isFloat value = true) :
    Frontend.safeInteger (blankField value) = none := by
  cases value with
  | float value => rfl
  | null | bool | int | str | arr | obj => cases h

theorem lookupRound_blankItem {found : Frontend.Points} {item : Json}
    (hindex : ∀ n, Frontend.rawIndex domain' (.int n) = Frontend.rawIndex domain (.int n))
    (h : pointFloat item = false) :
    Frontend.lookupRound domain' values found (blankItem item) =
      Frontend.lookupRound domain values found item := by
  cases item with
  | obj record =>
      have hraw : Json.get (record.map fun entry => (entry.1, blankValue entry.2)) "raw" =
          Json.get record "raw" := (get_blankRecord record "raw").trans (blankValue_of_not_float h)
      rw [blankItem, Frontend.lookupRound, Frontend.lookupRound]
      simp only [recordKeys_blank, hraw, get_blankRecord, asStr_blankValue, hindex]
  | null | bool | int | float | str | arr => rfl

theorem lookupLoop_blank {found : Frontend.Points} {items : List Json}
    (hindex : ∀ n, Frontend.rawIndex domain' (.int n) = Frontend.rawIndex domain (.int n))
    (h : items.any pointFloat = false) :
    Frontend.lookupLoop domain' values found (items.map blankItem) =
      Frontend.lookupLoop domain values found items := by
  induction items generalizing found with
  | nil => rfl
  | cons item rest ih =>
      rw [List.any_cons, Bool.or_eq_false_iff] at h
      rw [List.map_cons, Frontend.lookupLoop, Frontend.lookupLoop, lookupRound_blankItem hindex h.1]
      rcases Frontend.lookupRound domain values found item with _ | next
      · rfl
      · exact ih h.2

theorem lookup_blank
    (hindex : ∀ n, Frontend.rawIndex (integersOnly domain) (.int n) =
    Frontend.rawIndex domain (.int n))
    (h : listFloat (Json.get domain "lookup") = false) (values : Axis) :
    Frontend.lookup (integersOnly domain) values = Frontend.lookup domain values := by
  rw [Frontend.lookup, Frontend.lookup, get_integersOnly]
  cases hitems : Json.get domain "lookup" with
  | arr items =>
      rw [hitems] at h
      cases items with
      | nil => rfl
      | cons item rest => exact lookupLoop_blank hindex h
  | null | bool | int | float | str | obj => rfl

/-- A domain that reads no float has the same reads without its floats. -/
theorem sameReads_of_no_float (h : floatRead domain = false) :
    SameReads domain (integersOnly domain) := by
  simp only [floatRead, Bool.or_eq_false_iff, Bool.and_eq_false_imp, decide_eq_true_eq] at h
  obtain ⟨⟨⟨⟨⟨hmin, hmax⟩, hstep⟩, horigin⟩, hcenter⟩, hlookup⟩ := h
  have hread : ∀ key, isFloat (Json.get domain key) = false →
      Frontend.safeInteger (Json.get (integersOnly domain) key) =
        Frontend.safeInteger (Json.get domain key) := by
    intro key hkey
    rw [get_integersOnly, safeInteger_of_not_float hkey]
  refine ⟨fun key => ?_, hread _ hmin, hread _ hmax, hread _ hstep, hread _ horigin,
    fun hmapping => hread _ (hcenter hmapping), fun hmapping => lookup_blank ?_ (hlookup hmapping)⟩
  · rw [get_integersOnly, asStr_blankField]
  · intro n
    rw [Frontend.rawIndex, Frontend.rawIndex, hread _ hmin, hread _ hmax, hread _ hstep,
      hread _ horigin]

/-! ## A domain that reads a float -/

theorem lookupRound_none {found : Frontend.Points} {item : Json}
    (h : pointFloat item = true ∨ ∀ n, Frontend.rawIndex domain (.int n) = none) :
    Frontend.lookupRound domain values found (blankItem item) = none := by
  cases item with
  | obj record =>
      rw [blankItem, Frontend.lookupRound]
      dsimp only
      rw [get_blankRecord, get_blankRecord, asStr_blankValue, safeInteger_blankValue]
      split
      · rfl
      rcases hraw : Python.safeInt (Json.get record "raw") with _ | raw
      · rfl
      have hnone : ∀ n, Frontend.rawIndex domain (.int n) = none := by
        refine h.resolve_left fun hfloat => ?_
        rw [pointFloat] at hfloat
        cases hvalue : Json.get record "raw" with
        | float value =>
            rw [hvalue] at hraw
            cases hraw
        | null | bool | int | str | arr | obj =>
            rw [hvalue] at hfloat
            cases hfloat
      rcases (Json.get record "display").asStr with _ | text
      · rfl
      dsimp only
      rcases Frontend.decimal (.str text) with _ | display
      · rfl
      exact if_pos (.inl (hnone raw))
  | null | bool | int | float | str | arr => rfl

theorem lookupLoop_none {found : Frontend.Points} {items : List Json}
    (h : items.any pointFloat = true ∨
      items ≠ [] ∧ ∀ n, Frontend.rawIndex domain (.int n) = none) :
    Frontend.lookupLoop domain values found (items.map blankItem) = none := by
  induction items generalizing found with
  | nil =>
      rcases h with h | ⟨hne, -⟩
      · cases h
      · exact absurd rfl hne
  | cons item rest ih =>
      rw [List.map_cons, Frontend.lookupLoop]
      rcases hround : Frontend.lookupRound domain values found (blankItem item) with _ | next
      · rfl
      rw [List.any_cons, Bool.or_eq_true, or_assoc] at h
      rcases h with hitem | hrest | ⟨-, hnone⟩
      · rw [lookupRound_none (.inl hitem)] at hround
        cases hround
      · exact ih (.inl hrest)
      · rw [lookupRound_none (.inr hnone)] at hround
        cases hround

theorem lookup_none
    (h : listFloat (Json.get domain "lookup") = true ∨
      ∀ n, Frontend.rawIndex (integersOnly domain) (.int n) = none) (values : Axis) :
    Frontend.lookup (integersOnly domain) values = none := by
  rw [Frontend.lookup, get_integersOnly]
  cases hitems : Json.get domain "lookup" with
  | arr items =>
      rw [hitems] at h
      cases items with
      | nil => rfl
      | cons item rest =>
          exact lookupLoop_none (h.imp_right fun hnone => ⟨List.cons_ne_nil _ _, hnone⟩)
  | null | bool | int | float | str | obj => rfl

theorem rawGrid_of_valid (hvalid : Frontend.validDomain (integersOnly domain) values = true) :
    Nonempty (Frontend.RawGrid (integersOnly domain)) := by
  cases Frontend.valid_cases hvalid with
  | identity _ hidentity => exact ⟨(Frontend.isIdentity_spec hidentity).choose⟩
  | linear _ hscalarIndex => exact ⟨(Frontend.scalarIndex_spec hscalarIndex).choose⟩
  | centered _ haligned => exact ⟨(Frontend.centeredAligned_spec haligned).choose⟩
  | lookup _ hpoints =>
      by_contra hgrid
      rw [lookup_none (.inr fun n => ?_)] at hpoints
      · cases hpoints
      · by_contra hindex
        obtain ⟨index, hindex⟩ := Option.ne_none_iff_exists'.mp hindex
        exact hgrid (Frontend.rawGrid_of_index hindex)

/-- Without its floats, a domain that reads one is not valid. -/
theorem validDomain_floatRead (h : floatRead domain = true) (values : Axis) :
    Frontend.validDomain (integersOnly domain) values = false := by
  by_contra hvalid
  rw [Bool.not_eq_false] at hvalid
  obtain ⟨raw⟩ := rawGrid_of_valid hvalid
  have hmapping : Frontend.mapping (integersOnly domain) = Frontend.mapping domain := by
    rw [Frontend.mapping, get_integersOnly, asStr_blankField]
    rfl
  have hread : ∀ key n, isFloat (Json.get domain key) = true →
      Frontend.safeInteger (Json.get (integersOnly domain) key) ≠ some n := by
    intro key n hkey
    rw [get_integersOnly, safeInteger_of_float hkey]
    exact (Option.some_ne_none n).symm
  simp only [floatRead, Bool.or_eq_true, Bool.and_eq_true, decide_eq_true_eq] at h
  rcases h with ((((hmin | hmax) | hstep) | horigin) | ⟨hcentered, hcenter⟩) | ⟨hlookup, hfloat⟩
  · exact hread _ _ hmin raw.read_min
  · exact hread _ _ hmax raw.read_max
  · exact hread _ _ hstep raw.read_step
  · exact hread _ _ horigin raw.read_origin
  · cases Frontend.valid_cases hvalid with
    | centered _ haligned =>
        obtain ⟨-, center, -, -, hindex, -⟩ := Frontend.centeredAligned_spec haligned
        obtain ⟨n, hn⟩ := Frontend.safe_of_index hindex
        exact hread _ _ hcenter hn
    | identity hother | linear hother | lookup hother =>
        rw [hmapping, hcentered] at hother
        exact absurd (Option.some.inj hother) (by decide)
  · cases Frontend.valid_cases hvalid with
    | lookup _ hpoints =>
        rw [lookup_none (.inl hfloat)] at hpoints
        cases hpoints
    | identity hother | linear hother | centered hother =>
        rw [hmapping, hlookup] at hother
        exact absurd (Option.some.inj hother) (by decide)

/-! ## Where the browser has a result -/

/-- A raw value lies on the raw axis of a valid domain and, of a lookup list, is listed. -/
def decodable (domain : Domain) (raw : Json) : Bool :=
  match Frontend.axis domain, Frontend.safeInteger raw with
  | some values, some n =>
      (Frontend.rawIndex domain raw).isSome && Frontend.validDomain domain values &&
        (Frontend.mapping domain ≠ some "lookup" ||
          (Frontend.lookup domain values).any fun points => points.any fun point => point.raw = n)
  | _, _ => false

/-- A display value lies in the range of a valid domain and, of one that rejects, on its
lattice. -/
def quantizable (domain : Domain) (display : Json) : Bool :=
  match Frontend.axis domain, Frontend.decimal display with
  | some values, some value =>
      Frontend.inRange value values && Frontend.validDomain domain values &&
        ((Json.get domain "quantization").asStr ≠ some "reject" ||
          (Frontend.lattice value values.displayOrigin values.displayStep).isSome)
  | _, _ => false

/-- A lookup list displays the value that a display value is quantized to. -/
def listed (domain : Domain) (values : Axis) (value : Decimal) : Bool :=
  (Frontend.lookup domain values).any fun points => points.any fun point =>
    (Frontend.decimal (.str point.display)).any fun display =>
      (Frontend.quantized domain values value).any fun result => Frontend.compare display result = 0

/-- A display value can be quantized on an exact domain and, of a lookup list, is then listed. -/
def encodable (domain : Domain) (display : Json) : Bool :=
  quantizable domain display &&
    match Frontend.axis domain, Frontend.decimal display with
    | some values, some value =>
        Frontend.domainIsExact domain values &&
          (Frontend.mapping domain ≠ some "lookup" || listed domain values value)
    | _, _ => false

theorem decode_isSome (domain : Domain) (raw : Json) :
    (Frontend.decodeControlDomain domain raw).isSome = decodable domain raw := by
  rw [decodable]
  rcases haxis : Frontend.axis domain with _ | values
  · rw [Frontend.decodeControlDomain, haxis]
    rfl
  rcases hsafe : Frontend.safeInteger raw with _ | n
  · rw [Frontend.decodeControlDomain, Frontend.rawIndex_of_unsafe hsafe, haxis]
    rfl
  rcases hindex : Frontend.rawIndex domain raw with _ | index
  · rw [Frontend.decodeControlDomain, haxis, hindex]
    rfl
  dsimp only
  rw [Option.isSome_some, Bool.true_and]
  cases hvalid : Frontend.validDomain domain values with
  | false =>
      rw [Frontend.decodeControlDomain, haxis, hindex, hsafe]
      dsimp only
      rw [if_pos hvalid]
      rfl
  | true =>
      obtain ⟨grid⟩ := Frontend.displayGrid_of_axis haxis
      rw [Bool.true_and]
      rcases Frontend.scalar_or_lookup hvalid with hscalar | ⟨hlookup, points, hpoints⟩
      · obtain ⟨rawGrid, shift, hshift⟩ := Frontend.valid_shift haxis hvalid hscalar grid
        obtain ⟨d, hdecode, -⟩ := hshift.decode hindex
        rw [hdecode, decide_eq_true (Frontend.not_lookup hscalar)]
        rfl
      · rw [Frontend.decode_of_valid haxis hvalid hindex hsafe, if_neg (by rw [hlookup]; decide),
          if_pos hlookup, hpoints, decide_eq_false (not_not.mpr hlookup)]
        dsimp only
        rw [Option.isSome_map, List.isSome_find?]
        rfl

theorem quantize_isSome (domain : Domain) (display : Json) :
    (Frontend.quantizeControlDomain domain display).isSome = quantizable domain display := by
  rw [quantizable]
  rcases haxis : Frontend.axis domain with _ | values
  · rw [Frontend.quantizeControlDomain, haxis]
    rfl
  rcases hvalue : Frontend.decimal display with _ | value
  · rw [Frontend.quantizeControlDomain, haxis, hvalue]
    rfl
  obtain ⟨grid⟩ := Frontend.displayGrid_of_axis haxis
  rw [Frontend.quantizeControlDomain, haxis, hvalue]
  dsimp only
  cases hrange : Frontend.inRange value values with
  | false =>
      rw [if_pos (.inl rfl)]
      rfl
  | true =>
  cases hvalid : Frontend.validDomain domain values with
  | false =>
      rw [if_pos (.inr rfl)]
      rfl
  | true =>
      rw [if_neg (by decide), Bool.true_and, Bool.true_and]
      have hnone := grid.quantized_none_iff value hvalid
      rcases hquantized : Frontend.quantized domain values value with _ | result
      · obtain ⟨hreject, hlattice⟩ := hnone.mp hquantized
        rw [hreject, hlattice]
        rfl
      · obtain ⟨i, rfl, hlow, hhigh⟩ := grid.quantized_spec hrange hquantized
        have hsome := hnone.mpr.mt (by rw [hquantized]; exact Option.some_ne_none _)
        dsimp only
        rw [grid.textInAxis_of_index (Frontend.add_value _ _ _) hlow hhigh, Option.isSome_some,
          eq_comm, Bool.or_eq_true, decide_eq_true_iff, Option.isSome_iff_ne_none]
        exact not_and_or.mp hsome

theorem encode_isSome (domain : Domain) (display : Json) :
    (Frontend.encodeControlDomain domain display).isSome = encodable domain display := by
  rw [encodable, ← quantize_isSome]
  rcases haxis : Frontend.axis domain with _ | values
  · rw [Frontend.encodeControlDomain, haxis, Bool.and_false]
    rfl
  rcases hquantized : Frontend.quantizeControlDomain domain display with _ | s
  · rw [Frontend.encodeControlDomain, haxis, hquantized]
    dsimp only
    rw [ite_self]
    rfl
  obtain ⟨grid⟩ := Frontend.displayGrid_of_axis haxis
  obtain ⟨value, i, hvalue, -, hvalid, hresult, -, -, rfl⟩ :=
    (Frontend.quantize_eq_some haxis grid).mp hquantized
  rw [hvalue]
  dsimp only
  rw [Option.isSome_some, Bool.true_and]
  cases hexact : Frontend.domainIsExact domain values with
  | false =>
      rw [Frontend.encodeControlDomain, haxis]
      dsimp only
      rw [if_pos (.inr hexact)]
      rfl
  | true =>
      rw [Bool.true_and]
      rcases Frontend.scalar_or_lookup hvalid with hscalar | ⟨hlookup, points, hpoints⟩
      · obtain ⟨n, hencode, -⟩ := Frontend.encode_scalar haxis hvalid hscalar hexact hquantized
        rw [hencode, decide_eq_true (Frontend.not_lookup hscalar)]
        rfl
      · have hshows : ∀ point ∈ points, (Frontend.decimal (.str point.display)).any (fun display =>
            Frontend.compare display (Frontend.add values.displayOrigin i values.displayStep) = 0) =
              true ↔
            point.display =
              Frontend.text (Frontend.add values.displayOrigin i values.displayStep) := by
          intro point hmem
          obtain ⟨-, d, hd, -⟩ := (Frontend.lookup_spec hpoints).1 point hmem
          rw [hd, Option.any_some, decide_eq_true_iff, Frontend.compare_zero,
            ← Frontend.text_eq_iff, Frontend.text_of_decimal hd]
        rw [decide_eq_false (not_not.mpr hlookup), Bool.false_or, listed, hpoints, hresult,
          Option.any_some, Bool.eq_iff_iff, Option.isSome_iff_exists, List.any_eq_true]
        simp only [Frontend.encode_lookup haxis hvalid hexact hlookup hpoints hquantized,
          Option.any_some]
        constructor
        · rintro ⟨n, hmem⟩
          exact ⟨_, hmem, (hshows _ hmem).mpr rfl⟩
        · rintro ⟨point, hmem, hshow⟩
          rw [← (hshows point hmem).mp hshow]
          exact ⟨point.raw, hmem⟩

/-! ## Agreement -/

/-- Without the floats of a domain that reads one, the browser decodes nothing. -/
theorem decode_floatRead {raw : Json} (h : floatRead domain = true) :
    Frontend.decodeControlDomain (integersOnly domain) raw = none := by
  rw [← Option.isNone_iff_eq_none, ← Option.not_isSome, decode_isSome, decodable]
  split
  · rw [validDomain_floatRead h, Bool.and_false, Bool.false_and]
    rfl
  · rfl

theorem decode_of_unsafe {raw : Json} (h : Frontend.safeInteger raw = none) :
    Frontend.decodeControlDomain domain raw = none := by
  rw [← Option.isNone_iff_eq_none, ← Option.not_isSome, decode_isSome, decodable, h]
  split
  · rename_i hsafe
    cases hsafe
  · rfl

theorem quantize_floatRead {display : Json} (h : floatRead domain = true) :
    Frontend.quantizeControlDomain (integersOnly domain) display = none := by
  rw [← Option.isNone_iff_eq_none, ← Option.not_isSome, quantize_isSome, quantizable]
  split
  · rw [validDomain_floatRead h, Bool.and_false, Bool.false_and]
    rfl
  · rfl

theorem encode_floatRead {display : Json} (h : floatRead domain = true) :
    Frontend.encodeControlDomain (integersOnly domain) display = none := by
  rw [← Option.isNone_iff_eq_none, ← Option.not_isSome, encode_isSome, encodable,
    ← quantize_isSome, quantize_floatRead h]
  rfl

/-- The result without floats is the result with them, unless a float is read where the browser
has a result. -/
theorem blank_iff {α : Type} {result result' : Option α} {float able : Bool}
    (hsame : float = false → result' = result) (hnone : float = true → result' = none)
    (hable : result.isSome = able) : result' = result ↔ (float = true → able = false) := by
  cases float with
  | false => simp [hsame rfl]
  | true =>
      rw [hnone rfl, ← hable]
      cases result <;> simp

theorem decode_agrees_iff (domain : Domain) (raw : Json) :
    Python.decodeControlDomain domain raw = .ok (Frontend.decodeControlDomain domain raw) ↔
      decodeOverlong (integersOnly domain) (blankValue raw) = false ∧
        ((floatRead domain || isFloat raw) = true → decodable domain raw = false) := by
  rw [Python.decode_eq, guarded_eq_ok]
  refine and_congr_right fun _ => blank_iff ?_ ?_ (decode_isSome domain raw)
  · intro hfloat
    rw [Bool.or_eq_false_iff] at hfloat
    rw [blankValue_of_not_float hfloat.2]
    exact (sameReads_of_no_float hfloat.1).decode raw
  · intro hfloat
    rcases Bool.or_eq_true_iff.mp hfloat with hdomain | hraw
    · exact decode_floatRead hdomain
    · cases raw with
      | float value => exact decode_of_unsafe rfl
      | null | bool | int | str | arr | obj => cases hraw

theorem quantize_agrees_iff (domain : Domain) (display : Json) :
    Python.quantizeControlDomain domain display = .ok
      (Frontend.quantizeControlDomain domain display) ↔
      quantizeOverlong (integersOnly domain) display = false ∧
        (floatRead domain = true → quantizable domain display = false) := by
  rw [Python.quantize_eq, guarded_eq_ok]
  exact and_congr_right fun _ => blank_iff (fun h => (sameReads_of_no_float h).quantize display)
    quantize_floatRead (quantize_isSome domain display)

theorem encode_agrees_iff (domain : Domain) (display : Json) :
    Python.encodeControlDomain domain display = .ok (Frontend.encodeControlDomain domain display) ↔
      encodeOverlong (integersOnly domain) display = false ∧
        (floatRead domain = true → encodable domain display = false) := by
  rw [Python.encode_eq, guarded_eq_ok]
  exact and_congr_right fun _ => blank_iff (fun h => (sameReads_of_no_float h).encode display)
    encode_floatRead (encode_isSome domain display)

/-- The two halves return the same for a domain, a raw value and a display value, just where no
conversion is too long and no float is read that the browser has a result for. -/
theorem agree_iff (domain : Domain) (raw display : Json) :
    (Python.decodeControlDomain domain raw = .ok (Frontend.decodeControlDomain domain raw) ↔
      decodeOverlong (integersOnly domain) (blankValue raw) = false ∧
        ((floatRead domain || isFloat raw) = true → decodable domain raw = false)) ∧
    (Python.quantizeControlDomain domain display =
        .ok (Frontend.quantizeControlDomain domain display) ↔
      quantizeOverlong (integersOnly domain) display = false ∧
        (floatRead domain = true → quantizable domain display = false)) ∧
    (Python.encodeControlDomain domain display =
        .ok (Frontend.encodeControlDomain domain display) ↔
      encodeOverlong (integersOnly domain) display = false ∧
        (floatRead domain = true → encodable domain display = false)) :=
  ⟨decode_agrees_iff domain raw, quantize_agrees_iff domain display,
    encode_agrees_iff domain display⟩

/-- Tenths from 0 to 1. -/
def tenths : Domain :=
  [("mapping", .str "linear"), ("quantization", .str "floor"), ("restoration", .str "exact"),
    ("raw_min", .int 0), ("raw_max", .int 10), ("raw_step", .int 1), ("raw_origin", .int 0),
    ("display_min", .str "0"), ("display_max", .str "1"), ("display_step", .str "0.1"),
    ("display_origin", .str "0")]

/-- One digit more than a conversion takes. -/
def longInteger : Written where
  negative := false
  integer := List.replicate (Python.maxStrDigits + 1) '1'
  fraction := []
  integer_digits := fun ch hmem => by
    rw [List.eq_of_mem_replicate hmem]
    rfl
  fraction_digits := fun ch hmem => absurd hmem List.not_mem_nil
  integer_ne_nil := List.cons_ne_nil _ _
  no_leading := .inr (by rw [List.replicate_succ]; decide)
  no_trailing := by simp
  no_minus := by simp

/-- An integer of 4301 digits raises, and the browser finds it out of range.  The raw value
`4.0` has a display value in the browser alone. -/
theorem tenths_disagree :
    Python.quantizeControlDomain tenths (.str (String.ofList longInteger.chars)) ≠
        .ok (Frontend.quantizeControlDomain tenths (.str (String.ofList longInteger.chars))) ∧
      Python.decodeControlDomain tenths (.float 4) ≠
        .ok (Frontend.decodeControlDomain tenths (.float 4)) := by
  constructor
  · have hlong : overlong (.str (String.ofList longInteger.chars)) = true := by
      rw [overlong_chars, decide_eq_true_iff, longInteger, List.append_nil, List.length_replicate]
      exact Nat.lt_succ_self _
    rw [Python.quantize_eq, quantizeOverlong, hlong, Bool.or_true, Bool.true_or]
    intro h
    cases h
  · have hpython : Python.decodeControlDomain tenths (.float 4) = .ok none := rfl
    have hbrowser : Frontend.decodeControlDomain tenths (.float 4) = some "0.4" := by decide
    rw [hpython, hbrowser]
    decide

end Rigplane.ControlDomain
