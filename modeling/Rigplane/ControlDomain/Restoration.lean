import Rigplane.ControlDomain.Lattice

/-!
# Decode and encode are inverse

`encodeControlDomain` quantizes a display value and looks for the raw value of the result.
On an identity, linear or centered domain there always is one (`encode_scalar`): the raw
index is the display index, shifted back.  A lookup list names each raw value and each
display value once (`lookup_spec`), so what it lists is found again (`encode_lookup`).
-/

namespace Rigplane.ControlDomain.Frontend

open Decimal

variable {domain : Domain} {values : Axis} {raw : Json} {index : Int} {d : Decimal}

/-! ## Texts and values -/

theorem decimal_text (d : Decimal) : ∃ w : Written, text d = String.ofList w.chars ∧
    decimal (.str (text d)) = some w.decimal ∧ w.decimal.value = d.value := by
  obtain ⟨w, hchars, hvalue⟩ := exists_written d
  refine ⟨w, by rw [text_eq, hchars], ?_, hvalue⟩
  rw [text_eq, ← hchars, decimal_chars]

theorem text_eq_iff {a b : Decimal} : text a = text b ↔ a.value = b.value := by
  constructor
  · intro h
    obtain ⟨w, -, ha, hvalue⟩ := decimal_text a
    obtain ⟨w', -, hb, hvalue'⟩ := decimal_text b
    rw [h, hb] at ha
    rw [← hvalue, ← hvalue', Option.some.inj ha]
  · intro h
    rw [text_eq, text_eq, text_congr h]

/-- A canonical string is the text of what it stands for. -/
theorem text_of_decimal {s : String} (h : decimal (.str s) = some d) : text d = s := by
  obtain ⟨w, hs, rfl⟩ := decimal_eq_some.mp h
  rw [text_eq, text_decimal]
  exact (Json.str.inj hs).symm

/-! ## Quantize -/

theorem quantize_eq_some {display : Json} {s : String} (haxis : axis domain = some values)
    (grid : DisplayGrid values) :
    quantizeControlDomain domain display = some s ↔ ∃ value i, decimal display = some value ∧
      inRange value values = true ∧ validDomain domain values = true ∧
      quantized domain values value = some (add values.displayOrigin i values.displayStep) ∧
      grid.minIndex ≤ i ∧ i ≤ grid.maxIndex ∧
      s = text (add values.displayOrigin i values.displayStep) := by
  rw [quantizeControlDomain, haxis]
  rcases decimal display with _ | value
  · simp
  dsimp only
  by_cases hrange : inRange value values = true
  · by_cases hvalid : validDomain domain values = true
    · rw [if_neg (by rw [hrange, hvalid]; decide)]
      constructor
      · intro h
        rcases hquantized : quantized domain values value with _ | result
        · rw [hquantized] at h
          cases h
        · rw [hquantized] at h
          obtain ⟨i, rfl, hlow, hhigh⟩ := grid.quantized_spec hrange hquantized
          dsimp only at h
          rw [grid.textInAxis_of_index (add_value _ _ _) hlow hhigh] at h
          exact ⟨value, i, rfl, hrange, hvalid, hquantized, hlow, hhigh, (Option.some.inj h).symm⟩
      · rintro ⟨value', i, hvalue, -, -, hquantized, hlow, hhigh, rfl⟩
        cases hvalue
        rw [hquantized]
        exact grid.textInAxis_of_index (add_value _ _ _) hlow hhigh
    · rw [if_pos (.inr (Bool.eq_false_of_not_eq_true hvalid))]
      simp [hvalid]
  · rw [if_pos (.inl (Bool.eq_false_of_not_eq_true hrange))]
    simp only [reduceCtorEq, Option.some.injEq, false_iff, not_exists, not_and]
    rintro value' i rfl hin
    exact absurd hin hrange

theorem encode_of_exact {display : Json} {s : String} (haxis : axis domain = some values)
    (hvalid : validDomain domain values = true) (hexact : domainIsExact domain values = true)
    (hquantized : quantizeControlDomain domain display = some s) :
    encodeControlDomain domain display =
      if mapping domain = some "identity" then
        if isIdentity domain values = false then none
        else
          match decimal (.str s), safeInteger (Json.get domain "raw_min"),
            safeInteger (Json.get domain "raw_max") with
          | some value, some rawMin, some rawMax =>
              if value.scale ≠ 0 ∨ value.coefficient < rawMin ∨ value.coefficient > rawMax then none
              else if rawIndex domain (.int value.coefficient) = none then none
              else some value.coefficient
          | _, _, _ => none
      else if mapping domain = some "lookup" then
        match lookup domain values with
        | none => none
        | some points =>
            match points.filter fun point => point.display = s with
            | [point] => some point.raw
            | _ => none
      else
        match decimal (.str s) with
        | none => none
        | some target =>
            if mapping domain = some "linear" then
              match lattice target values.displayOrigin values.displayStep,
                safeInteger (Json.get domain "raw_origin"),
                safeInteger (Json.get domain "raw_step") with
              | some displayIndex, some rawOrigin, some rawStep =>
                  restored domain (rawOrigin + displayIndex * rawStep) s
              | _, _, _ => none
            else if mapping domain = some "centered" then
              match rawIndex domain (Json.get domain "raw_center"),
                decimal (Json.get domain "display_center"),
                safeInteger (Json.get domain "raw_center"),
                safeInteger (Json.get domain "raw_step") with
              | some _, some displayCenter, some rawCenter, some rawStep =>
                  match lattice target displayCenter values.displayStep with
                  | none => none
                  | some offset => restored domain (rawCenter + offset * rawStep) s
              | _, _, _, _ => none
            else none := by
  rw [encodeControlDomain, haxis]
  dsimp only
  rw [if_neg (by rw [hvalid, hexact]; decide), hquantized]
  rfl

theorem Shifted.restored {raw : RawGrid domain} {display : DisplayGrid values} {shift k : Int}
    {s : String} (h : Shifted raw display shift) (hs : decimal (.str s) = some d)
    (hvalue : d.value = DisplayGrid.valueAt values k) (hlow : display.minIndex ≤ k)
    (hhigh : k ≤ display.maxIndex) :
    Frontend.restored domain (raw.rawOrigin + (k - shift) * raw.rawStep) s =
        some (raw.rawOrigin + (k - shift) * raw.rawStep) ∧
      rawIndex domain (.int (raw.rawOrigin + (k - shift) * raw.rawStep)) = some (k - shift) ∧
      decodeControlDomain domain (.int (raw.rawOrigin + (k - shift) * raw.rawStep)) = some s := by
  have hmin := h.min
  have hmax := h.max
  have hrange : raw.minIndex ≤ k - shift ∧ k - shift ≤ raw.maxIndex := ⟨by omega, by omega⟩
  have hindex := raw.index_of_range hrange
  obtain ⟨hge, hle⟩ := raw.range_iff.mpr hrange
  obtain ⟨result, hdecode, hresult⟩ := h.decode hindex
  have hsame : decodeControlDomain domain (.int (raw.rawOrigin + (k - shift) * raw.rawStep)) =
      some s := by
    rw [hdecode, ← text_of_decimal hs, Option.some.injEq, text_eq_iff, hresult, hvalue,
      Int.sub_add_cancel]
  refine ⟨?_, hindex, hsame⟩
  rw [Frontend.restored, if_pos ⟨raw.safe_of_mem hge hle, by rw [hindex]; simp, hsame⟩]

/-- On a domain that maps one axis onto the other, every quantized value is the value of a
raw value. -/
theorem encode_scalar {display : Json} {s : String} (haxis : axis domain = some values)
    (hvalid : validDomain domain values = true) (hscalar : Scalar domain)
    (hexact : domainIsExact domain values = true)
    (hquantized : quantizeControlDomain domain display = some s) :
    ∃ n, encodeControlDomain domain display = some n ∧
      decodeControlDomain domain (.int n) = some s := by
  obtain ⟨grid⟩ := displayGrid_of_axis haxis
  obtain ⟨value, k, -, -, -, -, hlow, hhigh, rfl⟩ := (quantize_eq_some haxis grid).mp hquantized
  obtain ⟨w, -, hs, hvalue⟩ := decimal_text (add values.displayOrigin k values.displayStep)
  rw [add_value] at hvalue
  change _ = DisplayGrid.valueAt values k at hvalue
  have hencode := encode_of_exact haxis hvalid hexact hquantized
  rw [hs] at hencode
  generalize text (add values.displayOrigin k values.displayStep) = s at *
  cases valid_cases hvalid with
  | identity hmapping hidentity =>
      obtain ⟨raw, hshift, hindex⟩ := identity_shift haxis hvalid hmapping hidentity grid
      have hmin := hshift.min
      have hmax := hshift.max
      obtain ⟨-, hrawIndex, hdecode⟩ := hshift.restored hs hvalue hlow hhigh
      rw [sub_zero] at hrawIndex hdecode
      obtain ⟨hge, hle⟩ := raw.range_iff.mpr (⟨by omega, by omega⟩ :
        raw.minIndex ≤ k ∧ k ≤ raw.maxIndex)
      have hwhole := w.decimal_of_int (hvalue.trans (hindex k).symm)
      rw [if_pos hmapping, hidentity, raw.read_min, raw.read_max, hwhole] at hencode
      refine ⟨_, hencode.trans ?_, hdecode⟩
      dsimp only
      rw [if_neg (by decide), if_neg (by omega), hrawIndex]
      simp
  | linear hmapping hscalarIndex horigin hsame hcardinality =>
      obtain ⟨raw, hshift⟩ :=
        linear_shift haxis hvalid hmapping hscalarIndex horigin hsame hcardinality grid
      obtain ⟨hrestored, -, hdecode⟩ := hshift.restored hs hvalue hlow hhigh
      rw [if_neg (by rw [hmapping]; decide), if_neg (by rw [hmapping]; decide)] at hencode
      dsimp only at hencode
      rw [if_pos hmapping, grid.lattice_iff.mpr hvalue, raw.read_origin, raw.read_step] at hencode
      rw [sub_zero] at hrestored hdecode
      exact ⟨_, hencode.trans hrestored, hdecode⟩
  | centered hmapping haligned =>
      obtain ⟨raw, shift, center, displayCenter, hshift, hcenter, hdisplay, hcenter_value⟩ :=
        centered_shift haxis hvalid hmapping haligned grid
      obtain ⟨hrestored, -, hdecode⟩ := hshift.restored hs hvalue hlow hhigh
      obtain ⟨n, hn, -, -, hn_eq⟩ := raw.index_iff.mp hcenter
      have hoffset : lattice w.decimal displayCenter values.displayStep =
          some (k - shift - center) := by
        rw [lattice_eq_some, hvalue, hcenter_value, DisplayGrid.valueAt, DisplayGrid.valueAt]
        refine ⟨grid.step_pos, ?_⟩
        push_cast
        ring
      have hraw : n + (k - shift - center) * raw.rawStep =
          raw.rawOrigin + (k - shift) * raw.rawStep := by
        rw [hn_eq]
        ring
      rw [if_neg (by rw [hmapping]; decide), if_neg (by rw [hmapping]; decide)] at hencode
      dsimp only at hencode
      rw [if_neg (by rw [hmapping]; decide), if_pos hmapping, hcenter, hdisplay, hn,
        raw.read_step] at hencode
      dsimp only at hencode
      rw [hoffset] at hencode
      dsimp only at hencode
      rw [hraw] at hencode
      exact ⟨_, hencode.trans hrestored, hdecode⟩
  | lookup hmapping hpoints =>
      rcases hscalar with h | h | h
      all_goals
        rw [hmapping] at h
        exact absurd (Option.some.inj h) (by decide)

/-! ## Lookup lists -/

/-- One way along an order: up, or down. -/
def Goes {α : Type*} [LT α] (direction : Int) (a b : α) : Prop :=
  direction = 1 ∧ a < b ∨ direction = -1 ∧ b < a

theorem Goes.trans {α : Type*} [Preorder α] {direction : Int} {a b c : α} (h : Goes direction a b)
    (h' : Goes direction b c) : Goes direction a c := by
  rcases h with ⟨rfl, h⟩ | ⟨rfl, h⟩
  · exact .inl ⟨rfl, h.trans (h'.resolve_right fun h => absurd h.1 (by decide)).2⟩
  · exact .inr ⟨rfl, (h'.resolve_left fun h => absurd h.1 (by decide)).2.trans h⟩

theorem Goes.ne {α : Type*} [Preorder α] {direction : Int} {a b : α} (h : Goes direction a b) :
    a ≠ b := by
  rintro rfl
  rcases h with ⟨-, h⟩ | ⟨-, h⟩
  · exact lt_irrefl a h
  · exact lt_irrefl a h

theorem pairwise_getLast {α : Type*} {R : α → α → Prop} {l : List α} {last x : α}
    (h : l.Pairwise R) (hlast : l.getLast? = some last) (hx : x ∈ l) : x = last ∨ R x last := by
  obtain ⟨front, rfl⟩ := List.getLast?_eq_some_iff.mp hlast
  rcases List.mem_append.mp hx with hfront | hend
  · exact .inr ((List.pairwise_append.mp h).2.2 x hfront last (List.mem_singleton_self last))
  · exact .inl (List.mem_singleton.mp hend)

/-- The value a point displays. -/
def LookupPoint.value (point : LookupPoint) : ℚ :=
  ((decimal (.str point.display)).getD ⟨0, 0⟩).value

/-- A point lies on both axes. -/
def OnAxes (domain : Domain) (values : Axis) (point : LookupPoint) : Prop :=
  rawIndex domain (.int point.raw) ≠ none ∧
    ∃ d, decimal (.str point.display) = some d ∧ inAxis d values = true

/-- What the loop of `lookup` has checked so far. -/
structure Checked (domain : Domain) (values : Axis) (found : Points) : Prop where
  onAxes : ∀ point ∈ found.points, OnAxes domain values point
  raws : found.points.Pairwise fun p q => Goes found.rawDirection p.raw q.raw
  displays : found.points.Pairwise fun p q => Goes found.displayDirection p.value q.value
  /-- Two points have a direction. -/
  directions : found.rawDirection = 0 ∨ found.displayDirection = 0 → found.points.length ≤ 1

theorem pairwise_of_short {α : Type*} {R : α → α → Prop} {l : List α} (h : l.length ≤ 1) :
    l.Pairwise R := by
  match l, h with
  | [], _ => exact List.Pairwise.nil
  | [x], _ => exact List.pairwise_singleton R x

/-- A new point goes on the way the points before it go. -/
theorem pairwise_snoc {α β : Type*} [Preorder β] {f : α → β} {l : List α} {last new : α}
    {direction next : Int} (h : l.Pairwise fun p q => Goes direction (f p) (f q))
    (hshort : direction = 0 → l.length ≤ 1) (hsame : ¬ (direction ≠ 0 ∧ direction ≠ next))
    (hlast : l.getLast? = some last) (hnext : Goes next (f last) (f new)) :
    (l ++ [new]).Pairwise fun p q => Goes next (f p) (f q) := by
  have hold : l.Pairwise fun p q => Goes next (f p) (f q) := by
    by_cases hzero : direction = 0
    · exact pairwise_of_short (hshort hzero)
    · have heq : direction = next := by
        by_contra hne
        exact hsame ⟨hzero, hne⟩
      rw [← heq]
      exact h
  refine List.pairwise_append.mpr ⟨hold, List.pairwise_singleton _ _, fun p hp q hq => ?_⟩
  rw [List.mem_singleton.mp hq]
  rcases pairwise_getLast hold hlast hp with rfl | hp_last
  · exact hnext
  · exact hp_last.trans hnext

theorem goes_raw {a b : Int}
    (h : (if b > a then 1 else if b < a then -1 else 0 : Int) ≠ 0) :
    Goes (if b > a then 1 else if b < a then -1 else 0) a b := by
  split
  · rename_i hlt
    exact .inl ⟨rfl, hlt⟩
  · rename_i hnot
    rw [if_neg hnot] at h
    split
    · rename_i hlt
      exact .inr ⟨rfl, hlt⟩
    · rename_i hnot'
      rw [if_neg hnot'] at h
      exact absurd rfl h

theorem goes_compare {a b : Decimal} (h : compare b a ≠ 0) :
    Goes (compare b a) a.value b.value := by
  have hne : b.value ≠ a.value := fun heq => h (compare_zero.mpr heq)
  rw [compare_eq, if_neg hne]
  split
  · rename_i hlt
    exact .inr ⟨rfl, hlt⟩
  · rename_i hnot
    exact .inl ⟨rfl, lt_of_le_of_ne (not_lt.mp hnot) (Ne.symm hne)⟩

theorem lookupRound_checked {found found' : Points} {item : Json} (h : Checked domain values found)
    (hround : lookupRound domain values found item = some found') :
    Checked domain values found' := by
  rw [lookupRound.eq_def] at hround
  split at hround
  · dsimp only at hround
    split at hround
    · cases hround
    split at hround
    · rename_i raw displayText _ _
      split at hround
      · cases hround
      rename_i display hdisplay
      split at hround
      · cases hround
      rename_i hlies
      rw [not_or, Bool.not_eq_false] at hlies
      have hnew : OnAxes domain values ⟨raw, displayText⟩ := ⟨hlies.1, display, hdisplay, hlies.2⟩
      have honAxes : ∀ point ∈ found.points ++ [LookupPoint.mk raw displayText],
          OnAxes domain values point := by
        intro point hmem
        rcases List.mem_append.mp hmem with hold | hlast
        · exact h.onAxes point hold
        · rw [List.mem_singleton.mp hlast]
          exact hnew
      split at hround
      · rename_i hnone
        have hnil : found.points = [] := List.getLast?_eq_none_iff.mp hnone
        cases hround
        refine ⟨honAxes, ?_, ?_, fun _ => ?_⟩
        · exact pairwise_of_short (by rw [hnil]; rfl)
        · exact pairwise_of_short (by rw [hnil]; rfl)
        · rw [hnil]
          rfl
      · rename_i previous hlast
        have hgoes : _ → Goes _ previous.raw raw := goes_raw
        generalize (if raw > previous.raw then (1 : Int) else _) = next at hround hgoes
        split at hround
        · cases hround
        rename_i hdirections
        cases hround
        rw [not_or, not_or, not_or] at hdirections
        obtain ⟨hraw, hdisp, hraw_same, hdisp_same⟩ := hdirections
        obtain ⟨-, previousDisplay, hprevious, -⟩ :=
          h.onAxes previous (List.mem_of_getLast? hlast)
        rw [hprevious, Option.getD_some] at hdisp hdisp_same ⊢
        have hvalue : previous.value = previousDisplay.value := by
          rw [LookupPoint.value, hprevious, Option.getD_some]
        have hnew_value : (LookupPoint.mk raw displayText).value = display.value := by
          rw [LookupPoint.value, hdisplay, Option.getD_some]
        refine ⟨honAxes, ?_, ?_, fun hzero => ?_⟩
        · exact pairwise_snoc (f := LookupPoint.raw) h.raws (fun hzero => h.directions (.inl hzero))
            hraw_same hlast (hgoes hraw)
        · refine pairwise_snoc (f := LookupPoint.value) h.displays
            (fun hzero => h.directions (.inr hzero)) hdisp_same hlast ?_
          rw [hvalue, hnew_value]
          exact goes_compare hdisp
        · rcases hzero with hzero | hzero
          · exact absurd hzero hraw
          · exact absurd hzero hdisp
    · cases hround
  · cases hround

theorem lookupLoop_checked {found : Points} {items : List Json} {points : List LookupPoint}
    (h : Checked domain values found) (hloop : lookupLoop domain values found items = some points) :
    ∃ found', Checked domain values found' ∧ found'.points = points := by
  induction items generalizing found with
  | nil =>
      cases hloop
      exact ⟨found, h, rfl⟩
  | cons item rest ih =>
      rw [lookupLoop] at hloop
      split at hloop
      · cases hloop
      · rename_i next hround
        exact ih (lookupRound_checked h hround) hloop

/-- The points lie on both axes, and no two share a raw value or a display value. -/
theorem lookup_spec {points : List LookupPoint} (h : lookup domain values = some points) :
    (∀ point ∈ points, OnAxes domain values point) ∧
      points.Pairwise (fun p q => p.raw ≠ q.raw) ∧
      points.Pairwise fun p q => p.value ≠ q.value := by
  rw [lookup.eq_def] at h
  split at h
  · have hnone : Checked domain values {} :=
      ⟨fun _ hmem => absurd hmem List.not_mem_nil, List.Pairwise.nil, List.Pairwise.nil,
        fun _ => Nat.zero_le _⟩
    obtain ⟨found, hchecked, rfl⟩ := lookupLoop_checked hnone h
    exact ⟨hchecked.onAxes, hchecked.raws.imp Goes.ne, hchecked.displays.imp Goes.ne⟩
  · cases h

theorem filter_of_distinct {α β : Type*} [DecidableEq β] {f : α → β} {l : List α} {x : α}
    (h : l.Pairwise fun a b => f a ≠ f b) (hx : x ∈ l) : l.filter (fun a => f a = f x) = [x] := by
  induction l with
  | nil => cases hx
  | cons head rest ih =>
      obtain ⟨hhead, hrest⟩ := List.pairwise_cons.mp h
      rcases List.mem_cons.mp hx with rfl | hmem
      · rw [List.filter_cons_of_pos (by simp)]
        refine congrArg _ (List.filter_eq_nil_iff.mpr fun a ha => ?_)
        simpa using (hhead a ha).symm
      · rw [List.filter_cons_of_neg (by simpa using hhead x hmem)]
        exact ih hrest hmem

/-- A quantized value is encoded just where the list displays it. -/
theorem encode_lookup {points : List LookupPoint} {display : Json} {s : String} {n : Int}
    (haxis : axis domain = some values) (hvalid : validDomain domain values = true)
    (hexact : domainIsExact domain values = true) (hmapping : mapping domain = some "lookup")
    (hpoints : lookup domain values = some points)
    (hquantized : quantizeControlDomain domain display = some s) :
    encodeControlDomain domain display = some n ↔ ⟨n, s⟩ ∈ points := by
  obtain ⟨honAxes, -, hdisplays⟩ := lookup_spec hpoints
  have htexts : points.Pairwise fun p q => p.display ≠ q.display :=
    hdisplays.imp fun hne heq => hne (by rw [LookupPoint.value, heq, LookupPoint.value])
  rw [encode_of_exact haxis hvalid hexact hquantized, if_neg (by rw [hmapping]; decide),
    if_pos hmapping, hpoints]
  dsimp only
  constructor
  · intro h
    split at h
    · rename_i point hfilter
      have hmem : point ∈ points.filter fun point => point.display = s := by
        rw [hfilter]
        exact List.mem_singleton_self _
      obtain ⟨hmem, hdisplay⟩ := List.mem_filter.mp hmem
      rw [← Option.some.inj h, ← of_decide_eq_true hdisplay]
      exact hmem
    · cases h
  · intro hmem
    have hfilter := filter_of_distinct htexts hmem
    dsimp only at hfilter
    rw [hfilter]

/-! ## Restoration -/

/-- A raw value that a domain takes: on the axis and, of a lookup list, listed. -/
def Takes (domain : Domain) (values : Axis) (raw : Int) : Prop :=
  rawIndex domain (.int raw) ≠ none ∧ (mapping domain = some "lookup" →
    ∃ points display, lookup domain values = some points ∧ ⟨raw, display⟩ ∈ points)

theorem scalar_or_lookup (hvalid : validDomain domain values = true) :
    Scalar domain ∨
      mapping domain = some "lookup" ∧ ∃ points, lookup domain values = some points := by
  cases valid_cases hvalid with
  | identity hmapping hidentity => exact .inl (.inl hmapping)
  | linear hmapping hscalarIndex horigin hsame hcardinality => exact .inl (.inr (.inl hmapping))
  | centered hmapping haligned => exact .inl (.inr (.inr hmapping))
  | lookup hmapping hpoints => exact .inr ⟨hmapping, _, hpoints⟩

theorem not_lookup (hscalar : Scalar domain) : mapping domain ≠ some "lookup" := by
  rcases hscalar with h | h | h
  all_goals
    rw [h]
    decide

end Rigplane.ControlDomain.Frontend
