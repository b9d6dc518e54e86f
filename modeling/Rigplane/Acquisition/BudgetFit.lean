import Rigplane.Clock
import Rigplane.Lib.Stretching

/-!
# Fitting acquisition classes to a budget

`fit_to_budget` of `core/state_acquisition_policy.py`.  Cadences, rates and the constants of the
table are exact rationals.

The loop goes through all classes and skips those without polls, so it is
`Stretching.Problem.stretched` over the live ones.
-/

namespace Rigplane.Acquisition

/-- The classes; `ranked` lists them, highest first. -/
inductive AcquisitionClass where
  | keying
  | txMeter
  | live
  | meter
  | control
  | panel
  | setting
  | menu
deriving DecidableEq

inductive AcquisitionPhase where
  | receive
  | transmit
  | both
deriving DecidableEq

/-- The cadence envelope of a class, with the checks of its `__post_init__`. -/
structure AcquisitionClassPolicy where
  nominalCadenceSeconds : Time
  ceilingCadenceSeconds : Time
  polledIn : AcquisitionPhase := .both
  heldAtCeilingInTx : Bool := false
  nominal_pos : 0 < nominalCadenceSeconds := by norm_num
  nominal_le : nominalCadenceSeconds ≤ ceilingCadenceSeconds := by norm_num

namespace AcquisitionClass

/-- The order of `ACQUISITION_CLASS_TABLE`. -/
def ranked : List AcquisitionClass := [keying, txMeter, live, meter, control, panel, setting, menu]

theorem mem_ranked (klass : AcquisitionClass) : klass ∈ ranked := by
  cases klass <;> simp [ranked]

theorem nodup_ranked : ranked.Nodup := by decide

/-- `klass` comes after `other` in the ranking. -/
def Below (klass other : AcquisitionClass) : Prop := ranked.idxOf other < ranked.idxOf klass

/-- `ACQUISITION_CLASS_TABLE`. -/
def policy : AcquisitionClass → AcquisitionClassPolicy
  | keying => { nominalCadenceSeconds := 3 / 10, ceilingCadenceSeconds := 1 / 2 }
  | txMeter => { nominalCadenceSeconds := 1 / 4, ceilingCadenceSeconds := 1, polledIn := .transmit }
  | live => { nominalCadenceSeconds := 1, ceilingCadenceSeconds := 1 }
  | meter => { nominalCadenceSeconds := 3 / 10, ceilingCadenceSeconds := 2 / 5 }
  | control => { nominalCadenceSeconds := 2, ceilingCadenceSeconds := 5 }
  | panel => { nominalCadenceSeconds := 5, ceilingCadenceSeconds := 10 }
  | setting =>
      { nominalCadenceSeconds := 10, ceilingCadenceSeconds := 30, heldAtCeilingInTx := true }
  | menu => { nominalCadenceSeconds := 30, ceilingCadenceSeconds := 60, heldAtCeilingInTx := true }

def ceiling (klass : AcquisitionClass) : Time := klass.policy.ceilingCadenceSeconds

end AcquisitionClass

open AcquisitionClass

/-- `_FIT_EPSILON`. -/
def fitEpsilon : Time := 1 / 1000000000

/-- The poll counts: a class that is not in the map has none. -/
abbrev Counts := AcquisitionClass → Option ℕ+

/-- `BudgetFit`. -/
structure BudgetFit where
  effectiveCadenceSeconds : AcquisitionClass → Option Time
  demandHz : Time
  fits : Bool
  saturated : Bool

inductive FitError where
  | valueError (text : String)
deriving DecidableEq

/-- The classes that are polled now. -/
def liveCounts (counts : Counts) (tx : Bool) : Counts := fun klass =>
  if tx = true ∨ klass.policy.polledIn ≠ .transmit then counts klass else none

/-- Where a class starts. -/
def startingCadence (tx : Bool) (klass : AcquisitionClass) : Time :=
  if tx = true ∧ klass.policy.heldAtCeilingInTx = true then klass.policy.ceilingCadenceSeconds
  else klass.policy.nominalCadenceSeconds

/-- `demand`, the queries per second at these cadences. -/
def demand (live : Counts) (reservedHz : Time) (cadence : AcquisitionClass → Time) : Time :=
  reservedHz + (ranked.map fun klass =>
    match live klass with
    | some count => (count : Time) / cadence klass
    | none => 0).sum

/-- One turn of the loop of `fit_to_budget`. -/
def fitStep (live : Counts) (reservedHz limit : Time) (saturated : Bool)
    (cadence : AcquisitionClass → Time) (klass : AcquisitionClass) : AcquisitionClass → Time :=
  match live klass with
  | none => cadence
  | some count =>
      if demand live reservedHz cadence ≤ limit ∨ saturated = true then cadence
      else
        let need := (count : Time) / cadence klass - (demand live reservedHz cadence - limit)
        Function.update cadence klass
          (if need ≤ 0 then klass.ceiling else min klass.ceiling ((count : Time) / need))

def fitToBudget (counts : Counts) (budgetHz margin : Time) (tx : Bool) (reservedHz : Time := 0) :
    Except FitError BudgetFit :=
  if budgetHz ≤ 0 then .error (.valueError "budget_hz must be positive")
  else if margin ≤ 0 then .error (.valueError "margin must be positive")
  else if reservedHz < 0 then .error (.valueError "reserved_hz must not be negative")
  else
    let limit := margin * budgetHz
    let saturated := decide (budgetHz - fitEpsilon ≤ reservedHz)
    let live := liveCounts counts tx
    let cadence := ranked.reverse.foldl (fitStep live reservedHz limit saturated)
      (startingCadence tx)
    let settled := demand live reservedHz cadence
    .ok {
      effectiveCadenceSeconds := fun klass => (live klass).map fun _ => cadence klass
      demandHz := settled
      fits := decide (settled ≤ limit + fitEpsilon)
      saturated }

/-! ## The fit as a stretching problem -/

variable {counts : Counts} {live : Counts} {budgetHz margin reservedHz limit : Time} {tx : Bool}
  {cadence : AcquisitionClass → Time} {klass other : AcquisitionClass}

theorem startingCadence_pos (tx : Bool) (klass : AcquisitionClass) :
    0 < startingCadence tx klass := by
  rw [startingCadence]
  split
  · exact lt_of_lt_of_le klass.policy.nominal_pos klass.policy.nominal_le
  · exact klass.policy.nominal_pos

theorem startingCadence_le (tx : Bool) (klass : AcquisitionClass) :
    startingCadence tx klass ≤ klass.ceiling := by
  rw [startingCadence]
  split
  · exact le_rfl
  · exact klass.policy.nominal_le

/-- The live classes, lowest first, between where they start and their ceilings. -/
def stretching (live : Counts) (tx : Bool) (reservedHz limit : Time) :
    Stretching.Problem AcquisitionClass Time where
  order := ranked.reverse.filter fun klass => (live klass).isSome
  weight klass := ((live klass).getD 1 : ℕ+)
  start := startingCadence tx
  ceiling := ceiling
  base := reservedHz
  limit := limit
  nodup := (List.nodup_reverse.mpr nodup_ranked).filter _
  weight_pos klass := by exact_mod_cast ((live klass).getD 1).pos
  start_pos := startingCadence_pos tx
  start_le := startingCadence_le tx

theorem mem_order : klass ∈ (stretching live tx reservedHz limit).order ↔ (live klass).isSome := by
  simp [stretching, mem_ranked]

theorem sum_live (classes : List AcquisitionClass) :
    (classes.map fun klass =>
      match live klass with
      | some count => (count : Time) / cadence klass
      | none => 0).sum =
    ((classes.filter fun klass => (live klass).isSome).map fun klass =>
      (((live klass).getD 1 : ℕ+) : Time) / cadence klass).sum := by
  induction classes with
  | nil => rfl
  | cons klass classes ih =>
      cases h : live klass with
      | none => simpa [h] using ih
      | some count => simpa [h] using ih

theorem demand_eq (tx : Bool) (limit : Time) : demand live reservedHz cadence =
    (stretching live tx reservedHz limit).demand cadence := by
  have hperm : (ranked.filter fun klass => (live klass).isSome).Perm
      (ranked.reverse.filter fun klass => (live klass).isSome) :=
    (List.reverse_perm ranked).symm.filter _
  rw [demand, Stretching.Problem.demand, sum_live]
  exact congrArg (reservedHz + ·) (hperm.map _).sum_eq

theorem fitStep_eq : fitStep live reservedHz limit false cadence klass =
    if (live klass).isSome then (stretching live tx reservedHz limit).stretch cadence klass
    else cadence := by
  rw [fitStep.eq_def]
  cases h : live klass with
  | none => simp
  | some count =>
      have hweight : (stretching live tx reservedHz limit).weight klass = count := by
        simp [stretching, h]
      simp only [Bool.false_eq_true, or_false, Option.isSome_some, if_true,
        Stretching.Problem.stretch,
        Stretching.Problem.need, hweight, ← demand_eq tx limit]
      rfl

theorem foldl_fitStep : ranked.reverse.foldl (fitStep live reservedHz limit false)
    (startingCadence tx) =
    (stretching live tx reservedHz limit).stretched := by
  rw [Stretching.Problem.stretched]
  refine Eq.trans ?_ (List.foldl_filter ..).symm
  exact congrArg (fun f => ranked.reverse.foldl f (startingCadence tx))
    (funext fun cadence => funext fun klass => fitStep_eq)

theorem foldl_fitStep_saturated (classes : List AcquisitionClass) :
    classes.foldl (fitStep live reservedHz limit true) cadence = cadence := by
  induction classes with
  | nil => rfl
  | cons klass classes ih =>
      rw [List.foldl_cons, fitStep.eq_def]
      cases live klass with
      | none => exact ih
      | some count => simpa using ih

/-- In the order of the loop, what is below a class comes before it. -/
theorem below_mem_pre {pre post : List AcquisitionClass} (hbelow : other.Below klass)
    (hother : (live other).isSome)
    (horder : (stretching live tx reservedHz limit).order = pre ++ klass :: post) :
    other ∈ pre := by
  have hmem : other ∈ (stretching live tx reservedHz limit).order := mem_order.mpr hother
  have hranked : ranked.reverse.Pairwise fun a b => ranked.idxOf b < ranked.idxOf a := by decide
  have hsorted : (stretching live tx reservedHz limit).order.Pairwise fun a b => a.Below b :=
    hranked.filter fun klass => (live klass).isSome
  rw [horder] at hmem hsorted
  rcases List.mem_append.mp hmem with hpre | hrest
  · exact hpre
  · rcases List.mem_cons.mp hrest with rfl | hpost
    · exact absurd hbelow (lt_irrefl _)
    · have habove := (List.pairwise_cons.mp (List.pairwise_append.mp hsorted).2.1).1 other hpost
      exact absurd hbelow (lt_asymm habove)

/-- The cadences that the fit has settled on; those of other classes do not matter. -/
def BudgetFit.cadenceOf (fit : BudgetFit) (klass : AcquisitionClass) : Time :=
  (fit.effectiveCadenceSeconds klass).getD 0

structure Fitted (counts : Counts) (budgetHz margin : Time) (tx : Bool) (reservedHz : Time)
    (fit : BudgetFit) : Prop where
  saturated_iff : fit.saturated = true ↔ budgetHz - fitEpsilon ≤ reservedHz
  fits_iff : fit.fits = true ↔ fit.demandHz ≤ margin * budgetHz + fitEpsilon
  classes : ∀ klass, (fit.effectiveCadenceSeconds klass).isSome ↔
    (liveCounts counts tx klass).isSome
  between : ∀ klass q, fit.effectiveCadenceSeconds klass = some q →
    startingCadence tx klass ≤ q ∧ q ≤ klass.ceiling
  /-- A class is stretched only when those below it are at their ceilings. -/
  lowestFirst : ∀ klass q, fit.effectiveCadenceSeconds klass = some q →
    q ≠ startingCadence tx klass →
    ∀ other q', other.Below klass → fit.effectiveCadenceSeconds other = some q' → q' = other.ceiling
  demandHz : fit.demandHz = demand (liveCounts counts tx) reservedHz fit.cadenceOf
  closes : fit.saturated = false → (fit.demandHz ≤ margin * budgetHz ↔
    demand (liveCounts counts tx) reservedHz ceiling ≤ margin * budgetHz)
  /-- No stretched class could be polled faster. -/
  tight : fit.saturated = false →
    demand (liveCounts counts tx) reservedHz ceiling ≤ margin * budgetHz →
    ∀ klass q, fit.effectiveCadenceSeconds klass = some q → q ≠ startingCadence tx klass →
    ∀ faster, 0 < faster → faster < q →
      margin * budgetHz <
        demand (liveCounts counts tx) reservedHz (Function.update fit.cadenceOf klass faster)
  /-- Where the ceilings cannot meet the limit, every class is at its ceiling. -/
  full : fit.saturated = false →
    margin * budgetHz < demand (liveCounts counts tx) reservedHz ceiling →
    ∀ klass q, fit.effectiveCadenceSeconds klass = some q → q = klass.ceiling
  saturated : fit.saturated = true → ∀ klass q, fit.effectiveCadenceSeconds klass = some q →
    q = startingCadence tx klass

theorem demand_congr {cadence' : AcquisitionClass → Time}
    (h : ∀ klass, (live klass).isSome → cadence klass = cadence' klass) :
    demand live reservedHz cadence = demand live reservedHz cadence' := by
  have hmap : ∀ klass ∈ ranked, (match live klass with
      | some count => (count : Time) / cadence klass
      | none => 0) = match live klass with
      | some count => (count : Time) / cadence' klass
      | none => 0 := by
    intro klass _
    cases hlive : live klass with
    | none => rfl
    | some count => simp [h klass (by simp [hlive])]
  rw [demand, demand, List.map_congr_left hmap]

/-- The cadences of the live classes are all that a demand reads of them. -/
theorem demand_cadenceOf {fit : BudgetFit}
    (hfit : ∀ klass, fit.effectiveCadenceSeconds klass = (live klass).map fun _ => cadence klass) :
    demand live reservedHz fit.cadenceOf = demand live reservedHz cadence := by
  refine demand_congr fun klass hsome => ?_
  obtain ⟨count, hcount⟩ := Option.isSome_iff_exists.mp hsome
  simp [BudgetFit.cadenceOf, hfit, hcount]

/-- Nothing is stretched. -/
theorem Fitted.of_saturated {fit : BudgetFit} (hsaturated : fit.saturated = true)
    (hreserved : budgetHz - fitEpsilon ≤ reservedHz)
    (hfits : fit.fits = true ↔ fit.demandHz ≤ margin * budgetHz + fitEpsilon)
    (hfit : ∀ klass, fit.effectiveCadenceSeconds klass =
      (liveCounts counts tx klass).map fun _ => startingCadence tx klass)
    (hdemand : fit.demandHz = demand (liveCounts counts tx) reservedHz (startingCadence tx)) :
    Fitted counts budgetHz margin tx reservedHz fit := by
  have hstart : ∀ klass q, fit.effectiveCadenceSeconds klass = some q →
    q = startingCadence tx klass := by
    intro klass q hq
    rw [hfit] at hq
    obtain ⟨-, -, rfl⟩ := Option.map_eq_some_iff.mp hq
    rfl
  constructor
  · exact iff_of_true hsaturated hreserved
  · exact hfits
  · intro klass
    simp [hfit]
  · intro klass q hq
    rw [hstart klass q hq]
    exact ⟨le_rfl, startingCadence_le tx klass⟩
  · exact fun klass q hq hne => absurd (hstart klass q hq) hne
  · rw [hdemand, demand_cadenceOf hfit]
  · intro hfalse
    rw [hsaturated] at hfalse
    cases hfalse
  · intro hfalse
    rw [hsaturated] at hfalse
    cases hfalse
  · intro hfalse
    rw [hsaturated] at hfalse
    cases hfalse
  · exact fun _ => hstart

theorem Fitted.of_stretched {fit : BudgetFit} (hsaturated : fit.saturated = false)
    (hreserved : ¬ budgetHz - fitEpsilon ≤ reservedHz)
    (hfits : fit.fits = true ↔ fit.demandHz ≤ margin * budgetHz + fitEpsilon)
    (hfit : ∀ klass, fit.effectiveCadenceSeconds klass = (liveCounts counts tx klass).map fun _ =>
      (stretching (liveCounts counts tx) tx reservedHz (margin * budgetHz)).stretched klass)
    (hdemand : fit.demandHz = demand (liveCounts counts tx) reservedHz
      (stretching (liveCounts counts tx) tx reservedHz (margin * budgetHz)).stretched) :
    Fitted counts budgetHz margin tx reservedHz fit := by
  have hfilled := Stretching.Problem.stretched_filled
    (stretching (liveCounts counts tx) tx reservedHz (margin * budgetHz))
  have hcadence : ∀ klass q, fit.effectiveCadenceSeconds klass = some q →
      (liveCounts counts tx klass).isSome ∧
        q = (stretching (liveCounts counts tx) tx reservedHz
          (margin * budgetHz)).stretched klass := by
    intro klass q hq
    rw [hfit] at hq
    obtain ⟨count, hcount, rfl⟩ := Option.map_eq_some_iff.mp hq
    exact ⟨by simp [hcount], rfl⟩
  -- A class that is not where it started has been stretched.
  have hstretched : ∀ klass q, fit.effectiveCadenceSeconds klass = some q →
      q ≠ startingCadence tx klass → startingCadence tx klass <
        (stretching (liveCounts counts tx) tx reservedHz (margin * budgetHz)).stretched klass := by
    intro klass q hq hne
    obtain ⟨-, rfl⟩ := hcadence klass q hq
    exact lt_of_le_of_ne (hfilled.start_le klass) (Ne.symm hne)
  constructor
  · exact iff_of_false (ne_true_of_eq_false hsaturated) hreserved
  · exact hfits
  · intro klass
    simp [hfit]
  · intro klass q hq
    obtain ⟨-, rfl⟩ := hcadence klass q hq
    exact ⟨hfilled.start_le klass, hfilled.le_ceiling klass⟩
  · intro klass q hq hne other q' hbelow hq'
    obtain ⟨hlive, -⟩ := hcadence klass q hq
    obtain ⟨hother, rfl⟩ := hcadence other q' hq'
    obtain ⟨pre, post, horder⟩ := List.append_of_mem (mem_order.mpr hlive)
    exact hfilled.earlier pre klass post horder (hstretched klass q hq hne) other
      (below_mem_pre hbelow hother horder)
  · rw [hdemand, demand_cadenceOf hfit]
  · intro _
    rw [hdemand, demand_eq tx (margin * budgetHz), demand_eq tx (margin * budgetHz)]
    exact Stretching.Problem.stretched_le_iff
  · intro _ _ klass q hq hne faster hpos hfaster
    obtain ⟨hlive, rfl⟩ := hcadence klass q hq
    have hmore := Stretching.Problem.lt_demand_of_shorter (mem_order.mpr hlive)
      (hstretched klass _ hq hne) hpos hfaster
    rw [← demand_eq tx (margin * budgetHz)] at hmore
    refine lt_of_lt_of_eq hmore (demand_congr fun other hother => ?_)
    obtain ⟨count, hcount⟩ := Option.isSome_iff_exists.mp hother
    by_cases heq : other = klass
    · rw [heq, Function.update_self, Function.update_self]
    · rw [Function.update_of_ne heq, Function.update_of_ne heq]
      simp [BudgetFit.cadenceOf, hfit, hcount]
  · intro _ hover klass q hq
    obtain ⟨hlive, rfl⟩ := hcadence klass q hq
    rw [demand_eq tx (margin * budgetHz)] at hover
    have hexceeds := lt_of_not_ge fun hle =>
      not_le.mpr hover (Stretching.Problem.stretched_le_iff.mp hle)
    exact hfilled.full hexceeds klass (mem_order.mpr hlive)
  · intro htrue
    rw [hsaturated] at htrue
    cases htrue

/-- `fit_to_budget` stretches the classes as it should, and no further. -/
theorem fitToBudget_fitted (counts : Counts) (tx : Bool) (hbudget : 0 < budgetHz)
    (hmargin : 0 < margin)
    (hreserved : 0 ≤ reservedHz) :
    ∃ fit, fitToBudget counts budgetHz margin tx reservedHz = .ok fit ∧
      Fitted counts budgetHz margin tx reservedHz fit := by
  rw [fitToBudget, if_neg (not_le.mpr hbudget), if_neg (not_le.mpr hmargin), if_neg
    (not_lt.mpr hreserved)]
  refine ⟨_, rfl, ?_⟩
  cases hsaturated : decide (budgetHz - fitEpsilon ≤ reservedHz) with
  | true =>
      rw [foldl_fitStep_saturated]
      exact Fitted.of_saturated rfl (of_decide_eq_true hsaturated) decide_eq_true_iff
        (fun _ => rfl) rfl
  | false =>
      rw [foldl_fitStep]
      exact Fitted.of_stretched rfl (of_decide_eq_false hsaturated) decide_eq_true_iff
        (fun _ => rfl) rfl

/-- Polls of a receiver that do not fit at their nominal cadences. -/
def receiverCounts : Counts
  | .keying => some 2
  | .control => some 20
  | .setting => some 40
  | _ => none

theorem fitToBudget_fitted_receiver : ∃ fit, fitToBudget receiverCounts 20
    (3 / 4) false 1 = .ok fit ∧
    Fitted receiverCounts 20 (3 / 4) false 1 fit :=
  fitToBudget_fitted receiverCounts false (by norm_num) (by norm_num) (by norm_num)

end Rigplane.Acquisition
