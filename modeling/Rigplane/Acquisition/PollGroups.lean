import Rigplane.Acquisition.BudgetFit
import Rigplane.Acquisition.Requests

/-!
# Poll cadence groups

What the scheduler of `core/acquisition_scheduler.py` derives from its profile and its transport
budget, and never changes: the poll groups, the cadences that the budget leaves to the groups of a
class, and the slower ones of the receiver that is not selected.
-/

namespace Rigplane.Acquisition

open StatePipeline

/-! ## Classes of paths -/

/-- `TX_METER_FIELD_NAMES`. -/
def txMeterFieldNames : List String := ["power", "swr", "alc", "comp", "id"]

/-- `CONTROL_FIELD_NAMES`. -/
def controlFieldNames : List String :=
  ["af_level", "rf_gain", "squelch", "filter_width", "filter_width_radio_default", "split",
    "tx_target", "active", "power_level", "dual_watch", "tuner_status"]

/-- `PANEL_ADJUSTABLE_FIELD_NAMES`. -/
def panelAdjustableFieldNames : List String :=
  ["auto_notch", "filter_width", "filter_width_radio_default", "if_shift", "manual_notch",
    "manual_notch_freq", "manual_notch_width", "nb_level", "notch_filter", "nr_level", "pbt_inner",
    "pbt_outer", "rit_freq", "split"]

/-- `PANEL_FIELD_NAMES`. -/
def panelFieldNames : List String :=
  panelAdjustableFieldNames.filter fun name => name ∉ controlFieldNames

/-- `acquisition_class_for_path`. -/
def acquisitionClassForPath (path : FieldPath) : AcquisitionClass :=
  let name := path.name.text
  if path.family = .meters then
    if name ∈ txMeterFieldNames then .txMeter
    else if name = "s_meter" then .meter
    else .setting
  else if path.family = .display then .menu
  else if name = "ptt" then .keying
  else if path.family = .freqMode ∧ name ∈ ["freq_hz", "mode"] then
    if path.slot = some .active then .live else .control
  else if name ∈ controlFieldNames then .control
  else if name ∈ panelFieldNames then .panel
  else .setting

namespace AcquisitionClass

/-- `demoted_acquisition_class`. -/
def demoted : AcquisitionClass → AcquisitionClass
  | live => control
  | meter => control
  | control => panel
  | panel => setting
  | setting => menu
  | menu => menu
  | keying => keying
  | txMeter => txMeter

/-- `freshness_ttl_seconds` of a class: `setting` and `menu` do not expire by time. -/
def freshnessTtlSeconds (klass : AcquisitionClass) : Option Time :=
  if klass = setting ∨ klass = menu then none
  else some (max (2 * klass.ceiling) (klass.ceiling + 7 / 10))

end AcquisitionClass

/-! ## Groups -/

/-- What an `AcquisitionScheduler` is made with. -/
structure SchedulerConfig (A : Type) where
  profile : RadioAcquisitionProfile A
  transportBudgetHz : Option Time := none

/-- `acquisition_budget_margin`. -/
def acquisitionBudgetMargin : Time := 3 / 4

/-- A group of paths that one poll asks for. -/
abbrev PollGroup (A : Type) := AcquisitionRequestKey A × List FieldPath

section Groups

variable {A : Type} [DecidableEq A] (p : RadioAcquisitionProfile A)

/-- One turn of the loop of `_poll_cadence_groups`. -/
def addPollPath (grouped : Dict (AcquisitionRequestKey A) (List FieldPath))
    (capability : FieldCapability) : Dict (AcquisitionRequestKey A) (List FieldPath) :=
  if capability.canPoll = true ∧ (p.policyFor capability.path).cadenceSeconds ≠ none then
    let key := AcquisitionScheduler.requestKey capability.path .poll (p.policyFor capability.path)
    grouped.set key ((grouped.get? key).getD [] ++ [capability.path])
  else grouped

/-- `_poll_cadence_groups`. -/
def pollCadenceGroups : List (PollGroup A) :=
  (p.capabilities.foldl (addPollPath p) .empty).items.map fun item => (item.1, sortedPaths item.2)

/-- `_poll_cadence_groups().get(key, ())`. -/
def pollPaths (key : AcquisitionRequestKey A) : List FieldPath :=
  (((pollCadenceGroups p).find? (·.1 = key)).map Prod.snd).getD []

/-- A group none of whose paths has a policy of its own. -/
def classDerived (paths : List FieldPath) : Bool :=
  paths.all fun path => (p.fieldPolicies.get? path).isNone

/-- `_class_derived_group_receivers`: the one receiver of a class-derived group. -/
def groupReceiver : List FieldPath → Option Token
  | [] => none
  | path :: rest =>
      if classDerived p (path :: rest) = true ∧
          rest.all (·.receiverId = path.receiverId) = true then
        path.receiverId
      else none

end Groups

namespace SchedulerConfig

variable {A : Type} [DecidableEq A] (c : SchedulerConfig A)

/-! ## The budget fit -/

/-- `_fitted_class_by_key`. -/
def fittedClass (key : AcquisitionRequestKey A) : Option AcquisitionClass :=
  if c.transportBudgetHz = none then none
  else
    match pollPaths c.profile key with
    | [] => none
    | path :: rest =>
        if classDerived c.profile (path :: rest) then some (acquisitionClassForPath path) else none

/-- `counts` of `_fit_transport_budget`: how many paths of a class are polled. -/
def pollCount (klass : AcquisitionClass) : Nat :=
  (((pollCadenceGroups c.profile).filter fun group => c.fittedClass group.1 = some klass).map
    fun group => group.2.length).sum

/-- `reserved` of `_fit_transport_budget`: the queries per second at declared cadences. -/
def reservedHz (tx : Bool) : Time :=
  ((pollCadenceGroups c.profile).map fun group =>
    match group.1.policy.cadenceSeconds with
    | none => 0
    | some cadence =>
        if classDerived c.profile group.2 = true ∨ tx = false ∧ group.1.policy.txOnly = true then 0
        else (group.2.length : Time) / cadence).sum

/-- `_budget_fit[tx]`. -/
def budgetFit (tx : Bool) : Option BudgetFit :=
  c.transportBudgetHz.bind fun budgetHz =>
    (fitToBudget
      (fun klass => if h : 0 < c.pollCount klass then some ⟨c.pollCount klass, h⟩ else none)
      budgetHz acquisitionBudgetMargin tx (c.reservedHz tx)).toOption

/-- The cadence that the fit leaves to a class. -/
def fittedCadence (tx : Bool) (klass : AcquisitionClass) : Option Time :=
  (c.budgetFit tx).bind fun fit => fit.effectiveCadenceSeconds klass

/-- The class of a group, fitted or not. -/
def groupClass (group : PollGroup A) : Option AcquisitionClass :=
  (c.fittedClass group.1).or (group.2.head?.map acquisitionClassForPath)

end SchedulerConfig

/-- `observed_active.strip().lower()`. -/
inductive ObservedActive where
  | main
  | sub
  | other
deriving DecidableEq

/-- The receiver that is not selected. -/
def ObservedActive.demotedReceiver : ObservedActive → Option String
  | main => some "sub"
  | sub => some "main"
  | other => none

end Rigplane.Acquisition
