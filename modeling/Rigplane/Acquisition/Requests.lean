import Mathlib.Data.List.Dedup
import Mathlib.Data.List.Sort
import Mathlib.Tactic.NormNum
import Rigplane.Acquisition.MeterCoalescer

/-!
# Acquisition requests

The queue of `core/acquisition_scheduler.py`, as far as `ensure_fresh` reads and writes it, and the
profile that it asks.  The value of an availability clause is any Python value, so its type is a
parameter.

`ensure_fresh` has no `require_fresh_dispatch` here: only write confirmations pass it.
-/

namespace Rigplane.Acquisition

open StatePipeline

/-! ## Profiles -/

inductive FieldAvailability where
  | supported
  | unsupported
  | unknown
deriving DecidableEq

inductive ReconciliationPriority where
  | unsolicited
  | commandResponse
  | poll
  | lastObservation
deriving DecidableEq

inductive ExternalCatPauseBehavior where
  | pausePolling
  | coalesceMetersOnly
  | continue
deriving DecidableEq

inductive AvailabilityOperator where
  | isIn
  | notIn
  | min
  | max
  | equals
deriving DecidableEq

structure AvailabilityClause (A : Type) where
  field : FieldPath
  operator : AvailabilityOperator
  value : A
deriving DecidableEq

/-- `AdaptiveDecayPolicy`, with the checks of its `__post_init__`. -/
structure AdaptiveDecayPolicy where
  enabled : Bool := false
  idleMultiplier : ℚ := 1
  maxCadenceSeconds : Option Time := none
  idleMultiplier_ge : 1 ≤ idleMultiplier := by decide
  enabled_widens : enabled = true → 1 < idleMultiplier := by decide
  maxCadence_pos : ∀ t ∈ maxCadenceSeconds, 0 < t := by simp
deriving DecidableEq

/-- `AcquisitionPolicy`, with the checks of its `__post_init__`. -/
structure AcquisitionPolicy (A : Type) where
  cadenceSeconds : Option Time := some 5
  freshnessTtlSeconds : Option Time := some 15
  reconciliationPriority : ReconciliationPriority := .poll
  adaptiveDecay : AdaptiveDecayPolicy := {}
  externalCatPause : ExternalCatPauseBehavior := .pausePolling
  meterCoalescing : Option MeterCoalescingPolicy := none
  txOnly : Bool := false
  availableWhen : List (AvailabilityClause A) := []
  cadence_pos : ∀ t ∈ cadenceSeconds, 0 < t := by norm_num
  ttl_pos : ∀ t ∈ freshnessTtlSeconds, 0 < t := by norm_num
  cadence_le_ttl : ∀ t ∈ cadenceSeconds, ∀ ttl ∈ freshnessTtlSeconds, t ≤ ttl := by norm_num
deriving DecidableEq

/-- `FieldCapability`, as far as a request asks it. -/
structure FieldCapability where
  path : FieldPath
  availability : FieldAvailability := .supported
  unsolicitedPush : Bool := false
  polling : Bool := false
  commandResponseObservable : Bool := false
  diagnostic : String := ""
  unavailable_bare : availability ≠ .supported →
    unsolicitedPush = false ∧ polling = false ∧ commandResponseObservable = false := by simp

structure RadioAcquisitionProfile (A : Type) where
  provider : String
  capabilities : List FieldCapability
  defaultPolicy : AcquisitionPolicy A := {}
  fieldPolicies : Dict FieldPath (AcquisitionPolicy A) := .empty
  /-- `acquisition_policy_for_class(acquisition_class_for_path(path))`. -/
  classPolicy : FieldPath → AcquisitionPolicy A
  capabilities_nodup : (capabilities.map FieldCapability.path).Nodup

inductive AcquisitionMethod where
  | poll
  | commandResponse
  | waitForUnsolicited
deriving DecidableEq

namespace FieldCapability

def canPoll (capability : FieldCapability) : Bool :=
  capability.availability = .supported && capability.polling

/-- `_has_acquisition_hook`. -/
def hasAcquisitionHook (capability : FieldCapability) : Bool :=
  capability.canPoll || capability.commandResponseObservable || capability.unsolicitedPush

/-- The capability has the hook of a method. -/
def offers (capability : FieldCapability) : AcquisitionMethod → Bool
  | .poll => capability.canPoll
  | .commandResponse => capability.commandResponseObservable
  | .waitForUnsolicited => capability.unsolicitedPush

end FieldCapability

/-- `methods_by_priority`. -/
def ReconciliationPriority.methods : ReconciliationPriority → List AcquisitionMethod
  | .poll => [.poll]
  | .commandResponse => [.commandResponse]
  | .unsolicited => [.waitForUnsolicited]
  | .lastObservation => []

/-- `_capability_method`. -/
def capabilityMethod {A : Type} (capability : FieldCapability) (policy : AcquisitionPolicy A) :
    Except String AcquisitionMethod :=
  let methods := policy.reconciliationPriority.methods ++
    [.poll, .commandResponse, .waitForUnsolicited]
  match methods.find? capability.offers with
  | some method => .ok method
  | none => .error (capability.path.str ++ ": no acquisition hook is declared")

namespace RadioAcquisitionProfile

variable {A : Type}

def capabilityFor (p : RadioAcquisitionProfile A) (path : FieldPath) : FieldCapability :=
  match p.capabilities.find? (·.path = path) with
  | some capability => capability
  | none => {
      path
      availability := .unknown
      diagnostic := path.str ++ ": missing capability metadata" }

/-- `policy_for`, which `ensure_fresh` calls without an observed receiver. -/
def policyFor (p : RadioAcquisitionProfile A) (path : FieldPath) : AcquisitionPolicy A :=
  match p.fieldPolicies.get? path with
  | some declared => declared
  | none =>
      match p.capabilities.find? (·.path = path) with
      | some capability => if capability.canPoll then p.classPolicy path else p.defaultPolicy
      | none => p.defaultPolicy

end RadioAcquisitionProfile

/-! ## The queue -/

inductive AcquisitionPriority where
  | background
  | reconciliation
  | normal
  | command
  | user
deriving DecidableEq

/-- `_PRIORITY_RANK`. -/
def AcquisitionPriority.rank : AcquisitionPriority → Nat
  | .background => 0
  | .reconciliation => 1
  | .normal => 2
  | .command => 3
  | .user => 4

/-- `_AUTOMATIC_PRIORITIES`. -/
def AcquisitionPriority.isAutomatic (priority : AcquisitionPriority) : Bool :=
  priority = .background || priority = .reconciliation

/-- The higher of a new and an existing priority. -/
def AcquisitionPriority.over (priority existing : AcquisitionPriority) : AcquisitionPriority :=
  if existing.rank < priority.rank then priority else existing

/-- `_AcquisitionRequestKey`. -/
structure AcquisitionRequestKey (A : Type) where
  scope : FieldScope
  family : FieldFamily
  receiverId : Option Token
  slot : Option VfoSlot
  acquisitionMethod : AcquisitionMethod
  policy : AcquisitionPolicy A
deriving DecidableEq

structure AcquisitionRequest (A : Type) where
  id : String
  paths : List FieldPath
  priority : AcquisitionPriority
  reason : String
  reasons : List String
  requestedAtMonotonic : Time
  deadlineMonotonic : Time
  maxAge : Time
  timeout : Option Time
  provider : String
  acquisitionMethod : AcquisitionMethod
  policy : AcquisitionPolicy A
  capabilityIds : List String
  externalCatPaused : Bool
  externalCatOwner : Option String
  sourceMetadata : List (String × String)

/-- `_PendingEnsureFresh`. -/
structure PendingEnsureFresh where
  paths : List FieldPath
  maxAge : Time
  priority : AcquisitionPriority
  reason : String
  reasons : List String
  timeout : Option Time
  requestedAtMonotonic : Time
  deadlineMonotonic : Time
  externalCatOwner : Option String

inductive AcquisitionStatus where
  | fresh
  | queued
  | deferred
  | unavailable
deriving DecidableEq

structure EnsureFreshResult (A : Type) where
  status : AcquisitionStatus
  request : Option (AcquisitionRequest A) := none
  message : String := ""

/-- `_ReadRefusal`. -/
structure ReadRefusal where
  count : Nat
  retryAt : Time

/-- The readings of `FreshnessClock` still to come: it cannot move backwards. -/
structure FreshnessClock where
  reading : Nat → Time
  monotone : Monotone reading

def FreshnessClock.now (c : FreshnessClock) : Time := c.reading 0

/-- The clock has been read once. -/
def FreshnessClock.advance (c : FreshnessClock) : FreshnessClock where
  reading n := c.reading (n + 1)
  monotone _ _ h := c.monotone (Nat.succ_le_succ h)

structure AcquisitionScheduler (A : Type) where
  clock : FreshnessClock
  requestsByKey : Dict (AcquisitionRequestKey A) (AcquisitionRequest A) := .empty
  deferred : Dict (AcquisitionRequestKey A) PendingEnsureFresh := .empty
  refusedPaths : Dict FieldPath ReadRefusal := .empty
  nextId : Nat := 1
  primeCursor : Nat := 0
  externalCatPaused : Bool := false
  externalCatOwner : Option String := none
  externalCatReason : String := ""

/-- `_MIN_RECONCILIATION_MAX_AGE`. -/
def minReconciliationMaxAge : Time := 1 / 1000000000

/-- `_EPSILON_MAX_AGE_LIVENESS_SECONDS`. -/
def epsilonMaxAgeLivenessSeconds : Time := 1 / 2

/-- `sorted(paths, key=str)`. -/
def sortedPaths (paths : List FieldPath) :
    List FieldPath := paths.insertionSort fun p q => p.str ≤ q.str

/-- `_merge_paths`. -/
def mergePaths (left right : List FieldPath) : List FieldPath := sortedPaths (left ++ right).dedup

/-- `_min_optional_timeout`. -/
def minOptionalTimeout : Option Time → Option Time → Option Time
  | none, right => right
  | left, none => left
  | some left, some right => some (min left right)

/-- The candidates are appended if they are new. -/
def mergeReasons (existing candidates : List String) : List String :=
  candidates.foldl (fun merged candidate =>
    if candidate ∈ merged then merged else merged ++ [candidate]) existing

namespace AcquisitionScheduler

variable {A : Type} [DecidableEq A]

/-- `_refusal_withheld`. -/
def refusalWithheld (s : AcquisitionScheduler A) (path : FieldPath) (now : Time) : Bool :=
  match s.refusedPaths.get? path with
  | none => false
  | some refusal => decide (now < refusal.retryAt)

/-- `_availability_for`. -/
def availabilityFor (p : RadioAcquisitionProfile A) : List FieldPath → Option (EnsureFreshResult A)
  | [] => none
  | path :: rest =>
      let capability := p.capabilityFor path
      if capability.availability = .unsupported ∨ capability.availability = .unknown then
        some {
          status := .unavailable
          message :=
            if capability.diagnostic = "" then path.str ++ ": acquisition capability unavailable"
            else capability.diagnostic }
      else if capability.hasAcquisitionHook = false then
        some { status := .unavailable, message := path.str ++ ": no acquisition hook is declared" }
      else availabilityFor p rest

/-- `_must_defer_for_external_cat`. -/
def mustDeferForExternalCat (p : RadioAcquisitionProfile A) (paths : List FieldPath) : Bool :=
  paths.any fun path =>
    match (p.policyFor path).externalCatPause with
    | .continue => false
    | .coalesceMetersOnly => !paths.all fun candidate => candidate.family = .meters
    | .pausePolling => true

/-- `_request_key`. -/
def requestKey (path : FieldPath) (acquisitionMethod : AcquisitionMethod)
    (policy : AcquisitionPolicy A) :
    AcquisitionRequestKey A where
  scope := path.scope
  family := path.family
  receiverId := path.receiverId
  slot := path.slot
  acquisitionMethod := acquisitionMethod
  policy := policy

/-- The loop of `_request_groups`. -/
def groupPaths (p : RadioAcquisitionProfile A) :
    List FieldPath → Dict (AcquisitionRequestKey A) (List FieldPath) →
      Except String (Dict (AcquisitionRequestKey A) (List FieldPath))
  | [], grouped => .ok grouped
  | path :: rest, grouped =>
      match capabilityMethod (p.capabilityFor path) (p.policyFor path) with
      | .error text => .error text
      | .ok method =>
          let key := requestKey path method (p.policyFor path)
          groupPaths p rest (grouped.set key ((grouped.get? key).getD [] ++ [path]))

/-- `_request_groups`. -/
def requestGroups (p : RadioAcquisitionProfile A) (paths : List FieldPath) :
    Except String (List (AcquisitionRequestKey A × List FieldPath)) :=
  (groupPaths p paths .empty).map fun grouped => grouped.items.map fun item => (item.1,
    sortedPaths item.2)

/-- What a caller of `_queue` asks for. -/
structure Ask where
  maxAge : Time
  priority : AcquisitionPriority
  reason : String
  reasons : List String
  timeout : Option Time
  requestedAt : Time
  externalCatOwner : Option String
  deadlineMonotonic : Time

/-- `capability_ids` and `source_metadata` of some paths. -/
def capabilityIds (paths : List FieldPath) : List String := paths.map FieldPath.str

def sourceMetadata (p : RadioAcquisitionProfile A) (paths : List FieldPath) :
    List (String × String) :=
  [("provider", p.provider), ("capabilityId", ",".intercalate (capabilityIds paths))]

/-- `_new_request`. -/
def newRequest (p : RadioAcquisitionProfile A) (s : AcquisitionScheduler A) (ask : Ask)
    (paths : List FieldPath) (key : AcquisitionRequestKey A) :
    AcquisitionRequest A × AcquisitionScheduler A :=
  ({
    id := "acq-" ++ toString s.nextId
    paths := paths
    priority := ask.priority
    reason := ask.reason
    reasons := ask.reasons
    requestedAtMonotonic := ask.requestedAt
    deadlineMonotonic := ask.deadlineMonotonic
    maxAge := ask.maxAge
    timeout := ask.timeout
    provider := p.provider
    acquisitionMethod := key.acquisitionMethod
    policy := key.policy
    capabilityIds := capabilityIds paths
    externalCatPaused := s.externalCatPaused
    externalCatOwner := ask.externalCatOwner
    sourceMetadata := sourceMetadata p paths }, { s with nextId := s.nextId + 1 })

/-- `_coalesce`. -/
def coalesce (p : RadioAcquisitionProfile A) (existing : AcquisitionRequest A) (ask : Ask)
    (paths : List FieldPath) : AcquisitionRequest A :=
  let merged := mergePaths existing.paths paths
  { existing with
    paths := merged
    priority := ask.priority.over existing.priority
    maxAge := min existing.maxAge ask.maxAge
    timeout := minOptionalTimeout existing.timeout ask.timeout
    deadlineMonotonic := min existing.deadlineMonotonic ask.deadlineMonotonic
    reasons := mergeReasons existing.reasons ask.reasons
    capabilityIds := capabilityIds merged
    sourceMetadata := sourceMetadata p merged }

/-- One turn of the loop of `_queue_grouped`. -/
def queueGroup (p : RadioAcquisitionProfile A) (s : AcquisitionScheduler A) (ask : Ask)
    (key : AcquisitionRequestKey A) (paths : List FieldPath) :
    AcquisitionRequest A × AcquisitionScheduler A :=
  match s.requestsByKey.get? key with
  | some existing =>
      let request := coalesce p existing ask paths
      (request, { s with requestsByKey := s.requestsByKey.set key request })
  | none =>
      let (request, s) := s.newRequest p ask paths key
      (request, { s with requestsByKey := s.requestsByKey.set key request })

/-- The loop of `_queue_grouped`. -/
def queueGrouped (p : RadioAcquisitionProfile A) (ask : Ask) :
    List (AcquisitionRequestKey A × List FieldPath) → AcquisitionScheduler A →
      List (AcquisitionRequest A) × AcquisitionScheduler A
  | [], s => ([], s)
  | (key, paths) :: rest, s =>
      let (request, s) := s.queueGroup p ask key paths
      let (requests, s) := queueGrouped p ask rest s
      (request :: requests, s)

/-- `_queue`. -/
def queue (p : RadioAcquisitionProfile A) (s : AcquisitionScheduler A) (ask : Ask)
    (paths : List FieldPath) : Except String
    (List (AcquisitionRequest A) × AcquisitionScheduler A) :=
  (requestGroups p paths).map fun groups => queueGrouped p ask groups s

/-- `_defer`. -/
def defer (s : AcquisitionScheduler A) (key : AcquisitionRequestKey A) (item : PendingEnsureFresh) :
    AcquisitionScheduler A :=
  match s.deferred.get? key with
  | none => { s with deferred := s.deferred.set key item }
  | some existing => { s with deferred := s.deferred.set key {
      paths := mergePaths existing.paths item.paths
      maxAge := min existing.maxAge item.maxAge
      priority := item.priority.over existing.priority
      reason := item.reason
      reasons := mergeReasons existing.reasons item.reasons
      timeout := minOptionalTimeout existing.timeout item.timeout
      requestedAtMonotonic := min existing.requestedAtMonotonic item.requestedAtMonotonic
      deadlineMonotonic := min existing.deadlineMonotonic item.deadlineMonotonic
      externalCatOwner :=
        if item.externalCatOwner.getD "" = "" then existing.externalCatOwner
        else item.externalCatOwner } }

/-- The loop of `ensure_fresh` while an external CAT owner holds the radio: what it queued, and
whether it deferred something. -/
def pausedGroups (p : RadioAcquisitionProfile A) (ask : Ask) :
    List (AcquisitionRequestKey A × List FieldPath) → AcquisitionScheduler A →
      Except String (List (AcquisitionRequest A) × Bool × AcquisitionScheduler A)
  | [], s => .ok ([], false, s)
  | (key, paths) :: rest, s =>
      if mustDeferForExternalCat p paths then
        let s := s.defer key {
          paths := paths
          maxAge := ask.maxAge
          priority := ask.priority
          reason := ask.reason
          reasons := ask.reasons
          timeout := ask.timeout
          requestedAtMonotonic := ask.requestedAt
          deadlineMonotonic := ask.deadlineMonotonic
          externalCatOwner := s.externalCatOwner }
        (pausedGroups p ask rest s).map fun (queued, _, s) => (queued, true, s)
      else
        match s.queue p ask paths with
        | .error text => .error text
        | .ok (requests, s) =>
            (pausedGroups p ask rest s).map fun (queued, deferred, s) => (requests ++ queued,
              deferred, s)

/-- `self._external_cat_reason or "external CAT ownership active"`. -/
def deferredResult (s : AcquisitionScheduler A) : EnsureFreshResult A where
  status := .deferred
  message :=
    if s.externalCatReason = "" then "external CAT ownership active" else s.externalCatReason

/-- The result of queueing, which hands out the first request. -/
def queuedResult (s : AcquisitionScheduler A) : List (AcquisitionRequest A) → EnsureFreshResult A
  | [] => s.deferredResult
  | request :: _ => { status := .queued, request := some request }

/-- `ensure_fresh`, past the availability of the paths and their refusals. -/
def ensureAskable (p : RadioAcquisitionProfile A) (s : AcquisitionScheduler A) (ask : Ask)
    (paths : List FieldPath) : Except String (EnsureFreshResult A × AcquisitionScheduler A) :=
  let unpaused (s : AcquisitionScheduler A) :=
    (s.queue p { ask with externalCatOwner := none } paths).map fun (requests, s) =>
      (s.queuedResult requests, s)
  if s.externalCatPaused then
    match requestGroups p paths with
    | .error text => .error text
    | .ok groups =>
        match pausedGroups p ask groups s with
        | .error text => .error text
        | .ok (request :: requests, _, s) => .ok (s.queuedResult (request :: requests), s)
        | .ok ([], true, s) => .ok (s.deferredResult, s)
        | .ok ([], false, s) => unpaused s
  else unpaused s

/-- `ensure_fresh`. -/
def ensureFresh (p : RadioAcquisitionProfile A) (s : AcquisitionScheduler A)
    (paths : List FieldPath)
    (maxAge : Time) (priority : AcquisitionPriority) (reason : String) (timeout : Option Time) :
    Except String (EnsureFreshResult A × AcquisitionScheduler A) :=
  if paths.isEmpty then .error "ensure_fresh requires at least one field path"
  else if maxAge ≤ 0 then .error "max_age must be positive"
  else
    let paths := sortedPaths paths
    let now := s.clock.now
    let s := { s with clock := s.clock.advance }
    match availabilityFor p paths with
    | some result => .ok (result, s)
    | none =>
        let askable :=
          if priority.isAutomatic then paths.filter fun path => !s.refusalWithheld path now
          else paths
        if askable.isEmpty then
          .ok ({
            status := .unavailable
            message := ", ".intercalate (paths.map FieldPath.str) ++
              ": refused by the radio; asked again after its retry delay" }, s)
        else
          s.ensureAskable p {
            maxAge := maxAge
            priority := priority
            reason := reason
            reasons := [reason]
            timeout := timeout
            requestedAt := now
            externalCatOwner := s.externalCatOwner
            deadlineMonotonic :=
              if timeout = none ∧ maxAge ≤ minReconciliationMaxAge then
                now + epsilonMaxAgeLivenessSeconds
              else now + maxAge } askable

end AcquisitionScheduler

end Rigplane.Acquisition
