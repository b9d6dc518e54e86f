import Rigplane.Acquisition.PollGroups

/-!
# The acquisition scheduler

The rest of `AcquisitionScheduler`: claims and dispatch records, poll cadences, settlements,
refusals, and the pause for an external CAT owner.  `prime_unobserved` has a module of its own; it
touches the scheduler by `ensure_fresh` and by its cursor alone, and what `ensure_fresh` does for it
is the same without the rest (`ensureFresh_onBase`).

A request that comes back to the scheduler need not be one it handed out, nor hold the paths it
held then: the callers report the paths that were answered.
-/

namespace Rigplane.Acquisition

open StatePipeline

/-- `_CadenceState`. -/
structure CadenceState where
  currentCadenceSeconds : Time
  nextDueMonotonic : Time
deriving DecidableEq

/-- `_AcquisitionClaim`. -/
structure AcquisitionClaim where
  claimant : Nat
  providerGeneration : Nat

/-- `_PendingCadenceUpdate`. -/
structure PendingCadenceUpdate where
  requestId : String
  semanticChanged : Bool
  completedPaths : List FieldPath

/-- A cadence and a TTL of `_demoted_queue_envelope`. -/
structure DemotedEnvelope where
  cadence : Time
  ttl : Time

structure Scheduler (A : Type) extends AcquisitionScheduler A where
  cadenceByKey : Dict (AcquisitionRequestKey A) CadenceState := .empty
  consecutiveTimeoutByKey : Dict (AcquisitionRequestKey A) Nat := .empty
  claimsByRequestId : Dict String AcquisitionClaim := .empty
  dispatchByRequestId : Dict String (Dict FieldPath Time) := .empty
  executingRequestIds : List String := []
  executeStartedAt : Dict String Time := .empty
  pendingCadenceByKey : Dict (AcquisitionRequestKey A) PendingCadenceUpdate := .empty
  failedRequestCount : Nat := 0
  failureCountByReason : Dict String Nat := .empty
  txActive : Bool := true
  availability : Dict FieldPath (Option Bool) := .empty
  demotedQueueEnvelope : Dict (AcquisitionRequestKey A) DemotedEnvelope := .empty

namespace Scheduler

variable {A : Type} [DecidableEq A]

/-- One reading of the clock. -/
def readClock (s : Scheduler A) : Time × Scheduler A :=
  (s.clock.now, { s with clock := s.clock.advance })

/-- `self._clock.now() if now is None else now`. -/
def timestamp (s : Scheduler A) : Option Time → Time × Scheduler A
  | some now => (now, s)
  | none => s.readClock

/-! ## Claims and dispatch -/

/-- The key under which the scheduler looks a request up. -/
def keyOf (request : AcquisitionRequest A) : Option (AcquisitionRequestKey A) :=
  request.paths.head?.map fun path =>
    AcquisitionScheduler.requestKey path request.acquisitionMethod request.policy

/-- `try_claim`. -/
def tryClaim (s : Scheduler A) (request : AcquisitionRequest A)
    (claimant providerGeneration : Nat) :
    Bool × Scheduler A :=
  if ((keyOf request).bind s.requestsByKey.get?).any (·.id = request.id) = false then (false, s)
  else
    let claimed := { s with
      claimsByRequestId := s.claimsByRequestId.set request.id ⟨claimant, providerGeneration⟩ }
    match s.claimsByRequestId.get? request.id with
    | none => (true, claimed)
    | some existing =>
        if existing.providerGeneration < providerGeneration then (true, claimed)
        else if providerGeneration < existing.providerGeneration then (false, s)
        else (existing.claimant = claimant, s)

/-- `claim_is_current`. -/
def claimIsCurrent (s : Scheduler A) (requestId : String) (claimant providerGeneration : Nat) :
    Bool :=
  (s.claimsByRequestId.get? requestId).any fun existing =>
    existing.claimant = claimant && existing.providerGeneration = providerGeneration

/-- `release_claim`. -/
def releaseClaim (s : Scheduler A) (requestId : String) (claimant providerGeneration : Nat) :
    Scheduler A :=
  match s.claimsByRequestId.get? requestId with
  | none => s
  | some existing =>
      if existing.claimant = claimant ∧ existing.providerGeneration = providerGeneration then
        { s with claimsByRequestId := s.claimsByRequestId.erase requestId }
      else s

/-- `note_execute_started`. -/
def noteExecuteStarted (s : Scheduler A) (requestId : String) (now : Option Time) : Scheduler A :=
  { s with
    executingRequestIds :=
      if requestId ∈ s.executingRequestIds then s.executingRequestIds
      else requestId :: s.executingRequestIds
    executeStartedAt :=
      match now with
      | none => s.executeStartedAt
      | some now => s.executeStartedAt.set requestId now }

/-- `note_execute_finished`. -/
def noteExecuteFinished (s : Scheduler A) (requestId : String) : Scheduler A :=
  { s with
    executingRequestIds := s.executingRequestIds.filter (· ≠ requestId)
    executeStartedAt := s.executeStartedAt.erase requestId }

/-- `record_dispatch`. -/
def recordDispatch (s : Scheduler A) (requestId : String) (paths : List FieldPath) (now : Time) :
    Scheduler A :=
  let dispatched := (s.dispatchByRequestId.get? requestId).getD .empty
  { s with
    dispatchByRequestId := s.dispatchByRequestId.set requestId
      (paths.foldl (fun dispatched path => dispatched.set path now) dispatched) }

/-- `may_credit`. -/
def mayCredit (s : Scheduler A) (request : AcquisitionRequest A) (observationTimestamp : Time) :
    Bool :=
  ((s.dispatchByRequestId.get? request.id).any fun dispatched => request.paths.any fun path =>
      (dispatched.get? path).any (· ≤ observationTimestamp)) ||
    (s.executeStartedAt.get? request.id).any (· ≤ observationTimestamp)

/-- `_forget_dispatch`. -/
def forgetDispatch (s : Scheduler A) (requestId : String) : Scheduler A :=
  { s with
    dispatchByRequestId := s.dispatchByRequestId.erase requestId
    executingRequestIds := s.executingRequestIds.filter (· ≠ requestId)
    executeStartedAt := s.executeStartedAt.erase requestId }

/-- `_claims_by_request_id.pop(request_id, None)` and `_forget_dispatch`. -/
def forget (s : Scheduler A) (requestId : String) : Scheduler A :=
  { s.forgetDispatch requestId with claimsByRequestId := s.claimsByRequestId.erase requestId }

/-- `_dispatch_covers`. -/
def dispatchCovers (s : Scheduler A) (requestId : String) (paths : List FieldPath) : Bool :=
  (s.dispatchByRequestId.get? requestId).any fun dispatched =>
    paths.any fun path => (dispatched.get? path).isSome

/-- The text of an id. -/
def acqId (n : Nat) : String := "acq-" ++ toString n

/-- `_reissue`. -/
def reissue (s : Scheduler A) (request : AcquisitionRequest A) (key : AcquisitionRequestKey A)
    (previousId : String) : AcquisitionRequest A × Scheduler A :=
  let requestId := acqId s.nextId
  let s := forget { s with nextId := s.nextId + 1 } previousId
  ({ request with id := requestId },
    match s.pendingCadenceByKey.get? key with
    | none => s
    | some pending =>
        if pending.requestId = previousId then
          { s with pendingCadenceByKey := s.pendingCadenceByKey.set key { pending with requestId } }
        else s)

/-! ## Queueing -/

/-- One turn of the loop of `_queue_grouped`. -/
def queueGroup (p : RadioAcquisitionProfile A) (ask : AcquisitionScheduler.Ask)
    (requireFreshDispatch : Bool) (s : Scheduler A) (key : AcquisitionRequestKey A)
    (paths : List FieldPath) : AcquisitionRequest A × Scheduler A :=
  match s.requestsByKey.get? key with
  | some existing =>
      let request := AcquisitionScheduler.coalesce p existing ask paths
      let (request, s) :=
        if requireFreshDispatch = true ∧
            (s.dispatchCovers existing.id paths = true ∨ existing.id ∈ s.executingRequestIds) then
          s.reissue request key existing.id
        else (request, s)
      (request, { s with requestsByKey := s.requestsByKey.set key request })
  | none =>
      let (request, base) := s.toAcquisitionScheduler.newRequest p ask paths key
      (request, { s with
        toAcquisitionScheduler := { base with
          requestsByKey := base.requestsByKey.set key request } })

/-- The loop of `_queue_grouped`. -/
def queueGrouped (p : RadioAcquisitionProfile A) (ask : AcquisitionScheduler.Ask)
    (requireFreshDispatch : Bool) : List (PollGroup A) → Scheduler A →
      List (AcquisitionRequest A) × Scheduler A
  | [], s => ([], s)
  | (key, paths) :: rest, s =>
      let (request, s) := s.queueGroup p ask requireFreshDispatch key paths
      let (requests, s) := queueGrouped p ask requireFreshDispatch rest s
      (request :: requests, s)

/-- `_queue`. -/
def queue (p : RadioAcquisitionProfile A) (s : Scheduler A) (ask : AcquisitionScheduler.Ask)
    (requireFreshDispatch : Bool) (paths : List FieldPath) :
    Except String (List (AcquisitionRequest A) × Scheduler A) :=
  (AcquisitionScheduler.requestGroups p paths).map fun groups =>
    queueGrouped p ask requireFreshDispatch groups s

/-- `_defer`. -/
def defer (s : Scheduler A) (key : AcquisitionRequestKey A) (item : PendingEnsureFresh) :
    Scheduler A :=
  { s with toAcquisitionScheduler := s.toAcquisitionScheduler.defer key item }

/-- What is deferred of an ask. -/
def deferredItem (s : Scheduler A) (ask : AcquisitionScheduler.Ask) (paths : List FieldPath) :
    PendingEnsureFresh where
  paths := paths
  maxAge := ask.maxAge
  priority := ask.priority
  reason := ask.reason
  reasons := ask.reasons
  timeout := ask.timeout
  requestedAtMonotonic := ask.requestedAt
  deadlineMonotonic := ask.deadlineMonotonic
  externalCatOwner := s.externalCatOwner

/-- The loop of `ensure_fresh` while an external CAT owner holds the radio: what it queued, and
whether it deferred something. -/
def pausedGroups (p : RadioAcquisitionProfile A) (ask : AcquisitionScheduler.Ask)
    (requireFreshDispatch : Bool) : List (PollGroup A) → Scheduler A →
      Except String (List (AcquisitionRequest A) × Bool × Scheduler A)
  | [], s => .ok ([], false, s)
  | (key, paths) :: rest, s =>
      if AcquisitionScheduler.mustDeferForExternalCat p paths then
        (pausedGroups p ask requireFreshDispatch rest
          (s.defer key (s.deferredItem ask paths))).map fun (queued, _, s) => (queued, true, s)
      else
        match s.queue p ask requireFreshDispatch paths with
        | .error text => .error text
        | .ok (requests, s) =>
            (pausedGroups p ask requireFreshDispatch rest s).map fun (queued, deferred, s) =>
              (requests ++ queued, deferred, s)

/-- `ensure_fresh`, past the availability of the paths and their refusals. -/
def ensureAskable (p : RadioAcquisitionProfile A) (s : Scheduler A) (ask : AcquisitionScheduler.Ask)
    (requireFreshDispatch : Bool) (paths : List FieldPath) :
    Except String (EnsureFreshResult A × Scheduler A) :=
  let unpaused (s : Scheduler A) :=
    (s.queue p { ask with externalCatOwner := none } requireFreshDispatch paths).map
      fun (requests, s) => (s.queuedResult requests, s)
  if s.externalCatPaused then
    match AcquisitionScheduler.requestGroups p paths with
    | .error text => .error text
    | .ok groups =>
        match pausedGroups p ask requireFreshDispatch groups s with
        | .error text => .error text
        | .ok (request :: requests, _, s) => .ok (s.queuedResult (request :: requests), s)
        | .ok ([], true, s) => .ok (s.deferredResult, s)
        | .ok ([], false, s) => unpaused s
  else unpaused s

/-- The arguments of `ensure_fresh`. -/
structure EnsureFreshCall where
  paths : List FieldPath
  maxAge : Time
  priority : AcquisitionPriority
  reason : String
  timeout : Option Time := none
  requireFreshDispatch : Bool := false

/-- The paths of a call that no refusal withholds from it. -/
def askable (s : Scheduler A) (call : EnsureFreshCall) (now : Time) : List FieldPath :=
  if call.priority.isAutomatic then
    (sortedPaths call.paths).filter fun path => !s.refusalWithheld path now
  else sortedPaths call.paths

/-- What a call asks the queue for, at the time `now`. -/
def askOf (s : Scheduler A) (call : EnsureFreshCall) (now : Time) : AcquisitionScheduler.Ask where
  maxAge := call.maxAge
  priority := call.priority
  reason := call.reason
  reasons := [call.reason]
  timeout := call.timeout
  requestedAt := now
  externalCatOwner := s.externalCatOwner
  deadlineMonotonic :=
    if call.timeout = none ∧ call.maxAge ≤ minReconciliationMaxAge then
      now + epsilonMaxAgeLivenessSeconds
    else now + call.maxAge

/-- `ensure_fresh`. -/
def ensureFresh (p : RadioAcquisitionProfile A) (s : Scheduler A) (call : EnsureFreshCall) :
    Except String (EnsureFreshResult A × Scheduler A) :=
  if call.paths.isEmpty then .error "ensure_fresh requires at least one field path"
  else if call.maxAge ≤ 0 then .error "max_age must be positive"
  else
    let (now, s) := s.readClock
    match AcquisitionScheduler.availabilityFor p (sortedPaths call.paths) with
    | some result => .ok (result, s)
    | none =>
        if (s.askable call now).isEmpty then
          .ok ({
            status := .unavailable
            message := ", ".intercalate ((sortedPaths call.paths).map FieldPath.str) ++
              ": refused by the radio; asked again after its retry delay" }, s)
        else
          s.ensureAskable p (s.askOf call now) call.requireFreshDispatch (s.askable call now)

/-! ## Dispatch gates -/

/-- The order of `pending_requests`. -/
def before (r r' : AcquisitionRequest A) : Bool :=
  decide (r'.priority.rank < r.priority.rank) || decide (r.priority.rank = r'.priority.rank) &&
    (decide (r.deadlineMonotonic < r'.deadlineMonotonic) ||
      decide (r.deadlineMonotonic = r'.deadlineMonotonic) &&
        (decide (r.requestedAtMonotonic < r'.requestedAtMonotonic) ||
          decide (r.requestedAtMonotonic = r'.requestedAtMonotonic) && decide (r.id ≤ r'.id)))

/-- `pending_requests`. -/
def pendingRequests (s : Scheduler A) : List (AcquisitionRequest A) :=
  s.requestsByKey.values.insertionSort fun r r' => before r r' = true

/-- `availability.get(path, True) is False`. -/
def contradicted (availability : Dict FieldPath (Option Bool)) (path : FieldPath) : Bool :=
  availability.get? path = some (some false)

/-- `is_dispatchable`, which reads the clock unless the transmit gate is closed. -/
def isDispatchable (s : Scheduler A) (request : AcquisitionRequest A) : Bool × Scheduler A :=
  if s.txActive = true ∨ request.priority ≠ .reconciliation ∨ request.policy.txOnly = false then
    let (now, s) := s.readClock
    (!(request.priority.isAutomatic && request.paths.all fun path =>
      contradicted s.availability path || s.refusalWithheld path now), s)
  else (false, s)

/-- The filter of `dispatchable_requests`. -/
def dispatchableAmong (s : Scheduler A) : List (AcquisitionRequest A) →
    List (AcquisitionRequest A) × Scheduler A
  | [] => ([], s)
  | request :: rest =>
      let (dispatchable, s) := s.isDispatchable request
      let (requests, s) := dispatchableAmong s rest
      (if dispatchable then request :: requests else requests, s)

/-- `_CLASS_RANK[acquisition_class_for_path(path)]`, the least one of some paths. -/
def classRank (paths : List FieldPath) : Nat :=
  (paths.map fun path => AcquisitionClass.ranked.idxOf (acquisitionClassForPath path)).foldl min
    AcquisitionClass.ranked.length

/-- The order of `dispatchable_requests`. -/
def dispatchesBefore (r r' : AcquisitionRequest A) : Bool :=
  decide (r'.priority.rank < r.priority.rank) || decide (r.priority.rank = r'.priority.rank) &&
    (decide (classRank r.paths < classRank r'.paths) ||
      decide (classRank r.paths = classRank r'.paths) &&
        (decide (r.deadlineMonotonic < r'.deadlineMonotonic) ||
          decide (r.deadlineMonotonic = r'.deadlineMonotonic) &&
            (decide (r.requestedAtMonotonic < r'.requestedAtMonotonic) ||
              decide (r.requestedAtMonotonic = r'.requestedAtMonotonic) && decide (r.id ≤ r'.id))))

/-- `dispatchable_requests`. -/
def dispatchableRequests (s : Scheduler A) : List (AcquisitionRequest A) × Scheduler A :=
  let (requests, s) := s.dispatchableAmong s.requestsByKey.values
  (requests.insertionSort fun r r' => dispatchesBefore r r' = true, s)

/-! ## Cadences -/

variable (c : SchedulerConfig A)

/-- `_fitted_cadence_seconds`. -/
def fittedCadenceSeconds (s : Scheduler A) (key : AcquisitionRequestKey A)
    (declared : Time) : Time :=
  match s.demotedQueueEnvelope.get? key with
  | some demoted => demoted.cadence
  | none =>
      match c.fittedClass key with
      | none => declared
      | some klass => (c.fittedCadence s.txActive klass).getD declared

/-- The envelope that `_demote_queue_envelopes` gives a group. -/
def demotedEnvelope (s : Scheduler A) (observedActive : ObservedActive) (group : PollGroup A) :
    Option DemotedEnvelope :=
  if (groupReceiver c.profile group.2).map Token.text = observedActive.demotedReceiver ∧
      observedActive.demotedReceiver ≠ none then
    (c.groupClass group).bind fun klass =>
      if klass.demoted = klass then none
      else
        let declared := group.1.policy.cadenceSeconds.getD 0
        let nominal := klass.demoted.policy.nominalCadenceSeconds
        let cadence := max ((c.fittedCadence s.txActive klass.demoted).getD nominal)
          (s.fittedCadenceSeconds c group.1 declared)
        match klass.demoted.freshnessTtlSeconds with
        | none => some ⟨cadence, cadence⟩
        | some ttl => some ⟨cadence, max ttl declared⟩
  else none

/-- `_demote_queue_envelopes`. -/
def demoteQueueEnvelopes (s : Scheduler A) (observedActive : ObservedActive) :
    Dict (AcquisitionRequestKey A) DemotedEnvelope :=
  (pollCadenceGroups c.profile).foldl (fun envelopes group =>
    match s.demotedEnvelope c observedActive group with
    | none => envelopes
    | some envelope => envelopes.set group.1 envelope) .empty

/-- The slack of the comparison of two cadences. -/
def cadenceSlack : Time := 1 / 1000000000

/-- A group that is demoted no longer loses its slow clock. -/
def dropSlowClocks (s : Scheduler A) : Scheduler A :=
  { s with cadenceByKey := s.cadenceByKey.filter fun key state =>
      (s.demotedQueueEnvelope.get? key).isSome ||
        decide (state.currentCadenceSeconds ≤
          s.fittedCadenceSeconds c key (key.policy.cadenceSeconds.getD 0) + cadenceSlack) }

/-- `_cadence_state_for`. -/
def cadenceStateFor (s : Scheduler A) (key : AcquisitionRequestKey A) (declared now : Time) :
    CadenceState × Scheduler A :=
  match s.cadenceByKey.get? key with
  | some existing => (existing, s)
  | none =>
      let state : CadenceState := ⟨s.fittedCadenceSeconds c key declared, now⟩
      (state, { s with cadenceByKey := s.cadenceByKey.set key state })

/-- The loop of `_due_poll_groups`. -/
def duePollGroups (now : Time) : List (PollGroup A) → Scheduler A → List (PollGroup A) × Scheduler A
  | [], s => ([], s)
  | (key, paths) :: rest, s =>
      let asked := paths.filter fun path => !s.refusalWithheld path now
      match key.policy.cadenceSeconds with
      | none => duePollGroups now rest s
      | some cadence =>
          if (s.requestsByKey.get? key).isSome = true ∨ (s.deferred.get? key).isSome = true ∨
              key.policy.txOnly = true ∧ s.txActive = false ∨
              paths.all (contradicted s.availability) = true ∨ asked.isEmpty = true then
            duePollGroups now rest s
          else
            let (state, s) := s.cadenceStateFor c key cadence now
            let (due, s) := duePollGroups now rest s
            (if state.nextDueMonotonic ≤ now then (key, sortedPaths asked) :: due else due, s)

/-- The age that a due group is asked for. -/
def dueMaxAge (s : Scheduler A) (key : AcquisitionRequestKey A) : Time :=
  match s.demotedQueueEnvelope.get? key with
  | some demoted => demoted.ttl
  | none => key.policy.freshnessTtlSeconds.getD (key.policy.cadenceSeconds.getD 0)

/-- The ask of a due group. -/
def dueAsk (s : Scheduler A) (key : AcquisitionRequestKey A) (now : Time) :
    AcquisitionScheduler.Ask where
  maxAge := s.dueMaxAge key
  priority := .background
  reason := "policy-cadence"
  reasons := ["policy-cadence"]
  timeout := none
  requestedAt := now
  externalCatOwner := s.externalCatOwner
  deadlineMonotonic := now + s.dueMaxAge key

/-- The loop of `due_requests` over what is due. -/
def queueDue (p : RadioAcquisitionProfile A) (now : Time) : List (PollGroup A) → Scheduler A →
    List (AcquisitionRequest A) × Scheduler A
  | [], s => ([], s)
  | (key, paths) :: rest, s =>
      let ask := s.dueAsk key now
      if s.externalCatPaused = true ∧
          AcquisitionScheduler.mustDeferForExternalCat p paths = true then
        queueDue p now rest (s.defer key (s.deferredItem ask paths))
      else
        let (request, s) := s.queueGroup p ask false key paths
        let (requests, s) := queueDue p now rest s
        (request :: requests, s)

/-- The arguments of `due_requests`. -/
structure DueCall where
  now : Option Time := none
  txActive : Bool := false
  observedActive : Option ObservedActive := none
  availability : Dict FieldPath (Option Bool) := .empty

/-- What `due_requests` takes over from its caller before it looks for due groups. -/
def noteDueCall (s : Scheduler A) (call : DueCall) : Scheduler A :=
  let s := { s with txActive := call.txActive, availability := call.availability }
  match call.observedActive with
  | none => { s with demotedQueueEnvelope := .empty }
  | some observedActive =>
      dropSlowClocks c { s with demotedQueueEnvelope := s.demoteQueueEnvelopes c observedActive }

/-- `due_requests`. -/
def dueRequests (s : Scheduler A) (call : DueCall) : List (AcquisitionRequest A) × Scheduler A :=
  let (now, s) := (s.noteDueCall c call).timestamp call.now
  let (due, s) := duePollGroups c now (pollCadenceGroups c.profile) s
  queueDue c.profile now due s

/-- The clock of a group is started, if it has none. -/
def startClock (now : Time) (s : Scheduler A) (group : PollGroup A) : Scheduler A :=
  match group.1.policy.cadenceSeconds with
  | none => s
  | some cadence => (s.cadenceStateFor c group.1 cadence now).2

/-- `diagnostics`, as far as it changes the scheduler. -/
def diagnostics (s : Scheduler A) : Scheduler A :=
  let (_, s) := s.dispatchableRequests
  let (now, s) := s.readClock
  (pollCadenceGroups c.profile).foldl (startClock c now) s

/-! ## Settlements -/

/-- `_replace_request_paths`. -/
def replaceRequestPaths (p : RadioAcquisitionProfile A) (request : AcquisitionRequest A)
    (paths : List FieldPath) : AcquisitionRequest A :=
  { request with
    paths
    capabilityIds := AcquisitionScheduler.capabilityIds paths
    sourceMetadata := AcquisitionScheduler.sourceMetadata p paths }

/-- The pending request of a key loses some paths, and goes with the last one. -/
def dropPaths (s : Scheduler A) (key : AcquisitionRequestKey A) (existing : AcquisitionRequest A)
    (gone : List FieldPath) : Scheduler A :=
  let remaining := existing.paths.filter fun path => path ∉ gone
  if remaining.isEmpty then
    forget { s with requestsByKey := s.requestsByKey.erase key } existing.id
  else if remaining = existing.paths then s
  else { s with requestsByKey :=
    s.requestsByKey.set key (replaceRequestPaths c.profile existing remaining) }

/-- `adaptive_cadence_limit`. -/
def adaptiveCadenceLimit (policy : AcquisitionPolicy A) : Option Time :=
  match policy.freshnessTtlSeconds with
  | none => policy.adaptiveDecay.maxCadenceSeconds
  | some ttl => some (match policy.adaptiveDecay.maxCadenceSeconds with
      | none => ttl / 2
      | some limit => min limit (ttl / 2))

/-- The cadence after an answer. -/
def settledCadence (policy : AcquisitionPolicy A) (base current : Time) (semanticChanged : Bool) :
    Time :=
  if semanticChanged = true ∨ policy.adaptiveDecay.enabled = false then base
  else
    let widened := current * policy.adaptiveDecay.idleMultiplier
    let bounded := match adaptiveCadenceLimit policy with
      | none => widened
      | some limit => min widened limit
    if bounded < base then base else bounded

/-- The clock of a key after an answer to all of its group. -/
def settleCadence (s : Scheduler A) (key : AcquisitionRequestKey A) (policy : AcquisitionPolicy A)
    (declared now : Time) (semanticChanged : Bool) : Scheduler A :=
  let base := s.fittedCadenceSeconds c key declared
  let (previous, s) := s.cadenceStateFor c key declared now
  let cadence := settledCadence policy base previous.currentCadenceSeconds semanticChanged
  { s with cadenceByKey := s.cadenceByKey.set key ⟨cadence, now + cadence⟩ }

/-- `record_acquisition_result` once the answered paths are out of the queue: `left` says that other
paths of the request are still there. -/
def resultCadence (s : Scheduler A) (key : AcquisitionRequestKey A) (request : AcquisitionRequest A)
    (changed : List FieldPath) (now : Time) (matchedRequest left : Bool) : Scheduler A :=
  match request.policy.cadenceSeconds with
  | none =>
      if matchedRequest = true ∧ left = false then
        { s with pendingCadenceByKey := s.pendingCadenceByKey.erase key }
      else s
  | some declared =>
      let pending := (s.pendingCadenceByKey.get? key).filter (·.requestId = request.id)
      let semanticChanged := changed.any (· ∈ request.paths) || pending.any (·.semanticChanged)
      let completed := request.paths ++ (pending.map PendingCadenceUpdate.completedPaths).getD []
      if matchedRequest = true ∧ left = true then
        let update : PendingCadenceUpdate := ⟨request.id, semanticChanged, completed⟩
        { s with pendingCadenceByKey := s.pendingCadenceByKey.set key update }
      else
        let s := if pending.isSome then
          { s with pendingCadenceByKey := s.pendingCadenceByKey.erase key } else s
        if (pollPaths c.profile key).all fun path =>
            decide (path ∈ completed) || (s.refusedPaths.get? path).isSome then
          s.settleCadence c key request.policy declared now semanticChanged
        else s

/-- `record_acquisition_result`: `changed` and `now` are the paths and the timestamp of the change
set. -/
def recordAcquisitionResult (s : Scheduler A) (request : AcquisitionRequest A)
    (changed : List FieldPath) (now : Time) : Option (Scheduler A) :=
  (keyOf request).map fun key =>
    match (s.requestsByKey.get? key).filter (·.id = request.id) with
    | none =>
        let s := { s with consecutiveTimeoutByKey := s.consecutiveTimeoutByKey.erase key }
        s.resultCadence c key request changed now false false
    | some existing =>
        let left := existing.paths.any fun path => path ∉ request.paths
        let s := s.dropPaths c key existing request.paths
        let s := { s with consecutiveTimeoutByKey := s.consecutiveTimeoutByKey.erase key }
        s.resultCadence c key request changed now true left

/-- The clock of a key after a failure. -/
def failCadence (s : Scheduler A) (key : AcquisitionRequestKey A) (policy : AcquisitionPolicy A)
    (timedOut : Bool) (now : Option Time) : Scheduler A :=
  match policy.cadenceSeconds with
  | none => s
  | some declared =>
      let (timestamp, s) := s.timestamp now
      let (previous, s) := s.cadenceStateFor c key declared timestamp
      let consecutive := (s.consecutiveTimeoutByKey.get? key).getD 0 + 1
      let s := { s with consecutiveTimeoutByKey :=
        if timedOut then s.consecutiveTimeoutByKey.set key consecutive
        else s.consecutiveTimeoutByKey.erase key }
      let nextDue :=
        if timedOut = true ∧ consecutive = 1 then max previous.nextDueMonotonic timestamp
        else timestamp + previous.currentCadenceSeconds
      { s with cadenceByKey := s.cadenceByKey.set key ⟨previous.currentCadenceSeconds, nextDue⟩ }

def requestTimeout : String := "acquisition_request_timeout"

/-- The arguments of `record_acquisition_failure`. -/
structure FailureCall (A : Type) where
  request : AcquisitionRequest A
  reason : String
  failedPaths : Option (List FieldPath) := none
  now : Option Time := none
  linkHealthy : Bool := true

namespace FailureCall

/-- `reason or "acquisition_failed"`. -/
def failureReason (call : FailureCall A) : String :=
  if call.reason = "" then "acquisition_failed" else call.reason

/-- The paths of the request that failed. -/
def failed (call : FailureCall A) : List FieldPath :=
  match call.failedPaths with
  | none => call.request.paths
  | some paths => call.request.paths.filter (· ∈ paths)

/-- The deadline fired over a healthy link, or no path of the request failed. -/
def Void (call : FailureCall A) : Prop :=
  call.failureReason = requestTimeout ∧ call.linkHealthy = true ∨ call.failed = []

instance (call : FailureCall A) : Decidable call.Void :=
  inferInstanceAs (Decidable (_ ∨ _))

end FailureCall

/-- The pending request of a failure loses the failed paths. -/
def dropFailed (s : Scheduler A) (call : FailureCall A) (key : AcquisitionRequestKey A) :
    Scheduler A :=
  match (s.requestsByKey.get? key).filter (·.id = call.request.id) with
  | none => s
  | some existing =>
      let dropped := s.dropPaths c key existing call.failed
      if existing.paths.any fun path => path ∉ call.failed then dropped
      else { dropped with pendingCadenceByKey := dropped.pendingCadenceByKey.erase key }

/-- `record_acquisition_failure`. -/
def recordAcquisitionFailure (s : Scheduler A) (call : FailureCall A) : Scheduler A :=
  if call.Void then s
  else
    match keyOf call.request with
    | none => s
    | some key =>
        let s := { s with
          failedRequestCount := s.failedRequestCount + 1
          failureCountByReason := s.failureCountByReason.set call.failureReason
            ((s.failureCountByReason.get? call.failureReason).getD 0 + 1) }
        (s.dropFailed c call key).failCadence c key call.request.policy
          (call.failureReason = requestTimeout) call.now

/-! ## Refusals -/

/-- `end_refusals`. -/
def endRefusals (s : Scheduler A) (paths : List FieldPath) : Scheduler A :=
  { s with refusedPaths := s.refusedPaths.filter fun path _ => path ∉ paths }

/-- `_refusal_retry_seconds`. -/
def refusalRetrySeconds (p : RadioAcquisitionProfile A) (path : FieldPath) : Time :=
  (adaptiveCadenceLimit (p.policyFor path)).getD ((p.policyFor path).cadenceSeconds.getD 0)

/-- A path is refused once more. -/
def refusePath (now : Time) (s : Scheduler A) (path : FieldPath) : Scheduler A :=
  let count := ((s.refusedPaths.get? path).map ReadRefusal.count).getD 0
  { s with refusedPaths :=
      s.refusedPaths.set path ⟨count + 1, now + refusalRetrySeconds c.profile path⟩ }

/-- One turn of the loop of `record_read_refusal` over the pending requests. -/
def refuseRequest (refused : List FieldPath) (now : Time) (s : Scheduler A)
    (request : AcquisitionRequest A) : Scheduler A :=
  let refusedOf := request.paths.filter (· ∈ refused)
  let subset := { request with paths := refusedOf }
  if refusedOf ≠ [] ∧ s.mayCredit subset now = true then
    s.recordAcquisitionFailure c {
      request := subset
      reason := "acquisition_request_refused"
      failedPaths := some refusedOf
      now := some now
      linkHealthy := false }
  else s

/-- `record_read_refusal`. -/
def recordReadRefusal (s : Scheduler A) (paths : List FieldPath) (now : Time) : Scheduler A :=
  let s := paths.dedup.foldl (refusePath c now) s
  s.pendingRequests.foldl (refuseRequest c paths now) s

/-! ## External CAT ownership -/

/-- What is deferred of a pending request. -/
def pausedItem (request : AcquisitionRequest A) (owner : Option String) : PendingEnsureFresh where
  paths := request.paths
  maxAge := request.maxAge
  priority := request.priority
  reason := request.reason
  reasons := request.reasons
  timeout := request.timeout
  requestedAtMonotonic := request.requestedAtMonotonic
  deadlineMonotonic := request.deadlineMonotonic
  externalCatOwner := owner

/-- One turn of the loop of `pause_external_cat`. -/
def pauseRequest (p : RadioAcquisitionProfile A) (owner : Option String) (s : Scheduler A)
    (item : AcquisitionRequestKey A × AcquisitionRequest A) : Scheduler A :=
  if AcquisitionScheduler.mustDeferForExternalCat p item.2.paths then
    (forget { s with requestsByKey := s.requestsByKey.erase item.1 } item.2.id).defer item.1
      (pausedItem item.2 owner)
  else s

/-- `pause_external_cat`. -/
def pauseExternalCat (p : RadioAcquisitionProfile A) (s : Scheduler A) (owner : Option String)
    (reason : String) : Scheduler A :=
  let s :=
    { s with externalCatPaused := true, externalCatOwner := owner, externalCatReason := reason }
  s.requestsByKey.items.foldl (pauseRequest p owner) s

/-- The order in which `resume_external_cat` queues what was deferred. -/
def resumesBefore (item item' : PendingEnsureFresh) : Bool :=
  decide (item'.priority.rank < item.priority.rank) ||
    decide (item.priority.rank = item'.priority.rank) &&
      (decide (item.requestedAtMonotonic < item'.requestedAtMonotonic) ||
        decide (item.requestedAtMonotonic = item'.requestedAtMonotonic) &&
          decide (",".intercalate (item.paths.map FieldPath.str) ≤
            ",".intercalate (item'.paths.map FieldPath.str)))

/-- The ask of a deferred item. -/
def resumedAsk (owner : Option String) (item : PendingEnsureFresh) : AcquisitionScheduler.Ask where
  maxAge := item.maxAge
  priority := item.priority
  reason := item.reason
  reasons := item.reasons
  timeout := item.timeout
  requestedAt := item.requestedAtMonotonic
  externalCatOwner := if item.externalCatOwner.getD "" = "" then owner else item.externalCatOwner
  deadlineMonotonic := item.deadlineMonotonic

/-- The loop of `resume_external_cat`.  An error leaves what was queued so far. -/
def resumeItems (p : RadioAcquisitionProfile A) (owner : Option String) :
    List PendingEnsureFresh → Scheduler A → Except String Unit × Scheduler A
  | [], s => (.ok (), s)
  | item :: rest, s =>
      match s.queue p (resumedAsk owner item) false item.paths with
      | .error text => (.error text, s)
      | .ok (_, s) => resumeItems p owner rest s

/-- `resume_external_cat`. -/
def resumeExternalCat (p : RadioAcquisitionProfile A) (s : Scheduler A) :
    Except String Unit × Scheduler A :=
  let items := s.deferred.values.insertionSort fun item item' => resumesBefore item item' = true
  resumeItems p s.externalCatOwner items { s with
    externalCatPaused := false
    externalCatOwner := none
    externalCatReason := ""
    deferred := .empty }

/-! ## Calls -/

/-- A call of a public method. -/
inductive Call (A : Type) where
  | ensureFresh (call : EnsureFreshCall)
  | dueRequests (call : DueCall)
  | tryClaim (request : AcquisitionRequest A) (claimant providerGeneration : Nat)
  | releaseClaim (requestId : String) (claimant providerGeneration : Nat)
  | noteExecuteStarted (requestId : String) (now : Option Time)
  | noteExecuteFinished (requestId : String)
  | recordDispatch (requestId : String) (paths : List FieldPath) (now : Time)
  | noteTxActive (txActive : Bool)
  | noteAvailability (availability : Dict FieldPath (Option Bool))
  | dispatchableRequests
  | isDispatchable (request : AcquisitionRequest A)
  | diagnostics
  | recordAcquisitionResult (request : AcquisitionRequest A) (changed : List FieldPath) (now : Time)
  | recordAcquisitionFailure (call : FailureCall A)
  | recordReadRefusal (paths : List FieldPath) (now : Time)
  | endRefusals (paths : List FieldPath)
  | pauseExternalCat (owner : Option String) (reason : String)
  | resumeExternalCat
  /-- What `prime_unobserved` does beside its calls of `ensure_fresh`. -/
  | primeCursor (cursor : Nat)

/-- A call, whether it returns or raises. -/
def run (s : Scheduler A) : Call A → Scheduler A
  | .ensureFresh call =>
      match s.ensureFresh c.profile call with
      | .ok (_, s) => s
      | .error _ => s
  | .dueRequests call => (s.dueRequests c call).2
  | .tryClaim request claimant generation => (s.tryClaim request claimant generation).2
  | .releaseClaim requestId claimant generation => s.releaseClaim requestId claimant generation
  | .noteExecuteStarted requestId now => s.noteExecuteStarted requestId now
  | .noteExecuteFinished requestId => s.noteExecuteFinished requestId
  | .recordDispatch requestId paths now => s.recordDispatch requestId paths now
  | .noteTxActive txActive => { s with txActive }
  | .noteAvailability availability => { s with availability }
  | .dispatchableRequests => s.dispatchableRequests.2
  | .isDispatchable request => (s.isDispatchable request).2
  | .diagnostics => s.diagnostics c
  | .recordAcquisitionResult request changed now =>
      (s.recordAcquisitionResult c request changed now).getD s
  | .recordAcquisitionFailure call => s.recordAcquisitionFailure c call
  | .recordReadRefusal paths now => s.recordReadRefusal c paths now
  | .endRefusals paths => s.endRefusals paths
  | .pauseExternalCat owner reason => s.pauseExternalCat c.profile owner reason
  | .resumeExternalCat => (s.resumeExternalCat c.profile).2
  | .primeCursor cursor => { s with primeCursor := cursor }

/-- A new scheduler. -/
def init (clock : FreshnessClock) : Scheduler A := { clock := clock }

end Scheduler

end Rigplane.Acquisition
