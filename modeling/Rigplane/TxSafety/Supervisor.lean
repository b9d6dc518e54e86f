import Rigplane.Clock

/-!
# The transmit-safety supervisor

`core/tx_safety.py` is the single-target policy for one radio's PTT.  It performs no
I/O: a call changes the supervisor and returns the bounded provider operations to
carry out, and their settlements and the PTT observations come back as further calls.

A *lease* is an owner's managed key.  A *release* is the durable OFF owed under a
lease.  It carries the *boundary* taken when it began, and only an OFF observed past
that boundary ends it.  At most one provider attempt is active.

The two injected callables are sequences here: `Config.clock n` is the `n`-th reading
of the clock and `Config.idFactory n` the `n`-th identifier, and the supervisor counts
how many of each it has taken, so a call that reads the clock twice gets two readings.
A call either returns, or raises: `ValueError` for an argument its guard refuses, or
the `RuntimeError` of `_start` and `_boundary`.
-/

namespace Rigplane.TxSafety

/-! ## Enumerations -/

inductive TxSource where
  | websocket
  | rigctld
  | tci
  | sdk
  | hamlibBridge
  | internal
deriving DecidableEq, Repr

inductive RadioTx where
  | off
  | on
  | unknown
deriving DecidableEq, Repr

inductive TxPhase where
  | idle
  | keyPending
  | keyed
  | releaseRequired
  | releaseConfirming
  | faulted
  | externalUnowned
deriving DecidableEq, Repr

inductive TxOutcome where
  | accepted
  | idempotent
  | busy
  | notReady
  | radioNotOff
  | releasePending
  | stale
  | applied
  | noop
deriving DecidableEq, Repr

inductive TxReleaseReason where
  | operatorRelease
  | operatorForcedUnkey
  | sourceDetached
  | presentationReplaced
  | clientDisconnected
  | audioFailed
  | controlTransportLost
  | radioTransportLost
  | capabilityLost
  | permitLost
  | frontendSafetyTimeout
  | backendMaxKeyDown
  | externalCatPreempted
  | appShutdown
  | serverShutdown
  | recoveryExhausted
  | adminEmergencyStop
deriving DecidableEq, Repr

/-- `_SYSTEM_RELEASE_REASONS`. -/
def systemReleaseReasons : List TxReleaseReason :=
  [.audioFailed, .controlTransportLost, .radioTransportLost, .capabilityLost, .permitLost,
    .backendMaxKeyDown, .externalCatPreempted, .appShutdown, .serverShutdown,
    .recoveryExhausted, .adminEmergencyStop]

/-- `_FORCE_UNKEY_REASONS`. -/
def forceUnkeyReasons : List TxReleaseReason := .operatorForcedUnkey :: systemReleaseReasons

inductive ProviderAttemptKind where
  | writeOn
  | writeOff
  | readPtt
deriving DecidableEq, Repr

/-! ## Records -/

/-- An owner; an empty session id is refused when it is built. -/
structure TxOwner where
  source : TxSource
  sessionId : String
  nonempty : sessionId ≠ ""
deriving DecidableEq

/-- A decoded PTT observation, with the checks of its `__post_init__`. -/
structure ProviderPttObservation where
  value : RadioTx
  providerGeneration : Int
  pttObservationSeq : Int
  observedAtMonotonic : Time
  decoded : value ≠ .unknown
  generation_nonneg : 0 ≤ providerGeneration
  seq_pos : 0 < pttObservationSeq
deriving DecidableEq

structure ProviderAttempt where
  id : String
  kind : ProviderAttemptKind
  providerGeneration : Int
  leaseId : String
  startedAtMonotonic : Time
  timeoutSeconds : Time
deriving DecidableEq

structure CancelProviderAttempt where
  attemptId : String
  providerGeneration : Int
  requestedAtMonotonic : Time
  settlementTimeoutSeconds : Time
  settlementDeadlineMonotonic : Time
deriving DecidableEq

inductive TxEffect where
  | attempt (attempt : ProviderAttempt)
  | cancel (cancel : CancelProviderAttempt)
deriving DecidableEq

structure Lease where
  id : String
  owner : TxOwner
deriving DecidableEq

structure Boundary where
  generation : Int
  sequence : Int
  notBefore : Time
deriving DecidableEq

/-- `_Boundary.accepts`. -/
def Boundary.Accepts (b : Boundary) (o : ProviderPttObservation) : Prop :=
  o.providerGeneration = b.generation ∧ b.sequence < o.pttObservationSeq ∧
    b.notBefore ≤ o.observedAtMonotonic

instance (b : Boundary) (o : ProviderPttObservation) : Decidable (b.Accepts o) :=
  inferInstanceAs (Decidable (_ ∧ _ ∧ _))

structure Release where
  requestedReason : TxReleaseReason
  terminalReason : TxReleaseReason
  boundary : Boundary
  attempts : Nat := 0
  retryDue : Option Time := none
  error : Option String := none
deriving DecidableEq

structure TxSafetySnapshot where
  phase : TxPhase
  radioTx : RadioTx
  providerGeneration : Option Int
  providerReady : Bool
  leaseId : Option String
  owner : Option TxOwner
  releaseReason : Option TxReleaseReason
  terminalReleaseReason : Option TxReleaseReason
  releaseAttemptCount : Nat
  releaseLastError : Option String
  activeAttempt : Option ProviderAttempt
  watchdogDeadlineMonotonic : Option Time
  watchdogEnabled : Bool
  externalConflict : Bool
deriving DecidableEq

structure TxTransition where
  outcome : TxOutcome
  snapshot : TxSafetySnapshot
  effects : List TxEffect := []
deriving DecidableEq

inductive TxSafetyError where
  | valueError (text : String)
  | runtimeError (text : String)
deriving DecidableEq, Repr

/-- The constructor's arguments, with the checks it makes of them. -/
structure Config where
  clock : Nat → Time
  idFactory : Nat → String
  watchdogSeconds : Option Time
  writeTimeout : Time
  readTimeout : Time
  cancelTimeout : Time
  retries : List Time
  watchdog_pos : ∀ w ∈ watchdogSeconds, 0 < w
  timeouts_pos : 0 < writeTimeout ∧ 0 < readTimeout ∧ 0 < cancelTimeout
  retries_nonempty : retries ≠ []
  retries_nonneg : ∀ d ∈ retries, 0 ≤ d
  retries_sorted : retries.Pairwise (· ≤ ·)

structure Supervisor where
  generation : Option Int := none
  ready : Bool := false
  observation : Option ProviderPttObservation := none
  lease : Option Lease := none
  acquisition : Option Boundary := none
  release : Option Release := none
  active : Option ProviderAttempt := none
  cancelPending : Option CancelProviderAttempt := none
  watchdogDeadline : Option Time := none
  driven : Bool := false
  /-- Readings taken from the clock so far. -/
  clockReads : Nat := 0
  /-- Identifiers taken from the factory so far. -/
  idsMade : Nat := 0
deriving DecidableEq

namespace Supervisor

/-- `if self._release.error`: an empty text does not count. -/
def faulted (release : Release) : Bool := release.error.any (· ≠ "")

/-- `snapshot`. -/
def snapshot (c : Config) (s : Supervisor) : TxSafetySnapshot :=
  let radio := (s.observation.map ProviderPttObservation.value).getD .unknown
  let managedOn : Bool :=
    s.lease.isSome && s.release.isNone && radio == .on && s.acquisition.isSome
  let confirmed : Bool :=
    managedOn && (match s.acquisition, s.observation with
      | some b, some o => decide (b.Accepts o)
      | _, _ => false)
  { phase :=
      match s.release with
      | some release =>
          if faulted release then .faulted
          else if s.active.any (·.kind = .readPtt) then .releaseConfirming
          else .releaseRequired
      | none =>
          if s.lease.isNone then (if radio = .on then .externalUnowned else .idle)
          else if confirmed then .keyed else .keyPending
    radioTx := radio
    providerGeneration := s.generation
    providerReady := s.ready
    leaseId := s.lease.map Lease.id
    owner := s.lease.map Lease.owner
    releaseReason := s.release.map Release.requestedReason
    terminalReleaseReason := s.release.map Release.terminalReason
    releaseAttemptCount := (s.release.map Release.attempts).getD 0
    releaseLastError := s.release.bind Release.error
    activeAttempt := s.active
    watchdogDeadlineMonotonic := s.watchdogDeadline
    watchdogEnabled := c.watchdogSeconds.isSome && s.driven
    externalConflict := managedOn && !confirmed }

/-! ## Private helpers -/

/-- `self._clock()`. -/
def now (c : Config) (s : Supervisor) : Time := c.clock s.clockReads

/-- The clock has been read once more. -/
def clockRead (s : Supervisor) : Supervisor := { s with clockReads := s.clockReads + 1 }

/-- `_boundary`. -/
def boundary (s : Supervisor) (now : Time) : Except TxSafetyError Boundary :=
  match s.generation with
  | none => .error (.runtimeError "causal boundary requires provider generation")
  | some g => .ok ⟨g, (s.observation.map ProviderPttObservation.pttObservationSeq).getD 0, now⟩

/-- `_begin_release`. -/
def beginRelease (s : Supervisor) (reason : TxReleaseReason) (now : Time)
    (error : Option String := none) : Except TxSafetyError Supervisor :=
  if s.lease.isNone then .ok s
  else do
    let b ← s.boundary now
    return { s with
      release := some ⟨reason, reason, b, 0, some now, error⟩
      watchdogDeadline := none }

/-- `_start`. -/
def start (c : Config) (s : Supervisor) (kind : ProviderAttemptKind) (timeout now : Time) :
    Except TxSafetyError (ProviderAttempt × Supervisor) :=
  match s.active, s.generation, s.lease with
  | none, some g, some l =>
      let attempt : ProviderAttempt := ⟨c.idFactory s.idsMade, kind, g, l.id, now, timeout⟩
      .ok (attempt,
        { s with active := some attempt, cancelPending := none, idsMade := s.idsMade + 1 })
  | _, _, _ => .error (.runtimeError "provider attempt requires one generation and lease")

/-- `_cancel`: a second request for the same attempt is not repeated. -/
def cancel (c : Config) (s : Supervisor) (attempt : ProviderAttempt) (now : Time) :
    List TxEffect × Supervisor :=
  if s.cancelPending.any fun p =>
      p.attemptId = attempt.id ∧ p.providerGeneration = attempt.providerGeneration then ([], s)
  else
    let pending : CancelProviderAttempt :=
      ⟨attempt.id, attempt.providerGeneration, now, c.cancelTimeout, now + c.cancelTimeout⟩
    ([.cancel pending], { s with cancelPending := some pending })

/-- The body of `_service_release`, at a known instant. -/
def serviceReleaseAt (c : Config) (s : Supervisor) (force : Bool) (instant : Time) :
    Except TxSafetyError (List TxEffect × Supervisor) :=
  match s.release with
  | none => .ok ([], s)
  | some release =>
      if ¬ s.ready ∨ s.generation.isNone ∨ s.active.isSome ∨
          (¬ force ∧ ¬ release.retryDue.any (· ≤ instant)) then .ok ([], s)
      else do
        let (attempt, s) ← s.start c .writeOff c.writeTimeout instant
        return ([.attempt attempt],
          { s with release := some { release with
              attempts := release.attempts + 1, retryDue := none, error := none } })

/-- `_service_release`: without an instant it reads the clock, even if it then does
nothing. -/
def serviceRelease (c : Config) (s : Supervisor) (force : Bool) (instant : Option Time) :
    Except TxSafetyError (List TxEffect × Supervisor) :=
  match instant with
  | some t => s.serviceReleaseAt c force t
  | none => s.clockRead.serviceReleaseAt c force (s.now c)

/-- `_schedule_retry`. -/
def scheduleRetry (c : Config) (s : Supervisor) (error : String) : Supervisor :=
  match s.release with
  | none => s
  | some release =>
      let index := release.attempts - 1
      let delay := c.retries.getD (min index (c.retries.length - 1)) 0
      { s.clockRead with
        release := some { release with retryDue := some (s.now c + delay), error := some error } }

/-- `_clear_managed`. -/
def clearManaged (s : Supervisor) : Supervisor :=
  { s with lease := none, acquisition := none, release := none, watchdogDeadline := none }

/-- `_result`. -/
def result (c : Config) (s : Supervisor) (outcome : TxOutcome) (effects : List TxEffect := []) :
    TxTransition × Supervisor := (⟨outcome, s.snapshot c, effects⟩, s)

/-- `_release_current`. -/
def releaseCurrent (c : Config) (s : Supervisor) (reason : TxReleaseReason) :
    Except TxSafetyError (TxTransition × Supervisor) :=
  match s.release with
  | some release =>
      .ok (result c
        { s with release := some { release with terminalReason := reason } } .idempotent)
  | none => do
      let now := s.now c
      let s ← s.clockRead.beginRelease reason now
      match s.active with
      | some attempt =>
          let (effects, s) := s.cancel c attempt now
          return s.result c .accepted effects
      | none =>
          let (effects, s) ← s.serviceRelease c true none
          return s.result c .accepted effects

/-! ## Public operations -/

/-- `error or default`. -/
def orText (error : Option String) (default : String) : String :=
  match error with
  | some text => if text = "" then default else text
  | none => default

/-- The loss of the control transport releases a lease that is not being released. -/
def controlLost (s : Supervisor) (now : Time) : Except TxSafetyError Supervisor :=
  if s.lease.isSome ∧ s.release.isNone then s.beginRelease .controlTransportLost now
  else .ok s

/-- A new provider: nothing is observed or active under its generation. -/
def reprovided (s : Supervisor) (generation : Int) (ready : Bool) : Supervisor :=
  { s with
    generation := some generation
    ready := ready
    observation := none
    active := none
    cancelPending := none
    acquisition := none }

/-- The release is due at once, under a boundary of the current generation. -/
def rebound (s : Supervisor) (b : Boundary) (now : Time) : Supervisor :=
  { s with release := s.release.map fun r => { r with boundary := b, retryDue := some now } }

/-- The `if had_lease` of `replace_provider`. -/
def rebindRelease (s : Supervisor) (now : Time) : Except TxSafetyError Supervisor :=
  if s.lease.isNone then .ok s
  else do
    let s ← s.controlLost now
    let b ← s.boundary now
    return s.rebound b now

def replaceProvider (c : Config) (s : Supervisor) (generation : Int) (ready : Bool) :
    Except TxSafetyError (TxTransition × Supervisor) :=
  if generation < 0 then .error (.valueError "provider_generation must be non-negative")
  else if s.generation.any (generation ≤ ·) then .ok (s.result c .stale)
  else do
    let s ← (s.clockRead.reprovided generation ready).rebindRelease (s.now c)
    let (effects, s) ← s.serviceRelease c ready none
    return s.result c .applied effects

/-- The provider no longer answers, and what it last reported is void. -/
def unready (s : Supervisor) : Supervisor := { s with ready := false, observation := none }

def setProviderReady (c : Config) (s : Supervisor) (generation : Int) (ready : Bool) :
    Except TxSafetyError (TxTransition × Supervisor) :=
  if s.generation ≠ some generation then .ok (s.result c .stale)
  else if ready = s.ready then .ok (s.result c .idempotent)
  else if ready then do
    let (effects, s) ← { s.clockRead with ready := true }.serviceRelease c true (some (s.now c))
    return s.result c .applied effects
  else do
    let now := s.now c
    let s ← s.clockRead.unready.controlLost now
    match s.active with
    | some attempt =>
        let (effects, s) := s.cancel c attempt now
        return s.result c .applied effects
    | none => return s.result c .applied

/-- The observation is of another generation, or not newer than the previous one. -/
def StaleObservation (s : Supervisor) (o : ProviderPttObservation) : Prop :=
  s.generation ≠ some o.providerGeneration ∨
    ∃ p ∈ s.observation, o.pttObservationSeq ≤ p.pttObservationSeq ∨
      o.observedAtMonotonic < p.observedAtMonotonic

instance (s : Supervisor) (o : ProviderPttObservation) : Decidable (s.StaleObservation o) :=
  inferInstanceAs (Decidable (_ ∨ _))

def observePtt (c : Config) (s : Supervisor) (o : ProviderPttObservation) :
    Except TxSafetyError (TxTransition × Supervisor) :=
  if s.StaleObservation o then .ok (s.result c .stale)
  else
    let observed := { s with observation := some o }
    if o.value = .off ∧ s.release.any (fun r => r.boundary.Accepts o) then
      .ok (observed.clearManaged.result c .applied)
    else .ok (observed.result c .applied)

/-- A new lease, under the next identifier. -/
def leaseTo (c : Config) (s : Supervisor) (owner : TxOwner) : Supervisor :=
  { s with lease := some ⟨c.idFactory s.idsMade, owner⟩, idsMade := s.idsMade + 1 }

/-- The boundary past which an ON confirms the lease, and the watchdog's deadline. -/
def acquired (c : Config) (s : Supervisor) (b : Boundary) (now : Time) : Supervisor :=
  { s with acquisition := some b, watchdogDeadline := c.watchdogSeconds.map (now + ·) }

def requestOn (c : Config) (s : Supervisor) (owner : TxOwner) :
    Except TxSafetyError (TxTransition × Supervisor) :=
  if s.release.isSome then .ok (s.result c .releasePending)
  else match s.lease with
  | some lease => .ok (s.result c (if lease.owner = owner then .idempotent else .busy))
  | none =>
      if s.active.isSome then .ok (s.result c .busy)
      else if ¬ s.ready ∨ s.generation.isNone then .ok (s.result c .notReady)
      else if ¬ s.observation.any (·.value = .off) then .ok (s.result c .radioNotOff)
      else do
        let now := s.now c
        let s := s.clockRead.leaseTo c owner
        let b ← s.boundary now
        let (attempt, s) ← (s.acquired c b now).start c .writeOn c.writeTimeout now
        return s.result c .accepted [.attempt attempt]

def requestOff (c : Config) (s : Supervisor) (owner : TxOwner) (leaseId : String)
    (reason : TxReleaseReason) : Except TxSafetyError (TxTransition × Supervisor) :=
  if s.lease ≠ some ⟨leaseId, owner⟩ then .ok (s.result c .stale)
  else s.releaseCurrent c reason

def releaseOwner (c : Config) (s : Supervisor) (owner : TxOwner) (reason : TxReleaseReason) :
    Except TxSafetyError (TxTransition × Supervisor) :=
  if ¬ s.lease.any (·.owner = owner) then .ok (s.result c .stale)
  else s.releaseCurrent c reason

def emergencyRelease (c : Config) (s : Supervisor) (reason : TxReleaseReason) :
    Except TxSafetyError (TxTransition × Supervisor) :=
  if reason ∉ systemReleaseReasons then
    .error (.valueError "unqualified release requires a trusted system reason")
  else if s.lease.isSome then s.releaseCurrent c reason
  else .ok (s.result c .noop)

def forceUnkey (c : Config) (s : Supervisor) (owner : TxOwner) (reason : TxReleaseReason) :
    Except TxSafetyError (TxTransition × Supervisor) :=
  if reason ∉ forceUnkeyReasons then
    .error (.valueError "forced unkey requires a trusted or operator reason")
  else if s.release.isSome then .ok (s.result c .idempotent)
  else if s.lease.isSome then .ok (s.result c .busy)
  else if s.active.isSome then .ok (s.result c .busy)
  else if ¬ s.ready ∨ s.generation.isNone then .ok (s.result c .notReady)
  else do
    let now := s.now c
    let s ← (s.clockRead.leaseTo c owner).beginRelease reason now
    let (effects, s) ← s.serviceRelease c true (some now)
    return s.result c .accepted effects

/-- `settle_attempt`, past its guard: the lane is free and the lease is still held. -/
def settleLeased (c : Config) (s : Supervisor) (attempt : ProviderAttempt) (succeeded : Bool)
    (error : Option String) (now : Time) : Except TxSafetyError (TxTransition × Supervisor) :=
  match attempt.kind, s.release with
  | .writeOn, none =>
      if succeeded then do
        let (read, s) ← s.start c .readPtt c.readTimeout now
        return s.result c .applied [.attempt read]
      else do
        let s ← s.beginRelease .controlTransportLost now (some (orText error "write_on_failed"))
        let (effects, s) ← s.serviceRelease c true (some now)
        return s.result c .applied effects
  | .writeOn, some _ => do
      let (effects, s) ← s.serviceRelease c true (some now)
      return s.result c .applied effects
  | kind, none =>
      if kind = .readPtt ∧ ¬ succeeded then do
        let s ← s.beginRelease .controlTransportLost now (some (orText error "read_ptt_failed"))
        let (effects, s) ← s.serviceRelease c true (some now)
        return s.result c .applied effects
      else .ok (s.result c .applied)
  | kind, some release =>
      if release.attempts = 0 then do
        let (effects, s) ← s.serviceRelease c true (some now)
        return s.result c .applied effects
      else if kind = .writeOff then
        if succeeded then do
          let (read, s) ← s.start c .readPtt c.readTimeout now
          return s.result c .applied [.attempt read]
        else .ok ((s.scheduleRetry c (orText error "write_off_failed")).result c .applied)
      else
        .ok ((s.scheduleRetry c (orText error
          (if succeeded then "read_ptt_unconfirmed" else "read_ptt_failed"))).result c .applied)

/-- The call names the active attempt, and it is of the current generation. -/
def Settles (s : Supervisor) (attempt : ProviderAttempt) (attemptId : String)
    (providerGeneration : Int) : Prop :=
  attempt.id = attemptId ∧ attempt.providerGeneration = providerGeneration ∧
    s.generation = some providerGeneration

instance (s : Supervisor) (attempt : ProviderAttempt) (attemptId : String) (g : Int) :
    Decidable (s.Settles attempt attemptId g) :=
  inferInstanceAs (Decidable (_ ∧ _ ∧ _))

/-- The lane is free again. -/
def freed (s : Supervisor) : Supervisor := { s with active := none, cancelPending := none }

def settleAttempt (c : Config) (s : Supervisor) (attemptId : String) (providerGeneration : Int)
    (succeeded : Bool) (error : Option String) :
    Except TxSafetyError (TxTransition × Supervisor) :=
  match s.active with
  | none => .ok (s.result c .stale)
  | some attempt =>
      if ¬ s.Settles attempt attemptId providerGeneration then .ok (s.result c .stale)
      else if s.lease.isNone then .ok (s.clockRead.freed.result c .applied)
      else s.clockRead.freed.settleLeased c attempt succeeded error (s.now c)

/-- The watchdog fires: a lease that is not being released has outlived its deadline. -/
def WatchdogDue (s : Supervisor) (now : Time) : Prop :=
  s.lease.isSome ∧ s.release.isNone ∧ s.watchdogDeadline.any (· ≤ now)

instance (s : Supervisor) (now : Time) : Decidable (s.WatchdogDue now) :=
  inferInstanceAs (Decidable (_ ∧ _ ∧ _))

/-- The watchdog's part of a tick. -/
def watchdog (c : Config) (s : Supervisor) (now : Time) :
    Except TxSafetyError (List TxEffect × Supervisor) :=
  if ¬ s.WatchdogDue now then .ok ([], s)
  else do
    let s ← s.beginRelease .backendMaxKeyDown now
    match s.active with
    | some attempt => return s.cancel c attempt now
    | none => return ([], s)

def tick (c : Config) (s : Supervisor) : Except TxSafetyError (TxTransition × Supervisor) := do
  let now := s.now c
  let (effects, s) ← { s.clockRead with driven := true }.watchdog c now
  let (effects, s) ← if effects = [] then s.serviceRelease c false (some now) else .ok (effects, s)
  return s.result c (if effects ≠ [] ∨ s.release.isSome then .applied else .noop) effects

def retireDriver (s : Supervisor) : Supervisor := { s with driven := false }

end Supervisor

/-! ## Calls and runs -/

/-- A call of a public method. -/
inductive Op where
  | replaceProvider (generation : Int) (ready : Bool)
  | setProviderReady (generation : Int) (ready : Bool)
  | observePtt (observation : ProviderPttObservation)
  | requestOn (owner : TxOwner)
  | requestOff (owner : TxOwner) (leaseId : String) (reason : TxReleaseReason)
  | releaseOwner (owner : TxOwner) (reason : TxReleaseReason)
  | emergencyRelease (reason : TxReleaseReason)
  | forceUnkey (owner : TxOwner) (reason : TxReleaseReason)
  | settleAttempt (attemptId : String) (providerGeneration : Int) (succeeded : Bool)
      (error : Option String)
  | tick
  | retireDriver

/-- What a call returns, with the supervisor after it; `retire_driver` returns nothing. -/
def call (c : Config) (s : Supervisor) :
    Op → Except TxSafetyError (Option TxTransition × Supervisor)
  | .replaceProvider g ready => (s.replaceProvider c g ready).map (Prod.map some id)
  | .setProviderReady g ready => (s.setProviderReady c g ready).map (Prod.map some id)
  | .observePtt o => (s.observePtt c o).map (Prod.map some id)
  | .requestOn owner => (s.requestOn c owner).map (Prod.map some id)
  | .requestOff owner l reason => (s.requestOff c owner l reason).map (Prod.map some id)
  | .releaseOwner owner reason => (s.releaseOwner c owner reason).map (Prod.map some id)
  | .emergencyRelease reason => (s.emergencyRelease c reason).map (Prod.map some id)
  | .forceUnkey owner reason => (s.forceUnkey c owner reason).map (Prod.map some id)
  | .settleAttempt a g ok error => (s.settleAttempt c a g ok error).map (Prod.map some id)
  | .tick => (s.tick c).map (Prod.map some id)
  | .retireDriver => .ok (none, s.retireDriver)

/-- One call of a run.  A `ValueError` is raised before the supervisor changes, so the
run goes on from the same state; a `RuntimeError` ends it. -/
def step (c : Config) (s : Supervisor) (op : Op) : Option Supervisor :=
  match call c s op with
  | .ok (_, s') => some s'
  | .error (.valueError _) => some s
  | .error (.runtimeError _) => none

end Rigplane.TxSafety
