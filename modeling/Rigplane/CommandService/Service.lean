import Rigplane.Lib.Runs
import Rigplane.StateStore.Operations

/-!
# The command service

`CommandService` of `core/command_service.py`: it records the lifecycle of a command, keeps the
values that a command is expected to set until the radio confirms them, and hands the command to an
executor.

The clock is read once in a call.  An event has a number, its place in the history, which stands for
its identity.  The subscribers of the lifecycle do not call back into the service.  A key is the
triple of source, session id and command id by which the service knows a command; an intent carries
the session id beside its parameters.  The details of an event, the request for a fresh observation
after a write, and the return values of removals are left out.
-/

namespace Rigplane.CommandService

open StatePipeline StateStore PyValue

/-! ## Values -/

/-- What the service asks of a value, beyond what the store asks of it. -/
class CommandValue (V : Type) extends PyValue V where
  /-- The number that an `int` or a `float` is; a `bool` is none. -/
  number : V → Option ℚ
  isFloat : V → Bool
  /-- A `float`. -/
  ofNumber : ℚ → V

section Values

variable {V : Type} [CommandValue V]

open CommandValue

/-- `_normalize_raw_level_value`. -/
def normalizeRawLevelValue (value : V) : V :=
  match number value with
  | some x => ofNumber (x / 255)
  | none => value

/-- `_normalize_observed_level_value`. -/
def normalizeObservedLevelValue (value : V) : V :=
  match number value with
  | some x => if isFloat value ∧ 0 ≤ x ∧ x ≤ 1 then value else normalizeRawLevelValue value
  | none => normalizeRawLevelValue value

/-- `_is_normalized_level_value`. -/
def isNormalizedLevelValue (value : V) : Bool :=
  match number value with
  | some x => decide (0 ≤ x ∧ x ≤ 1)
  | none => false

end Values

/-- The values that a command's parameters and an observation's fields are made of. -/
inductive Scalar where
  | none
  | bool (value : Bool)
  | int (value : Int)
  | float (value : ℚ)
  | str (value : String)
deriving DecidableEq

/-- The number by which `==` compares a value. -/
def Scalar.numeric : Scalar → Option ℚ
  | .bool value => some (if value then 1 else 0)
  | .int value => some value
  | .float value => some value
  | _ => Option.none

/-- `left == right`. -/
def Scalar.eq (left right : Scalar) : Bool :=
  match left.numeric, right.numeric with
  | some x, some y => decide (x = y)
  | Option.none, Option.none => decide (left = right)
  | _, _ => false

theorem Scalar.eq_iff (left right : Scalar) :
    left.eq right = true ↔
      left.numeric = right.numeric ∧ (left.numeric = Option.none → left = right) := by
  rw [Scalar.eq]
  cases left.numeric <;> cases right.numeric <;> simp

instance : CommandValue Scalar where
  pyNone := .none
  eq := Scalar.eq
  slot
    | .str "A" => some .a
    | .str "B" => some .b
    | _ => Option.none
  immutable _ := true
  eq_trans a b c hab hbc := by
    obtain ⟨hn, hv⟩ := (a.eq_iff b).mp hab
    obtain ⟨hn', hv'⟩ := (b.eq_iff c).mp hbc
    exact (a.eq_iff c).mpr ⟨hn.trans hn', fun h => (hv h).trans (hv' (hn ▸ h))⟩
  eq_none a h := by
    obtain ⟨hn, hv⟩ := (a.eq_iff .none).mp h
    exact hv hn
  none_eq a h := by
    obtain ⟨-, hv⟩ := (Scalar.none.eq_iff a).mp h
    exact (hv rfl).symm
  number
    | .int value => some value
    | .float value => some value
    | _ => Option.none
  isFloat
    | .float _ => true
    | _ => false
  ofNumber := .float

/-! ## Records -/

/-- A key of `_active_commands`. -/
structure CommandKey where
  source : String
  sessionId : Option String
  commandId : String
deriving DecidableEq

inductive CommandLifecycleState where
  | accepted
  | queued
  | sent
  | acknowledged
  | failed
  | timedOut
  | confirmed
  | reconciled
  | superseded
deriving DecidableEq

/-- `_DISPATCHABLE_LIFECYCLE_STATES`. -/
def CommandLifecycleState.dispatchable : CommandLifecycleState → Bool
  | .accepted | .queued | .sent | .acknowledged => true
  | _ => false

structure CommandLifecycleEvent where
  number : Nat
  key : CommandKey
  state : CommandLifecycleState
  timestamp : Time
  target : Option FieldPath
  message : Option String
deriving DecidableEq

inductive PendingPolicy where
  | none
  | scoped
  | global
deriving DecidableEq

structure CommandIntent (V : Type) where
  key : CommandKey
  name : String
  params : Dict String V := .empty
  target : Option FieldPath := none
  timeout : Option Time := none
  pendingPolicy : PendingPolicy := .none
  expectedObservations : List FieldPath := []
  timeout_nonneg : ∀ t ∈ timeout, 0 ≤ t

structure PendingOverlay (V : Type) where
  key : CommandKey
  path : FieldPath
  value : V
  expiresAt : Time
  matchesAnyValue : Bool := false

def PendingOverlay.isExpired {V : Type} (overlay : PendingOverlay V) (now : Time) : Bool :=
  decide (overlay.expiresAt ≤ now)

/-- An observation with the id of the command that caused it, which the store does not read. -/
structure CorrelatedObservation (V : Type) extends Observation V where
  correlationId : Option String := none

/-- `replace(observation, provider_generation=...)`. -/
def CorrelatedObservation.bound {V : Type} (o : CorrelatedObservation V) (generation : Nat) :
    CorrelatedObservation V :=
  { o with providerGeneration := some generation }

/-! ## What a command is expected to change -/

section Expectations

variable {V : Type} [CommandValue V]

/-- `_NORMALIZED_LEVEL_EXPECTATION_COMMANDS`. -/
def normalizedLevelExpectationCommands : List (String × String) :=
  [("set_af_level", "af_level"), ("set_rf_gain", "rf_gain"), ("set_squelch", "squelch"),
    ("set_rf_power", "power_level"), ("set_power", "power_level")]

/-- `_should_normalize_level_expectation`. -/
def shouldNormalizeLevelExpectation (name : String) (path : FieldPath) : Bool :=
  normalizedLevelExpectationCommands.lookup name == some path.name.text

/-- `_observable_paths_for_intent`. -/
def observablePathsForIntent (intent : CommandIntent V) : List FieldPath :=
  if intent.expectedObservations ≠ [] then intent.expectedObservations else intent.target.toList

/-- `_pending_value_for_path`; `none` is its `KeyError`. -/
def pendingValueForPath (params : Dict String V) (path : FieldPath) : Option V :=
  (params.get? path.name.text).or (params.get? "value")

/-- `_expected_value_for_path`. -/
def expectedValueForPath (intent : CommandIntent V) (path : FieldPath) : Option V :=
  (pendingValueForPath intent.params path).map fun value =>
    if (intent.name = "set_rf_power" ∨ intent.name = "set_power") ∧ path.name.text = "power_level"
    then value
    else if shouldNormalizeLevelExpectation intent.name path then normalizeRawLevelValue value
    else value

end Expectations

/-! ## Matching an observation -/

section Matching

variable {V : Type} [CommandValue V]

/-- `_is_external_rigctld_readback`. -/
def isExternalRigctldReadback (source : SourceMetadata) : Bool :=
  source.source == "hamlib_response" && source.provider == "external_rigctld" &&
    source.transport == some "rigctld"

/-- `_is_yaesu_cat_readback`. -/
def isYaesuCatReadback (source : SourceMetadata) : Bool :=
  source.source == "yaesu_poll_response" && source.provider == "yaesu_cat" &&
    source.transport == some "serial"

def mainReceiver : Token := ⟨"main", by decide⟩

def subReceiver : Token := ⟨"sub", by decide⟩

/-- The path under the name of its receiver; a frequency or mode without a slot is that of the
active one.  Neither constructor refuses what it is given here. -/
def underReceiver (receiverId : Token) (path : FieldPath) : FieldPath :=
  let built :=
    if path.family = .freqMode ∧ path.slot = none then
      FieldPath.active receiverId path.family path.name
    else FieldPath.receiver receiverId path.family path.name
  built.toOption.getD path

/-- `observable_field_path`, also `_yaesu_receiver_alias`. -/
def observableFieldPath (path : FieldPath) : FieldPath :=
  if path.scope ≠ .receiver then path
  else match path.receiverId.map Token.text with
    | some "0" => underReceiver mainReceiver path
    | some "1" => underReceiver subReceiver path
    | _ => path

/-- `_external_rigctld_main_alias`. -/
def externalRigctldMainAlias (path : FieldPath) : FieldPath :=
  if path.scope ≠ .receiver ∨ path.receiverId.map Token.text ≠ some "0" then path
  else underReceiver mainReceiver path

/-- `_paths_reconcile`. -/
def pathsReconcile (o : CorrelatedObservation V) (overlayPath : FieldPath) : Bool :=
  if o.path = overlayPath then true
  else if isYaesuCatReadback o.source then
    observableFieldPath o.path == observableFieldPath overlayPath
  else if !isExternalRigctldReadback o.source then false
  else externalRigctldMainAlias o.path == externalRigctldMainAlias overlayPath

/-- `_observation_reconciles_overlay`. -/
def observationReconcilesOverlay (o : CorrelatedObservation V)
    (overlay : PendingOverlay V) : Bool :=
  (o.source.commandSource == none || o.source.commandSource == some overlay.key.source) &&
    o.source.sessionId == overlay.key.sessionId &&
    o.correlationId == some overlay.key.commandId &&
    pathsReconcile o overlay.path &&
    (overlay.matchesAnyValue || eq overlay.value o.value)

/-- `_observation_matches_readback_scope`. -/
def observationMatchesReadbackScope (o : CorrelatedObservation V) (overlay : PendingOverlay V) :
    Bool :=
  o.source.commandSource == some overlay.key.source &&
    o.source.sessionId == overlay.key.sessionId &&
    o.correlationId == some overlay.key.commandId &&
    pathsReconcile o overlay.path

/-- `_path_uses_normalized_level_value`. -/
def pathUsesNormalizedLevelValue (path : FieldPath) : Bool :=
  if path.family ≠ .operatorControls then false
  else if path.scope = .receiver then
    path.name.text == "af_level" || path.name.text == "rf_gain" || path.name.text == "squelch"
  else path.scope == .global && path.name.text == "power_level"

/-- `_normalized_observation_value_for_expectation`; `none` is `_UNSET`. -/
def normalizedObservationValueForExpectation (o : CorrelatedObservation V)
    (expectation : PendingOverlay V) : Option V :=
  if !pathUsesNormalizedLevelValue expectation.path then none
  else if !isNormalizedLevelValue expectation.value then none
  else if eq o.value expectation.value then some o.value
  else
    let normalized := normalizeObservedLevelValue o.value
    if eq normalized expectation.value then some normalized else none

end Matching

/-! ## The service -/

/-- `_MAX_ACTIVE_COMMANDS`. -/
def maxActiveCommands : Nat := 128

/-- `_MAX_READBACK_EXPECTATIONS`. -/
def maxReadbackExpectations : Nat := 128

/-- `_READBACK_EXPECTATION_GRACE_SECONDS`. -/
def readbackExpectationGraceSeconds : Time := 2

structure Service (V : Type) where
  store : Store V
  defaultPendingTtl : Time := 2
  active : Dict CommandKey CommandLifecycleEvent := .empty
  events : List CommandLifecycleEvent := []
  overlays : List (PendingOverlay V) := []
  readbackExpectations : List (PendingOverlay V) := []
  defaultPendingTtl_nonneg : 0 ≤ defaultPendingTtl

namespace Service

variable {V : Type}

/-! ### Tables -/

/-- `_purge_expired`. -/
def purgeExpired (s : Service V) (now : Time) : Service V :=
  let overlays := s.overlays.filter fun overlay => !overlay.isExpired now
  let expectations := s.readbackExpectations.filter fun overlay => !overlay.isExpired now
  let retained := (overlays ++ expectations).map PendingOverlay.key
  { s with
    overlays := overlays
    readbackExpectations := expectations
    active := s.active.filter fun key event =>
      !(decide (event.state = .acknowledged) && decide (key ∉ retained)) }

/-- What `_last_event` looks for: an absent source or session id is any. -/
def Selects (commandId : String) (source : Option String) (sessionId : Option (Option String))
    (key : CommandKey) : Bool :=
  key.commandId == commandId && (source == none || source == some key.source) &&
    (sessionId == none || sessionId == some key.sessionId)

/-- `_last_event`. -/
def lastEvent (s : Service V) (commandId : String) (source : Option String)
    (sessionId : Option (Option String)) : Option CommandLifecycleEvent :=
  s.events.reverse.find? fun event => Selects commandId source sessionId event.key

/-- `expire_command`. -/
def expireCommand (s : Service V) (commandId : String) (source : Option String)
    (sessionId : Option (Option String)) : Service V :=
  { s with
    overlays := s.overlays.filter fun item => !Selects commandId source sessionId item.key
    readbackExpectations := s.readbackExpectations.filter fun item =>
      !Selects commandId source sessionId item.key }

/-- The overlays without those that another one replaces. -/
def withoutOverlay (overlays : List (PendingOverlay V)) (overlay : PendingOverlay V) :
    List (PendingOverlay V) :=
  overlays.filter fun item => !(decide (item.key = overlay.key) && decide
    (item.path = overlay.path))

/-- `record_pending_overlay`. -/
def recordPendingOverlay (s : Service V) (now : Time) (overlay : PendingOverlay V) : Service V :=
  let s := s.purgeExpired now
  let overlays := withoutOverlay s.overlays overlay
  { s with overlays := if overlay.isExpired now then overlays else overlays ++ [overlay] }

/-- `_record_readback_expectation`: the oldest ones go where there are too many. -/
def recordReadbackExpectation (s : Service V) (now : Time) (overlay : PendingOverlay V) :
    Service V :=
  let s := s.purgeExpired now
  let expectations := withoutOverlay s.readbackExpectations overlay ++ [overlay]
  { s with
    readbackExpectations := expectations.drop (expectations.length - maxReadbackExpectations) }

/-- `_remove_readback_expectation`. -/
def removeReadbackExpectation (s : Service V) (overlay : PendingOverlay V) : Service V :=
  { s with readbackExpectations := withoutOverlay s.readbackExpectations overlay }

/-! ### Lifecycle events -/

/-- The next event. -/
def newEvent (s : Service V) (now : Time) (key : CommandKey) (target : Option FieldPath)
    (state : CommandLifecycleState) (message : Option String) : CommandLifecycleEvent where
  number := s.events.length
  key := key
  state := state
  timestamp := now
  target := target
  message := message

/-- `emit_lifecycle` of a state that is not dispatchable. -/
def emitEnd (s : Service V) (now : Time) (key : CommandKey) (target : Option FieldPath)
    (state : CommandLifecycleState) (message : Option String) : Service V :=
  let s := s.purgeExpired now
  { s with
    active := s.active.erase key
    events := s.events ++ [s.newEvent now key target state message] }

/-- `fail_command`. -/
def failCommand (s : Service V) (now : Time) (commandId : String) (source : Option String)
    (sessionId : Option (Option String)) (timedOut : Bool) (message : Option String) : Service V :=
  match s.lastEvent commandId source sessionId with
  | none => s
  | some template =>
      if !template.state.dispatchable then s
      else
        let key : CommandKey :=
          ⟨source.getD template.key.source, sessionId.getD template.key.sessionId, commandId⟩
        (s.expireCommand commandId (some key.source) (some key.sessionId)).emitEnd now key
          template.target (if timedOut then .timedOut else .failed) message

/-- `fail_command` with every part of the key given. -/
def failKey (s : Service V) (now : Time) (key : CommandKey) (message : Option String) : Service V :=
  s.failCommand now key.commandId (some key.source) (some key.sessionId) false message

/-- The `while` loop of `emit_lifecycle`: an acknowledged command makes room without a word, and
otherwise the oldest one fails. -/
def makeRoom (now : Time) (key : CommandKey) : Nat → Service V → Service V
  | 0, s => s
  | fuel + 1, s =>
      if key ∈ s.active.keys ∨ s.active.items.length < maxActiveCommands then s
      else
        match s.active.items.find? fun item => item.2.state = .acknowledged with
        | some (oldest, _) => makeRoom now key fuel { s with active := s.active.erase oldest }
        | none =>
            match s.active.items with
            | [] => s
            | (oldest, _) :: _ =>
                makeRoom now key fuel
                  ({ s with active := s.active.erase oldest }.failKey now oldest
                    (some "active command capacity exceeded"))

/-- `emit_lifecycle`, with the event it returns.  Each turn of the loop takes a command away, so
that there are no more turns than commands. -/
def emitLifecycle (s : Service V) (now : Time) (key : CommandKey) (target : Option FieldPath)
    (state : CommandLifecycleState) (message : Option String) :
    CommandLifecycleEvent × Service V :=
  if state.dispatchable then
    let s := s.purgeExpired now
    let s := makeRoom now key s.active.items.length s
    let event := s.newEvent now key target state message
    let s := { s with active := s.active.set key event }
    let s := if state = .acknowledged then s.purgeExpired now else s
    (event, { s with events := s.events ++ [event] })
  else
    ((s.purgeExpired now).newEvent now key target state message,
      s.emitEnd now key target state message)

/-- The loop of `terminate_active_commands` over the commands it has taken out. -/
def failEach (now : Time) (reason : String) : List CommandKey → Service V → Service V
  | [], s => s
  | key :: rest, s => failEach now reason rest (s.failKey now key (some reason))

/-- The commands that `terminate_active_commands` ends. -/
def terminated (s : Service V) (source : Option String) (sessionId : Option (Option String)) :
    List CommandKey :=
  s.active.keys.filter fun key =>
    (source == none || source == some key.source) &&
      (sessionId == none || sessionId == some key.sessionId)

/-- `terminate_active_commands`. -/
def terminateActiveCommands (s : Service V) (now : Time) (reason : String) (source : Option String)
    (sessionId : Option (Option String)) : Service V :=
  let keys := s.terminated source sessionId
  failEach now reason keys { s with active := s.active.filter fun key _ => decide (key ∉ keys) }

/-! ### Readback expectations -/

/-- `retain_readback_expectations_for_dispatch`. -/
def retainReadbackExpectationsForDispatch (s : Service V) (now : Time) (key : CommandKey) :
    Option (List (PendingOverlay V)) × Service V :=
  match s.lastEvent key.commandId (some key.source) (some key.sessionId) with
  | none => (none, s)
  | some event =>
      if !event.state.dispatchable then (none, s)
      else
        let s := s.purgeExpired now
        let retained := (s.readbackExpectations.filter fun item => decide (item.key = key)).map
          fun item => { item with expiresAt := now + readbackExpectationGraceSeconds }
        (some retained,
          { s with readbackExpectations :=
              (s.readbackExpectations.filter fun item => decide (item.key ≠ key)) ++ retained })

/-- `discard_readback_expectations`; without a path, those of every path. -/
def discardReadbackExpectations (s : Service V) (key : CommandKey) (path : Option FieldPath) :
    Service V :=
  { s with readbackExpectations := s.readbackExpectations.filter fun item =>
      !(decide (item.key = key) && (path == none || path == some item.path)) }

/-- `pending_overlays` of a source and session, after the purge. -/
def pendingOverlays (s : Service V) (source : String) (sessionId : Option String) :
    List (PendingOverlay V) :=
  s.overlays.filter fun item => item.key.source == source && item.key.sessionId == sessionId

/-- The loop of `project_pending_values`. -/
def projectEach (wanted : List FieldPath) :
    List (PendingOverlay V) → Dict FieldPath V → Dict FieldPath V
  | [], projected => projected
  | overlay :: rest, projected =>
      projectEach wanted rest
        (if overlay.path ∈ wanted then projected.set overlay.path overlay.value else projected)

/-- `project_pending_values`. -/
def projectPendingValues (s : Service V) (now : Time) (source : String) (sessionId : Option String)
    (paths : List FieldPath) : Dict FieldPath V :=
  projectEach paths ((s.purgeExpired now).pendingOverlays source sessionId) .empty

/-! ### Observations -/

variable [CommandValue V]

/-- The loop of `_record_intent_overlay`. -/
def recordPaths (intent : CommandIntent V) (now timeout : Time) :
    List FieldPath → Service V → Service V
  | [], s => s
  | path :: rest, s =>
      recordPaths intent now timeout rest <|
        match expectedValueForPath intent path with
        | none =>
            if intent.name = "reset_filter_width" then
              s.recordReadbackExpectation now {
                key := intent.key
                path := path
                value := pyNone
                expiresAt := now + timeout + readbackExpectationGraceSeconds
                matchesAnyValue := true }
            else s
        | some value =>
            (s.recordPendingOverlay now {
              key := intent.key
              path := path
              value := value
              expiresAt := now + timeout }).recordReadbackExpectation now {
                key := intent.key
                path := path
                value := value
                expiresAt := now + timeout + readbackExpectationGraceSeconds }

/-- `_record_intent_overlay`. -/
def recordIntentOverlay (s : Service V) (now : Time) (intent : CommandIntent V) : Service V :=
  if intent.pendingPolicy ≠ .scoped then s
  else
    recordPaths intent now (intent.timeout.getD s.defaultPendingTtl)
      (observablePathsForIntent intent) s

/-- `_normalize_correlated_readback_observation`. -/
def normalizeCorrelatedReadback (s : Service V) (now : Time) (o : CorrelatedObservation V) :
    CorrelatedObservation V × Service V :=
  if o.correlationId = none ∨ o.source.commandSource = none then (o, s)
  else
    let s := s.purgeExpired now
    let normalized := s.readbackExpectations.findSome? fun expectation =>
      if observationMatchesReadbackScope o expectation then
        normalizedObservationValueForExpectation o expectation
      else none
    match normalized with
    | some value => ({ o with value := value }, s)
    | none => (o, s)

/-- The event of a confirmed overlay. -/
def emitReconciled (s : Service V) (now : Time) (overlay : PendingOverlay V) : Service V :=
  (s.removeReadbackExpectation overlay).emitEnd now overlay.key (some overlay.path) .reconciled
    (some "confirmed by matching observation")

/-- The loop of `_reconcile_observation` over the overlays that it has taken out. -/
def reconcileEach (now : Time) : List (PendingOverlay V) → Service V → Service V
  | [], s => s
  | overlay :: rest, s => reconcileEach now rest (s.emitReconciled now overlay)

/-- `_reconcile_readback_expectation`: the expectation that is confirmed. -/
def confirmedExpectation (s : Service V) (o : CorrelatedObservation V) :
    Option (PendingOverlay V) :=
  if o.correlationId = none ∨
      !(isExternalRigctldReadback o.source || isYaesuCatReadback o.source) ∨
      o.source.commandSource = none then none
  else
    match s.readbackExpectations.find? (observationReconcilesOverlay o) with
    | none => none
    | some expectation =>
        match s.lastEvent expectation.key.commandId (some expectation.key.source)
            (some expectation.key.sessionId) with
        | none => none
        | some template => if template.state.dispatchable then some expectation else none

/-- `_reconcile_observation`. -/
def reconcileObservation (s : Service V) (now : Time) (o : CorrelatedObservation V) : Service V :=
  let s := s.purgeExpired now
  let reconciled := s.overlays.filter (observationReconcilesOverlay o)
  let s := { s with overlays := s.overlays.filter fun item => !observationReconcilesOverlay o item }
  if reconciled ≠ [] then reconcileEach now reconciled s
  else
    match s.confirmedExpectation o with
    | none => s
    | some expectation => s.emitReconciled now expectation

variable [DecidableEq V]

/-- `apply_observation`. -/
def applyObservation (s : Service V) (now : Time) (o : CorrelatedObservation V) :
    Except String (ChangeSet V) × Service V :=
  let (o, s) := s.normalizeCorrelatedReadback now o
  match s.store.apply o.toObservation with
  | (.error text, store) => (.error text, { s with store := store })
  | (.ok changeset, store) =>
      let s := { s with store := store }
      (.ok changeset,
        if changeset.observedPaths ≠ [] ∧ o.providerGeneration = some store.providerGeneration then
          s.reconcileObservation now o
        else s)

/-! ### Executing a command -/

end Service

/-- An `execute` that awaits its executor. -/
structure Execution (V : Type) where
  intent : CommandIntent V
  /-- The length of the history when it began. -/
  start : Nat
  sentEvent : CommandLifecycleEvent
  providerGeneration : Nat

/-- How an executor ends. -/
inductive ExecutorEnd (V : Type) where
  | returned (observations : List (CorrelatedObservation V))
  | cancelled
  | timedOut (text : String)
  | raised (text : String)

structure CommandServiceResult (V : Type) where
  lifecycleEvents : List CommandLifecycleEvent
  observationChanges : List (ChangeSet V)

/-- How an `execute` ends. -/
inductive Outcome (V : Type) where
  | returned (result : CommandServiceResult V)
  /-- `CommandExecutionInvalidatedError`. -/
  | invalidated (message : String)
  /-- `CancelledError`. -/
  | cancelled
  /-- Another exception, of the executor or of the state store. -/
  | raised (text : String)

/-- The text of a `CommandExecutionInvalidatedError`. -/
def Outcome.invalidation {V : Type} : Outcome V → Option String
  | .invalidated message => some message
  | _ => none

namespace Service

variable {V : Type} [CommandValue V]

/-- `str(exc) or None`. -/
def messageOf (text : String) : Option String := if text = "" then none else some text

/-- `execute`, up to the await of the executor. -/
def beginExecute (s : Service V) (now : Time) (intent : CommandIntent V) :
    Execution V × Service V :=
  let start := s.events.length
  let s := (s.emitLifecycle now intent.key intent.target .accepted none).2
  let s := s.recordIntentOverlay now intent
  let s := (s.emitLifecycle now intent.key intent.target .queued none).2
  let (sentEvent, s) := s.emitLifecycle now intent.key intent.target .sent none
  (⟨intent, start, sentEvent, s.store.providerGeneration⟩, s)

/-- An `except` branch of `execute`. -/
def failExecution (s : Service V) (now : Time) (execution : Execution V)
    (state : CommandLifecycleState) (message : Option String) : Service V :=
  let key := execution.intent.key
  if s.active.get? key = some execution.sentEvent then
    (s.expireCommand key.commandId (some key.source) (some key.sessionId)).emitEnd now key
      execution.intent.target state message
  else s

/-- The message of an invalidated command. -/
def invalidatedMessage (s : Service V) (execution : Execution V) : String :=
  if s.store.providerGeneration ≠ execution.providerGeneration then
    "command invalidated during provider generation change"
  else "command invalidated during execution"

variable [DecidableEq V]

/-- The loop of `execute` over the observations that its executor returned. -/
def applyReturned (now : Time) (generation : Nat) :
    List (CorrelatedObservation V) → Service V → Except String (List (ChangeSet V)) × Service V
  | [], s => (.ok [], s)
  | o :: rest, s =>
      match s.applyObservation now (o.bound generation) with
      | (.error text, s) => (.error text, s)
      | (.ok changeset, s) =>
          let (changesets, s) := applyReturned now generation rest s
          (changesets.map (changeset :: ·), s)

/-- `execute`, from the end of its executor on. -/
def finishExecute (s : Service V) (now : Time) (execution : Execution V) :
    ExecutorEnd V → Outcome V × Service V
  | .cancelled => (.cancelled, s.failExecution now execution .failed (some "command cancelled"))
  | .timedOut text => (.raised text, s.failExecution now execution .timedOut (messageOf text))
  | .raised text => (.raised text, s.failExecution now execution .failed (messageOf text))
  | .returned observations =>
      let key := execution.intent.key
      if s.active.get? key ≠ some execution.sentEvent then
        let message := s.invalidatedMessage execution
        (.invalidated message, s.failKey now key (some message))
      else
        let s := (s.emitLifecycle now key execution.intent.target .acknowledged none).2
        match applyReturned now execution.providerGeneration observations s with
        | (.error text, s) => (.raised text, s)
        | (.ok changes, s) => (.returned ⟨s.events.drop execution.start, changes⟩, s)

end Service

/-! ## Runs -/

/-- A call of a public method, or the end of an executor that an `execute` awaits. -/
inductive Action (V : Type) where
  | execute (now : Time) (intent : CommandIntent V)
  | finish (now : Time) (execution : Nat) (result : ExecutorEnd V)
  | applyObservation (now : Time) (o : CorrelatedObservation V)
  | failCommand (now : Time) (commandId : String) (source : Option String)
      (sessionId : Option (Option String)) (timedOut : Bool) (message : Option String)
  | terminateActiveCommands (now : Time) (reason : String) (source : Option String)
      (sessionId : Option (Option String))
  | emitLifecycle (now : Time) (key : CommandKey) (target : Option FieldPath)
      (state : CommandLifecycleState) (message : Option String)
  | recordPendingOverlay (now : Time) (overlay : PendingOverlay V)
  | retainReadbackExpectations (now : Time) (key : CommandKey)
  | discardReadbackExpectations (key : CommandKey) (path : Option FieldPath)
  | expireCommand (commandId : String) (source : Option String)
      (sessionId : Option (Option String))
  /-- A call of `pending_overlays`, `readback_expectations` or `project_pending_values`. -/
  | read (now : Time)
  /-- A call of the state store by another party. -/
  | store (op : StateStore.Op V)

/-- A service with the calls of `execute` that were made. -/
structure System (V : Type) where
  service : Service V
  started : Nat := 0
  awaiting : Dict Nat (Execution V) := .empty
  outcomes : Dict Nat (Outcome V) := .empty

namespace System

variable {V : Type} [CommandValue V] [DecidableEq V]

/-- A call that touches the service alone. -/
def onService (s : System V) (f : Service V → Service V) : System V :=
  { s with service := f s.service }

def step (s : System V) : Action V → Option (System V)
  | .execute now intent =>
      let (execution, service) := s.service.beginExecute now intent
      some { s with
        service := service
        started := s.started + 1
        awaiting := s.awaiting.set s.started execution }
  | .finish now number result =>
      (s.awaiting.get? number).map fun execution =>
        let (outcome, service) := s.service.finishExecute now execution result
        { s with
          service := service
          awaiting := s.awaiting.erase number
          outcomes := s.outcomes.set number outcome }
  | .applyObservation now o => some (s.onService fun service => (service.applyObservation now o).2)
  | .failCommand now commandId source sessionId timedOut message =>
      some (s.onService fun service =>
        service.failCommand now commandId source sessionId timedOut message)
  | .terminateActiveCommands now reason source sessionId =>
      some (s.onService fun service =>
        service.terminateActiveCommands now reason source sessionId)
  | .emitLifecycle now key target state message =>
      some (s.onService fun service => (service.emitLifecycle now key target state message).2)
  | .recordPendingOverlay now overlay =>
      some (s.onService fun service => service.recordPendingOverlay now overlay)
  | .retainReadbackExpectations now key =>
      some (s.onService fun service => (service.retainReadbackExpectationsForDispatch now key).2)
  | .discardReadbackExpectations key path =>
      some (s.onService fun service => service.discardReadbackExpectations key path)
  | .expireCommand commandId source sessionId =>
      some (s.onService fun service => service.expireCommand commandId source sessionId)
  | .read now => some (s.onService fun service => service.purgeExpired now)
  | .store op =>
      some (s.onService fun service => { service with store := StateStore.step service.store op })

/-- A new service over a state store. -/
def init (store : Store V) (ttl : Time) (h : 0 ≤ ttl) : System V where
  service := { store := store, defaultPendingTtl := ttl, defaultPendingTtl_nonneg := h }

end System

end Rigplane.CommandService
