import Mathlib.Data.Prod.Lex
import Rigplane.Lib.Dict
import Rigplane.Lib.Runs
import Rigplane.ManagedTx.State

/-!
# The effect lane

`runtime/managed_tx_effect_lane.py` runs the effects of the authority through the
provider.  A claim for an effect gets a driver task, the driver starts provider calls, and
an ON that is displaced or runs out of time leaves an isolation task behind, which waits
for its provider call and may first poison the provider generation.  A release waits for
the isolation tasks before it settles.

The lane's lock is never held across an await, so every section under it is atomic, and so
is everything between two suspensions of a task.  `step` is one such piece: a claim is
made, a driver goes on from where it was suspended, a provider call ends, an isolation task
goes on, a waiter is cancelled.  Cancelling a provider call is a request that it may
ignore, so a call ends at any time after its start or never.  The lane's clock and the
event loop's timer are two clocks: readings of the first come with an action, and a wait
may run out of time at any moment.  The callback `is_current` belongs to the caller, and
its answer comes with the action too; a claim without one answers `true`.

Claims, provider calls and isolation tasks are numbered as they are made.  `madeAt`,
`startedAt` and `finishedAt` are moments of the run, and no operation reads them.
-/

namespace Rigplane.ManagedTx

/-! ## Operations and slots -/

/-- `_Operation`. -/
inductive LaneOperation where
  | actuation (operation : ActuationOperation)
  | abort (operation : AbortOperation)
deriving DecidableEq, Repr

namespace LaneOperation

/-- The operation is in `_ON_OPERATIONS`. -/
def IsOn (operation : LaneOperation) : Prop :=
  operation = .actuation .pttOn ∨ operation = .actuation .transmitOn

instance : DecidablePred IsOn :=
  fun operation => inferInstanceAs (Decidable (operation = .actuation .pttOn ∨ _))

abbrev forceReceive : LaneOperation := .actuation .forceReceive

end LaneOperation

/-- `_Slot`. -/
inductive Slot where
  | on
  | forceReceive
  | abort (operation : AbortOperation)
deriving DecidableEq, Repr

/-- `_slot`. -/
def slot : LaneOperation → Slot
  | .actuation .pttOn => .on
  | .actuation .transmitOn => .on
  | .actuation .forceReceive => .forceReceive
  | .abort operation => .abort operation

/-- `_ClaimKey`. -/
abbrev ClaimKey := EffectToken × LaneOperation

/-- A provider generation and an epoch, compared as the tuples of the source are. -/
abbrev Scope := Int ×ₗ Int

def EffectToken.scope (token : EffectToken) : Scope :=
  toLex (token.providerGeneration, token.effectEpoch)

/-! ## Claims, provider calls and isolation tasks -/

abbrev ClaimId := Nat

abbrev CallId := Nat

abbrev TaskId := Nat

/-- `_Outcome`. -/
structure Outcome where
  result : ActuationResult
  error : Option String
  timedOut : Bool := false
deriving DecidableEq, Repr

/-- Where a driver is suspended. -/
inductive Driver where
  /-- The task has not run yet. -/
  | created
  /-- An ON waits for the ON lane. -/
  | queued
  /-- The first provider call, and whether it will be repeated. -/
  | calling (again : Bool)
  /-- The release waits for its isolation tasks. -/
  | isolating (again : Bool) (outcome : Outcome)
  /-- The repeated provider call, and the error of the isolation. -/
  | repeating (error : Option String)
  /-- A timed-out ON waits for its isolation task. -/
  | finishing (outcome : Outcome)
  /-- The task is cancelled and has not noticed. -/
  | cancelled
  | ended
deriving DecidableEq, Repr

/-- `_Claim`. -/
structure Claim where
  token : EffectToken
  operation : LaneOperation
  deadline : Time
  result : Option Outcome := none
  started : Bool := false
  poisoned : Bool := false
  isolation : List TaskId := []
  /-- The last provider call of the claim. -/
  provider : Option CallId := none
  driver : Driver := .created
  madeAt : Nat
deriving DecidableEq

def Claim.key (c : Claim) : ClaimKey := (c.token, c.operation)

/-- How a provider call ended: with a result, or with an error's text. -/
inductive CallEnd where
  | returned (result : ActuationResult)
  | raised (error : String)
deriving DecidableEq, Repr

/-- The outcome of a call that ended in time. -/
def CallEnd.outcome : CallEnd → Outcome
  | .returned result => ⟨result, if result = .accepted then none else some result.value, false⟩
  | .raised error => ⟨.uncertain, some error, false⟩

/-- A task that runs `actuator.actuate`. -/
structure ProviderCall where
  claim : ClaimId
  operation : LaneOperation
  generation : Int
  startedAt : Nat
  /-- How the call ended, and when. -/
  finished : Option (CallEnd × Nat) := none
deriving DecidableEq

/-- Where an isolation task is. -/
inductive IsolationState where
  /-- `poison_generation` has not returned. -/
  | poisoning
  /-- The task waits for its provider call and its predecessor. -/
  | waiting
  | done
  /-- `poison_generation` raised. -/
  | failed (error : String)
deriving DecidableEq, Repr

/-- A task that runs `_isolate_provider`. -/
structure Isolation where
  claim : ClaimId
  generation : Int
  previous : Option TaskId
  poison : Bool
  state : IsolationState
deriving DecidableEq

namespace Isolation

/-- `task.done()`. -/
def Done (t : Isolation) : Prop := t.state ≠ .poisoning ∧ t.state ≠ .waiting

instance : DecidablePred Done := fun t => inferInstanceAs (Decidable (t.state ≠ .poisoning ∧ _))

/-- The text of the exception the task ended with. -/
def error (t : Isolation) : Option String :=
  match t.state with
  | .failed error => some error
  | _ => none

end Isolation

/-- `_isolation`: the newest isolation task, its generation, and whether it poisons. -/
structure IsolationSlot where
  generation : Int
  task : TaskId
  poison : Bool
deriving DecidableEq

structure Lane where
  /-- A `poison_generation` was given. -/
  poisons : Bool
  /-- `_claims`. -/
  claims : Dict ClaimKey ClaimId := .empty
  slots : Dict Slot ClaimKey := .empty
  scope : Scope := toLex (-1, -1)
  latestOnEpoch : Int := 0
  releaseToken : Option EffectToken := none
  isolation : Option IsolationSlot := none
  displaced : Dict TaskId ClaimId := .empty
  /-- The holder of `_on_lane`. -/
  onLane : Option ClaimId := none
  /-- Every claim, provider call and isolation task ever made. -/
  made : List Claim := []
  calls : List ProviderCall := []
  tasks : List Isolation := []
  /-- The generations whose `poison_generation` call has returned. -/
  poisoned : List Int := []
  moment : Nat := 0

namespace Lane

/-! ## Isolation -/

def modifyClaim (s : Lane) (id : ClaimId) (f : Claim → Claim) : Lane :=
  { s with made := s.made.modify id f }

/-- `provider.done()`, for the provider call of a claim. -/
def CallDone (s : Lane) (call : CallId) : Prop :=
  ∃ p ∈ s.calls[call]?, p.finished.isSome

instance (s : Lane) (call : CallId) : Decidable (s.CallDone call) :=
  inferInstanceAs (Decidable (∃ p ∈ s.calls[call]?, p.finished.isSome))

def TaskDone (s : Lane) (task : TaskId) : Prop := ∃ t ∈ s.tasks[task]?, t.Done

instance (s : Lane) (task : TaskId) : Decidable (s.TaskDone task) :=
  inferInstanceAs (Decidable (∃ t ∈ s.tasks[task]?, t.Done))

/-- The claim and the displaced claims of its generation are marked. -/
def markPoisoned (s : Lane) (id : ClaimId) (generation : Int) : Lane :=
  { s with made := s.made.mapIdx fun i c =>
      if i = id ∨ (i ∈ s.displaced.values ∧ c.token.providerGeneration = generation) then
        { c with poisoned := true }
      else c }

/-- A new isolation task, behind the newest one. -/
def startIsolation (s : Lane) (id : ClaimId) (generation : Int) (poison : Bool) :
    TaskId × Lane :=
  let task := s.tasks.length
  (task, { s with
    tasks := s.tasks ++ [{
      claim := id
      generation := generation
      previous := s.isolation.map IsolationSlot.task
      poison := poison
      state := if poison && s.poisons then .poisoning else .waiting }]
    displaced := if poison then s.displaced else s.displaced.set task id
    isolation := some ⟨generation, task, poison⟩ })

/-- `_isolate_locked`, for a claim of the generation. -/
def isolateLocked (s : Lane) (id : ClaimId) (generation : Int) (poison : Bool) :
    TaskId × Lane :=
  let s := if poison then s.markPoisoned id generation else s
  match s.isolation with
  | some newest =>
      if poison ∧ s.poisons ∧ newest.poison ∧ newest.generation = generation then
        (newest.task, s)
      else s.startIsolation id generation poison
  | none => s.startIsolation id generation poison

/-- A claim leaves `_claims` and settles, and its driver is cancelled. -/
def takeOut (s : Lane) (id : ClaimId) (c : Claim) (outcome : Outcome) : Lane :=
  modifyClaim { s with claims := s.claims.erase c.key } id fun c =>
    { c with driver := .cancelled, result := some outcome }

def displacedOutcome (c : Claim) (before after : String) : Outcome :=
  if c.started then ⟨.uncertain, some after, false⟩ else ⟨.rejected, some before, false⟩

/-- `_displace_locked`. -/
def displaceLocked (s : Lane) (id : ClaimId) (before after : String) : Option TaskId × Lane :=
  match s.made[id]? with
  | none => (none, s)
  | some c =>
      if c.result.isSome then (none, s)
      else
        let s := s.takeOut id c (displacedOutcome c before after)
        if c.started ∧ c.operation.IsOn then
          let (task, s) := s.isolateLocked id c.token.providerGeneration false
          (some task, s)
        else (none, s)

/-- A loop that displaces claims, with the barriers it gets. -/
def displaceEach : List ClaimId → Lane → List TaskId × Lane
  | [], s => ([], s)
  | id :: rest, s =>
      let (barrier, s) := s.displaceLocked id "superseded before dispatch"
        "superseded after dispatch"
      let (barriers, s) := displaceEach rest s
      (barrier.toList ++ barriers, s)

/-! ## Claims -/

/-- The claims in `_claims` that a test picks out. -/
def active (s : Lane) (test : Claim → Bool) : List ClaimId :=
  s.claims.values.filter fun id => (s.made[id]?).any test

/-- `_bind_family_locked`. -/
def bindFamilyLocked (s : Lane) (token : EffectToken) (operation : LaneOperation) : Bool × Lane :=
  if operation.IsOn then (s.releaseToken.isNone, s)
  else if operation = .forceReceive ∧
      (s.slots.get? .on).any (fun primary => primary.1 = token) then (false, s)
  else
    match s.releaseToken with
    | some bound => (bound = token, s)
    | none =>
        if (s.slots.get? .on).isSome ∧ operation ≠ .forceReceive then (false, s)
        else (true, { s with releaseToken := some token })

/-- A higher scope empties the slots and displaces what is not a release. -/
def raiseScope (s : Lane) (scope : Scope) : Lane :=
  if scope ≤ s.scope then s
  else
    let s := { s with scope := scope, slots := .empty, releaseToken := none }
    (displaceEach (s.active fun c => c.token.scope < scope ∧ c.operation ≠ .forceReceive) s).2

/-- The slot of an operation is taken, unless the release is a stale one. -/
def takeSlot (s : Lane) (token : EffectToken) (operation : LaneOperation) (stale : Bool) :
    Bool × Lane :=
  if stale then (true, s)
  else if (s.slots.get? (slot operation)).isSome then (false, s)
  else
    let (bound, s) := s.bindFamilyLocked token operation
    if bound then (true, { s with slots := s.slots.set (slot operation) (token, operation) })
    else (false, s)

/-- The claim itself. -/
def addClaim (s : Lane) (token : EffectToken) (operation : LaneOperation) (deadline : Time) :
    Lane :=
  { s with
    latestOnEpoch := if operation.IsOn then max s.latestOnEpoch token.effectEpoch
      else s.latestOnEpoch
    claims := s.claims.set (token, operation) s.made.length
    made := s.made ++ [{
      token := token, operation := operation, deadline := deadline, madeAt := s.moment }] }

/-- A release displaces every ON and takes every isolation task that is left. -/
def bindIsolation (s : Lane) (id : ClaimId) : Lane :=
  let ons := s.active fun c => c.operation.IsOn
  let isolation := s.displaced.keys
  let (barriers, s) := displaceEach ons s
  let isolation := isolation ++ barriers
  let isolation := match s.isolation with
    | some newest => if newest.task ∈ isolation then isolation else isolation ++ [newest.task]
    | none => isolation
  s.modifyClaim id fun c => { c with isolation := isolation }

/-- `_claim`: the claim's number, or `none` where it is refused. -/
def claim (s : Lane) (token : EffectToken) (operation : LaneOperation) (deadline : Time)
    (current : Bool) : Option ClaimId × Lane :=
  if ¬ current then (none, s)
  else if operation = .forceReceive ∧ token.effectEpoch < s.latestOnEpoch then (none, s)
  else
    let stale : Bool := token.scope < s.scope ∧ operation = .forceReceive
    if token.scope < s.scope ∧ ¬ stale then (none, s)
    else if (s.claims.get? (token, operation)).isSome then (none, s)
    else
      let s := s.raiseScope token.scope
      let (taken, s) := s.takeSlot token operation stale
      if ¬ taken then (none, s)
      else
        let id := s.made.length
        let s := s.addClaim token operation deadline
        (some id, if operation = .forceReceive then s.bindIsolation id else s)

/-! ## Drivers -/

/-- What a driver learns from outside as it goes on: two readings of the clock, and what
`is_current` answers. -/
structure Reading where
  now : Time
  later : Time
  current : Bool

/-- `_is_current`. -/
def IsCurrent (s : Lane) (id : ClaimId) (reading : Reading) : Prop :=
  ∃ c ∈ s.made[id]?,
    if c.operation = .forceReceive then
      s.latestOnEpoch ≤ c.token.effectEpoch ∧ reading.current
    else
      s.claims.get? c.key = some id ∧ c.result = none ∧ reading.later < c.deadline ∧
        reading.current

instance (s : Lane) (id : ClaimId) (reading : Reading) : Decidable (s.IsCurrent id reading) := by
  unfold IsCurrent
  infer_instance

/-- The ON lane is free again, if the claim held it. -/
def leaveOnLane (s : Lane) (id : ClaimId) : Lane :=
  { s with onLane := if s.onLane = some id then none else s.onLane }

def endDriver (s : Lane) (id : ClaimId) : Lane :=
  (s.leaveOnLane id).modifyClaim id fun c => { c with driver := .ended }

/-- The end of `_finish`: the result is set unless there is one, and the driver ends. -/
def setResult (s : Lane) (id : ClaimId) (outcome : Outcome) : Lane :=
  (s.leaveOnLane id).modifyClaim id fun c =>
    { c with result := c.result.or (some outcome), driver := .ended }

/-- `_finish`, up to its wait. -/
def finish (s : Lane) (id : ClaimId) (outcome : Outcome) (poison : Bool) : Lane :=
  match s.made[id]? with
  | none => s
  | some c =>
      if c.result.isSome then s.endDriver id
      else
        let s := { s with claims := s.claims.erase c.key }
        if poison then
          let (_, s) := s.isolateLocked id c.token.providerGeneration true
          s.modifyClaim id fun c => { c with driver := .finishing outcome }
        else s.setResult id outcome

/-- The provider call of a claim. -/
def callOf (s : Lane) (id : ClaimId) (c : Claim) : ProviderCall where
  claim := id
  operation := c.operation
  generation := c.token.providerGeneration
  startedAt := s.moment

/-- A claim whose call starts. -/
def Claim.calling (c : Claim) (call : CallId) (driver : Driver) : Claim :=
  { c with started := true, provider := some call, driver := driver }

/-- The first section of `_actuate`: the claim's call starts. -/
def startedCall (s : Lane) (id : ClaimId) (c : Claim) (driver : Driver) : Lane :=
  modifyClaim { s with calls := s.calls ++ [s.callOf id c] } id fun c =>
    Claim.calling c s.calls.length driver

def startCall (s : Lane) (id : ClaimId) (driver : Driver) : Lane :=
  match s.made[id]? with
  | none => s
  | some c => s.startedCall id c driver

def staleOutcome : Outcome := ⟨.rejected, some "stale before dispatch", false⟩

/-- What `_invoke` does once the repeated call is over. -/
def afterRepeat (s : Lane) (id : ClaimId) (error : Option String) (outcome : Outcome) : Lane :=
  match error with
  | none => s.finish id outcome false
  | some text => s.finish id ⟨.uncertain, some text, false⟩ false

/-- What `_invoke` does once the first call is over. -/
def afterCall (s : Lane) (id : ClaimId) (c : Claim) (again : Bool) (outcome : Outcome) : Lane :=
  if c.isolation.isEmpty then s.finish id outcome (c.operation.IsOn ∧ outcome.timedOut)
  else s.modifyClaim id fun c => { c with driver := .isolating again outcome }

/-- `_invoke`, up to its first suspension. -/
def invoke (s : Lane) (id : ClaimId) (c : Claim) (reading : Reading) : Lane :=
  if c.result.isSome then s.endDriver id
  else if c.deadline ≤ reading.now then
    s.finish id ⟨.rejected, some "deadline expired before dispatch", false⟩ false
  else
    let again : Bool := ∃ task ∈ c.isolation, ¬ s.TaskDone task
    if s.IsCurrent id reading then s.startCall id (.calling again)
    else s.afterCall id c again staleOutcome

/-- `_await_isolation`: what it returns when the wait is over. -/
def isolationError (s : Lane) (tasks : List TaskId) : Option String :=
  if ∃ task ∈ tasks, ¬ s.TaskDone task then some "isolation deadline expired"
  else tasks.findSome? fun task => (s.tasks[task]?).bind Isolation.error

/-- After an error the displaced calls still running get their generation poisoned. -/
def poisonEach : List TaskId → Lane → Lane
  | [], s => s
  | task :: rest, s =>
      match s.displaced.get? task with
      | none => poisonEach rest s
      | some id =>
          match s.made[id]? with
          | none => poisonEach rest s
          | some c =>
              if ¬ s.TaskDone task ∧ ¬ c.poisoned ∧ ∃ call ∈ c.provider, ¬ s.CallDone call then
                poisonEach rest (s.isolateLocked id c.token.providerGeneration true).2
              else poisonEach rest s

/-- `_invoke`, once the wait for the isolation tasks is over. -/
def afterIsolation (s : Lane) (id : ClaimId) (c : Claim) (again : Bool) (outcome : Outcome)
    (reading : Reading) : Lane :=
  let error := s.isolationError c.isolation
  let s := if error.isSome then poisonEach c.isolation s else s
  if again then
    if s.IsCurrent id reading then s.startCall id (.repeating error)
    else s.afterRepeat id error staleOutcome
  else s.afterRepeat id error outcome

def timeoutOutcome : Outcome := ⟨.uncertain, some "attempt deadline expired", true⟩

/-! ## Actions -/

inductive Action where
  | claim (token : EffectToken) (operation : LaneOperation) (deadline : Time) (current : Bool)
  /-- The driver runs for the first time. -/
  | driverStarts (id : ClaimId) (reading : Reading)
  /-- The driver gets the ON lane. -/
  | driverEnters (id : ClaimId) (reading : Reading)
  /-- The driver's wait for its provider call is over. -/
  | callReturns (id : ClaimId)
  | callTimesOut (id : ClaimId)
  /-- The driver's wait for isolation tasks is over. -/
  | isolationWaited (id : ClaimId) (reading : Reading)
  | finishWaited (id : ClaimId)
  /-- The driver notices that it is cancelled. -/
  | driverUnwinds (id : ClaimId)
  | cancelWaiter (id : ClaimId)
  | callEnds (call : CallId) (callEnd : CallEnd)
  | poisonReturns (task : TaskId)
  | poisonRaises (task : TaskId) (error : String)
  | isolationEnds (task : TaskId)
  /-- The callback that forgets a finished isolation task. -/
  | displacedPops (task : TaskId)

/-- The driver of a claim goes on with its provider call's outcome. -/
def callOver (s : Lane) (id : ClaimId) (c : Claim) (outcome : Outcome) : Option Lane :=
  match c.driver with
  | .calling again => some (s.afterCall id c again outcome)
  | .repeating error => some (s.afterRepeat id error outcome)
  | _ => none

/-- An isolation task goes on. -/
def setTask (s : Lane) (task : TaskId) (state : IsolationState) : Lane :=
  { s with tasks := s.tasks.modify task fun t => { t with state := state } }

/-- The provider call of the task's claim and the predecessor are done. -/
def Gathered (s : Lane) (t : Isolation) : Prop :=
  (∃ c ∈ s.made[t.claim]?, ∃ call ∈ c.provider, s.CallDone call) ∧
    ∀ previous ∈ t.previous, s.TaskDone previous

instance (s : Lane) (t : Isolation) : Decidable (s.Gathered t) :=
  inferInstanceAs (Decidable ((∃ c ∈ s.made[t.claim]?, ∃ call ∈ c.provider, s.CallDone call) ∧ _))

/-- One action, at the moment it takes place. -/
def act (s : Lane) : Action → Option Lane
  | .claim token operation deadline current => some (s.claim token operation deadline current).2
  | .driverStarts id reading =>
      match s.made[id]? with
      | some c =>
          if c.driver ≠ .created then none
          else if ¬ c.operation.IsOn then some (s.invoke id c reading)
          else if s.onLane = none then
            some (invoke { s with onLane := some id } id c reading)
          else some (s.modifyClaim id fun c => { c with driver := .queued })
      | none => none
  | .driverEnters id reading =>
      match s.made[id]? with
      | some c =>
          if c.driver = .queued ∧ s.onLane = none then
            some (invoke { s with onLane := some id } id c reading)
          else none
      | none => none
  | .callReturns id =>
      match s.made[id]? with
      | some c =>
          match (c.provider.bind (s.calls[·]?)).bind ProviderCall.finished with
          | some (callEnd, _) => s.callOver id c callEnd.outcome
          | none => none
      | none => none
  | .callTimesOut id =>
      match s.made[id]? with
      | some c =>
          if ∃ call ∈ c.provider, s.CallDone call then none
          else s.callOver id c timeoutOutcome
      | none => none
  | .isolationWaited id reading =>
      match s.made[id]? with
      | some c =>
          match c.driver with
          | .isolating again outcome => some (s.afterIsolation id c again outcome reading)
          | _ => none
      | none => none
  | .finishWaited id =>
      match s.made[id]? with
      | some c =>
          match c.driver with
          | .finishing outcome => some (s.setResult id outcome)
          | _ => none
      | none => none
  | .driverUnwinds id =>
      match s.made[id]? with
      | some c => if c.driver = .cancelled then some (s.endDriver id) else none
      | none => none
  | .cancelWaiter id =>
      some (s.displaceLocked id "attempt cancelled before dispatch"
        "attempt cancelled after dispatch").2
  | .callEnds call callEnd =>
      if s.CallDone call ∨ s.calls.length ≤ call then none
      else some { s with calls := s.calls.modify call fun p =>
        { p with finished := some (callEnd, s.moment) } }
  | .poisonReturns task =>
      match s.tasks[task]? with
      | some t =>
          if t.state = .poisoning then
            some { s.setTask task .waiting with poisoned := t.generation :: s.poisoned }
          else none
      | none => none
  | .poisonRaises task error =>
      match s.tasks[task]? with
      | some t => if t.state = .poisoning then some (s.setTask task (.failed error)) else none
      | none => none
  | .isolationEnds task =>
      match s.tasks[task]? with
      | some t => if t.state = .waiting ∧ s.Gathered t then some (s.setTask task .done) else none
      | none => none
  | .displacedPops task =>
      if s.TaskDone task then some { s with displaced := s.displaced.erase task } else none

theorem act_driverUnwinds {s s' : Lane} {id : ClaimId} (h : s.act (.driverUnwinds id) = some s') :
    ∃ c, s.made[id]? = some c ∧ c.driver = .cancelled ∧ s' = s.endDriver id := by
  rw [act] at h
  split at h
  · rename_i c hc
    split at h
    · rename_i hcancelled
      cases h
      exact ⟨c, hc, hcancelled, rfl⟩
    · cases h
  · cases h

theorem act_poisonRaises {s s' : Lane} {task : TaskId} {error : String}
    (h : s.act (.poisonRaises task error) = some s') :
    ∃ t, s.tasks[task]? = some t ∧ t.state = .poisoning ∧ s' = s.setTask task (.failed error) := by
  rw [act] at h
  split at h
  · rename_i t ht
    split at h
    · rename_i hpoisoning
      cases h
      exact ⟨t, ht, hpoisoning, rfl⟩
    · cases h
  · cases h

/-- A piece of a task between two suspensions. -/
def step (s : Lane) (action : Action) : Option Lane :=
  (s.act action).map fun s' => { s' with moment := s.moment + 1 }

/-- A new lane. -/
def init (poisons : Bool) : Lane := { poisons := poisons }

end Lane

end Rigplane.ManagedTx
