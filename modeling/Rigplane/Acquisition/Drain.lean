import Rigplane.Acquisition.SchedulerRuns

/-!
# The acquisition drain

`AcquisitionDrain` of `core/acquisition_drain.py`: several seats take the requests of one scheduler
in passes and hand them to an executor.  A pass runs without a break up to the await of
`executor.execute`, so a seat is between passes or inside that await; what the other seats and
everybody else do in the meantime are steps of their own.

The hooks of a seat are parameters, given anew at each step.  A report does to the scheduler what it
likes, except that it neither claims nor releases, and it may raise.  The store is known by its
provider generation alone, and a generation never goes back.
-/

namespace Rigplane.Acquisition

open StatePipeline

namespace AcquisitionDrain

variable {A : Type} [DecidableEq A]

/-! ## Hooks -/

/-- A call that a report makes. -/
structure Report (A : Type) where
  call : Scheduler.Call A
  claimless : ¬ call.Claims

/-- What a report does, and whether it raises then. -/
structure Reported (A : Type) where
  calls : List (Report A) := []
  raised : Bool := false

/-- What a seat is made with. -/
structure Hooks (A : Type) where
  expired : AcquisitionRequest A → Time → Time → Bool
  dispatchable : List (AcquisitionRequest A) → List (AcquisitionRequest A)
  reportFailure : AcquisitionRequest A → String → List FieldPath → Time → Reported A
  reportExecutorMissing : AcquisitionRequest A → Time → Reported A
  reportExecutorError : AcquisitionRequest A → List FieldPath → Time → Reported A
  /-- With the answer, whether the request is finished with. -/
  reportExpiry : Option (AcquisitionRequest A → List FieldPath → Time → Reported A × Bool) := none

/-- What a pass reads from outside: `tx_active` and the availability from the store, and whether
there is an executor. -/
structure Surroundings where
  txActive : Bool
  availability : Dict FieldPath (Option Bool) := .empty
  hasExecutor : Bool := true

/-! ## Seats -/

/-- An entry of `InFlightLedger`. -/
structure InFlight where
  paths : List FieldPath
  sentAt : Time

abbrev InFlightLedger := Dict String InFlight

/-- A seat inside `executor.execute`: the request, what had been sent of it, the store at the time,
and the rest of the pass. -/
structure Execution (A : Type) where
  request : AcquisitionRequest A
  sentPaths : List FieldPath
  store : Option Nat
  now : Time
  rest : List (AcquisitionRequest A)

structure Seat (A : Type) where
  inFlight : InFlightLedger := .empty
  execution : Option (Execution A) := none

/-- `0 if store is None else store.provider_generation`. -/
def generationOf (store : Option Nat) : Nat := store.getD 0

/-- The provider generation of an execution. -/
def Execution.generation (e : Execution A) : Nat := generationOf e.store

/-- The scheduler, the store and the seats. -/
structure Drains (A : Type) where
  scheduler : Scheduler A
  store : Option Nat := none
  seats : Nat → Seat A := fun _ => {}

/-! ## A pass -/

variable (c : SchedulerConfig A)

/-- A report is made. -/
def report (s : Scheduler A) (reported : Reported A) : Scheduler A :=
  reported.calls.foldl (fun s report => s.run c report.call) s

/-- What `_expiry_is_terminal` reports, and its answer. -/
def expiry (hooks : Hooks A) (request : AcquisitionRequest A) (sentPaths : List FieldPath)
    (now : Time) : Reported A × Bool :=
  match hooks.reportExpiry with
  | some reportExpiry => reportExpiry request sentPaths now
  | none =>
      (hooks.reportFailure request Scheduler.requestTimeout
        (if sentPaths.isEmpty then request.paths else sentPaths) now, true)

/-- How far the loop of `run_once` comes with one request. -/
inductive Attempt (A : Type) where
  | passed (s : Scheduler A) (inFlight : InFlightLedger)
  | raised (s : Scheduler A) (inFlight : InFlightLedger)
  | executing (s : Scheduler A) (inFlight : InFlightLedger) (sentPaths : List FieldPath)

/-- `_forget` and the next request. -/
def forget (s : Scheduler A) (inFlight : InFlightLedger) (seat : Nat) (store : Option Nat)
    (requestId : String) : Attempt A :=
  .passed (s.releaseClaim requestId seat (generationOf store)) (inFlight.erase requestId)

/-- A claimed request whose ledger entry has not ended it. -/
def sendUnsent (hooks : Hooks A) (around : Surroundings) (seat : Nat) (store : Option Nat)
    (now : Time)
    (request : AcquisitionRequest A) (s : Scheduler A) (inFlight : InFlightLedger)
    (sentPaths : List FieldPath) : Attempt A :=
  if request.paths.all (· ∈ sentPaths) then .passed s inFlight
  else if around.hasExecutor then
    .executing (s.noteExecuteStarted request.id (some now)) inFlight sentPaths
  else
    let reported := hooks.reportExecutorMissing request now
    let s := (report c s reported).releaseClaim request.id seat (generationOf store)
    if reported.raised then .raised s (inFlight.erase request.id)
    else .passed s (inFlight.erase request.id)

/-- One turn of the loop of `run_once`, up to the await.  `store` is the store that the pass began
with, and `current` the one that is there. -/
def attempt (hooks : Hooks A) (around : Surroundings) (seat : Nat) (current store : Option Nat)
    (now : Time) (request : AcquisitionRequest A) (s : Scheduler A) (inFlight : InFlightLedger) :
    Attempt A :=
  let (dispatchable, s) :=
    if store.isSome then ({ s with availability := around.availability }).isDispatchable request
    else (true, s)
  if dispatchable = false then .passed s inFlight
  else
    let (claimed, s) := s.tryClaim request seat (generationOf store)
    if (claimed && decide (current = store) &&
        s.claimIsCurrent request.id seat (generationOf store)) = false then
      .passed s inFlight
    else
      match inFlight.get? request.id with
      | none => sendUnsent c hooks around seat store now request s inFlight []
      | some existing =>
          let sentPaths := existing.paths.filter (· ∈ request.paths)
          if hooks.expired request existing.sentAt now then
            let (reported, terminal) := expiry hooks request existing.paths now
            let s := report c s reported
            if reported.raised then .raised s inFlight
            else if terminal then forget s inFlight seat store request.id
            else sendUnsent c hooks around seat store now request s inFlight sentPaths
          else sendUnsent c hooks around seat store now request s inFlight sentPaths

/-- The loop of `run_once` over the requests that are left. -/
def passLoop (hooks : Hooks A) (around : Surroundings) (seat : Nat) (current store : Option Nat)
    (now : Time) :
    List (AcquisitionRequest A) → Scheduler A → InFlightLedger → Scheduler A × Seat A
  | [], s, inFlight => (s, { inFlight })
  | request :: rest, s, inFlight =>
      match attempt c hooks around seat current store now request s inFlight with
      | .passed s inFlight => passLoop hooks around seat current store now rest s inFlight
      | .raised s inFlight => (s, { inFlight })
      | .executing s inFlight sentPaths =>
          (s, { inFlight, execution := some { request, sentPaths, store, now, rest } })

/-- `run_once` up to its first await. -/
def runOnce (hooks : Hooks A) (around : Surroundings) (seat : Nat) (store : Option Nat) (now : Time)
    (s : Scheduler A) (inFlight : InFlightLedger) : Scheduler A × Seat A :=
  let s := { s with
    txActive := around.txActive
    availability := if store.isSome then around.availability else s.availability }
  let (pending, s) := s.dispatchableRequests
  let inFlight := inFlight.filter fun id _ => id ∈ pending.map AcquisitionRequest.id
  passLoop c hooks around seat store store now (hooks.dispatchable pending) s inFlight

/-! ## After the await -/

/-- How `executor.execute` ends. -/
inductive ExecutionResult where
  | done (sentPaths failedPaths : List FieldPath) (failureReason : Option String)
  | error
  | cancelled

/-- `_claim_is_current` for an execution. -/
def claimIsCurrent (d : Drains A) (seat : Nat) (e : Execution A) : Bool :=
  d.store = e.store && d.scheduler.claimIsCurrent e.request.id seat e.generation

/-- `result.failure_reason or "acquisition_request_failed"`. -/
def failureReasonOf (failureReason : Option String) : String :=
  if failureReason.getD "" = "" then "acquisition_request_failed" else failureReason.getD ""

/-- The paths that an execution sent are entered. -/
def recordSent (s : Scheduler A) (inFlight : InFlightLedger) (e : Execution A)
    (newlySent : List FieldPath) : Scheduler A × InFlightLedger :=
  if newlySent.isEmpty then (s, inFlight)
  else
    ((s.recordDispatch e.request.id newlySent e.now).dispatchableRequests.2,
      inFlight.set e.request.id ⟨e.sentPaths ++ newlySent, e.now⟩)

/-- The turn of the loop after the await. -/
def settle (hooks : Hooks A) (d : Drains A) (seat : Nat) (e : Execution A) :
    ExecutionResult → Attempt A
  | .cancelled =>
      let inFlight := (d.seats seat).inFlight
      if claimIsCurrent d seat e then
        .raised ((d.scheduler.releaseClaim e.request.id seat e.generation).noteExecuteFinished
          e.request.id) (inFlight.erase e.request.id)
      else .raised (d.scheduler.noteExecuteFinished e.request.id) inFlight
  | .error =>
      let inFlight := (d.seats seat).inFlight
      if claimIsCurrent d seat e then
        let reported := hooks.reportExecutorError e.request e.sentPaths e.now
        let s := report c d.scheduler reported
        if reported.raised then .raised (s.noteExecuteFinished e.request.id) inFlight
        else
          .passed ((s.releaseClaim e.request.id seat e.generation).noteExecuteFinished e.request.id)
            (inFlight.erase e.request.id)
      else .raised (d.scheduler.noteExecuteFinished e.request.id) inFlight
  | .done sentPaths failedPaths failureReason =>
      let inFlight := (d.seats seat).inFlight
      let s := d.scheduler.noteExecuteFinished e.request.id
      if claimIsCurrent d seat e then
        let reported :=
          if failedPaths.isEmpty then {}
          else hooks.reportFailure e.request (failureReasonOf failureReason) failedPaths e.now
        let s := report c s reported
        if reported.raised then .raised s inFlight
        else
          let (s, inFlight) := recordSent s inFlight e sentPaths
          .passed s inFlight
      else .passed s inFlight

/-- The pass goes on after the await, with the store that it began with. -/
def resume (hooks : Hooks A) (around : Surroundings) (d : Drains A) (seat : Nat) (e : Execution A)
    (result : ExecutionResult) : Scheduler A × Seat A :=
  match settle c hooks d seat e result with
  | .passed s inFlight =>
      passLoop c hooks around seat d.store (if e.store.isSome then d.store else none) e.now e.rest s
        inFlight
  | .raised s inFlight => (s, { inFlight })
  | .executing s inFlight _ => (s, { inFlight })

/-! ## Steps -/

inductive Action (A : Type) where
  /-- A seat begins a pass. -/
  | begin (seat : Nat) (hooks : Hooks A) (around : Surroundings) (now : Time)
  /-- An execution ends, and its seat goes on. -/
  | resume (seat : Nat) (hooks : Hooks A) (around : Surroundings) (result : ExecutionResult)
  /-- Somebody else calls the scheduler. -/
  | elsewhere (report : Report A)
  /-- There is a store now, or a later generation of it. -/
  | store (generation : Nat)

/-- A seat and the scheduler after a part of a pass. -/
def Drains.after (d : Drains A) (seat : Nat) (result : Scheduler A × Seat A) : Drains A :=
  { d with scheduler := result.1, seats := Function.update d.seats seat result.2 }

def step (d : Drains A) : Action A → Option (Drains A)
  | .begin seat hooks around now =>
      match (d.seats seat).execution with
      | some _ => none
      | none =>
          some (d.after seat
            (runOnce c hooks around seat d.store now d.scheduler (d.seats seat).inFlight))
  | .resume seat hooks around result =>
      match (d.seats seat).execution with
      | none => none
      | some e => some (d.after seat (resume c hooks around d seat e result))
  | .elsewhere report => some { d with scheduler := d.scheduler.run c report.call }
  | .store generation =>
      if generationOf d.store ≤ generation then some { d with store := some generation } else none

def start (clock : FreshnessClock) : Drains A := { scheduler := .init clock }

end AcquisitionDrain

end Rigplane.Acquisition
