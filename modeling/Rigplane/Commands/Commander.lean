import Rigplane.Lib.Dict
import Rigplane.Lib.Runs

/-!
# The commander

`commands/commander.py`: sends of many callers go through one priority queue, and one worker
hands them to the executor in turn.

An event runs one task from where it waits to where it waits next.  A future has the number of
the item it is made for, since every item raises the sequence counter.  A response is of the
type `ρ` (a CI-V frame or none), an exception of the executor of the type `ε`, and a currency
predicate, which the commander only carries, of the type `χ`.  The times at which timeouts fire
are left to the events, and so is what the executor does, also when its task is cancelled.
-/

namespace Rigplane.Commands

/-! ## Items -/

/-- `Priority`. -/
inductive Priority where
  | forceRelease
  | abort
  | immediate
  | normal
  | keying
  | background
deriving DecidableEq

/-- `int(priority)`. -/
def Priority.value : Priority → Int
  | .forceRelease => -20
  | .abort => -10
  | .immediate => 0
  | .normal => 10
  | .keying => 15
  | .background => 20

/-- `_READ_LANES`. -/
def readLanes : List Int := [Priority.keying.value, Priority.background.value]

/-- `_MAX_BG_INFLIGHT`. -/
def maxBgInflight : Nat := 64

/-- `_QueueItem`. -/
structure QueueItem (χ : Type) where
  priority : Int
  seq : Nat
  payload : List UInt8
  future : Nat
  key : Option String
  waitResponse : Bool
  countsBgInflight : Bool
  fireAndForget : Bool
  isCurrent : Option χ
  /-- The task that queued the frame. -/
  enqueuedBy : Nat

/-- `PriorityQueue.put`: the entries are ordered by priority and number. -/
def put {χ : Type} (item : QueueItem χ) : List (QueueItem χ) → List (QueueItem χ)
  | [] => [item]
  | first :: rest =>
      if item.priority < first.priority ∨ item.priority = first.priority ∧ item.seq < first.seq then
        item :: first :: rest
      else first :: put item rest

/-! ## Futures -/

/-- The exceptions that a future is failed with. -/
inductive Failure (ε : Type) where
  /-- What the executor raised. -/
  | executor (raised : ε)
  /-- `ConnectionError("Commander stopped")`. -/
  | stopped

inductive Future (ρ ε : Type) where
  | pending
  | result (response : ρ)
  | failed (failure : Failure ε)
  | cancelled

/-- `future.done()`. -/
def Future.done {ρ ε : Type} : Future ρ ε → Bool
  | .pending => false
  | _ => true

/-- How the task of an execute call ends. -/
inductive Execution (ρ ε : Type) where
  | returned (response : ρ)
  | raised (error : ε)
  | cancelled

/-! ## The state -/

/-- Where the worker waits. -/
inductive Phase (χ ρ ε : Type) where
  /-- For an item. -/
  | getting
  /-- For the task of the item it executes, which may have ended. -/
  | executing (item : QueueItem χ) (ended : Option (Execution ρ ε))
  | done

structure Worker (χ ρ ε : Type) where
  id : Nat
  phase : Phase χ ρ ε := .getting
  /-- `worker.cancelling()`. -/
  cancelling : Bool := false

/-- `worker.done()`. -/
def Worker.done {χ ρ ε : Type} (worker : Worker χ ρ ε) : Bool :=
  match worker.phase with
  | .done => true
  | _ => false

/-- `InterferenceScope`. -/
structure InterferenceScope where
  owner : Nat
  interfered : Bool := false
  closed : Bool := false

/-- `is_current`. -/
def InterferenceScope.isCurrent (scope : InterferenceScope) : Bool :=
  !scope.interfered && !scope.closed

/-- The arguments of `IcomCommander.send`. -/
structure SendArgs (χ : Type) where
  payload : List UInt8
  priority : Priority := .normal
  key : Option String := none
  dedupe : Bool := false
  /-- Whether the call has a timeout. -/
  timeout : Bool := false
  waitResponse : Bool := true
  waitDispatch : Bool := true
  isCurrent : Option χ := none

/-- What a waiting call is asked by its own task. -/
inductive Asked where
  | timeout
  | cancel
deriving DecidableEq

/-- How a call of `send` ends. -/
inductive Outcome (ρ ε : Type) where
  /-- `ConnectionError("Commander is not started")`. -/
  | notStarted
  /-- `BackgroundSendDropped`. -/
  | dropped
  /-- None, without waiting for the worker. -/
  | enqueued
  | returned (response : ρ)
  /-- `TimeoutError`. -/
  | timedOut
  /-- `CancelledError`, where the caller was cancelled. -/
  | cancelled
  | raised (failure : Failure ε)
  /-- `CancelledError`, where the caller was not cancelled. -/
  | lost

/-- What an admitted call waits for. -/
structure Request where
  future : Nat
  /-- The future is of another call. -/
  merged : Bool
  key : Option String
  timeout : Bool

/-- A call of `send`. -/
structure Call (ρ ε : Type) where
  /-- None where the call is refused. -/
  request : Option Request
  asked : Option Asked := none
  outcome : Option (Outcome ρ ε) := none

/-- `IcomCommander`, with its futures, the calls of `send`, and the calls of `stop` that wait for
a worker. -/
structure IcomCommander (χ ρ ε : Type) where
  queue : Option (List (QueueItem χ)) := none
  worker : Option (Worker χ ρ ε) := none
  seq : Nat := 0
  pendingByKey : Dict String Nat := .empty
  bgInflight : Nat := 0
  /-- Every scope; the live ones are not closed. -/
  interferenceScopes : List InterferenceScope := []
  workers : Nat := 0
  futures : Nat → Future ρ ε := fun _ => .pending
  calls : Nat → Option (Call ρ ε) := fun _ => none
  /-- The worker each waiting `stop` has found. -/
  stopping : List (Option Nat) := []

namespace IcomCommander

variable {χ ρ ε : Type}

/-! ## Parts of the methods -/

/-- `future.set_result` or another end of a future that is not done. -/
def settle (s : IcomCommander χ ρ ε) (future : Nat) (value : Future ρ ε) : IcomCommander χ ρ ε :=
  if (s.futures future).done then s
  else { s with futures := Function.update s.futures future value }

/-- `_fail_item`. -/
def failItem (s : IcomCommander χ ρ ε) (item : QueueItem χ) (failure : Failure ε) :
    IcomCommander χ ρ ε :=
  s.settle item.future (.failed failure)

/-- `_pending_by_key.pop(key, None)`, where it holds the future. -/
def forgetKey (s : IcomCommander χ ρ ε) (key : Option String) (future : Nat) :
    IcomCommander χ ρ ε :=
  match key with
  | none => s
  | some key =>
      if s.pendingByKey.get? key = some future then
        { s with pendingByKey := s.pendingByKey.erase key }
      else s

/-- The `finally` of a round of `_loop`. -/
def leaveItem (s : IcomCommander χ ρ ε) (item : QueueItem χ) : IcomCommander χ ρ ε :=
  forgetKey { s with
    bgInflight := if item.countsBgInflight then s.bgInflight - 1 else s.bgInflight }
    item.key item.future

/-- `note_foreign_dispatch`. -/
def noteForeignDispatch (s : IcomCommander χ ρ ε) (enqueuedBy : Option Nat) (priority : Int) :
    IcomCommander χ ρ ε :=
  if priority ∈ readLanes then s
  else
    { s with interferenceScopes := s.interferenceScopes.map fun scope =>
        if scope.closed = false ∧ some scope.owner ≠ enqueuedBy then
          { scope with interfered := true }
        else scope }

def setPhase (s : IcomCommander χ ρ ε) (worker : Worker χ ρ ε) (phase : Phase χ ρ ε) :
    IcomCommander χ ρ ε :=
  { s with worker := some { worker with phase } }

/-! ## The methods -/

/-- `start`. -/
def start (s : IcomCommander χ ρ ε) : IcomCommander χ ρ ε :=
  match s.worker with
  | none =>
      { s with queue := some [], worker := some { id := s.workers }, workers := s.workers + 1 }
  | some worker =>
      if worker.done then
        { s with queue := some [], worker := some { id := s.workers }, workers := s.workers + 1 }
      else s

/-- `worker.cancel()`: where the task the worker waits for has ended, its end is lost to the
worker. -/
def cancelWorker (worker : Worker χ ρ ε) : Worker χ ρ ε :=
  { worker with
    cancelling := true
    phase :=
      match worker.phase with
      | .executing item (some _) => .executing item (some .cancelled)
      | phase => phase }

/-- A queued item of `stop`. -/
def drainItem (s : IcomCommander χ ρ ε) (item : QueueItem χ) : IcomCommander χ ρ ε :=
  (s.leaveItem item).failItem item .stopped

/-- `stop`, until it waits for the worker. -/
def stop (s : IcomCommander χ ρ ε) : IcomCommander χ ρ ε :=
  let found := s.worker
  let s : IcomCommander χ ρ ε :=
    match found with
    | none => s
    | some worker =>
        if worker.done = false ∧ worker.cancelling = false then
          { s with worker := some (cancelWorker worker) }
        else s
  let s : IcomCommander χ ρ ε :=
    match s.queue with
    | none => s
    | some items => items.foldl drainItem { s with queue := some [] }
  { s with stopping := s.stopping ++ [found.map Worker.id] }

/-- The rest of `stop`, once the worker it waits for is done, or its caller is cancelled. -/
def stopLeaves (s : IcomCommander χ ρ ε) (stopper : Nat) : Option (IcomCommander χ ρ ε) :=
  match s.stopping[stopper]? with
  | none => none
  | some found =>
      let s := { s with stopping := s.stopping.eraseIdx stopper }
      if s.worker.map Worker.id = found ∧ (s.worker.map Worker.done).getD true then
        some { s with worker := none, queue := none, pendingByKey := .empty, bgInflight := 0 }
      else some s

def addCall (s : IcomCommander χ ρ ε) (call : Nat) (state : Call ρ ε) : IcomCommander χ ρ ε :=
  { s with calls := Function.update s.calls call (some state) }

/-- The commander takes sends. -/
def admits (s : IcomCommander χ ρ ε) : Bool :=
  s.queue.isSome && (s.worker.map fun worker => !worker.done && !worker.cancelling).getD false

/-- The future that a call is merged into. -/
def mergedInto (s : IcomCommander χ ρ ε) (args : SendArgs χ) : Option Nat :=
  match args.dedupe, args.key with
  | true, some key => (s.pendingByKey.get? key).filter fun existing => !(s.futures existing).done
  | _, _ => none

/-- `send`, until it waits or ends. -/
def send (s : IcomCommander χ ρ ε) (call task : Nat) (args : SendArgs χ) : IcomCommander χ ρ ε :=
  if s.admits = false then s.addCall call { request := none, outcome := some .notStarted }
  else
    match s.mergedInto args with
    | some existing =>
        s.addCall call
          { request := some {
              future := existing, merged := true, key := args.key, timeout := args.timeout } }
    | none =>
        let seq := s.seq + 1
        let s := { s with seq, futures := Function.update s.futures seq .pending }
        let countsBgInflight := !args.waitDispatch && args.priority = .background
        if countsBgInflight ∧ s.bgInflight ≥ maxBgInflight then
          s.addCall call { request := none, outcome := some .dropped }
        else
          let item : QueueItem χ := {
            priority := args.priority.value, seq, payload := args.payload, future := seq,
            key := args.key, waitResponse := args.waitResponse, countsBgInflight,
            fireAndForget := !args.waitDispatch, isCurrent := args.isCurrent, enqueuedBy := task }
          let s := { s with
            pendingByKey :=
              match args.key with
              | none => s.pendingByKey
              | some key => s.pendingByKey.set key seq
            bgInflight := if countsBgInflight then s.bgInflight + 1 else s.bgInflight
            queue := s.queue.map (put item) }
          s.addCall call {
            request := some {
              future := seq, merged := false, key := args.key, timeout := args.timeout }
            outcome := if args.waitDispatch then none else some .enqueued }

/-- The task of a waiting call is asked to end: the future it waits for is cancelled. -/
def ask (s : IcomCommander χ ρ ε) (call : Nat) (asked : Asked) : Option (IcomCommander χ ρ ε) :=
  match s.calls call with
  | some { request := some request, asked := before, outcome := none } =>
      if asked = .timeout ∧ (request.timeout = false ∨ before ≠ none) then none
      else
        some ((s.addCall call { request := some request, asked := some asked }).settle
          request.future .cancelled)
  | _ => none

/-- What a call gets as it goes on: a call that is asked to end does so, whatever its future is. -/
def outcomeOf : Option Asked → Future ρ ε → Option (Outcome ρ ε)
  | some .timeout, _ => some .timedOut
  | some .cancel, _ => some .cancelled
  | none, .pending => none
  | none, .result response => some (.returned response)
  | none, .failed failure => some (.raised failure)
  | none, .cancelled => some .lost

/-- The `except asyncio.CancelledError` of `send`, which a merged call does not reach. -/
def callerGone (s : IcomCommander χ ρ ε) (request : Request) :
    Outcome ρ ε → IcomCommander χ ρ ε
  | .cancelled | .lost =>
      if request.merged then s
      else (s.settle request.future .cancelled).forgetKey request.key request.future
  | _ => s

/-- A call goes on after its wait. -/
def wake (s : IcomCommander χ ρ ε) (call : Nat) : Option (IcomCommander χ ρ ε) :=
  match s.calls call with
  | some { request := some request, asked, outcome := none } =>
      (outcomeOf asked (s.futures request.future)).map fun outcome =>
        (s.addCall call { request := some request, asked, outcome := some outcome }).callerGone
          request outcome
  | _ => none

/-- `_loop` takes an item, and hands it to the executor unless its future is done. -/
def take (s : IcomCommander χ ρ ε) : Option (IcomCommander χ ρ ε) :=
  match s.worker, s.queue with
  | some worker, some (item :: rest) =>
      match worker.phase, worker.cancelling with
      | .getting, false =>
          let s := { s with queue := some rest }
          if (s.futures item.future).done then some (s.leaveItem item)
          else
            some ((s.noteForeignDispatch (some item.enqueuedBy) item.priority).setPhase worker
              (.executing item none))
      | _, _ => none
  | _, _ => none

/-- The task of the item of a future ends. -/
def executeEnds (s : IcomCommander χ ρ ε) (future : Nat) (execution : Execution ρ ε) :
    Option (IcomCommander χ ρ ε) :=
  match s.worker with
  | some worker =>
      match worker.phase with
      | .executing item none =>
          if item.future = future then some (s.setPhase worker (.executing item (some execution)))
          else none
      | _ => none
  | none => none

/-- `item.future.cancelled() and not worker.cancelling()`. -/
def callerDriven (s : IcomCommander χ ρ ε) (worker : Worker χ ρ ε) (item : QueueItem χ) : Bool :=
  match s.futures item.future with
  | .cancelled => !worker.cancelling
  | _ => false

/-- `_loop` goes on after its wait. -/
def workerWakes (s : IcomCommander χ ρ ε) : Option (IcomCommander χ ρ ε) :=
  match s.worker with
  | none => none
  | some worker =>
      match worker.phase with
      | .getting => if worker.cancelling then some (s.setPhase worker .done) else none
      | .executing item (some execution) =>
          let next : Phase χ ρ ε := if worker.cancelling then .done else .getting
          match execution with
          | .returned response =>
              -- A worker that is cancelled drops the response
              let s := if worker.cancelling then s.failItem item .stopped
                else s.settle item.future (.result response)
              some ((s.leaveItem item).setPhase worker next)
          | .raised error =>
              some (((s.failItem item (.executor error)).leaveItem item).setPhase worker next)
          | .cancelled =>
              if s.callerDriven worker item then some ((s.leaveItem item).setPhase worker .getting)
              else some (((s.failItem item .stopped).leaveItem item).setPhase worker .done)
      | _ => none

/-- `interference_scope` is entered. -/
def enterScope (s : IcomCommander χ ρ ε) (task : Nat) : IcomCommander χ ρ ε :=
  { s with interferenceScopes := s.interferenceScopes ++ [{ owner := task }] }

/-- `interference_scope` is left. -/
def exitScope (s : IcomCommander χ ρ ε) (scope : Nat) : IcomCommander χ ρ ε :=
  { s with interferenceScopes :=
      s.interferenceScopes.modify scope fun scope => { scope with closed := true } }

end IcomCommander

/-! ## Runs -/

inductive Event (χ ρ ε : Type) where
  | start
  | stop
  | stopLeaves (stopper : Nat)
  | send (call task : Nat) (args : SendArgs χ)
  | timesOut (call : Nat)
  | cancel (call : Nat)
  | wake (call : Nat)
  | take
  | executeEnds (future : Nat) (execution : Execution ρ ε)
  | workerWakes
  | enterScope (task : Nat)
  | exitScope (scope : Nat)
  /-- A dispatch that bypasses the queue. -/
  | foreignDispatch (enqueuedBy : Option Nat) (priority : Int)

namespace IcomCommander

variable {χ ρ ε : Type}

def step (s : IcomCommander χ ρ ε) : Event χ ρ ε → Option (IcomCommander χ ρ ε)
  | .start => some s.start
  | .stop => some s.stop
  | .stopLeaves stopper => s.stopLeaves stopper
  | .send call task args => if (s.calls call).isSome then none else some (s.send call task args)
  | .timesOut call => s.ask call .timeout
  | .cancel call => s.ask call .cancel
  | .wake call => s.wake call
  | .take => s.take
  | .executeEnds future execution => s.executeEnds future execution
  | .workerWakes => s.workerWakes
  | .enterScope task => some (s.enterScope task)
  | .exitScope scope => some (s.exitScope scope)
  | .foreignDispatch enqueuedBy priority => some (s.noteForeignDispatch enqueuedBy priority)

end IcomCommander

end Rigplane.Commands
