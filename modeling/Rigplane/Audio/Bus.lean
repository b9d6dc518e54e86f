import Mathlib.Data.List.Basic
import Mathlib.Logic.Function.Basic
import Rigplane.Lib.Runs

/-!
# The audio bus

`AudioBus` of `audio/bus.py` and its `AudioSubscription`s: who is registered, whether the radio
sends, and the operations that wait for the lock of the bus or for the radio.

A subscription is a number.  An operation that wants the lock is a `Request`: `_add_subscriber` of a
`start`, or `_remove_subscriber` of a close task or an `aclose`.  `asyncio.Lock` serves its waiters
in the order of their arrival, and a newcomer waits while one of them is waiting.  A task that was
created has not begun; a removal that `wait_for` runs begins at once where `wait_for` awaits it in
the task of the caller (`eager`, Python 3.12 on), and is a new task before.  An operation at an
await may be cancelled, by its caller or by a close timeout.

`completed` lists the radio calls that returned; no operation reads it.  The packets, the statistics
and `restart_rx` are left out.
-/

namespace Rigplane.Audio

/-! ## Operations at an await -/

inductive RadioCall where
  | start
  | stop
deriving DecidableEq

inductive RequestKind where
  /-- `_add_subscriber`. -/
  | add
  /-- `_remove_subscriber`. -/
  | remove
deriving DecidableEq

structure Request where
  id : Nat
  kind : RequestKind
  sub : Nat
deriving DecidableEq

/-- The request that holds the lock awaits a call of the radio. -/
inductive Holder where
  | starting (request : Request) (added : Bool)
  | stopping (request : Request)
deriving DecidableEq

def Holder.request : Holder → Request
  | .starting request _ => request
  | .stopping request => request

/-- A `start` that awaits the close task. -/
structure WaitingStart where
  id : Nat
  sub : Nat
  task : Nat
deriving DecidableEq

/-- An `AudioBus.stop`. -/
structure BusStop where
  id : Nat
  /-- The subscriptions it has not closed yet. -/
  rest : List Nat
  /-- The removal that its `aclose` awaits, and whether that is shielded. -/
  waits : Option (Nat × Bool) := none
  /-- It awaits `stop_rx` of the radio. -/
  stopping : Bool := false
deriving DecidableEq

structure AudioBus where
  /-- `wait_for` awaits a coroutine in the task of its caller. -/
  eager : Bool
  subscribers : List Nat := []
  rxActive : Bool := false
  /-- `_active` of a subscription. -/
  active : Nat → Bool := fun _ => false
  /-- `_close_task` of a subscription. -/
  closeTask : Nat → Option Nat := fun _ => none
  /-- The request that has the lock across an await. -/
  holder : Option Holder := none
  waiters : List Request := []
  /-- The tasks that have not begun. -/
  created : List Request := []
  starts : List WaitingStart := []
  busStops : List BusStop := []
  /-- The number of operations so far. -/
  next : Nat := 0
  completed : List RadioCall := []

namespace AudioBus

/-! ## The lock -/

/-- The requests that have not ended, in the order in which they get the lock. -/
def requests (s : AudioBus) : List Request :=
  (s.holder.map Holder.request).toList ++ s.waiters ++ s.created

/-- The request has not ended. -/
def running (s : AudioBus) (id : Nat) : Bool := s.requests.any fun r => r.id == id

/-- A request has got the lock, and runs to its await or to its end. -/
def enter (s : AudioBus) (r : Request) : AudioBus :=
  match r.kind with
  | .add =>
      let added := decide (r.sub ∉ s.subscribers)
      let subscribers := if added then s.subscribers ++ [r.sub] else s.subscribers
      { s with
        subscribers := subscribers
        holder :=
          if !s.rxActive && !subscribers.isEmpty then some (.starting r added) else none }
  | .remove =>
      let subscribers := s.subscribers.erase r.sub
      let stops := s.rxActive && subscribers.isEmpty
      { s with
        subscribers := subscribers
        rxActive := if stops then false else s.rxActive
        holder := if stops then some (.stopping r) else none }

/-- `async with self._lock`. -/
def request (s : AudioBus) (r : Request) : AudioBus :=
  if s.holder = none ∧ s.waiters = [] then s.enter r else { s with waiters := s.waiters ++ [r] }

/-- The next request of a kind. -/
def newRequest (s : AudioBus) (kind : RequestKind) (sub : Nat) : Request := ⟨s.next, kind, sub⟩

/-! ## Subscriptions -/

def setActive (s : AudioBus) (sub : Nat) (value : Bool) : AudioBus :=
  { s with active := Function.update s.active sub value }

/-- The end of `AudioSubscription.start`, once no close task is in the way. -/
def activate (s : AudioBus) (sub : Nat) : AudioBus :=
  { s.setActive sub true with next := s.next + 1 }.request (s.newRequest .add sub)

/-- The close task of a subscription has not ended. -/
def closing (s : AudioBus) (sub : Nat) : Option Nat :=
  match s.closeTask sub with
  | some task => if s.running task then some task else none
  | none => none

/-- `AudioSubscription.start`. -/
def start (s : AudioBus) (sub : Nat) : AudioBus :=
  if s.active sub then s
  else
    match s.closing sub with
    | some task => { s with starts := s.starts ++ [⟨s.next, sub, task⟩], next := s.next + 1 }
    | none => s.activate sub

/-- `_schedule_close`. -/
def scheduleClose (s : AudioBus) (sub : Nat) : AudioBus :=
  if (s.closing sub).isSome then s
  else
    { s with
      created := s.created ++ [s.newRequest .remove sub]
      closeTask := Function.update s.closeTask sub (some s.next)
      next := s.next + 1 }

/-- `AudioSubscription.stop`. -/
def stop (s : AudioBus) (sub : Nat) : AudioBus :=
  if !s.active sub then s else (s.setActive sub false).scheduleClose sub

/-- `AudioSubscription.aclose`, with the removal that it awaits and whether that is shielded. -/
def aclose (s : AudioBus) (sub : Nat) (timeout : Bool) : AudioBus × Option (Nat × Bool) :=
  if !s.active sub && (s.closeTask sub).isNone then (s, none)
  else
    match s.closeTask sub with
    | some task => (s.setActive sub false, some (task, timeout))
    | none =>
        let r := s.newRequest .remove sub
        let s := { s.setActive sub false with next := s.next + 1 }
        if timeout && !s.eager then ({ s with created := s.created ++ [r] }, some (r.id, false))
        else (s.request r, some (r.id, false))

/-- The `except` branches of `_add_subscriber` and of `start`, after the radio did not start. -/
def failStart (s : AudioBus) (r : Request) (added : Bool) : AudioBus :=
  { s.setActive r.sub false with
    subscribers := if added then s.subscribers.erase r.sub else s.subscribers
    holder := none }

/-- A request is cancelled at its await. -/
def cancel (s : AudioBus) (id : Nat) : Option AudioBus :=
  -- a start that awaits the request as its close task ends with it
  let s := { s with starts := s.starts.filter fun w => w.task ≠ id }
  match s.created.find? fun r => r.id == id with
  | some r => some { s with created := s.created.erase r }
  | none =>
      match s.waiters.find? fun r => r.id == id with
      | some r =>
          let s := { s with waiters := s.waiters.erase r }
          some (match r.kind with
            | .add => s.setActive r.sub false
            | .remove => s)
      | none =>
          match s.holder with
          | some (.starting r added) => if r.id = id then some (s.failStart r added) else none
          | some (.stopping r) => if r.id = id then some { s with holder := none } else none
          | none => none

/-! ## Steps -/

inductive Action where
  /-- A call of `start`, `stop` or `aclose` of a subscription. -/
  | start (sub : Nat)
  | stop (sub : Nat)
  | aclose (sub : Nat) (timeout : Bool)
  /-- A `start` goes on once the close task has ended. -/
  | resumeStart (id : Nat)
  /-- A task begins. -/
  | begin (id : Nat)
  /-- The first waiter gets the lock. -/
  | acquire
  /-- A call of the radio under the lock returns, or raises. -/
  | radioStarted
  | radioStartFailed
  | radioStopped
  | radioStopFailed
  /-- A request, a `start` that awaits the close task, or an `AudioBus.stop` is cancelled. -/
  | cancel (id : Nat)
  | cancelStart (id : Nat)
  | cancelBus (id : Nat)
  /-- `_on_close_done`. -/
  | closeDone (sub : Nat)
  /-- `AudioBus.stop`: a call, its way to the next await, and the end of its radio call. -/
  | busStop
  | busStep (id : Nat)
  | busStopped (id : Nat)
  | busStopFailed (id : Nat)
deriving DecidableEq

/-- One step of the loop of `AudioBus.stop`, or what follows the loop. -/
def busStep (s : AudioBus) (b : BusStop) : AudioBus :=
  match b.rest with
  | sub :: rest =>
      let (s, waits) := s.aclose sub true
      { s with busStops := s.busStops.erase b ++ [{ b with rest := rest, waits := waits }] }
  | [] =>
      if s.rxActive then
        { s with
          rxActive := false
          busStops := s.busStops.erase b ++ [{ b with waits := none, stopping := true }] }
      else { s with busStops := s.busStops.erase b }

def step (s : AudioBus) : Action → Option AudioBus
  | .start sub => some (s.start sub)
  | .stop sub => some (s.stop sub)
  | .aclose sub timeout => some (s.aclose sub timeout).1
  | .resumeStart id =>
      match s.starts.find? fun w => w.id == id with
      | some w =>
          if s.running w.task then none
          else some ({ s with starts := s.starts.erase w }.activate w.sub)
      | none => none
  | .begin id =>
      (s.created.find? fun r => r.id == id).map fun r =>
        { s with created := s.created.erase r }.request r
  | .acquire =>
      match s.holder, s.waiters with
      | none, r :: rest => some ({ s with waiters := rest }.enter r)
      | _, _ => none
  | .radioStarted =>
      match s.holder with
      | some (.starting _ _) =>
          some { s with rxActive := true, holder := none, completed := s.completed ++ [.start] }
      | _ => none
  | .radioStartFailed =>
      match s.holder with
      | some (.starting r added) => some (s.failStart r added)
      | _ => none
  | .radioStopped =>
      match s.holder with
      | some (.stopping _) => some { s with holder := none, completed := s.completed ++ [.stop] }
      | _ => none
  | .radioStopFailed =>
      match s.holder with
      | some (.stopping _) => some { s with holder := none }
      | _ => none
  | .cancel id => s.cancel id
  | .cancelStart id =>
      match s.starts.find? fun w => w.id == id with
      | some w =>
          -- the cancellation goes on to the close task
          if s.running w.task then s.cancel w.task else some { s with starts := s.starts.erase w }
      | none => none
  | .cancelBus id =>
      match s.busStops.find? fun b => b.id == id with
      | some b =>
          let s := { s with busStops := s.busStops.erase b }
          match b.waits with
          | some (task, false) => if s.running task then s.cancel task else some s
          | _ => some s
      | none => none
  | .closeDone sub =>
      if (s.closing sub).isSome then none
      else some { s with closeTask := Function.update s.closeTask sub none }
  | .busStop =>
      some { s with
        busStops := s.busStops ++ [⟨s.next, s.subscribers, none, false⟩]
        next := s.next + 1 }
  | .busStep id =>
      match s.busStops.find? fun b => b.id == id with
      | some b =>
          if b.stopping || b.waits.any (fun w => s.running w.1) then none else some (s.busStep b)
      | none => none
  | .busStopped id =>
      match s.busStops.find? fun b => b.id == id with
      | some b =>
          if b.stopping then
            some { s with
              busStops := s.busStops.erase b
              completed := s.completed ++ [.stop] }
          else none
      | none => none
  | .busStopFailed id =>
      match s.busStops.find? fun b => b.id == id with
      | some b => if b.stopping then some { s with busStops := s.busStops.erase b } else none
      | none => none

/-- A new bus. -/
def init (eager : Bool) : AudioBus where
  eager := eager

/-- No operation is in progress. -/
structure Quiescent (s : AudioBus) : Prop where
  requests : s.requests = []
  starts : s.starts = []
  busStops : s.busStops = []

end AudioBus

end Rigplane.Audio
