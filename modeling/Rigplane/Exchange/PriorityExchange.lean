import Rigplane.Lib.Runs
import Mathlib.Logic.Function.Basic

/-!
# The priority exchange gate

`core/priority_exchange.py`: exchanges are admitted one at a time, and a slot that is released
goes to a waiter of the most urgent tier.

A call of `exchange` has a number of its own, so that a task may enter more than once, and an
event runs a call from where it waits to where it waits next.  What the body does is left to the
events; it may leave at any time, also because it is cancelled.
-/

namespace Rigplane.Exchange

/-- `ExchangeTier`. -/
inductive ExchangeTier where
  | forceRelease
  | abort
  | urgent
  | ordinary
deriving DecidableEq

def ExchangeTier.value : ExchangeTier → Nat
  | .forceRelease => 0
  | .abort => 10
  | .urgent => 20
  | .ordinary => 30

/-- `for tier in ExchangeTier`. -/
def ExchangeTier.all : List ExchangeTier := [.forceRelease, .abort, .urgent, .ordinary]

/-- An `asyncio.Future[None]`. -/
inductive Future where
  | pending
  | result
  | cancelled
deriving DecidableEq

def Future.done : Future → Bool
  | .pending => false
  | _ => true

/-- Where a call of `exchange` is. -/
inductive Phase where
  /-- Not begun, or ended. -/
  | outside
  | awaiting (tier : ExchangeTier) (waiter : Nat)
  /-- In the body of the context. -/
  | inside
deriving DecidableEq

/-- `PriorityExchangeGate`, with its futures, which are numbered in the order of their creation,
and the calls of `exchange`. -/
structure PriorityExchangeGate where
  active : Bool := false
  waiters : ExchangeTier → List Nat := fun _ => []
  futures : Nat → Future := fun _ => .pending
  created : Nat := 0
  calls : Nat → Phase := fun _ => .outside
  /-- The task of the call has a cancellation that its future did not take. -/
  cancelling : Nat → Bool := fun _ => false

namespace PriorityExchangeGate

def setCall (g : PriorityExchangeGate) (call : Nat) (phase : Phase) : PriorityExchangeGate :=
  { g with calls := Function.update g.calls call phase }

def setQueue (g : PriorityExchangeGate) (tier : ExchangeTier) (queue : List Nat) :
    PriorityExchangeGate :=
  { g with waiters := Function.update g.waiters tier queue }

def setFuture (g : PriorityExchangeGate) (waiter : Nat) (future : Future) : PriorityExchangeGate :=
  { g with futures := Function.update g.futures waiter future }

/-! ## The methods -/

/-- The calls of `popleft` in `_release`: the first waiter that is not done, and the queue that is
left. -/
def popWaiting (futures : Nat → Future) : List Nat → Option Nat × List Nat
  | [] => (none, [])
  | waiter :: queue =>
      if (futures waiter).done then popWaiting futures queue else (some waiter, queue)

def releaseTiers (g : PriorityExchangeGate) : List ExchangeTier → PriorityExchangeGate
  | [] => { g with active := false }
  | tier :: tiers =>
      match popWaiting g.futures (g.waiters tier) with
      | (some waiter, queue) => (g.setQueue tier queue).setFuture waiter .result
      | (none, queue) => (g.setQueue tier queue).releaseTiers tiers

/-- `_release`. -/
def release (g : PriorityExchangeGate) : PriorityExchangeGate := g.releaseTiers ExchangeTier.all

/-- `_admit` up to its await. -/
def admitCall (g : PriorityExchangeGate) (call : Nat) (tier : ExchangeTier) :
    PriorityExchangeGate :=
  if g.active then
    let waiter := g.created
    ({ g with created := g.created + 1 }.setQueue tier (g.waiters tier ++ [waiter])
      |>.setFuture waiter .pending).setCall call (.awaiting tier waiter)
  else { g with active := true }.setCall call .inside

/-- `_admit` from its await, where the future is done: the call enters its body, or the
`CancelledError` handler runs and the call ends. -/
def resume (g : PriorityExchangeGate) (call : Nat) (tier : ExchangeTier) (waiter : Nat) :
    PriorityExchangeGate :=
  if g.futures waiter = .cancelled then
    (g.setQueue tier ((g.waiters tier).erase waiter)).setCall call .outside
  else if g.cancelling call then g.release.setCall call .outside
  else g.setCall call .inside

/-! ## The system -/

inductive Event where
  /-- A call of `exchange` begins. -/
  | enter (call : Nat) (tier : ExchangeTier)
  /-- The task of the call is cancelled. -/
  | cancel (call : Nat)
  /-- The task of a waiting call runs again. -/
  | resume (call : Nat)
  /-- The body of the call ends, returning or raising. -/
  | leave (call : Nat)
deriving DecidableEq

def step (g : PriorityExchangeGate) : Event → Option PriorityExchangeGate
  | .enter call tier =>
      match g.calls call with
      | .outside =>
          some ({ g with
            cancelling := Function.update g.cancelling call false }.admitCall call tier)
      | _ => none
  | .cancel call =>
      match g.calls call with
      | .awaiting _ waiter =>
          if (g.futures waiter).done then
            some { g with cancelling := Function.update g.cancelling call true }
          else some (g.setFuture waiter .cancelled)
      -- The body sees the cancellation at its own await.
      | _ => some g
  | .resume call =>
      match g.calls call with
      | .awaiting tier waiter =>
          if (g.futures waiter).done then some (g.resume call tier waiter) else none
      | _ => none
  | .leave call =>
      match g.calls call with
      | .inside => some (g.release.setCall call .outside)
      | _ => none

/-- The gate of `__init__`. -/
def init : PriorityExchangeGate := {}

end PriorityExchangeGate

end Rigplane.Exchange
