import Rigplane.Lib.Runs

/-!
# The TCI server

`TciServer` of `tci/server.py` with what it owns: the accepts (`_accept_request`, `_open_session`),
the calls of `finish` on its sessions, and its starts and stops.  A step is at most what happens
between two awaits, so all interleavings of these tasks are runs.

What a task awaits ends at any time, by itself, by a timeout or by a cancellation, and a step says
only how the task goes on.  A `finish` that tears a session down goes on in any case.  The callbacks
of a handler are counted, `on_disconnect` when its task is made.
-/

namespace Rigplane.Tci

/-- Where `_accept_request` stands. -/
inductive AcceptPhase where
  /-- Before `on_connect`. -/
  | upgrading
  /-- In `on_connect`. -/
  | connecting
  /-- In `_guarded_disconnect`. -/
  | clearing
  | ended
deriving DecidableEq

/-- Where a session stands. -/
inductive SessionPhase where
  /-- `_done` is not set. -/
  | live
  /-- In `_join_session_tasks`. -/
  | joining
  /-- In the `close` of the connection. -/
  | closing
  /-- In `_teardown`. -/
  | tearing
  /-- `_finished` is set. -/
  | finished
deriving DecidableEq

/-- An accepted socket. -/
structure Client where
  setupGen : Nat
  accept : AcceptPhase := .upgrading
  /-- How often `on_connect` has been called. -/
  connects : Nat := 0
  /-- How often `on_disconnect` has been called. -/
  disconnects : Nat := 0
  session : Option SessionPhase := none
deriving DecidableEq

/-- Its handler is handed to `_guarded_disconnect`. -/
def Client.clear (c : Client) : Client :=
  { c with accept := .clearing, disconnects := c.disconnects + 1 }

inductive CallPhase where
  /-- Its task has not begun. -/
  | created
  /-- It has set `_done`. -/
  | winning
  /-- In `_finished.wait()`. -/
  | waiting
  | ended
  /-- It was cancelled before it began or while it waited. -/
  | abandoned
deriving DecidableEq

/-- A call of `finish`. -/
structure FinishCall where
  client : Nat
  /-- It is made by a task of the session. -/
  own : Bool
  phase : CallPhase := .created
deriving DecidableEq

inductive StartPhase where
  /-- In `asyncio.start_server`. -/
  | binding
  /-- In the `wait_closed` of a listener that is not installed. -/
  | orphaned
  | ended
deriving DecidableEq

/-- A call of `start`. -/
structure Start where
  gen : Nat
  phase : StartPhase := .binding
deriving DecidableEq

/-- A call of `stop`, and what it waits for. -/
structure Stop where
  /-- How many sockets had been accepted. -/
  accepted : Nat
  /-- Its calls of `finish`. -/
  calls : List Nat
  /-- The accepts that it cancelled. -/
  setups : List Nat
deriving DecidableEq

structure TciServer where
  /-- The listener, known by the generation in which its start began. -/
  listener : Option Nat := none
  starting : Bool := false
  generation : Nat := 0
  clients : List Client := []
  /-- `_sessions`, oldest first. -/
  sessions : List Nat := []
  calls : List FinishCall := []
  starts : List Start := []
  stops : List Stop := []
deriving DecidableEq

namespace TciServer

inductive Action where
  | start
  /-- `asyncio.start_server` returns. -/
  | bound (i : Nat)
  | bindFails (i : Nat)
  /-- The wait for the orphan is over, or cut short by a cancellation. -/
  | orphanClosed (i : Nat) (cut : Bool)
  | stop
  | accept
  /-- The response to the upgrade has gone out. -/
  | upgraded (k : Nat)
  /-- The accept ends before `on_connect`. -/
  | declined (k : Nat)
  /-- `on_connect` returns. -/
  | connected (k : Nat)
  | connectFails (k : Nat)
  | cleared (k : Nat)
  /-- A call of `finish` is made. -/
  | finish (k : Nat) (own : Bool)
  /-- It begins. -/
  | run (j : Nat)
  /-- Its await is over. -/
  | proceed (j : Nat)
  | abandon (j : Nat)
deriving DecidableEq

def setClient (s : TciServer) (k : Nat) (c : Client) : TciServer :=
  { s with clients := s.clients.set k c }

def setCall (s : TciServer) (j : Nat) (call : FinishCall) (phase : CallPhase) : TciServer :=
  { s with calls := s.calls.set j { call with phase } }

def endStart (s : TciServer) (i : Nat) (start : Start) : TciServer :=
  { s with starts := s.starts.set i { start with phase := .ended } }

/-! ## Starts -/

/-- `start`, up to its first await. -/
def start (s : TciServer) : TciServer :=
  if s.listener ≠ none ∨ s.starting then s
  else { s with starting := true, starts := s.starts ++ [{ gen := s.generation }] }

/-- The flag is released by the owner of the generation. -/
def release (s : TciServer) (gen : Nat) : TciServer :=
  if s.generation = gen then { s with starting := false } else s

/-- `start`, when the listener is bound. -/
def bound (s : TciServer) (i : Nat) (start : Start) : TciServer :=
  if s.starting = false ∨ s.generation ≠ start.gen ∨ s.listener ≠ none then
    { s with starts := s.starts.set i { start with phase := .orphaned } }
  else
    let s := { s with listener := some start.gen }.release start.gen
    { s with generation := s.generation + 1 }.endStart i start

/-- What a start does next. -/
def startStep (s : TciServer) (i : Nat) (start : Start) : Action → Option TciServer
  | .bound _ => if start.phase = .binding then some (s.bound i start) else none
  | .bindFails _ =>
      if start.phase = .binding then some ((s.release start.gen).endStart i start) else none
  | .orphanClosed _ cut =>
      if start.phase ≠ .orphaned then none
      else if cut then some (s.endStart i start)
      else some ((s.release start.gen).endStart i start)
  | _ => none

/-! ## Accepts -/

/-- `_accept_request`, up to its first await. -/
def accept (s : TciServer) : TciServer :=
  if s.listener = none ∧ 0 < s.generation then s
  else { s with clients := s.clients ++ [{ setupGen := s.generation }] }

/-- `_accept_request`, when the response has gone out. -/
def upgraded (s : TciServer) (k : Nat) (c : Client) : TciServer :=
  if s.generation ≠ c.setupGen then s.setClient k { c with accept := .ended }
  else s.setClient k { c with accept := .connecting, connects := c.connects + 1 }

/-- `_open_session`, when `on_connect` has returned. -/
def connected (s : TciServer) (k : Nat) (c : Client) : TciServer :=
  if s.generation ≠ c.setupGen then s.setClient k c.clear
  else { s.setClient k { c with accept := .ended, session := some .live } with
    sessions := s.sessions ++ [k] }

/-- What an accept does next. -/
def acceptStep (s : TciServer) (k : Nat) (c : Client) : Action → Option TciServer
  | .upgraded _ => if c.accept = .upgrading then some (s.upgraded k c) else none
  | .declined _ =>
      if c.accept = .upgrading then some (s.setClient k { c with accept := .ended }) else none
  | .connected _ => if c.accept = .connecting then some (s.connected k c) else none
  | .connectFails _ => if c.accept = .connecting then some (s.setClient k c.clear) else none
  | .cleared _ =>
      if c.accept = .clearing then some (s.setClient k { c with accept := .ended }) else none
  | _ => none

/-! ## Calls of `finish` -/

/-- `finish`, up to its first await. -/
def run (s : TciServer) (j : Nat) (call : FinishCall) (c : Client) : Option TciServer :=
  match c.session with
  | none => none
  | some .live =>
      some ((s.setClient call.client { c with session := some .joining }).setCall j call .winning)
  | some .joining | some .closing | some .tearing | some .finished =>
      some (s.setCall j call (if call.own then .ended else .waiting))

/-- The `finish` that has set `_done`, when its await is over. -/
def wind (s : TciServer) (j : Nat) (call : FinishCall) (c : Client) : Option TciServer :=
  match c.session with
  | some .joining => some (s.setClient call.client { c with session := some .closing })
  | some .closing =>
      some (s.setClient call.client
        { c with session := some .tearing, disconnects := c.disconnects + 1 })
  | some .tearing =>
      let s := s.setClient call.client { c with session := some .finished }
      some ({ s with sessions := s.sessions.erase call.client }.setCall j call .ended)
  | none | some .live | some .finished => none

/-- What a call of `finish` does next. -/
def callStep (s : TciServer) (j : Nat) (call : FinishCall) (c : Client) :
    Action → Option TciServer
  | .run _ => if call.phase = .created then s.run j call c else none
  | .proceed _ =>
      match call.phase with
      | .winning => s.wind j call c
      | .waiting => if c.session = some .finished then some (s.setCall j call .ended) else none
      | .created | .ended | .abandoned => none
  | .abandon _ =>
      if call.phase = .created ∨ call.phase = .waiting then some (s.setCall j call .abandoned)
      else none
  | _ => none

/-! ## The server -/

/-- The accepts that have not ended. -/
def setups (s : TciServer) : List Nat :=
  (List.range s.clients.length).filter fun k => s.clients[k]?.any fun c => c.accept ≠ .ended

/-- What a `stop` waits for. -/
def awaited (s : TciServer) : Stop where
  accepted := s.clients.length
  calls := List.range' s.calls.length s.sessions.length
  setups := s.setups

/-- `stop`, up to its first await. -/
def stop (s : TciServer) : TciServer :=
  { s with
    generation := s.generation + 1
    starting := false
    listener := none
    calls := s.calls ++ s.sessions.map fun k => { client := k, own := false }
    stops := s.stops ++ [s.awaited] }

def step (s : TciServer) (action : Action) : Option TciServer :=
  match action with
  | .start => some s.start
  | .stop => some s.stop
  | .accept => some s.accept
  | .finish k own =>
      if s.clients[k]?.any fun c => c.session.isSome then
        some { s with calls := s.calls ++ [{ client := k, own }] }
      else none
  | .bound i | .bindFails i | .orphanClosed i _ =>
      s.starts[i]?.bind fun start => s.startStep i start action
  | .upgraded k | .declined k | .connected k | .connectFails k | .cleared k =>
      s.clients[k]?.bind fun c => s.acceptStep k c action
  | .run j | .proceed j | .abandon j =>
      s.calls[j]?.bind fun call => s.clients[call.client]?.bind fun c => s.callStep j call c action

end TciServer

end Rigplane.Tci
