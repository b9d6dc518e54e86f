import Mathlib.Logic.Function.Basic
import Rigplane.Lib.Runs

/-!
# The serial CI-V link

The writing half of `SerialCivLink` of `backends/icom7610/drivers/serial_civ_link.py`:
`send_written`, the worker that writes, and the connects and disconnects that replace the queue,
the writer and the worker of the link.

A session is a number.  It stands for a writer and for the worker of that writer, which `connect`
sets together and `_retire_writer` clears together.  A queue is a number too: a queue outlives its
place in the link, as its worker and the requests that captured it still use it.  A step is what one
task does between two awaits.  The answer of a guard and the outcome of a write are given with the
step, and so is the end of the stream, which a read may find at any time, also one of an earlier
session.

`retired`, `writes` and `drains` list what has happened.  No operation reads them.  The reader, the
frames, the bytes of a payload and `_healthy` are left out.
-/

namespace Rigplane.SerialCiv

/-- What `is_current` of a request answers. -/
inductive Answer where
  /-- It is true, or there is no guard. -/
  | passes
  | refuses
  | raises (error : String)
deriving DecidableEq

/-- How a write or its drain ends. -/
inductive Outcome where
  | ok
  /-- An `OSError` or a `RuntimeError`. -/
  | recoverable (error : String)
  | unrecoverable (error : String)
deriving DecidableEq

/-- The future of a request. -/
inductive Result where
  | pending
  | written
  | failed (error : String)
  | cancelled
deriving DecidableEq

inductive CallPhase where
  /-- It sleeps, as the queue is full. -/
  | trying
  /-- It awaits the result. -/
  | waiting
  | returned
  | raised (error : String)
  | cancelled
deriving DecidableEq

/-- A `send_written` and its `_WriteRequest`. -/
structure Call where
  /-- The queue and the session that it captured. -/
  queue : Nat
  session : Nat
  phase : CallPhase := .trying
  /-- The request was put in the queue. -/
  submitted : Bool := false
  result : Result := .pending
  started : Bool := false
  /-- A cancellation is on its way to it. -/
  cancelling : Bool := false
deriving DecidableEq

/-- What a queue holds: a payload of `send`, or the request of a call. -/
inductive Item where
  | payload
  | request (call : Nat)
deriving DecidableEq

inductive WorkerPhase where
  | created
  /-- At `queue.get()`. -/
  | getting
  | draining (item : Item)
  /-- At the `sleep(0)` that follows a recoverable error. -/
  | sleeping
  | done
deriving DecidableEq

structure Worker where
  queue : Nat := 0
  phase : WorkerPhase := .done
  cancelling : Bool := false
deriving DecidableEq

/-- A write of the request of a call, and what held when it was made. -/
structure Write where
  call : Nat
  session : Nat
  current : Bool
  answer : Answer
deriving DecidableEq

/-- A drain that ended without an error. -/
structure Drain where
  call : Nat
  session : Nat
  current : Bool
deriving DecidableEq

structure SerialCivLink where
  maxWriteQueue : Nat
  connected : Bool := false
  /-- `_writer` and `_writer_task`. -/
  session : Option Nat := none
  writeQueue : Nat := 0
  /-- The session of `_retirement`. -/
  retirement : Option Nat := none
  queues : Nat → List Item := fun _ => []
  workers : Nat → Worker := fun _ => {}
  calls : Nat → Call := fun _ => { queue := 0, session := 0 }
  /-- How many queues, sessions and calls there are. -/
  made : Nat := 1
  opened : Nat := 0
  sent : Nat := 0
  /-- The `connect`s that await their opener. -/
  connecting : Nat := 0
  /-- The sessions that `_retire_writer` has taken up. -/
  retired : List Nat := []
  writes : List Write := []
  drains : List Drain := []

/-- Sets the result of a request that is not done. -/
def Call.complete (call : Call) (result : Result) : Call :=
  if call.result = .pending then { call with result := result } else call

/-- The request at an item, if it is one. -/
def Item.call : Item → Option Nat
  | .payload => none
  | .request c => some c

namespace SerialCivLink

/-! ## Parts of the link -/

def modifyCall (s : SerialCivLink) (c : Nat) (f : Call → Call) : SerialCivLink :=
  { s with calls := Function.update s.calls c (f (s.calls c)) }

def setQueue (s : SerialCivLink) (queue : Nat) (items : List Item) : SerialCivLink :=
  { s with queues := Function.update s.queues queue items }

def setWorker (s : SerialCivLink) (n : Nat) (worker : Worker) : SerialCivLink :=
  { s with workers := Function.update s.workers n worker }

def setPhase (s : SerialCivLink) (n : Nat) (phase : WorkerPhase) : SerialCivLink :=
  s.setWorker n { s.workers n with phase := phase }

def full (s : SerialCivLink) (queue : Nat) : Bool :=
  decide (s.maxWriteQueue ≤ (s.queues queue).length)

/-- Sets the result of the request at an item, if it is one that is not done. -/
def complete (s : SerialCivLink) (item : Item) (result : Result) : SerialCivLink :=
  match item with
  | .payload => s
  | .request c => s.modifyCall c fun call => call.complete result

/-- `request.started = False`. -/
def stop (s : SerialCivLink) (item : Item) : SerialCivLink :=
  match item with
  | .payload => s
  | .request c => s.modifyCall c fun call => { call with started := false }

/-- `_write_session_is_current`. -/
def writeSessionIsCurrent (s : SerialCivLink) (queue session : Nat) : Bool :=
  s.connected && s.session == some session && s.writeQueue == queue

/-- `_reset_session_buffers`. -/
def resetSessionBuffers (s : SerialCivLink) : SerialCivLink :=
  { s.setQueue s.made [] with writeQueue := s.made, made := s.made + 1 }

/-- `_fail_queued_writes`. -/
def failQueuedWrites (s : SerialCivLink) (queue : Nat) : SerialCivLink :=
  ((s.queues queue).foldl (fun s item => s.complete item (.failed "Serial writer retired."))
    s).setQueue queue []

/-! ## Connecting and retiring -/

/-- `connect` up to the await of its opener. -/
def connect (s : SerialCivLink) : SerialCivLink :=
  if s.connected then s else { s.resetSessionBuffers with connecting := s.connecting + 1 }

/-- The opener of a `connect` has returned: the rest of it, with the next session. -/
def connectOpened (s : SerialCivLink) : SerialCivLink :=
  { s.setWorker s.opened { queue := s.writeQueue, phase := .created } with
    connecting := s.connecting - 1
    connected := true
    session := some s.opened
    opened := s.opened + 1 }

/-- The current session leaves the link. -/
def detach (s : SerialCivLink) : SerialCivLink :=
  { s with connected := false, session := none }.resetSessionBuffers

/-- `worker.cancel()`, where it has not ended and is not being cancelled. -/
def cancelWorker (s : SerialCivLink) (n : Nat) : SerialCivLink :=
  if (s.workers n).phase ≠ .done ∧ (s.workers n).cancelling = false then
    s.setWorker n { s.workers n with cancelling := true }
  else s

/-- `_retire_writer` up to the await of the worker. -/
def retireWriter (s : SerialCivLink) (queue session : Nat) : SerialCivLink :=
  if s.retirement = some session then s
  else
    let detached :=
      if s.session = some session ∧ s.writeQueue = queue then s.detach else s
    { (detached.failQueuedWrites queue).cancelWorker session with
      retirement := some session
      retired := session :: s.retired }

def disconnect (s : SerialCivLink) : SerialCivLink :=
  match s.session with
  | none => s
  | some n => s.retireWriter s.writeQueue n

/-! ## `send_written` -/

/-- A call ends with an error. -/
def raise (s : SerialCivLink) (c : Nat) (error : String) : SerialCivLink :=
  s.modifyCall c fun call => { call with phase := .raised error }

/-- One pass of the loop that puts the request in the queue. -/
def put (s : SerialCivLink) (c : Nat) (answer : Answer) : SerialCivLink :=
  let queue := (s.calls c).queue
  if s.writeSessionIsCurrent queue (s.calls c).session then
    match answer with
    | .refuses => s.raise c "Serial CI-V write is no longer current."
    | .raises error => s.raise c error
    | .passes =>
        if s.full queue then s
        else
          (s.setQueue queue (s.queues queue ++ [.request c])).modifyCall c fun call =>
            { call with phase := .waiting, submitted := true }
  else s.raise c "Serial write session is no longer current."

/-- `send_written`.  Where no worker runs it raises, and there is no request. -/
def sendWritten (s : SerialCivLink) (answer : Answer) : SerialCivLink :=
  match s.session with
  | none => s
  | some n =>
      if (s.workers n).phase = .done then s
      else
        { s with
          calls := Function.update s.calls s.sent { queue := s.writeQueue, session := n }
          sent := s.sent + 1 }.put s.sent answer

/-- The handler of a cancellation. -/
def cancelled (s : SerialCivLink) (c : Nat) : SerialCivLink :=
  let ended := s.modifyCall c fun call => { call.complete .cancelled with phase := .cancelled }
  if (s.calls c).started then ended.retireWriter (s.calls c).queue (s.calls c).session else ended

/-- A call goes on, from the sleep of its loop or with its result. -/
def resume (s : SerialCivLink) (c : Nat) (answer : Answer) : Option SerialCivLink :=
  match (s.calls c).phase, (s.calls c).cancelling, (s.calls c).result with
  | .trying, true, _ => some (s.cancelled c)
  | .trying, false, _ => if c < s.sent then some (s.put c answer) else none
  | .waiting, true, _ => some (s.cancelled c)
  | .waiting, false, .written =>
      some (s.modifyCall c fun call => { call with phase := .returned })
  | .waiting, false, .failed error => some (s.raise c error)
  | _, _, _ => none

/-- `task.cancel()` on a call: a future that it awaits is cancelled with it. -/
def cancel (s : SerialCivLink) (c : Nat) : Option SerialCivLink :=
  match (s.calls c).phase with
  | .trying =>
      if c < s.sent then some (s.modifyCall c fun call => { call with cancelling := true })
      else none
  | .waiting =>
      some (s.modifyCall c fun call => { call.complete .cancelled with cancelling := true })
  | _ => none

/-- One pass of `send`. -/
def send (s : SerialCivLink) : SerialCivLink :=
  if s.connected && !s.full s.writeQueue then
    s.setQueue s.writeQueue (s.queues s.writeQueue ++ [.payload])
  else s

/-! ## `_writer_loop` -/

/-- The end of the worker, with the item that it holds. -/
def finish (s : SerialCivLink) (n : Nat) (item : Item) : SerialCivLink :=
  ((s.complete item (.failed "Serial writer retired.")).failQueuedWrites
    (s.workers n).queue).setPhase n .done

/-- The writer of the worker is not the current one, or the worker is being cancelled. -/
def leaving (s : SerialCivLink) (n : Nat) : Bool :=
  !s.writeSessionIsCurrent (s.workers n).queue n || (s.workers n).cancelling

/-- `drain` has returned. -/
def drained (s : SerialCivLink) (n : Nat) (item : Item) : SerialCivLink :=
  let noted :=
    { s with
      drains := (item.call.toList.map fun c =>
        Drain.mk c n (s.writeSessionIsCurrent (s.workers n).queue n)) ++ s.drains }
  if s.leaving n then (noted.stop item).finish n item
  else ((noted.stop item).complete item .written).setPhase n .getting

/-- What follows the write and its drain. -/
def afterWrite (s : SerialCivLink) (n : Nat) (item : Item) : Outcome → SerialCivLink
  | .ok => s.drained n item
  | .recoverable error =>
      let failed := (s.stop item).complete item (.failed error)
      if s.leaving n then failed.finish n item else failed.setPhase n .sleeping
  | .unrecoverable error =>
      let failed := (s.stop item).complete item (.failed error)
      if s.writeSessionIsCurrent (s.workers n).queue n then
        { failed with connected := false }.finish n item
      else failed.finish n item

/-- `writer.write` of an item.  An error of it, or of the codec, does not wait for a drain. -/
def write (s : SerialCivLink) (n : Nat) (item : Item) (answer : Answer) (outcome : Outcome) :
    SerialCivLink :=
  let started :=
    match item with
    | .payload => s
    | .request c =>
        { s.modifyCall c fun call => { call with started := true } with
          writes :=
            ⟨c, n, s.writeSessionIsCurrent (s.workers n).queue n, answer⟩ :: s.writes }
  let writing := started.setPhase n (.draining item)
  match outcome with
  | .ok => writing
  | error => writing.afterWrite n item error

/-- The worker has got an item. -/
def gotItem (s : SerialCivLink) (n : Nat) (answer : Answer) (outcome : Outcome) :
    Item → SerialCivLink
  | .payload =>
      if s.writeSessionIsCurrent (s.workers n).queue n then s.write n .payload answer outcome
      else s.finish n .payload
  | .request c =>
      if (s.calls c).result ≠ .pending then s
      else if s.writeSessionIsCurrent (s.workers n).queue n then
        if (s.calls c).queue ≠ (s.workers n).queue ∨ (s.calls c).session ≠ n then
          s.complete (.request c) (.failed "Serial write session changed.")
        else
          match answer with
          | .refuses => s.complete (.request c) (.failed "Serial CI-V write is no longer current.")
          | .raises error => s.complete (.request c) (.failed error)
          | .passes => s.write n (.request c) answer outcome
      else s.finish n (.request c)

/-- `queue.get()` of a worker returns. -/
def workerGet (s : SerialCivLink) (n : Nat) (answer : Answer) (outcome : Outcome) :
    Option SerialCivLink :=
  if (s.workers n).phase = .getting ∧ (s.workers n).cancelling = false then
    match s.queues (s.workers n).queue with
    | [] => none
    | item :: rest => some ((s.setQueue (s.workers n).queue rest).gotItem n answer outcome item)
  else none

/-- The first step of a worker.  A task that is cancelled before it does not enter its `try`. -/
def workerBegin (s : SerialCivLink) (n : Nat) : Option SerialCivLink :=
  match (s.workers n).phase with
  | .created => some (s.setPhase n (if (s.workers n).cancelling then .done else .getting))
  | _ => none

/-- `CancelledError` reaches a worker. -/
def workerCancelled (s : SerialCivLink) (n : Nat) : Option SerialCivLink :=
  if (s.workers n).cancelling then
    match (s.workers n).phase with
    | .getting => some (s.finish n .payload)
    | .sleeping => some (s.finish n .payload)
    | .draining item => some ((s.stop item).finish n item)
    | _ => none
  else none

/-! ## Steps -/

inductive Action where
  | connect
  | connectOpened
  | connectFailed
  /-- A read finds the end of the stream. -/
  | endOfStream
  | disconnect
  /-- `_join_retirement` sees the end of the retirement. -/
  | retirementJoined
  | send
  | sendWritten (answer : Answer)
  | resume (call : Nat) (answer : Answer)
  | cancel (call : Nat)
  | workerBegin (session : Nat)
  | workerGet (session : Nat) (answer : Answer) (outcome : Outcome)
  | workerDrained (session : Nat) (outcome : Outcome)
  | workerCancelled (session : Nat)
  | workerSlept (session : Nat)
deriving DecidableEq

def step (s : SerialCivLink) : Action → Option SerialCivLink
  | .connect => some s.connect
  | .connectOpened => if 0 < s.connecting then some s.connectOpened else none
  | .connectFailed =>
      if 0 < s.connecting then some { s with connecting := s.connecting - 1 } else none
  | .endOfStream => some { s with connected := false }
  | .disconnect => some s.disconnect
  | .retirementJoined =>
      match s.retirement with
      | none => none
      | some n => if (s.workers n).phase = .done then some { s with retirement := none } else none
  | .send => some s.send
  | .sendWritten answer => some (s.sendWritten answer)
  | .resume c answer => s.resume c answer
  | .cancel c => s.cancel c
  | .workerBegin n => s.workerBegin n
  | .workerGet n answer outcome => s.workerGet n answer outcome
  | .workerDrained n outcome =>
      match (s.workers n).phase with
      | .draining item => some (s.afterWrite n item outcome)
      | _ => none
  | .workerCancelled n => s.workerCancelled n
  | .workerSlept n =>
      if (s.workers n).phase = .sleeping ∧ (s.workers n).cancelling = false then
        some (s.setPhase n .getting)
      else none

/-- A link that was never connected. -/
def init (maxWriteQueue : Nat) : SerialCivLink := { maxWriteQueue := maxWriteQueue }

end SerialCivLink

end Rigplane.SerialCiv
