import Rigplane.Civ.Frame
import Rigplane.Clock
import Rigplane.Lib.Runs

/-!
# The CI-V request tracker

`CivRequestTracker` of `core/civ.py`: the waiters for an answer of the radio, and what an answer
that arrives does to them.

Futures have numbers, in the order in which they are made, and the clock is read once in a call.
`completions` lists the futures that got a frame.  It is a history that no method reads, with the
number of the event that brought each frame (`events` counts them).  The Boolean values and the
counts that methods return are left out.
-/

namespace Rigplane.Civ

/-! ## Events and keys -/

inductive CivEventType where
  | ack
  | nak
  | response
  | scopeChunk
  | scopeFrame
deriving DecidableEq

structure CivEvent where
  type : CivEventType
  frame : Option CivFrame := none
  receiver : Option UInt8 := none
deriving DecidableEq

structure CivRequestKey where
  command : UInt8
  sub : Option UInt8
  receiver : Option UInt8 := none
  dataPrefix : List UInt8 := []
deriving DecidableEq

/-- `_REQUEST_DATA_PREFIX_COMMANDS`. -/
def requestDataPrefixCommands : List UInt8 := [0x07, 0x25, 0x26]

/-- `_BROADCAST_ADDR`. -/
def broadcastAddr : UInt8 := 0x00

/-- `_REQUEST_DATA_PREFIX_LENGTHS.get((command, sub), ())`. -/
def requestDataPrefixLengths (command : UInt8) (sub : Option UInt8) : List Nat :=
  if command = 0x1A ∧ sub = some 0x00 then [3, 4] else []

/-- `request_key_from_frame`. -/
def requestKeyFromFrame (frame : CivFrame) : CivRequestKey where
  command := frame.command
  sub := frame.sub
  receiver := frame.receiver
  dataPrefix :=
    if requestDataPrefixCommands.contains frame.command ∨
        frame.data.length ∈ requestDataPrefixLengths frame.command frame.sub then frame.data
    else []

/-- `read_identity_from_frame`. -/
def readIdentityFromFrame (frame : CivFrame) : CivRequestKey where
  command := frame.command
  sub := frame.sub
  receiver := frame.receiver
  dataPrefix := frame.data

/-- `_matches`. -/
def CivRequestKey.accepts (key : CivRequestKey) (frame : CivFrame) : Bool :=
  frame.command == key.command && frame.sub == key.sub &&
    (key.receiver == none || frame.receiver == key.receiver) &&
    (key.dataPrefix.isEmpty || key.dataPrefix.isPrefixOf frame.data)

theorem CivRequestKey.accepts_iff {key : CivRequestKey} {frame : CivFrame} :
    key.accepts frame = true ↔ frame.command = key.command ∧ frame.sub = key.sub ∧
      (key.receiver = none ∨ frame.receiver = key.receiver) ∧ key.dataPrefix <+: frame.data := by
  have hempty : (key.dataPrefix.isEmpty || key.dataPrefix.isPrefixOf frame.data) = true ↔
      key.dataPrefix <+: frame.data := by
    rw [Bool.or_eq_true, List.isEmpty_iff, List.isPrefixOf_iff_prefix]
    refine or_iff_right_of_imp fun hnil => ?_
    rw [hnil]
    exact List.nil_prefix
  simp only [accepts, Bool.and_eq_true, hempty, beq_iff_eq, Bool.or_eq_true, and_assoc]

/-- What answers the whole identity of a read answers its key. -/
theorem requestKey_accepts {request answer : CivFrame}
    (h : (readIdentityFromFrame request).accepts answer = true) :
    (requestKeyFromFrame request).accepts answer = true := by
  obtain ⟨hcommand, hsub, hreceiver, hdata⟩ := CivRequestKey.accepts_iff.mp h
  refine CivRequestKey.accepts_iff.mpr ⟨hcommand, hsub, hreceiver, ?_⟩
  rw [requestKeyFromFrame]
  split
  · exact hdata
  · exact List.nil_prefix

/-- Where the key of a command keeps the data of its reads, one answer does not answer two reads
with other data of one length. -/
theorem requestKey_selects {request other answer : CivFrame}
    (hkept : requestDataPrefixCommands.contains request.command = true ∨
      request.data.length ∈ requestDataPrefixLengths request.command request.sub)
    (hlength : other.data.length = request.data.length)
    (h : (requestKeyFromFrame request).accepts answer = true)
    (hother : (requestKeyFromFrame other).accepts answer = true) : other.data = request.data := by
  obtain ⟨hcommand, hsub, -, hdata⟩ := CivRequestKey.accepts_iff.mp h
  obtain ⟨hcommand', hsub', -, hdata'⟩ := CivRequestKey.accepts_iff.mp hother
  have hsame : other.command = request.command := hcommand'.symm.trans hcommand
  have hsame' : other.sub = request.sub := hsub'.symm.trans hsub
  have hkept' : requestDataPrefixCommands.contains other.command = true ∨
      other.data.length ∈ requestDataPrefixLengths other.command other.sub := by
    rw [hsame, hsame', hlength]
    exact hkept
  rw [requestKeyFromFrame, if_pos hkept] at hdata
  rw [requestKeyFromFrame, if_pos hkept'] at hdata'
  exact (List.prefix_of_prefix_length_le hdata' hdata hlength.le).eq_of_length hlength

/-! ## Waiters -/

/-- The exceptions that a future is failed with. -/
inductive Failure where
  /-- `TimeoutError("CI-V ACK waiter expired")`. -/
  | ackExpired
  /-- `TimeoutError("CI-V response waiter expired")`. -/
  | responseExpired
  /-- The exception given to `fail_all`. -/
  | given (text : String)
deriving DecidableEq

/-- An `asyncio.Future[CivFrame]`. -/
inductive Future where
  | pending
  | result (frame : CivFrame)
  | failed (failure : Failure)
  | cancelled
deriving DecidableEq

def Future.done : Future → Bool
  | .pending => false
  | _ => true

/-- `_AckWaiter`; a sink has no future. -/
structure AckWaiter where
  future : Option Nat
  token : Nat
  created : Time
  generation : Nat
  nakOnly : Bool := false
  responseKey : Option CivRequestKey := none
  refusedRead : Option CivRequestKey := none
deriving DecidableEq

/-- Whether the frame retires the waiter as a keyed sink. -/
def AckWaiter.retiredBy (waiter : AckWaiter) (frame : CivFrame) : Bool :=
  match waiter.responseKey with
  | some key => key.accepts frame
  | none => false

/-- `_PendingRequest`. -/
structure PendingRequest where
  key : CivRequestKey
  future : Nat
  created : Time
  generation : Nat
deriving DecidableEq

/-- `_AckBacklogEntry`, with the event that brought the frame and the generation of the frame. -/
structure AckBacklogEntry where
  frame : CivFrame
  created : Time
  generation : Nat
  event : Nat
  frameGeneration : Nat
deriving DecidableEq

/-- A future that got a frame. -/
structure Completion where
  event : Nat
  future : Nat
  frame : CivFrame
  /-- The generation of the frame. -/
  frameGeneration : Nat
  /-- The generation in which its waiter was registered. -/
  generation : Nat
deriving DecidableEq

structure CivRequestTracker where
  staleTtl : Time := 10
  ackBacklogSize : Nat := 16
  ackBacklogTtl : Time := 1
  ackWaiters : List AckWaiter := []
  responseWaiters : List PendingRequest := []
  ackBacklog : List AckBacklogEntry := []
  nextAckToken : Nat := 1
  generation : Nat := 0
  staleCleanedTotal : Nat := 0
  timeoutCount : Nat := 0
  ackBacklogHits : Nat := 0
  ackBacklogDrops : Nat := 0
  ackOrphans : Nat := 0
  ackUnclaimedAt : Option Time := none
  refusedReads : List CivRequestKey := []
  futures : Nat → Future := fun _ => .pending
  /-- The number of futures made. -/
  made : Nat := 0
  events : Nat := 0
  completions : List Completion := []

namespace CivRequestTracker

/-- `future.set_result(frame)`. -/
def setResult (t : CivRequestTracker) (future : Nat) (frame : CivFrame)
    (event frameGeneration generation : Nat) : CivRequestTracker :=
  { t with
    futures := Function.update t.futures future (.result frame)
    completions := t.completions ++ [⟨event, future, frame, frameGeneration, generation⟩] }

/-- `set_exception` on those of the futures that are not done. -/
def failFutures (futures : Nat → Future) (failure : Failure) : List Nat → Nat → Future
  | [] => futures
  | future :: rest =>
      failFutures (if (futures future).done then futures
        else Function.update futures future (.failed failure)) failure rest

/-! ## The backlog -/

/-- `_prune_ack_backlog`, on the entries from the oldest on: what stays, and
how many are dropped. -/
def pruneEntries (generation : Nat) (ttl cutoff : Time) :
    List AckBacklogEntry → List AckBacklogEntry × Nat
  | [] => ([], 0)
  | head :: rest =>
      if head.generation ≠ generation then
        let (kept, drops) := pruneEntries generation ttl cutoff rest
        (kept, drops + 1)
      else if 0 < ttl ∧ cutoff < head.created then (head :: rest, 0)
      else
        let (kept, drops) := pruneEntries generation ttl cutoff rest
        (kept, drops + 1)

/-- `_prune_ack_backlog`. -/
def pruneAckBacklog (t : CivRequestTracker) (now : Time) : CivRequestTracker :=
  let (kept, drops) :=
    pruneEntries t.generation t.ackBacklogTtl (now - t.ackBacklogTtl) t.ackBacklog
  { t with ackBacklog := kept, ackBacklogDrops := t.ackBacklogDrops + drops }

/-- `_pop_matching_ack_backlog`: the entry, and the entries left. -/
def popMatching (nakOnly : Bool) :
    List AckBacklogEntry → Option (AckBacklogEntry × List AckBacklogEntry)
  | [] => none
  | entry :: rest =>
      if nakOnly ∧ entry.frame.command ≠ 0xFA then
        (popMatching nakOnly rest).map fun (found, left) => (found, entry :: left)
      else some (entry, rest)

/-! ## Registration -/

/-- The arguments of `register_ack`. -/
structure AckArgs where
  wait : Bool := true
  consumeBacklog : Bool := true
  nakOnly : Bool := false
  responseKey : Option CivRequestKey := none
  refusedRead : Option CivRequestKey := none
deriving DecidableEq

/-- `register_ack`. -/
def registerAck (t : CivRequestTracker) (args : AckArgs) (now : Time) : CivRequestTracker :=
  let token := t.nextAckToken
  let t := { t with nextAckToken := token + 1 }.pruneAckBacklog now
  if args.wait then
    let future := t.made
    let t := { t with made := future + 1, futures := Function.update t.futures future .pending }
    match if args.consumeBacklog then popMatching args.nakOnly t.ackBacklog else none with
    | some (cached, left) =>
        { t with ackBacklog := left, ackBacklogHits := t.ackBacklogHits + 1 }.setResult future
          cached.frame cached.event cached.frameGeneration t.generation
    | none =>
        { t with ackWaiters := t.ackWaiters ++
            [{ future := some future, token, created := now, generation := t.generation
               nakOnly := args.nakOnly }] }
  else
    { t with ackWaiters := t.ackWaiters ++
        [{ future := none, token, created := now, generation := t.generation
           responseKey := args.responseKey, refusedRead := args.refusedRead }] }

/-- `register_response`. -/
def registerResponse (t : CivRequestTracker) (key : CivRequestKey) (now : Time) :
    CivRequestTracker :=
  { t with
    made := t.made + 1
    futures := Function.update t.futures t.made .pending
    responseWaiters := t.responseWaiters ++ [⟨key, t.made, now, t.generation⟩] }

/-- `unregister`. -/
def unregister (t : CivRequestTracker) (future : Nat) : CivRequestTracker :=
  { t with
    ackWaiters := t.ackWaiters.filter (·.future ≠ some future)
    responseWaiters := t.responseWaiters.filter (·.future ≠ future) }

/-- `unregister_ack_sink`, which removes the first sink of the token. -/
def unregisterAckSink (t : CivRequestTracker) (token : Nat) : CivRequestTracker :=
  { t with ackWaiters := t.ackWaiters.eraseP fun w => w.token = token ∧ w.future = none }

/-- `note_ack_unclaimed`. -/
def noteAckUnclaimed (t : CivRequestTracker) (now : Time) : CivRequestTracker :=
  { t with ackUnclaimedAt := some now }

/-- `drop_ack_sinks`. -/
def dropAckSinks (t : CivRequestTracker) (now : Time) : CivRequestTracker :=
  let unclaimed := t.ackWaiters.any fun w => w.future.isNone && w.responseKey.isNone
  let t := if unclaimed then t.noteAckUnclaimed now else t
  { t with ackWaiters := t.ackWaiters.filter (·.future.isSome) }

/-- `drop_ack_backlog`. -/
def dropAckBacklog (t : CivRequestTracker) : CivRequestTracker :=
  { t with ackBacklog := [], ackBacklogDrops := t.ackBacklogDrops + t.ackBacklog.length }

/-- The futures of the list that are not done. -/
def unfinished (futures : Nat → Future) (list : List Nat) : List Nat :=
  list.filter fun future => !(futures future).done

/-- `cleanup_stale`. -/
def cleanupStale (t : CivRequestTracker) (now : Time) : CivRequestTracker :=
  let cutoff := now - t.staleTtl
  let staleAck := t.ackWaiters.filter (·.created ≤ cutoff)
  let expired := unfinished t.futures (staleAck.filterMap (·.future))
  let futures := failFutures t.futures .ackExpired expired
  let staleResponse := t.responseWaiters.filter (·.created ≤ cutoff)
  let late := unfinished futures (staleResponse.map (·.future))
  { t with
    ackWaiters := t.ackWaiters.filter (cutoff < ·.created)
    responseWaiters := t.responseWaiters.filter (cutoff < ·.created)
    futures := failFutures futures .responseExpired late
    timeoutCount := t.timeoutCount + expired.length + late.length
    staleCleanedTotal := t.staleCleanedTotal + (staleAck.length + staleResponse.length) }

/-- `fail_all`. -/
def failAll (t : CivRequestTracker) (text : String) : CivRequestTracker :=
  let futures := failFutures t.futures (.given text) (t.ackWaiters.filterMap (·.future))
  { t with
    ackWaiters := []
    ackBacklog := []
    refusedReads := []
    responseWaiters := []
    futures := failFutures futures (.given text) (t.responseWaiters.map (·.future)) }

/-- `advance_generation`. -/
def advanceGeneration (t : CivRequestTracker) (exc : Option String) : CivRequestTracker :=
  let t := t.failAll (exc.getD "CI-V tracker generation advanced")
  { t with generation := t.generation + 1 }

/-! ## Resolving -/

/-- The loop of `resolve` over the ACK waiters: the waiter that takes the frame, and the list that
is left. -/
def takeAck (generation : Nat) (nak : Bool) (futures : Nat → Future) :
    List AckWaiter → Option AckWaiter × List AckWaiter
  | [] => (none, [])
  | waiter :: rest =>
      if waiter.generation ≠ generation then takeAck generation nak futures rest
      else if waiter.nakOnly ∧ ¬ nak then
        let (found, left) := takeAck generation nak futures rest
        (found, waiter :: left)
      else
        match waiter.future with
        | some future =>
            if (futures future).done then takeAck generation nak futures rest
            else (some waiter, rest)
        | none => (some waiter, rest)

/-- The end of `resolve` for an ACK or NAK that no waiter takes. -/
def parkAck (t : CivRequestTracker) (frame : CivFrame) (event frameGeneration : Nat) (now : Time) :
    CivRequestTracker :=
  let t := { t with ackOrphans := t.ackOrphans + 1 }
  if t.ackBacklogSize = 0 then { t with ackBacklogDrops := t.ackBacklogDrops + 1 }
  else
    let t :=
      if t.ackBacklogSize ≤ t.ackBacklog.length then
        { t with ackBacklog := t.ackBacklog.drop 1, ackBacklogDrops := t.ackBacklogDrops + 1 }
      else t
    { t with ackBacklog := t.ackBacklog ++ [⟨frame, now, t.generation, event, frameGeneration⟩] }

/-- `resolve` for an ACK or NAK. -/
def resolveAck (t : CivRequestTracker) (nak : Bool) (frame : CivFrame)
    (event frameGeneration : Nat) (now : Time) : CivRequestTracker :=
  let t := t.pruneAckBacklog now
  let (found, left) := takeAck t.generation nak t.futures t.ackWaiters
  let t := { t with ackWaiters := left }
  match found with
  | some waiter =>
      match waiter.future with
      | some future => t.setResult future frame event frameGeneration waiter.generation
      | none =>
          match nak, waiter.refusedRead with
          | true, some read => { t with refusedReads := t.refusedReads ++ [read] }
          | _, _ => t
  | none => t.parkAck frame event frameGeneration now

/-- The loop of `resolve` over the response waiters. -/
def takeResponse (generation : Nat) (frame : CivFrame) :
    List PendingRequest → Option PendingRequest × List PendingRequest
  | [] => (none, [])
  | pending :: rest =>
      if pending.generation ≠ generation then takeResponse generation frame rest
      else if pending.key.accepts frame then (some pending, rest)
      else
        let (found, left) := takeResponse generation frame rest
        (found, pending :: left)

/-- `_retire_sinks_passed_by`, on the waiters before the answered one. -/
def retirePassedBy (t : CivRequestTracker) (before after : List AckWaiter) (now : Time) :
    CivRequestTracker :=
  let unclaimed := before.any fun w => w.future.isNone && w.responseKey.isNone
  let t := if unclaimed then t.noteAckUnclaimed now else t
  { t with ackWaiters := before.filter (·.future.isSome) ++ after }

/-- The end of `resolve` for a response that no response waiter matches. -/
def retireSink (t : CivRequestTracker) (frame : CivFrame) (orderedIngress : Bool) (now : Time) :
    CivRequestTracker :=
  if frame.toAddr = broadcastAddr then t
  else
    match t.ackWaiters.findIdx? (·.retiredBy frame) with
    | none => t
    | some index =>
        if orderedIngress then
          t.retirePassedBy (t.ackWaiters.take index) (t.ackWaiters.drop (index + 1)) now
        else { t with ackWaiters := t.ackWaiters.take index ++ t.ackWaiters.drop (index + 1) }

/-- `resolve` for a response. -/
def resolveResponse (t : CivRequestTracker) (frame : CivFrame) (event frameGeneration : Nat)
    (orderedIngress : Bool) (now : Time) : CivRequestTracker :=
  let (found, left) := takeResponse t.generation frame t.responseWaiters
  let t := { t with responseWaiters := left }
  match found with
  | some pending =>
      if (t.futures pending.future).done then t
      else t.setResult pending.future frame event frameGeneration pending.generation
  | none => t.retireSink frame orderedIngress now

/-- `resolve` for a frame of the present generation. -/
def resolveFrame (t : CivRequestTracker) (type : CivEventType) (frame : CivFrame)
    (event frameGeneration : Nat) (orderedIngress : Bool) (now : Time) : CivRequestTracker :=
  match type with
  | .ack => t.resolveAck false frame event frameGeneration now
  | .nak => t.resolveAck true frame event frameGeneration now
  | .response => t.resolveResponse frame event frameGeneration orderedIngress now
  | _ => t

/-- `resolve`. -/
def resolve (t : CivRequestTracker) (event : CivEvent) (generation : Option Nat)
    (orderedIngress : Bool) (now : Time) : CivRequestTracker :=
  let number := t.events
  let t := { t with events := number + 1 }
  -- A frame without a tag is one of the present generation.
  let frameGeneration := generation.getD t.generation
  if frameGeneration ≠ t.generation then t
  else
    match event.frame with
    | none => t
    | some frame =>
        t.resolveFrame event.type frame number frameGeneration orderedIngress now

/-! ## The system -/

inductive Action where
  | registerAck (args : AckArgs) (now : Time)
  | registerResponse (key : CivRequestKey) (now : Time)
  | unregister (future : Nat)
  | unregisterAckSink (token : Nat)
  | dropAckSinks (now : Time)
  | dropAckBacklog
  | cleanupStale (now : Time)
  | failAll (text : String)
  | advanceGeneration (exc : Option String)
  | resolve (event : CivEvent) (generation : Option Nat) (orderedIngress : Bool) (now : Time)
  | takeRefusedReads
  | noteTimeout
  | noteAckUnclaimed (now : Time)
  /-- The caller that waits for the future is cancelled or times out. -/
  | cancel (future : Nat)
deriving DecidableEq

def step (t : CivRequestTracker) : Action → Option CivRequestTracker
  | .registerAck args now => some (t.registerAck args now)
  | .registerResponse key now => some (t.registerResponse key now)
  | .unregister future => some (t.unregister future)
  | .unregisterAckSink token => some (t.unregisterAckSink token)
  | .dropAckSinks now => some (t.dropAckSinks now)
  | .dropAckBacklog => some t.dropAckBacklog
  | .cleanupStale now => some (t.cleanupStale now)
  | .failAll text => some (t.failAll text)
  | .advanceGeneration exc => some (t.advanceGeneration exc)
  | .resolve event generation orderedIngress now =>
      some (t.resolve event generation orderedIngress now)
  | .takeRefusedReads => some { t with refusedReads := [] }
  | .noteTimeout => some { t with timeoutCount := t.timeoutCount + 1 }
  | .noteAckUnclaimed now => some (t.noteAckUnclaimed now)
  | .cancel future =>
      if future < t.made ∧ (t.futures future).done = false then
        some { t with futures := Function.update t.futures future .cancelled }
      else none

/-- The tracker of `__init__`, whose size and time to live are not negative. -/
def init (staleTtl : Time) (ackBacklogSize : Nat) (ackBacklogTtl : Time) : CivRequestTracker :=
  { staleTtl, ackBacklogSize, ackBacklogTtl }

end CivRequestTracker

end Rigplane.Civ
