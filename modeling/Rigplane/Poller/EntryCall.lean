import Rigplane.Lib.Runs

/-!
# The execution of one queue entry

`execute_command_queue_entry` of `runtime/_poller_types.py`: the call creates a child task for the
entry, waits for it behind a shield, and settles the entry's reply with what the child made.  It
may also have to cancel the entry's positive TX submission and wait for that.

The call runs from one await to the next in one step (`resume`).  Between, anything may happen in
any order: the child starts and ends, the reply is settled by others, the submission ends, and the
calling task is cancelled.  A cancellation at a shield ends that wait at once.  At a `gather` it is
handed to the submission, so that the wait ends with the submission, and then raises.
-/

namespace Rigplane.Poller

/-- `entry.command`, as far as the call looks. -/
inductive LeafCommand where
  | intent (source name : String)
  | other

/-- How the child ends. -/
inductive Leaf (α ε : Type) where
  | returned (a : α)
  /-- `invoke` found the reply cancelled. -/
  | skipped
  | raised (e : ε)
  | cancelled

inductive Child (α ε : Type) where
  | absent
  /-- Its first step is still to come. -/
  | created
  | running
  | done (leaf : Leaf α ε)

/-- `entry.future`. -/
inductive Reply (α ε : Type) where
  | pending
  | result (value : Option α)
  | exception (e : ε)
  | cancelled

/-- `entry.positive_tx_submission`. -/
inductive Submission where
  | absent
  | running
  | done
deriving DecidableEq

/-- Why the call waits for the submission. -/
inductive Cleanup (ε : Type) where
  | ofCancelledReply
  | ofCancellation
  | ofException (e : ε)

inductive Ending (ε : Type) where
  | returned
  | cancelled
  | raised (e : ε)

/-- The await at which the call is. -/
inductive CallPhase (ε : Type) where
  | entering
  /-- `shield(child)`. -/
  | joining
  /-- `shield(child)` after a cancellation of the calling task. -/
  | rejoining
  /-- `gather(submission)`. -/
  | clearing (cleanup : Cleanup ε)
  | ended (ending : Ending ε)

structure EntryCall (α ε : Type) where
  command : LeafCommand
  /-- `entry.positive_tx_ready` is given. -/
  positiveTxReady : Bool
  reply : Option (Reply α ε)
  submission : Submission
  child : Child α ε := .absent
  /-- `child.cancelling()`. -/
  childCancelling : Bool := false
  /-- `reply_cancel_callback` is registered with the reply. -/
  watched : Bool := false
  /-- The callback is scheduled. -/
  callbackDue : Bool := false
  phase : CallPhase ε := .entering
  /-- The calling task was cancelled since the call waits. -/
  cancelRequested : Bool := false
  /-- How others settled the reply; the call does not read it. -/
  byOthers : Option (Reply α ε)

variable {α ε : Type}

def Reply.isDone : Reply α ε → Bool
  | .pending => false
  | _ => true

def Reply.isCancelled : Reply α ε → Bool
  | .cancelled => true
  | _ => false

def Child.isDone : Child α ε → Bool
  | .done _ => true
  | _ => false

namespace EntryCall

/-- `reply is not None and reply.cancelled()`. -/
def replyCancelled (s : EntryCall α ε) : Bool := s.reply.any (·.isCancelled)

/-- `set_result`, `set_exception` or `cancel` of a reply that is not done. -/
def settle (reply : Reply α ε) (s : EntryCall α ε) : EntryCall α ε :=
  match s.reply with
  | some .pending =>
      { s with
        reply := some reply
        callbackDue := s.callbackDue || (s.watched && reply.isCancelled) }
  | _ => s

/-- `child.cancel()`. -/
def cancelChild (s : EntryCall α ε) : EntryCall α ε :=
  if s.child.isDone then s else { s with childCancelling := true }

/-- The callback is for a leaf of `rigctld` without a positive TX. -/
def watches (s : EntryCall α ε) : Bool :=
  s.reply.isSome && !s.positiveTxReady && s.submission == .absent &&
    match s.command with
    | .intent source name =>
        source == "rigctld" && (name == "set_split_freq" || name == "set_split_mode")
    | .other => false

/-- The next await. -/
def await (phase : CallPhase ε) (s : EntryCall α ε) : EntryCall α ε :=
  { s with phase := phase, cancelRequested := false }

/-- The end of the call, with its `finally`. -/
def finish (ending : Ending ε) (s : EntryCall α ε) : EntryCall α ε :=
  { s with phase := .ended ending, watched := false }

/-- The call up to its first await. -/
def enter (s : EntryCall α ε) : EntryCall α ε :=
  if s.replyCancelled then
    if s.submission = .running then s.await (.clearing .ofCancelledReply) else s.finish .returned
  else { s with child := .created, watched := s.watches }.await .joining

/-- The handler of a cancellation once the child is done. -/
def afterRejoin (s : EntryCall α ε) : EntryCall α ε :=
  if s.submission = .running then (s.settle .cancelled).await (.clearing .ofCancellation)
  else (s.settle .cancelled).finish .cancelled

/-- The loop that joins the child after a cancellation. -/
def rejoin (s : EntryCall α ε) : EntryCall α ε :=
  if s.child.isDone then s.afterRejoin else s.await .rejoining

/-- The call after `shield(child)`. -/
def joined (s : EntryCall α ε) : EntryCall α ε :=
  if s.cancelRequested then
    if s.watched = false ∨ s.childCancelling = false then s.cancelChild.rejoin else s.rejoin
  else
    match s.child with
    | .done (.returned a) => (s.settle (.result (some a))).finish .returned
    | .done .skipped => (s.settle (.result none)).finish .returned
    | .done .cancelled => (s.settle .cancelled).finish .returned
    | .done (.raised e) =>
        if s.submission = .running then s.await (.clearing (.ofException e))
        else (s.settle (.exception e)).finish (.raised e)
    | _ => s

/-- The call after `gather(submission)`. -/
def cleared (cleanup : Cleanup ε) (s : EntryCall α ε) : EntryCall α ε :=
  match cleanup with
  | .ofCancelledReply => s.finish (if s.cancelRequested then .cancelled else .returned)
  | .ofCancellation => s.finish .cancelled
  | .ofException e =>
      if s.cancelRequested then s.finish .cancelled
      else (s.settle (.exception e)).finish (.raised e)

/-- The call goes on when what it waits for is there. -/
def resume (s : EntryCall α ε) : Option (EntryCall α ε) :=
  match s.phase with
  | .entering => some s.enter
  | .joining => if s.child.isDone || s.cancelRequested then some s.joined else none
  | .rejoining => if s.child.isDone || s.cancelRequested then some s.rejoin else none
  | .clearing cleanup => if s.submission = .done then some (s.cleared cleanup) else none
  | .ended _ => none

/-- The first step of the child. -/
def invoke (s : EntryCall α ε) : EntryCall α ε :=
  if s.childCancelling then { s with child := .done .cancelled }
  else if s.replyCancelled then { s with child := .done .skipped }
  else { s with child := .running }

end EntryCall

/-! ## Runs -/

inductive CallAction (α ε : Type) where
  | resume
  /-- The calling task is cancelled at an await. -/
  | cancelOwner
  | childStarts
  /-- The executor returns, raises, or ends in a cancellation. -/
  | childReturns (a : α)
  | childRaises (e : ε)
  | childCancelled
  /-- Others settle the reply. -/
  | replySettled (reply : Reply α ε)
  /-- `cancel_request_leaf`. -/
  | callback
  | submissionEnds

open EntryCall

def start (command : LeafCommand) (positiveTxReady : Bool) (reply : Option (Reply α ε))
    (submission : Submission) : EntryCall α ε where
  command := command
  positiveTxReady := positiveTxReady
  reply := reply
  submission := submission
  byOthers := reply.filter (·.isDone)

def childEnds (leaf : Leaf α ε) (s : EntryCall α ε) : Option (EntryCall α ε) :=
  match s.child with
  | .running => some { s with child := .done leaf }
  | _ => none

def callStep (s : EntryCall α ε) : CallAction α ε → Option (EntryCall α ε)
  | .resume => s.resume
  | .cancelOwner =>
      match s.phase with
      | .entering | .ended _ => none
      | _ => some { s with cancelRequested := true }
  | .childStarts =>
      match s.child with
      | .created => some s.invoke
      | _ => none
  | .childReturns a => childEnds (.returned a) s
  | .childRaises e => childEnds (.raised e) s
  | .childCancelled => childEnds .cancelled s
  | .replySettled reply =>
      match s.reply with
      | some .pending =>
          if reply.isDone then some { s.settle reply with byOthers := some reply } else none
      | _ => none
  | .callback =>
      if s.callbackDue then
        some (if s.childCancelling then { s with callbackDue := false }
          else { s.cancelChild with callbackDue := false })
      else none
  | .submissionEnds =>
      match s.submission with
      | .running => some { s with submission := .done }
      | _ => none

end Rigplane.Poller
