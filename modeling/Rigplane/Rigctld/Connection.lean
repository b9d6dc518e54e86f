import Rigplane.Clock
import Rigplane.Lib.Runs
import Rigplane.Rigctld.Protocol

/-!
# A connection of the rigctld server

`_handle_client` of `rigctld/server.py`, with the tasks that it starts.  Each received line gets a
response task (`_execute_and_retire_client_command`), which starts the task of its handler.  The
response tasks of a connection run side by side and are chained by two futures each: `execution`,
which a later handler waits for, and `retirement`, which a later reply waits for.  An unkey under
managed TX does not wait with its handler.

A step is at most what happens between two awaits, so all interleavings of the tasks are runs.  The
`retirement` of a response is done when that response and all before it are settled
(`_settle_retirement`), and what waits for it goes on at any later time.  The handler is not
followed: it ends at any time, in any way.  A PTT submission, which `ManagedPttTracker.begin_key`
starts with the line, ends at any time too.

When the connection's own loop ends, without a `quit` it cancels the response tasks that are not
done.  A task takes that cancellation at the await at which it stands: where a `wait_for` of Python
3.11 would let a handler that has just ended win over it, the task is not cancelled here until it
has been.  What is written after `writer.close()` counts as lost, though a socket that still has
buffered data would send it.  The handback of the session's TX is followed to its beginning only: it
may fail, be cut off at its bound or be cancelled, and the socket is closed all the same.
-/

namespace Rigplane.Rigctld

/-! ## Response tasks -/

/-- What the loop has made of a line. -/
inductive Line where
  /-- A command, and whether it is a managed unkey. -/
  | command (cmd : RigctldCommand) (managedOff : Bool)
  /-- It is answered by an error, without a handler. -/
  | error (immediate : HamlibError)
deriving DecidableEq

/-- How a handler ends. -/
inductive Result where
  | returned (resp : RigctldResponse)
  | raised
  /-- It raises a `TimeoutError` itself. -/
  | timedOut
  | cancelled
deriving DecidableEq

inductive Handler where
  | unstarted
  | running
  | ended (result : Result)
deriving DecidableEq

inductive Reply where
  | error (code : HamlibError)
  | resp (resp : RigctldResponse)
deriving DecidableEq

/-- How a response task ends. -/
inductive Ending where
  | done
  /-- `drain` raises. -/
  | drainFailed
  /-- The reply is not ASCII. -/
  | unformatted
  | cancelled
deriving DecidableEq

/-- Where a response task stands. -/
inductive Phase where
  | unstarted
  /-- At the execution of the line before, with no handler started. -/
  | predecessor
  /-- At its handler. -/
  | handling
  /-- At the end of the tasks it owns, which are cancelled.  Then it goes on with the reply, or with
  a `CancelledError` where there is none or it has been cancelled meanwhile. -/
  | cleaning (reply : Option Reply) (cancelled : Bool)
  /-- At the execution of the line before. -/
  | executing (reply : Reply)
  /-- At the retirement of the line before. -/
  | retiring (reply : Reply)
  /-- It has written its reply. -/
  | draining
  | ended (ending : Ending)
deriving DecidableEq

structure Response where
  line : Line
  phase : Phase := .unstarted
  handler : Handler := .unstarted
  /-- The PTT submission that came with the line, and whether it has ended. -/
  submission : Option Bool := none
  /-- The future `execution` is done. -/
  execution : Bool := false
  /-- `_settle_retirement` has been called. -/
  settled : Bool := false
  /-- It has been cancelled and has not taken that yet. -/
  cancelling : Bool := false
  /-- Its callbacks have run, so it is not in `response_tasks` any more. -/
  collected : Bool := false
  /-- It has met the cancellation of its handler where it waited for it, without having asked for
  one. -/
  unasked : Bool := false
deriving DecidableEq

namespace Response

variable (r : Response)

def Ended : Prop := ∃ ending, r.phase = .ended ending

instance : Decidable r.Ended :=
  match h : r.phase with
  | .ended ending => .isTrue ⟨ending, h⟩
  | .unstarted | .predecessor | .handling | .cleaning _ _ | .executing _ | .retiring _
  | .draining =>
      .isFalse fun ⟨ending, hended⟩ => by
        rw [h] at hended
        cases hended

/-- A task that it owns is not done. -/
def Owns : Prop := r.handler = .running ∨ r.submission = some false

instance : Decidable r.Owns := inferInstanceAs (Decidable (_ ∨ _))

/-- `format_error` or `format_response`. -/
def format : Reply → Option (List UInt8)
  | .error code => formatError code.code
  | .resp resp =>
      match r.line with
      | .command cmd _ => formatResponse cmd resp false
      | .error _ => none

/-- With the reply that a handler's end calls for. -/
def handled : Result → Option Reply
  | .returned resp => some (.resp resp)
  | .raised => some (.error .eio)
  | .timedOut => some (.error .etimeout)
  | .cancelled => none

/-- A `CancelledError` leaves both `finally` blocks. -/
def abort : Response :=
  { r with phase := .ended .cancelled, execution := true, settled := true }

end Response

/-! ## The connection -/

structure ClientConfig where
  /-- There is a `managed_tx_authority`. -/
  managed : Bool := false
  /-- The connection is a channel of a controller session (`owner`). -/
  channel : Bool := false
  commandRateLimit : Option ℚ := none
deriving DecidableEq

/-- Where the loop of the connection stands. -/
inductive Reader where
  /-- Before the capacity check. -/
  | waiting
  /-- In `_readline`, with `at_capacity`. -/
  | reading (atCapacity : Bool)
  /-- In the `gather` of `_retire_client_connection`. -/
  | retiring
  /-- In `_release_session_tx`, unless it is left out. -/
  | releasing
  | closed
deriving DecidableEq

structure Connection where
  /-- The responses to the received lines, oldest first. -/
  responses : List Response := []
  /-- What has been written to the socket, with the number of the response. -/
  written : List (Nat × List UInt8) := []
  reader : Reader := .waiting
  /-- The loop has ended by `quit`. -/
  gracefulQuit : Bool := false
  /-- `writer.close()` has been called. -/
  writerClosed : Bool := false
  firstCommandLine : Bool := true
  /-- The window of the rate limit, oldest first. -/
  window : List Time := []
  /-- The latest reading of the clock. -/
  clock : Time := 0
  /-- When the rate limit let a command pass, and the number of its response, latest first. -/
  passed : List (Time × Nat) := []
  releaseOnClose : Bool := true
  /-- The handback of the session's TX has begun. -/
  handbackBegun : Bool := false
deriving DecidableEq

/-- What happens to a response task. -/
inductive Turn where
  | begin
  /-- The await at which it stands is over. -/
  | wake
  /-- The command timeout passes. -/
  | timeout
  | drainFails
  /-- It takes the cancellation. -/
  | interrupt
  | handlerEnds (result : Result)
  | submissionEnds
  /-- Its callbacks run: `settle_unstarted` and `response_task_done`. -/
  | collect
deriving DecidableEq

inductive Action where
  /-- The loop goes on to read. -/
  | startRead
  /-- `_readline` returns a line, at this reading of the clock. -/
  | receive (raw : List UInt8) (now : Time)
  /-- End of the stream, timeout, framing error, reset or cancellation of the loop. -/
  | readEnds
  | task (k : Nat) (turn : Turn)
  /-- The tasks of the connection are done. -/
  | gathered
  | finished
deriving DecidableEq

/-- `_MAX_PENDING_CLIENT_RESPONSES`. -/
def maxPendingClientResponses : Nat := 64

/-! ### Lines -/

/-- `_is_managed_off`. -/
def isManagedOff (config : ClientConfig) (cmd : RigctldCommand) : Bool :=
  config.managed && cmd.longCmd = "set_ptt" && cmd.args.head?.bind parseInt = some 0

/-- Whether the line comes with a PTT submission. -/
def startsSubmission (config : ClientConfig) (cmd : RigctldCommand) : Bool :=
  config.managed && cmd.longCmd = "set_ptt" && (cmd.args.head?.bind parseInt).isSome

/-- `_HTTP_REQUEST_LINE_RE`. -/
def isHttpRequestLine (raw : List UInt8) : Bool :=
  match raw.splitOn 32 with
  | [method, target, version] =>
      method ≠ [] && method.all (fun b => 65 ≤ b ∧ b ≤ 90) &&
        (target ≠ [] && target.all fun b => ¬ (9 ≤ b ∧ b ≤ 13)) &&
        (match version with
          | [72, 84, 84, 80, 47, major] => 48 ≤ major ∧ major ≤ 57
          | [72, 84, 84, 80, 47, major, 46, minor] =>
              (48 ≤ major ∧ major ≤ 57) ∧ 48 ≤ minor ∧ minor ≤ 57
          | _ => false)
  | _ => false

/-- `_check_rate_limit`: whether the command passes, and the window. -/
def checkRateLimit (limit : Option ℚ) (window : List Time) (now : Time) : Bool × List Time :=
  match limit with
  | none => (true, window)
  | some limit =>
      let window := window.dropWhile fun t => t ≤ now - 1
      if limit ≤ window.length then (false, window) else (true, window ++ [now])

namespace Connection

variable (s : Connection)

/-- `response_tasks`. -/
def pending : List Response := s.responses.filter fun r => ¬ r.collected

/-- `schedule_response`. -/
def schedule (line : Line) (submission : Bool) : Connection :=
  { s with
    responses := s.responses ++ [{ line, submission := if submission then some false else none }]
    reader := .waiting }

/-- The loop is left, and what `finally` does before it awaits. -/
def leave (graceful : Bool) : Connection :=
  { s with
    responses :=
      if graceful then s.responses
      else s.responses.map fun r => if r.Ended then r else { r with cancelling := true }
    reader := .retiring
    gracefulQuit := graceful
    window := [] }

/-- A parsed command has been received. -/
def accept (config : ClientConfig) (cmd : RigctldCommand) (atCapacity : Bool) (now : Time) :
    Connection :=
  let managedOff := isManagedOff config cmd
  if atCapacity ∧ ¬ managedOff then s.leave false
  else
    let (allowed, window) := checkRateLimit config.commandRateLimit s.window now
    let s := { s with window }
    if ¬ allowed ∧ ¬ managedOff then s.schedule (.error .eio) false
    else
      let s := if allowed then { s with passed := (now, s.responses.length) :: s.passed } else s
      let releaseOnClose :=
        if config.channel ∧ cmd.longCmd = "set_ptt" then
          ((cmd.args.head?.bind parseInt).map fun n => decide (n ≠ 0)).getD s.releaseOnClose
        else s.releaseOnClose
      { s with releaseOnClose }.schedule (.command cmd managedOff) (startsSubmission config cmd)

/-- The error that a line that is not parsed is answered with. -/
def parseErrorCode : ParseError → HamlibError
  | .emptyLine | .unknownCommand _ => .enimpl
  | .tooFewArgs _ _ _ | .tooManyArgs _ _ _ => .einval

/-- A line has been read. -/
def receive (config : ClientConfig) (raw : List UInt8) (atCapacity : Bool) (now : Time) :
    Connection :=
  if raw = [] then { s with reader := .waiting }
  else if s.firstCommandLine ∧ isHttpRequestLine raw then
    { s with firstCommandLine := false }.leave false
  else
    let s := { s with firstCommandLine := false }
    match parseLine raw with
    | .error error =>
        if atCapacity then s.leave false else s.schedule (.error (parseErrorCode error)) false
    | .ok cmd =>
        if cmd.shortCmd = "q" then s.leave true else s.accept config cmd atCapacity now

/-! ### Tasks -/

/-- The execution of the line before is done. -/
def ExecutedBefore (k : Nat) : Prop := ∀ r ∈ (s.responses.take k).getLast?, r.execution = true

instance (k : Nat) : Decidable (s.ExecutedBefore k) := inferInstanceAs (Decidable (∀ _ ∈ _, _))

/-- The retirement of the line before is done. -/
def RetiredBefore (k : Nat) : Prop := ∀ r ∈ s.responses.take k, r.settled = true

instance (k : Nat) : Decidable (s.RetiredBefore k) := inferInstanceAs (Decidable (∀ _ ∈ _, _))

/-- What happens to a response task, and what it writes. -/
def turn (k : Nat) (r : Response) : Turn → Option (Response × List (List UInt8))
  | .begin =>
      if r.phase ≠ .unstarted ∨ r.cancelling then none
      else match r.line with
        | .error immediate => some ({ r with phase := .executing (.error immediate) }, [])
        | .command _ managedOff =>
            if managedOff then some ({ r with phase := .handling, handler := .running }, [])
            else some ({ r with phase := .predecessor }, [])
  | .wake =>
      if r.cancelling then none
      else match r.phase with
        | .unstarted | .ended _ => none
        | .predecessor =>
            if s.ExecutedBefore k then some ({ r with phase := .handling, handler := .running }, [])
            else none
        | .handling =>
            match r.handler with
            | .ended result =>
                some ({ r with
                  phase := .cleaning (Response.handled result) false
                  unasked := decide (result = .cancelled) }, [])
            | .unstarted | .running => none
        | .cleaning reply cancelled =>
            if r.Owns then none
            else match reply, cancelled with
              | some reply, false => some ({ r with phase := .executing reply }, [])
              | _, _ => some (r.abort, [])
        | .executing reply =>
            if s.ExecutedBefore k then
              some ({ r with phase := .retiring reply, execution := true }, [])
            else none
        | .retiring reply =>
            if s.RetiredBefore k then
              match r.format reply with
              | none => some ({ r with phase := .ended .unformatted, settled := true }, [])
              | some out => some ({ r with phase := .draining }, [out])
            else none
        | .draining => some ({ r with phase := .ended .done, settled := true }, [])
  | .timeout =>
      if r.phase = .handling ∧ ¬ r.cancelling then
        some ({ r with phase := .cleaning (some (.error .etimeout)) false }, [])
      else none
  | .drainFails =>
      if r.phase = .draining ∧ ¬ r.cancelling then
        some ({ r with phase := .ended .drainFailed, settled := true }, [])
      else none
  | .interrupt =>
      if ¬ r.cancelling then none
      else
        let r := { r with cancelling := false }
        match r.phase with
        | .unstarted => some ({ r with phase := .ended .cancelled }, [])
        | .predecessor | .handling => some ({ r with phase := .cleaning none false }, [])
        | .cleaning reply _ => some ({ r with phase := .cleaning reply true }, [])
        | .executing _ => some (r.abort, [])
        | .retiring _ | .draining =>
            some ({ r with phase := .ended .cancelled, settled := true }, [])
        | .ended _ => none
  | .handlerEnds result =>
      if r.handler = .running then some ({ r with handler := .ended result }, []) else none
  | .submissionEnds =>
      if r.submission = some false then some ({ r with submission := some true }, []) else none
  | .collect =>
      if ¬ r.Ended ∨ r.collected then none
      else if r.phase = .ended .cancelled ∧ ¬ r.execution then
        some ({ r with execution := true, settled := true, collected := true }, [])
      else some ({ r with collected := true }, [])

/-- `response_task_done` closes the socket of a task that has failed. -/
def Closes (r : Response) (turn : Turn) : Prop :=
  turn = .collect ∧ (r.phase = .ended .drainFailed ∨ r.phase = .ended .unformatted)

instance (r : Response) (turn : Turn) : Decidable (Closes r turn) :=
  inferInstanceAs (Decidable (_ ∧ _))

/-- What is written to a closed socket is lost. -/
def taskStep (k : Nat) (turn : Turn) : Option Connection :=
  s.responses[k]?.bind fun r => (s.turn k r turn).map fun after => { s with
    responses := s.responses.set k after.1
    written := if s.writerClosed then s.written else s.written ++ after.2.map fun out => (k, out)
    writerClosed := s.writerClosed || Closes r turn }

def step (config : ClientConfig) (s : Connection) : Action → Option Connection
  | .startRead =>
      if s.reader = .waiting ∧ s.pending.length ≤ maxPendingClientResponses then
        some { s with reader := .reading (maxPendingClientResponses ≤ s.pending.length) }
      else none
  | .receive raw now =>
      match s.reader with
      | .reading atCapacity =>
          if s.clock ≤ now then
            some ({ s with clock := now }.receive config raw atCapacity now)
          else none
      | .waiting | .retiring | .releasing | .closed => none
  | .readEnds =>
      match s.reader with
      | .waiting | .reading _ => some (s.leave false)
      | .retiring | .releasing | .closed => none
  | .task k turn => s.taskStep k turn
  | .gathered =>
      if s.reader = .retiring ∧ ∀ r ∈ s.responses, r.Ended ∧ r.submission ≠ some false then
        some { s with reader := .releasing, handbackBegun := s.releaseOnClose }
      else none
  | .finished =>
      if s.reader = .releasing then some { s with reader := .closed, writerClosed := true }
      else none

/-- A connection that has been accepted. -/
def initial (config : ClientConfig) (clock : Time) : Connection :=
  { clock, releaseOnClose := ¬ config.channel }

end Connection

end Rigplane.Rigctld
