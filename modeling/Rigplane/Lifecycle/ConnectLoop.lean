import Rigplane.Clock
import Rigplane.Lib.Runs

/-!
# The resident connect loop

`_connect_loop` of `runtime/session_lifecycle.py` with `_run_connect` around it: attempts of the
mechanism, the release after each that does not connect, and the waits between them.  The loop waits
in two places only, in an attempt and in a sleep; a step is what happens from one such place to the
next, and takes no time but that of the attempt or the sleep.  How an attempt ends, how long it
takes and how late a sleep returns is given by the actions.

`log` records what happens in order; nothing reads it.
-/

namespace Rigplane.Lifecycle

inductive LifecycleState where
  | disconnected
  | scanning
  | connecting
  | cooldown
  | connected
  | recovering
  | closing
deriving DecidableEq

/-- `LifecycleErrorReason`, as far as the loop gives one. -/
inductive LifecycleErrorReason where
  | none
  | authCredentials
  | sessionBusyReject
  | sessionNotReady
  | cancelled
deriving DecidableEq

structure LifecycleEvent where
  fromState : LifecycleState
  toState : LifecycleState
  reason : LifecycleErrorReason
  cooldownRemaining : Option Time
deriving DecidableEq

inductive AttemptOutcome where
  | connected
  | sessionNotReady
  | sessionBusyReject
  | authCredentials
deriving DecidableEq

/-- How `connect_attempt` ends. -/
inductive AttemptEnd where
  | outcome (o : AttemptOutcome)
  | discoveryTimeout
  /-- Another exception. -/
  | raises
  | cancelled
deriving DecidableEq

/-- What `_run_connect` raises. -/
inductive ConnectFault where
  | discoveryTimeout
  | mechanism
  | cancelled
  | authentication
  /-- `RadioSessionHeldError`. -/
  | sessionHeld
  | stillBusy (busyAttempts : Nat) (budget : Time)
  | neverReady (attempts : Nat)
deriving DecidableEq

/-- Why the loop sleeps. -/
inductive WaitKind where
  | busy
  | silentDiscovery
  | transient
deriving DecidableEq

inductive Entry where
  | attempt (startedAt : Time)
  | ended (e : AttemptEnd)
  | release
  /-- `_first_connect_busy_pass` begins; the attempt before it started then. -/
  | busyPass (attemptStartedAt : Time)
  | event (event : LifecycleEvent)
  | wait (kind : WaitKind) (startedAt cooldown : Time)
  | exit (fault : Option ConnectFault)
deriving DecidableEq

/-- The arguments of `CoreRadioSessionLifecycle`.  The cooldown of a start-up busy pass is positive,
and the others are not negative. -/
structure ConnectPolicy where
  notReadyCooldown : Time
  rejectCooldown : Time
  maxConnectAttempts : Int
  firstConnectBusyCooldown : Option Time
  firstConnectBusyBudget : Option Time
  firstConnectBusyLiveHolderAfter : Option Time
  firstConnectDiscoveryRetries : Int
  notReadyCooldown_nonneg : 0 ≤ notReadyCooldown
  rejectCooldown_nonneg : 0 ≤ rejectCooldown
  firstConnectBusyCooldown_pos : 0 < firstConnectBusyCooldown.getD rejectCooldown

/-- The cooldown of a start-up busy pass, and of a silent discovery. -/
def ConnectPolicy.busyCooldown (policy : ConnectPolicy) : Time :=
  policy.firstConnectBusyCooldown.getD policy.rejectCooldown

theorem ConnectPolicy.busyCooldown_pos (policy : ConnectPolicy) : 0 < policy.busyCooldown :=
  policy.firstConnectBusyCooldown_pos

/-- What the loop reads and writes of `CoreRadioSessionLifecycle`. -/
structure RadioSessionLifecycle where
  state : LifecycleState := .disconnected
  lastError : LifecycleErrorReason := .none
  /-- A session is claimed. -/
  claimed : Bool := false
  connectedOnce : Bool := false
  connectingStarted : Option Time := none
  cooldownTotal : Option Time := none
  cooldownDeadline : Option Time := none
  /-- `startup_busy_hold_event`. -/
  startupBusyHold : Bool := false

/-- Where the loop is. -/
inductive Phase where
  /-- It awaits `_attempt_with_release`. -/
  | attempting
  | sleeping (kind : WaitKind) (cooldown : Time)
  | ended
deriving DecidableEq

/-- The local variables of `_connect_loop`. -/
structure ConnectLocals where
  attempt : Nat := 0
  busyAttempts : Nat := 0
  busyDeadline : Option Time := none
  firstBusyStartedAt : Option Time := none
  silentDiscoveryAttempts : Nat := 0
  attemptStartedAt : Time := 0

structure ConnectLoop extends RadioSessionLifecycle, ConnectLocals where
  phase : Phase := .ended
  now : Time
  log : List Entry := []

namespace ConnectLoop

def note (entry : Entry) (s : ConnectLoop) : ConnectLoop := { s with log := s.log ++ [entry] }

/-- `_emit`. -/
def emit (toState : LifecycleState) (reason : LifecycleErrorReason)
    (cooldownRemaining : Option Time) (s : ConnectLoop) : ConnectLoop :=
  { s with
    state := toState
    lastError := if reason ≠ .none then reason else s.lastError
    startupBusyHold :=
      if toState = .connected ∨ toState = .disconnected then false else s.startupBusyHold
    log := s.log ++ [.event ⟨s.state, toState, reason, cooldownRemaining⟩] }

def stopConnecting (s : ConnectLoop) : ConnectLoop := { s with connectingStarted := none }

def exit (fault : Option ConnectFault) (s : ConnectLoop) : ConnectLoop :=
  { s with phase := .ended, log := s.log ++ [.exit fault] }

/-- `_mech.release()` and `_claimed = False`. -/
def release (s : ConnectLoop) : ConnectLoop :=
  { s with claimed := false, log := s.log ++ [.release] }

/-- The handlers of `_run_connect`. -/
def raise (fault : ConnectFault) (s : ConnectLoop) : ConnectLoop :=
  if fault = .cancelled then s.exit (some fault)
  else if s.state = .closing ∨ s.state = .disconnected then s.stopConnecting.exit (some fault)
  else
    ((s.stopConnecting.emit .closing .cancelled none).emit .disconnected .none none).exit
      (some fault)

/-- `_attempt_with_release`. -/
def attemptWithRelease (e : AttemptEnd) (s : ConnectLoop) : ConnectLoop :=
  if e = .outcome .connected then { s.note (.ended e) with claimed := true }
  else (s.note (.ended e)).release

/-- `asyncio.sleep`. -/
def sleep (kind : WaitKind) (cooldown : Time) (s : ConnectLoop) : ConnectLoop :=
  { s with phase := .sleeping kind cooldown, log := s.log ++ [.wait kind s.now cooldown] }

/-- `COOLDOWN`, up to the sleep. -/
def coolDown (cooldown : Time) (reason : LifecycleErrorReason) (s : ConnectLoop) : ConnectLoop :=
  { s with cooldownDeadline := some (s.now + cooldown) }.emit .cooldown reason (some cooldown)

/-- `_first_connect_busy_pass`, up to its sleep. -/
def firstConnectBusyPass (policy : ConnectPolicy) (budget firstBusyStartedAt : Time)
    (s : ConnectLoop) : ConnectLoop :=
  if ∃ after ∈ policy.firstConnectBusyLiveHolderAfter,
      firstBusyStartedAt + after ≤ s.attemptStartedAt then
    (((s.note (.busyPass s.attemptStartedAt)).stopConnecting).emit .disconnected .none none).raise
      .sessionHeld
  else if s.busyDeadline.getD (s.now + budget) ≤ s.now then
    (((s.note (.busyPass s.attemptStartedAt)).stopConnecting).emit .disconnected .none none).raise
      (.stillBusy (s.busyAttempts + 1) budget)
  else
    { ({ (s.note (.busyPass s.attemptStartedAt)).stopConnecting with
          busyAttempts := s.busyAttempts + 1
          busyDeadline := some (s.busyDeadline.getD (s.now + budget))
          cooldownTotal := some policy.busyCooldown }.coolDown policy.busyCooldown
            .sessionBusyReject) with
      startupBusyHold := true }.sleep .busy policy.busyCooldown

/-- The loop after an attempt that may be tried again. -/
def transientPass (policy : ConnectPolicy) (cooldown : Time) (reason : LifecycleErrorReason)
    (s : ConnectLoop) : ConnectLoop :=
  if policy.maxConnectAttempts ≤ (s.attempt : Int) - s.busyAttempts - s.silentDiscoveryAttempts then
    (s.stopConnecting.emit .disconnected .none none).raise (.neverReady s.attempt)
  else
    ({ s.stopConnecting with
        cooldownTotal := if s.startupBusyHold then s.cooldownTotal else some cooldown }.coolDown
      cooldown reason).sleep .transient cooldown

/-- The handler of `DiscoveryTimeout`. -/
def discoveryPass (policy : ConnectPolicy) (s : ConnectLoop) : ConnectLoop :=
  match policy.firstConnectBusyBudget, s.connectedOnce, s.firstBusyStartedAt with
  | some budget, false, some first => s.firstConnectBusyPass policy budget first
  | some _, false, none =>
      if (s.silentDiscoveryAttempts + 1 : Int) ≤ policy.firstConnectDiscoveryRetries then
        { s with silentDiscoveryAttempts := s.silentDiscoveryAttempts + 1 }.sleep .silentDiscovery
          policy.busyCooldown
      else s.raise .discoveryTimeout
  | _, _, _ => s.raise .discoveryTimeout

/-- The loop's body after an attempt, up to where it waits again. -/
def afterAttempt (policy : ConnectPolicy) (e : AttemptEnd) (s : ConnectLoop) : ConnectLoop :=
  match e with
  | .discoveryTimeout => s.discoveryPass policy
  | .raises => s.raise .mechanism
  | .cancelled => s.raise .cancelled
  | .outcome .connected =>
      ({ s.stopConnecting with connectedOnce := true }.emit .connected .none none).exit none
  | .outcome .authCredentials =>
      ((s.stopConnecting.release.emit .closing .authCredentials none).emit .disconnected .none
        none).raise .authentication
  | .outcome .sessionBusyReject =>
      match policy.firstConnectBusyBudget, s.connectedOnce with
      | some budget, false =>
          { s with
            firstBusyStartedAt := some (s.firstBusyStartedAt.getD s.attemptStartedAt)
          }.firstConnectBusyPass policy budget (s.firstBusyStartedAt.getD s.attemptStartedAt)
      | _, _ => s.transientPass policy policy.rejectCooldown .sessionBusyReject
  | .outcome .sessionNotReady => s.transientPass policy policy.notReadyCooldown .sessionNotReady

/-- The top of the loop, up to the attempt. -/
def startAttempt (s : ConnectLoop) : ConnectLoop :=
  (({ s with
      attempt := s.attempt + 1
      attemptStartedAt := s.now
      connectingStarted := some s.now
      phase := .attempting }.emit .connecting .none none).note (.attempt s.now))

/-- The `finally` of a sleep. -/
def afterSleep (kind : WaitKind) (s : ConnectLoop) : ConnectLoop :=
  match kind with
  | .busy => { s with cooldownDeadline := none }
  | .silentDiscovery => s
  | .transient =>
      { s with
        cooldownDeadline := none
        cooldownTotal := if s.startupBusyHold then s.cooldownTotal else none }

end ConnectLoop

/-! ## Runs -/

inductive ConnectAction where
  /-- The attempt ends, with its release. -/
  | ends (e : AttemptEnd) (duration : Time)
  | wakes (duration : Time)
  /-- The loop is cancelled in a sleep. -/
  | cancels
deriving DecidableEq

open ConnectLoop

/-- `_run_connect` of a lifecycle. -/
def start (lifecycle : RadioSessionLifecycle) (now : Time) : ConnectLoop :=
  ({ toRadioSessionLifecycle := lifecycle, now := now } : ConnectLoop).startAttempt

def step (policy : ConnectPolicy) (s : ConnectLoop) : ConnectAction → Option ConnectLoop
  | .ends e duration =>
      if s.phase = .attempting ∧ 0 ≤ duration then
        some (({ s with now := s.now + duration }.attemptWithRelease e).afterAttempt policy e)
      else none
  | .wakes duration =>
      match s.phase with
      | .sleeping kind cooldown =>
          if cooldown ≤ duration then
            some ({ s with now := s.now + duration }.afterSleep kind).startAttempt
          else none
      | _ => none
  | .cancels =>
      match s.phase with
      | .sleeping kind _ => some ((s.afterSleep kind).raise .cancelled)
      | _ => none

end Rigplane.Lifecycle
