import Rigplane.Clock
import Rigplane.Lib.Program
import Rigplane.Lib.Runs

/-!
# The audio session

`AudioSession` of `audio/session.py`: the demand of its subscribers and of its leases, and the calls
of the radio by which it meets it.  Every operation runs to its end under one lock.

The bus is that of `audio/bus.py` as such operations see it: nobody else holds its lock, and no
close task is in the way.  A subscription and a lease are numbers; a lease is released once it is
not among `txLeases`.

The radio is a parameter: what its `n`-th call of `start_rx` and of `start_tx` does.  A start that
fails leaves the leg as it was.  `calls` lists the calls with the TX leg at the time of each; no
operation reads it but to count them.
-/

namespace Rigplane.Audio

/-- `audio_setup_order`. -/
inductive SetupOrder where
  | rxFirst
  | txFirst
  | atomic
deriving DecidableEq

inductive AudioSessionState where
  | idle
  | rxOnly
  | rxTx
  | txOnly
  | recovering
  | failed
deriving DecidableEq

inductive TransportCall where
  | startRx
  | stopRx
  | startTx
  | stopTx
  | pushTx
deriving DecidableEq

inductive Outcome where
  | returns
  /-- `AudioAlreadyStartedError`. -/
  | alreadyStarted
  | fails
deriving DecidableEq

/-- What each call of a start does. -/
structure Transport where
  startRx : Nat → Outcome
  startTx : Nat → Outcome

inductive AudioFault where
  | alreadyStarted
  | failed
  /-- `RuntimeError`: RX did not come up. -/
  | rxDead
  /-- `RuntimeError`: the lease is released. -/
  | released
deriving DecidableEq

/-- `RX_LIVENESS_TIMEOUT_S`. -/
def rxLivenessTimeout : Time := 3

structure AudioSession where
  setupOrder : SetupOrder
  /-- The observed TX leg. -/
  txLive : Bool := false
  /-- `_subscribers` and `_rx_active` of the bus. -/
  subscribers : List Nat := []
  rxActive : Bool := false
  /-- `_active` of a subscription. -/
  active : Nat → Bool := fun _ => false
  lastRxFrame : Option Time := none
  state : AudioSessionState := .idle
  rxSubs : List Nat := []
  txLeases : List Nat := []
  /-- The watchdog task runs. -/
  watchdog : Bool := false
  rxArmedAt : Time := 0
  now : Time := 0
  /-- The number of subscriptions and leases so far. -/
  next : Nat := 0
  calls : List (TransportCall × Bool) := []

abbrev Operation := Program AudioSession AudioFault

open Program

namespace AudioSession

/-- The number of calls of a kind. -/
def count (s : AudioSession) (call : TransportCall) : Nat :=
  (s.calls.filter fun c => c.1 == call).length

def record (call : TransportCall) (s : AudioSession) : AudioSession :=
  { s with calls := s.calls ++ [(call, s.txLive)] }

def setTxLive (live : Bool) (s : AudioSession) : AudioSession := { s with txLive := live }

def setRxActive (rx : Bool) (s : AudioSession) : AudioSession := { s with rxActive := rx }

def setState (state : AudioSessionState) (s : AudioSession) : AudioSession :=
  { s with state := state }

def setActive (sub : Nat) (value : Bool) (s : AudioSession) : AudioSession :=
  { s with active := Function.update s.active sub value }

def setSubscribers (subscribers : List Nat) (s : AudioSession) : AudioSession :=
  { s with subscribers := subscribers }

def setRxSubs (subs : List Nat) (s : AudioSession) : AudioSession := { s with rxSubs := subs }

def setTxLeases (leases : List Nat) (s : AudioSession) : AudioSession :=
  { s with txLeases := leases }

/-! ## The calls of the radio -/

section

variable (radio : Transport)

def answer : Outcome → Operation Unit
  | .returns => pure ()
  | .alreadyStarted => raise .alreadyStarted
  | .fails => raise .failed

theorem answer_spec {P : AudioSession → Prop} (outcome : Outcome) :
    Triple P (answer outcome) (fun _ => P) (fun _ => P) := by
  cases outcome <;> exact fun _ hs => hs

def startRx : Operation Unit := do
  let n ← read (·.count .startRx)
  update (record .startRx)
  answer (radio.startRx n)

def startTx : Operation Unit := do
  let n ← read (·.count .startTx)
  update (record .startTx)
  answer (radio.startTx n)
  update (setTxLive true)

def stopRx : Operation Unit := update (record .stopRx)

/-- `stop_tx`, and `_disarm_tx`. -/
def disarmTx : Operation Unit := do
  update (record .stopTx)
  update (setTxLive false)

/-! ## The bus -/

/-- `AudioBus._start_rx`. -/
def busStartRx : Operation Unit := do
  if ← read rxActive then return
  (startRx radio).handle fun _ => raise .rxDead
  update (setRxActive true)

/-- `AudioBus._stop_rx`. -/
def busStopRx : Operation Unit := do
  if !(← read rxActive) then return
  update (setRxActive false)
  stopRx

/-- `AudioBus.restart_rx`. -/
def restartRx : Operation Unit := do
  if (← read subscribers) = [] then return
  let rx ← (do startRx radio; return true).handle fun e => return e == AudioFault.alreadyStarted
  update (setRxActive rx)

/-- `AudioBus._add_subscriber`. -/
def addSubscriber (sub : Nat) : Operation Unit := do
  let subs ← read subscribers
  onlyIf (sub ∉ subs) (update (setSubscribers (subs ++ [sub])))
  let rx ← read rxActive
  onlyIf (rx = false) ((busStartRx radio).handle fun e => do
    onlyIf (sub ∉ subs) (update (setSubscribers subs))
    raise e)

/-- `AudioBus._remove_subscriber`. -/
def removeSubscriber (sub : Nat) : Operation Unit := do
  let subs ← read subscribers
  update (setSubscribers (subs.erase sub))
  let rx ← read rxActive
  onlyIf (rx = true ∧ subs.erase sub = []) busStopRx

/-- `AudioSubscription.start`. -/
def startSubscription (sub : Nat) : Operation Unit := do
  if (← read active) sub then return
  update (setActive sub true)
  (addSubscriber radio sub).handle fun e => do
    update (setActive sub false)
    raise e

/-- `AudioSubscription.aclose`. -/
def aclose (sub : Nat) : Operation Unit := do
  if !(← read active) sub then return
  update (setActive sub false)
  removeSubscriber sub

/-! ## The reconciliation -/

/-- `_desired`. -/
def desired (s : AudioSession) (txActive : Bool) : AudioSessionState :=
  if s.rxSubs ≠ [] then
    if s.txLeases ≠ [] then .rxTx else .rxOnly
  else if s.txLeases ≠ [] ∧ (txActive || s.txLive) = true ∧ s.setupOrder = .rxFirst then .txOnly
  else .idle

/-- `tx_up` of `_converge`. -/
def txUp (s : AudioSession) : Bool := s.txLive || s.state == .rxTx || s.state == .txOnly

/-- `_arm_rx`. -/
def armRx : Operation Unit := do
  let subs ← read rxSubs
  each subs (startSubscription radio)
  let rx ← read rxActive
  onlyIf (subs ≠ [] ∧ rx = false) (raise .rxDead)

/-- `_rearm_rx`. -/
def rearmRx : Operation Unit := do
  restartRx radio
  let subs ← read rxSubs
  let rx ← read rxActive
  onlyIf (subs ≠ [] ∧ rx = false) (raise .rxDead)

/-- `_drop_rx`. -/
def dropRx (closing : Option Nat) : Operation Unit := do
  each (← read rxSubs) aclose
  update (setRxSubs [])
  each closing.toList aclose

/-- `_ensure_tx_live`. -/
def ensureTxLive : Operation Unit := do
  if ← read txLive then return
  (startTx radio).handle fun e => if e = .alreadyStarted then return else raise e

/-- `start_tx` of a deferred arm: whether it returned. -/
def tryStartTx : Operation Bool :=
  (do startTx radio; return true).handle fun _ => return false

/-- `_enter_rx_tx`. -/
def enterRxTx (order : SetupOrder) (recover : Bool) : Operation Unit := do
  let txLive ← read txLive
  let rxLive ← read fun s => s.rxActive && !recover
  let arm := if recover then rearmRx radio else armRx radio
  if txLive = true ∧ rxLive = true then
    armRx radio
    update (setState .rxTx)
  else if txLive = true then
    disarmTx
    arm
    startTx radio
    update (setState .rxTx)
  else if rxLive = false then
    if order = .rxFirst then
      arm
      if ← tryStartTx radio then update (setState .rxTx) else update (setState .rxOnly)
    else if ← tryStartTx radio then
      arm.handle fun e => do
        disarmTx
        raise e
      update (setState .rxTx)
    else
      arm
      update (setState .rxOnly)
  else if order = .rxFirst then
    startTx radio
    update (setState .rxTx)
  else
    stopRx
    (startTx radio).andFinally (restartRx radio)
    update (setState .rxTx)

/-- The calls of `_converge` for `RX_ONLY`. -/
def rxOnlyLegs (txUp recover : Bool) : Operation Unit :=
  if txUp then do
    disarmTx
    restartRx radio
  else if recover then rearmRx radio
  else armRx radio

/-- `_converge`. -/
def converge (closing : Option Nat) (recover txActive : Bool) : Operation Unit := do
  let desired ← read fun s => s.desired (txActive || recover)
  let order ← read setupOrder
  let txUp ← read txUp
  match desired with
  | .idle =>
      onlyIf (txUp = true) disarmTx
      dropRx closing
      update (setState .idle)
  | .txOnly =>
      let subs ← read rxSubs
      onlyIf (subs ≠ [] ∨ closing ≠ none) do
        onlyIf (txUp = true) disarmTx
        dropRx closing
      ensureTxLive radio
      update (setState .txOnly)
  | .rxOnly =>
      rxOnlyLegs radio txUp recover
      update (setState .rxOnly)
  | _ => enterRxTx radio order recover

/-- `_sync_watchdog`. -/
def syncWatchdog (s : AudioSession) : AudioSession :=
  if s.state = .rxOnly ∨ s.state = .rxTx ∨ s.state = .recovering then
    if s.watchdog then s else { s with rxArmedAt := s.now, watchdog := true }
  else { s with watchdog := false }

/-- `_apply`. -/
def apply (closing : Option Nat) : Operation Unit :=
  (converge radio closing false false).andFinally (update syncWatchdog)

/-! ## The operations -/

/-- The next subscription or lease. -/
def claimId (s : AudioSession) : AudioSession := { s with next := s.next + 1 }

/-- `subscribe_rx`. -/
def subscribeRx : Operation Unit := do
  let sub ← read next
  update claimId
  let subs ← read rxSubs
  update (setRxSubs (subs ++ [sub]))
  (apply radio none).handle fun e => do
    let subs ← read rxSubs
    update (setRxSubs (subs.erase sub))
    aclose sub
    raise e

/-- `acquire_tx`. -/
def acquireTx : Operation Unit := do
  let lease ← read next
  update claimId
  let leases ← read txLeases
  update (setTxLeases (leases ++ [lease]))
  (apply radio none).handle fun e => do
    let leases ← read txLeases
    update (setTxLeases (leases.erase lease))
    raise e

/-- `_release_rx`. -/
def releaseRx (sub : Nat) : Operation Unit := do
  let subs ← read rxSubs
  if sub ∉ subs then return
  update (setRxSubs (subs.erase sub))
  (apply radio (some sub)).andFinally (aclose sub)

/-- `_release_tx`. -/
def releaseTx (lease : Nat) : Operation Unit := do
  let leases ← read txLeases
  if lease ∉ leases then return
  update (setTxLeases (leases.erase lease))
  apply radio none

/-- `_converge_for_push`. -/
def convergeForPush : Operation Unit := do
  let leases ← read txLeases
  let live ← read txLive
  onlyIf (leases ≠ [] ∧ live = false) do
    converge radio none false true
    update syncWatchdog

/-- `TxLease.push`; the guard or the admission admits it or not. -/
def push (lease : Nat) (admitted : Bool) : Operation Unit := do
  let leases ← read txLeases
  onlyIf (lease ∉ leases) (raise .released)
  convergeForPush radio
  onlyIf (admitted = true) (update (record .pushTx))

/-- `reestablish`. -/
def reestablish : Operation Unit := do
  converge radio none true false
  update fun s => syncWatchdog { s with rxArmedAt := s.now }

/-- `_check_liveness_locked`. -/
def checkLiveness (s : AudioSession) : AudioSession :=
  if s.state = .rxOnly ∨ s.state = .rxTx then
    let ref := match s.lastRxFrame with
      | none => s.rxArmedAt
      | some last => max last s.rxArmedAt
    if rxLivenessTimeout ≤ s.now - ref then { s with state := .recovering } else s
  else if s.state = .recovering then
    match s.lastRxFrame with
    | none => s
    | some last =>
        if s.now - last < rxLivenessTimeout then { s with state := s.desired false } else s
  else s

/-! ## Runs -/

inductive SessionAction where
  | subscribeRx
  | releaseRx (sub : Nat)
  | acquireTx
  | releaseTx (lease : Nat)
  | push (lease : Nat) (admitted : Bool)
  | reestablish
  /-- The watchdog task looks. -/
  | check
  /-- A frame arrives at the bus. -/
  | frame
  | advance (d : Time)
  /-- The transport loses its TX leg, as where it is rebuilt. -/
  | txLost
deriving DecidableEq

def operation : SessionAction → Operation Unit
  | .subscribeRx => subscribeRx radio
  | .releaseRx sub => releaseRx radio sub
  | .acquireTx => acquireTx radio
  | .releaseTx lease => releaseTx radio lease
  | .push lease admitted => push radio lease admitted
  | .reestablish => reestablish radio
  | .check => update fun s => if s.watchdog then s.checkLiveness else s
  | .frame => update fun s => { s with lastRxFrame := some s.now }
  | .advance d => update fun s => { s with now := s.now + |d| }
  | .txLost => update (setTxLive false)

/-- An operation runs to its end, and may raise. -/
def step (s : AudioSession) (a : SessionAction) :
    Option AudioSession := some (operation radio a s).2

end

def init (setupOrder : SetupOrder) : AudioSession where
  setupOrder := setupOrder

end AudioSession

end Rigplane.Audio
