import Rigplane.Clock
import Rigplane.Lib.Runs

/-!
# The deferred command lane

The typed policy of `runtime/tx_interlock.py`, and `DeferredTxCommandLane`, the single slot in which
a denied command waits for the radio to be quiet.

A run calls `defer` and `observe` with readings of one clock.  Beside the lane it records what was
accepted, newest first; each acceptance has the observations that the lane has seen since and the
terminal outcomes that it has reported.
-/

namespace Rigplane.TxInterlock

/-! ## The policy -/

/-- The classes of commands that the policy tells apart. -/
inductive CommandClass where
  | pttOff
  | scanStop
  | setPowerstat (on : Bool)
  | setTunerStatus (value : Int)
  | pttOn
  | sendCiv
  | scanStart
  | setAntenna1
  | setAntenna2
  | setRxAntenna
  | setRxAntennaAnt1
  | setRxAntennaAnt2
  | setCivOutputAnt
  | setSplit
  | setDualWatch
  | setMainSubTracking
  | quickSplit
  | quickDualWatch
  | quickDwTrigger
  | quickSplitTrigger
  | setMemoryMode
  | memoryToVfo
  | memoryClear
  | setMemoryContents
  | other (name : String)
deriving DecidableEq

/-- A command with the rest of its fields. -/
structure Command (π : Type) where
  commandClass : CommandClass
  payload : π
deriving DecidableEq

/-- The observed RF state. -/
inductive RfState where
  | rx
  | tx
  | unknown
deriving DecidableEq

inductive TxInterlockDisposition where
  | alwaysPass
  | txSafe
  | defer
  | block
deriving DecidableEq

/-- `_ALWAYS_PASS_TYPES`. -/
def alwaysPassTypes : List CommandClass := [.pttOff, .scanStop]

/-- `_DEFER_TYPES`. -/
def deferTypes : List CommandClass :=
  [.setSplit, .setDualWatch, .setMainSubTracking, .quickSplit, .quickDualWatch, .quickDwTrigger,
    .quickSplitTrigger, .setMemoryMode, .memoryToVfo, .memoryClear, .setMemoryContents]

/-- `_HARD_BLOCK_TYPES`. -/
def hardBlockTypes : List CommandClass :=
  [.pttOn, .sendCiv, .scanStart, .setAntenna1, .setAntenna2, .setRxAntenna, .setRxAntennaAnt1,
    .setRxAntennaAnt2, .setCivOutputAnt]

def classifyTxInterlock (command : CommandClass) : TxInterlockDisposition :=
  if command ∈ alwaysPassTypes then .alwaysPass
  else if command = .setPowerstat false then .alwaysPass
  else if command = .setTunerStatus 0 then .alwaysPass
  else if command = .setTunerStatus 1 ∨ command = .setTunerStatus 2 then .block
  else if command ∈ hardBlockTypes then .block
  else if command ∈ deferTypes then .defer
  else .txSafe

structure TxInterlockDecision where
  disposition : TxInterlockDisposition
  allowed : Bool
  reason : String
deriving DecidableEq

def evaluateTxInterlock (command : CommandClass) (rfState : RfState) : TxInterlockDecision :=
  match classifyTxInterlock command, rfState with
  | .alwaysPass, _ => ⟨.alwaysPass, true, "TX interlock permits this command."⟩
  | .txSafe, _ => ⟨.txSafe, true, "TX interlock permits this command."⟩
  | disposition, .rx => ⟨disposition, true, "RF state is known RX."⟩
  | disposition, .unknown =>
      ⟨disposition, false, "RF state is unknown; this command must not be attempted yet."⟩
  | .defer, .tx => ⟨.defer, false, "RF state is TX; command is deferred."⟩
  | .block, .tx => ⟨.block, false, "RF state is TX; command is blocked."⟩

/-! ## The lane -/

inductive TxInterlockDeferredOutcome where
  | held
  | released
  | expired
  | superseded
deriving DecidableEq

variable {π : Type}

structure TxInterlockDeferredResult (π : Type) where
  outcome : TxInterlockDeferredOutcome
  command : Command π
  expiresAt : Time
  replacement : Option (Command π) := none

/-- `_DeferredTxCommand`. -/
structure DeferredTxCommand (π : Type) where
  command : Command π
  deferredAt : Time
  expiresAt : Time
  quietSince : Option Time := none

/-- `DeferredTxCommandLane`. -/
structure DeferredTxCommandLane (π : Type) where
  entry : Option (DeferredTxCommand π) := none

/-- `_TTL_SECONDS`. -/
def ttlSeconds : Time := 3

/-- `_QUIET_SECONDS`. -/
def quietSeconds : Time := 1

inductive LaneError where
  | valueError (text : String)
deriving DecidableEq

namespace DeferredTxCommandLane

/-- `_result`. -/
def result (outcome : TxInterlockDeferredOutcome) (entry : DeferredTxCommand π) :
    TxInterlockDeferredResult π :=
      { outcome, command := entry.command, expiresAt := entry.expiresAt }

/-- The entry that `defer` holds: a command that is still held hands on its deadline. -/
def replacement (previous : Option (DeferredTxCommand π)) (command : Command π) (now : Time) :
    DeferredTxCommand π :=
  match previous with
  | some previous =>
      if now < previous.expiresAt then
        { command, deferredAt := previous.deferredAt, expiresAt := previous.expiresAt }
      else { command, deferredAt := now, expiresAt := now + ttlSeconds }
  | none => { command, deferredAt := now, expiresAt := now + ttlSeconds }

def defer (lane : DeferredTxCommandLane π) (command : Command π) (now : Time)
    (rfState : RfState := .tx) :
    Except LaneError (TxInterlockDeferredResult π × DeferredTxCommandLane π) :=
  let effective := evaluateTxInterlock command.commandClass rfState
  if effective.disposition ≠ .defer ∨ effective.allowed = true ∨ rfState ≠ .tx then
    .error (.valueError "only denied DEFER decisions may be held in the lane")
  else
    let held := replacement lane.entry command now
    let lane' : DeferredTxCommandLane π := { entry := some held }
    match lane.entry with
    | none => .ok (result .held held, lane')
    | some previous =>
        if previous.expiresAt ≤ now then
          .ok (⟨.expired, previous.command, previous.expiresAt, some command⟩, lane')
        else .ok (⟨.superseded, previous.command, previous.expiresAt, some command⟩, lane')

def observe (lane : DeferredTxCommandLane π) (rfState : RfState) (now : Time) :
    Option (TxInterlockDeferredResult π) × DeferredTxCommandLane π :=
  match lane.entry with
  | none => (none, lane)
  | some entry =>
      if entry.expiresAt ≤ now then (some (result .expired entry), { entry := none })
      else if rfState ≠ .rx then
        let entry := { entry with quietSince := none }
        (some (result .held entry), { entry := some entry })
      else
        match entry.quietSince with
        | none =>
            let entry := { entry with quietSince := some now }
            (some (result .held entry), { entry := some entry })
        | some quietSince =>
            if now - quietSince < quietSeconds then (some (result .held entry), lane)
            else (some (result .released entry), { entry := none })

end DeferredTxCommandLane

/-! ## Runs -/

/-- A terminal outcome, as it was reported. -/
structure Terminal (π : Type) where
  outcome : TxInterlockDeferredOutcome
  command : Command π
  expiresAt : Time
  reportedAt : Time

/-- A command that `defer` has accepted. -/
structure Acceptance (π : Type) where
  command : Command π
  acceptedAt : Time
  /-- It superseded a command that was still active. -/
  chained : Bool
  /-- What was observed while it was held, newest first. -/
  observations : List (RfState × Time) := []
  terminals : List (Terminal π) := []

structure LaneRun (π : Type) where
  lane : DeferredTxCommandLane π := {}
  clock : Time
  /-- Newest first. -/
  accepted : List (Acceptance π) := []

namespace LaneRun

/-- A result that is not `HELD` is an outcome of the command that was held. -/
def reported (result : TxInterlockDeferredResult π) (now : Time) (a : Acceptance π) :
    Acceptance π :=
  if result.outcome = .held then a
  else
    { a with terminals := ⟨result.outcome, result.command, result.expiresAt, now⟩ :: a.terminals }

def observed (rfState : RfState) (now : Time) (a : Acceptance π) : Acceptance π :=
  { a with observations := (rfState, now) :: a.observations }

/-- The newest acceptance is changed. -/
def touch (f : Acceptance π → Acceptance π) : List (Acceptance π) → List (Acceptance π)
  | [] => []
  | a :: rest => f a :: rest

inductive Call (π : Type) where
  | defer (command : Command π) (now : Time) (rfState : RfState)
  | observe (rfState : RfState) (now : Time)

def step (s : LaneRun π) : Call π → Option (LaneRun π)
  | .defer command now rfState =>
      if now < s.clock then none
      else match s.lane.defer command now rfState with
      | .error _ => some { s with clock := now }
      | .ok (result, lane) => some {
          lane, clock := now
          accepted :=
            { command, acceptedAt := now, chained := decide (result.outcome = .superseded) } ::
            touch (reported result now) s.accepted }
  | .observe rfState now =>
      if now < s.clock then none
      else match s.lane.observe rfState now with
      | (none, lane) => some { s with lane, clock := now }
      | (some result, lane) => some {
          lane, clock := now
          accepted := touch (fun a => reported result now (observed rfState now a)) s.accepted }

end LaneRun

end Rigplane.TxInterlock
