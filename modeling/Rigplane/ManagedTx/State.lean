import Rigplane.Clock

/-!
# The managed-transmit reducer

`runtime/managed_tx_state.py` is a pure state machine: `reduce_managed_tx` takes
the managed state and one event to the next state, an outcome and at most one
effect.  Two dataclasses check themselves when they are built.  An intent checks
its owner token, and here the check is a field of `ManagedTxIntent`, so every
intent has passed it.  The state checks that an active intent holds release debt
and a start time, and that an idle one holds no times; `ManagedTxState.postInit`
is that check, and `reduceManagedTx` runs it wherever the source builds a state
with `replace`.  A failed check is the `ValueError` it raises.

A release plan is *debt*: the radio may be keyed until a `FORCE_RECEIVE` for it
settles as accepted.
-/

namespace Rigplane.ManagedTx

/-! ## Enumerations -/

inductive ManagedTxIntentKind where
  | rx
  | ptt
  | transmit
deriving DecidableEq, Repr

inductive ManagedTxOutcome where
  | accepted
  | rejected
  | applied
  | stale
deriving DecidableEq, Repr

inductive ReleasePlan where
  | pttRelease
  | forceRelease
deriving DecidableEq, Repr

inductive ActuationOperation where
  | pttOn
  | transmitOn
  | forceReceive
deriving DecidableEq, Repr

/-- `PTT_ON` and `TRANSMIT_ON` key the radio. -/
def ActuationOperation.IsOn (operation : ActuationOperation) : Prop :=
  operation ≠ .forceReceive

instance : DecidablePred ActuationOperation.IsOn :=
  fun operation => inferInstanceAs (Decidable (operation ≠ .forceReceive))

inductive AbortOperation where
  | stopCw
  | stopTune
deriving DecidableEq, Repr

inductive ActuationResult where
  | accepted
  | rejected
  | uncertain
deriving DecidableEq, Repr

/-- The text of a result, the `StrEnum` value. -/
def ActuationResult.value : ActuationResult → String
  | .accepted => "accepted"
  | .rejected => "rejected"
  | .uncertain => "uncertain"

/-! ## Records -/

/-- The four `ValueError`s of the two `__post_init__` methods. -/
inductive ManagedTxError where
  | pttNeedsOwner
  | onlyPttHasOwner
  | activeNeedsDebt
  | rxKeepsTimes
deriving DecidableEq, Repr

def ManagedTxError.message : ManagedTxError → String
  | .pttNeedsOwner => "PTT intent requires an owner token"
  | .onlyPttHasOwner => "only PTT intent may have an owner token"
  | .activeNeedsDebt => "active intent requires release debt and a start time"
  | .rxKeepsTimes => "RX state cannot retain TOT times"

/-- `ManagedTxIntent.__post_init__`: the error it raises, if any. -/
def intentError (kind : ManagedTxIntentKind) (ownerToken : Option String) :
    Option ManagedTxError :=
  if kind = .ptt ∧ (ownerToken = none ∨ ownerToken = some "") then some .pttNeedsOwner
  else if kind ≠ .ptt ∧ ownerToken ≠ none then some .onlyPttHasOwner
  else none

/-- An intent that passed its check. -/
structure ManagedTxIntent where
  kind : ManagedTxIntentKind
  ownerToken : Option String
  /-- `__post_init__` raised nothing. -/
  checked : intentError kind ownerToken = none
deriving DecidableEq

namespace ManagedTxIntent

def rx : ManagedTxIntent := ⟨.rx, none, rfl⟩

/-- `ManagedTxIntent(ManagedTxIntentKind.TRANSMIT)`. -/
def transmit : ManagedTxIntent := ⟨.transmit, none, rfl⟩

theorem pttChecked {owner : String} (h : owner ≠ "") :
    intentError .ptt (some owner) = none := by
  simp [intentError, h]

/-- `ManagedTxIntent.ptt(owner)`, which refuses an empty owner token. -/
def ptt (owner : String) : Except ManagedTxError ManagedTxIntent :=
  if h : owner = "" then .error .pttNeedsOwner
  else .ok ⟨.ptt, some owner, pttChecked h⟩

instance : Inhabited ManagedTxIntent := ⟨rx⟩

end ManagedTxIntent

structure EffectToken where
  providerGeneration : Int
  effectEpoch : Int
  attemptId : String
deriving DecidableEq, Repr, Inhabited

structure ManagedTxEffect where
  operation : ActuationOperation
  token : EffectToken
deriving DecidableEq, Repr

structure ActuationDiagnostic where
  operation : ActuationOperation
  result : ActuationResult
  attemptId : String
deriving DecidableEq, Repr

structure AbortError where
  operation : AbortOperation
  error : String
deriving DecidableEq, Repr

structure ManagedTxState where
  intent : ManagedTxIntent := .rx
  releasePlan : Option ReleasePlan := none
  txStartedAtMonotonic : Option Time := none
  totDeadlineMonotonic : Option Time := none
  effectEpoch : Int := 0
  pendingEffect : Option ManagedTxEffect := none
  currentAbortToken : Option EffectToken := none
  lastActuation : Option ActuationDiagnostic := none
  lastError : Option String := none
  abortErrors : List AbortError := []
deriving DecidableEq

namespace ManagedTxState

/-- The intent is PTT or TRANSMIT. -/
def Active (state : ManagedTxState) : Prop := state.intent.kind ≠ .rx

instance (state : ManagedTxState) : Decidable state.Active :=
  inferInstanceAs (Decidable (_ ≠ _))

/-- `ManagedTxState.__post_init__`, which raises or keeps the state. -/
def postInit (state : ManagedTxState) : Except ManagedTxError ManagedTxState :=
  if state.Active ∧ (state.releasePlan = none ∨ state.txStartedAtMonotonic = none) then
    .error .activeNeedsDebt
  else if ¬ state.Active ∧
      (state.txStartedAtMonotonic ≠ none ∨ state.totDeadlineMonotonic ≠ none) then
    .error .rxKeepsTimes
  else .ok state

/-- `release_required`: a release is owed. -/
def releaseRequired (state : ManagedTxState) : Bool := state.releasePlan.isSome

end ManagedTxState

/-! ## Events -/

structure PttDown where
  ownerToken : String
  providerGeneration : Int
  attemptId : String
  txStartedAtMonotonic : Time
  totDeadlineMonotonic : Option Time
deriving DecidableEq

structure PttUp where
  ownerToken : String
  providerGeneration : Int
  attemptId : String
deriving DecidableEq

structure TransmitOn where
  providerGeneration : Int
  attemptId : String
  txStartedAtMonotonic : Time
  totDeadlineMonotonic : Option Time
deriving DecidableEq

structure ForceOff where
  providerGeneration : Option Int
  attemptId : String
deriving DecidableEq

structure RetryForceReceive where
  providerGeneration : Int
  attemptId : String
deriving DecidableEq

structure ActuationSettled where
  token : EffectToken
  operation : ActuationOperation
  result : ActuationResult
  error : Option String := none
deriving DecidableEq

structure AbortFailed where
  token : EffectToken
  operation : AbortOperation
  error : String
deriving DecidableEq

inductive ManagedTxEvent where
  | pttDown (event : PttDown)
  | pttUp (event : PttUp)
  | transmitOn (event : TransmitOn)
  | forceOff (event : ForceOff)
  | retryForceReceive (event : RetryForceReceive)
  | actuationSettled (event : ActuationSettled)
  | abortFailed (event : AbortFailed)
deriving DecidableEq

structure ManagedTxTransition where
  state : ManagedTxState
  outcome : ManagedTxOutcome
  effects : List ManagedTxEffect := []
deriving DecidableEq

/-! ## The states the reducer builds

One definition for each `replace` call of the source. -/

namespace ManagedTxState

/-- An effect at the next epoch. -/
def freshEffect (state : ManagedTxState) (providerGeneration : Int) (attemptId : String)
    (operation : ActuationOperation) : ManagedTxEffect :=
  ⟨operation, ⟨providerGeneration, state.effectEpoch + 1, attemptId⟩⟩

/-- `_on`: an intent is committed with its debt and its ON effect. -/
def keyed (state : ManagedTxState) (txStartedAt : Time) (totDeadline : Option Time)
    (intent : ManagedTxIntent) (effect : ManagedTxEffect) : ManagedTxState :=
  { state with
    intent := intent
    releasePlan := some .pttRelease
    txStartedAtMonotonic := some txStartedAt
    totDeadlineMonotonic := totDeadline
    effectEpoch := state.effectEpoch + 1
    pendingEffect := some effect
    currentAbortToken := none
    lastError := none }

/-- `PttUp`: the intent goes and the debt stays. -/
def released (state : ManagedTxState) (effect : ManagedTxEffect) : ManagedTxState :=
  { state with
    intent := .rx
    txStartedAtMonotonic := none
    totDeadlineMonotonic := none
    pendingEffect := some effect }

/-- `RetryForceReceive`: the debt is attempted again at the next epoch. -/
def retrying (state : ManagedTxState) (effect : ManagedTxEffect) : ManagedTxState :=
  { state with
    effectEpoch := state.effectEpoch + 1
    pendingEffect := some effect }

/-- `ForceOff`: the intent goes, whatever it was, and debt is owed. -/
def forced (state : ManagedTxState) (effect : Option ManagedTxEffect) : ManagedTxState :=
  { state with
    intent := .rx
    releasePlan := some .forceRelease
    txStartedAtMonotonic := none
    totDeadlineMonotonic := none
    effectEpoch := state.effectEpoch + 1
    pendingEffect := effect
    currentAbortToken := effect.map ManagedTxEffect.token
    abortErrors := [] }

/-- The first `replace` of `_settle`: the pending effect is done. -/
def settled (state : ManagedTxState) (event : ActuationSettled) : ManagedTxState :=
  { state with
    pendingEffect := none
    lastActuation := some ⟨event.operation, event.result, event.token.attemptId⟩ }

/-- A settled `FORCE_RECEIVE`: an accepted one pays the debt. -/
def releaseSettled (state : ManagedTxState) (result : ActuationResult) (text : String) :
    ManagedTxState :=
  { state with
    releasePlan := if result = .accepted then none else state.releasePlan
    lastError := if result = .accepted then none else some text }

/-- An ON that settled other than accepted: back to RX, with debt. -/
def onFailed (state : ManagedTxState) (text : String) : ManagedTxState :=
  { state with
    intent := .rx
    releasePlan := some .forceRelease
    txStartedAtMonotonic := none
    totDeadlineMonotonic := none
    lastError := some text }

end ManagedTxState

/-! ## The reducer -/

/-- `_on`. -/
def on (state : ManagedTxState) (providerGeneration : Int) (attemptId : String)
    (txStartedAt : Time) (totDeadline : Option Time) (intent : ManagedTxIntent)
    (operation : ActuationOperation) : Except ManagedTxError ManagedTxTransition := do
  let effect := state.freshEffect providerGeneration attemptId operation
  let nextState ← (state.keyed txStartedAt totDeadline intent effect).postInit
  return ⟨nextState, .accepted, [effect]⟩

/-- `event.error or event.result.value`. -/
def ActuationSettled.text (event : ActuationSettled) : String :=
  match event.error with
  | some error => if error = "" then event.result.value else error
  | none => event.result.value

/-- The pending effect is the one the event settles. -/
def ActuationSettled.Settles (event : ActuationSettled) (state : ManagedTxState) : Prop :=
  state.pendingEffect = some ⟨event.operation, event.token⟩

instance (event : ActuationSettled) (state : ManagedTxState) : Decidable (event.Settles state) :=
  inferInstanceAs (Decidable (_ = _))

/-- `_settle`. -/
def settle (state : ManagedTxState) (event : ActuationSettled) :
    Except ManagedTxError ManagedTxTransition :=
  if ¬ event.Settles state then .ok ⟨state, .stale, []⟩
  else do
    let settled ← (state.settled event).postInit
    if event.operation = .forceReceive then
      let settled ← (settled.releaseSettled event.result event.text).postInit
      return ⟨settled, .applied, []⟩
    else if event.result = .accepted then
      let settled ← ({ settled with lastError := none } : ManagedTxState).postInit
      return ⟨settled, .applied, []⟩
    else
      let settled ← (settled.onFailed event.text).postInit
      return ⟨settled, .applied, []⟩

/-- `reduce_managed_tx`. -/
def reduceManagedTx (state : ManagedTxState) :
    ManagedTxEvent → Except ManagedTxError ManagedTxTransition
  | .pttDown event => do
      let intent ← ManagedTxIntent.ptt event.ownerToken
      if state.intent = intent then
        return ⟨state, .accepted, []⟩
      else if state.Active ∨ state.releaseRequired then
        return ⟨state, .rejected, []⟩
      else
        on state event.providerGeneration event.attemptId event.txStartedAtMonotonic
          event.totDeadlineMonotonic intent .pttOn
  | .transmitOn event =>
      if state.intent.kind = .transmit then
        .ok ⟨state, .accepted, []⟩
      else if state.Active ∨ state.releaseRequired then
        .ok ⟨state, .rejected, []⟩
      else
        on state event.providerGeneration event.attemptId event.txStartedAtMonotonic
          event.totDeadlineMonotonic .transmit .transmitOn
  | .pttUp event => do
      let intent ← ManagedTxIntent.ptt event.ownerToken
      if state.intent ≠ intent then
        return ⟨state, .rejected, []⟩
      else
        -- The epoch stays that of the key-down: the release belongs to the same over.
        let effect : ManagedTxEffect :=
          ⟨.forceReceive, ⟨event.providerGeneration, state.effectEpoch, event.attemptId⟩⟩
        let nextState ← (state.released effect).postInit
        return ⟨nextState, .accepted, [effect]⟩
  | .retryForceReceive event =>
      if state.Active ∨ state.releasePlan = none ∨ state.pendingEffect ≠ none then
        .ok ⟨state, .rejected, []⟩
      else do
        let effect := state.freshEffect event.providerGeneration event.attemptId .forceReceive
        let nextState ← (state.retrying effect).postInit
        return ⟨nextState, .accepted, [effect]⟩
  | .forceOff event => do
      let forceEffect := event.providerGeneration.map fun generation =>
        state.freshEffect generation event.attemptId .forceReceive
      let nextState ← (state.forced forceEffect).postInit
      return ⟨nextState, .accepted, forceEffect.toList⟩
  | .actuationSettled event => settle state event
  | .abortFailed event =>
      if some event.token ≠ state.currentAbortToken then
        .ok ⟨state, .stale, []⟩
      else do
        let nextState ← ManagedTxState.postInit
          { state with abortErrors := state.abortErrors ++ [⟨event.operation, event.error⟩] }
        return ⟨nextState, .applied, []⟩

/-- The states a fold of `reduce_managed_tx` passes through: one event at a time, and no
successor where the reducer raises. -/
def reduceStep (state : ManagedTxState) (event : ManagedTxEvent) : Option ManagedTxState :=
  (reduceManagedTx state event).toOption.map ManagedTxTransition.state

end Rigplane.ManagedTx
