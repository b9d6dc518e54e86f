import Rigplane.Web.ServerState

/-!
# The state updates of the browser

`applyDeltaEnvelope` of `frontend/src/lib/transport/ws-client.ts`, over the module's own state, the
capabilities and the store of `stores/radio.svelte.ts`.

The fetch of the capabilities is asynchronous.  That it answers is an event of its own
(`capabilitiesFetched`), which may come at any time and with any record.
-/

namespace Rigplane.Web.Frontend

open Json

/-! ## The store -/

/-- `RadioStore`, with the counters of its module. -/
structure RadioStore where
  current : Option Fields := none
  lastRevision : ℚ := -1
  lastFreshnessRevision : ℚ := -1
  lastObservationSeq : ℚ := -1
  lastHealthRevision : ℚ := -1

/-- `normalizeValidatedState`. -/
def normalizeValidatedState (state : Fields) : Fields :=
  if present state "sub" && !isNullAt state "sub" then state
  else Dict.assign "sub" (Json.get state "main") state

namespace RadioStore

/-- `clearGenerationBookkeeping`, where the store has a state of another generation. -/
def forGeneration (store : RadioStore) (generation : Option Nat) : RadioStore :=
  match store.current with
  | some current =>
      if generationOf current ≠ generation then { current := some current } else store
  | none => store

/-- The baseline of the store. -/
def baseline (store : RadioStore) : Option StateAdvanceBaseline :=
  store.current.map fun current => {
    stateRevision := store.lastRevision
    freshnessRevision := store.lastFreshnessRevision
    observationSeq := store.lastObservationSeq
    healthRevision := store.lastHealthRevision
    deliverySeq := deliverySeqOf current
    state := current }

/-- `setRadioState`, and whether it has taken the state. -/
def setRadioState (store : RadioStore) (capabilities : Option Fields) (state : Fields) :
    RadioStore × Bool :=
  if !(isValidServerState state && capabilitiesMatchGeneration capabilities (generationOf state)) ||
      !matchesCurrentCapabilityTopology capabilities state then (store, false)
  else
    let next := normalizeValidatedState state
    let store := store.forGeneration (generationOf next)
    if isStateAdvance store.baseline next then
      ({ current := some next
         lastRevision := stateRevisionOf next
         lastFreshnessRevision := counter next "freshnessRevision" 0
         lastObservationSeq := counter next "observationSeq" 0
         lastHealthRevision := counter next "healthRevision" 0 }, true)
    else (store, false)

end RadioStore

/-! ## The module state -/

/-- The state of `ws-client.ts`, with the capabilities and the store. -/
structure Browser where
  fullState : Option Fields := none
  hasReceivedFullState : Bool := false
  acceptedProviderGeneration : Option Nat := none
  expectedProviderGeneration : Option Nat := none
  capabilities : Option Fields := none
  radio : RadioStore := {}

/-- `epochOf`. -/
def epochOf (envelope : Fields) : Option Nat :=
  if isNumber (Json.get envelope "stateContractVersion") 1 then
    safeNat (Json.get envelope "providerGeneration")
  else none

/-- The revisions that an envelope has for its state. -/
def revisionKeys : List String :=
  ["revision", "stateRevision", "freshnessRevision", "observationSeq", "publicStateSeq",
    "transportSeq", "healthRevision"]

/-- `state[key] = envelope[key]`, where that is a number. -/
def syncRevision (envelope state : Fields) (key : String) : Fields :=
  if (number (Json.get envelope key)).isSome then Dict.assign key (Json.get envelope key) state
  else state

/-- `syncEnvelopeRevisions`. -/
def syncEnvelopeRevisions (state envelope : Fields) : Fields :=
  revisionKeys.foldl (syncRevision envelope) state

/-- `applyStateDelta`, on values: what the applier leaves on its heap stands for this
(`applyStateDelta_spec`). -/
def applyDeltaOps (state : Fields) (ops : StateDeltaOps Json) : Option Fields :=
  (ops.writes.foldlM (step protoSkips) state).toOption

/-- `epochKeys`. -/
def epochKeys : List String := ["stateContractVersion", "providerGeneration"]

/-- The operations remove or change the epoch of their envelope. -/
def contradictsEpoch (ops : StateDeltaOps Json) (generation : Nat) : Bool :=
  (ops.unset.any fun path => path.head?.any epochKeys.contains) ||
  ops.set.any fun (path, value) =>
    (path.head? == some "stateContractVersion" &&
      (decide (1 < path.length) || !isNumber value 1)) ||
    (path.head? == some "providerGeneration" &&
      (decide (1 < path.length) || !isNumber value generation))

namespace Browser

/-- `highestSeenGeneration`. -/
def highestSeenGeneration (s : Browser) : Option Nat :=
  s.expectedProviderGeneration.or s.acceptedProviderGeneration

/-- `resetForProviderGeneration`. -/
def resetForProviderGeneration (s : Browser) (generation : Nat) : Browser :=
  { s with
    fullState := none
    hasReceivedFullState := false
    acceptedProviderGeneration := none
    expectedProviderGeneration := some generation
    radio := {}
    capabilities := none }

/-- `setRadioState`, of the store. -/
def setRadioState (s : Browser) (state : Fields) : Browser × Bool :=
  let result := s.radio.setRadioState s.capabilities state
  ({ s with radio := result.1 }, result.2)

/-- `commitCurrentState`. -/
def commitCurrentState (s : Browser) : Browser × Bool :=
  match s.fullState with
  | some state =>
      if s.hasReceivedFullState &&
          capabilitiesMatchGeneration s.capabilities s.acceptedProviderGeneration then
        s.setRadioState state
      else (s, false)
  | none => (s, false)

/-- `return commitCurrentState() ? _fullState : null`. -/
def committed (s : Browser) : Browser × Option Fields :=
  let result := s.commitCurrentState
  (result.1, if result.2 then result.1.fullState else none)

/-- The full that an envelope carries, where it is valid. -/
def fullOf (envelope : Fields) (generation : Nat) : Option Fields :=
  match Json.get envelope "data" with
  | .obj data =>
      if isNumber (Json.get data "stateContractVersion") 1 &&
          isNumber (Json.get data "providerGeneration") generation &&
          isValidServerState (syncEnvelopeRevisions data envelope) then
        some (syncEnvelopeRevisions data envelope)
      else none
  | _ => none

/-- A state that the topology of capabilities of its generation forbids. -/
def forbidden (s : Browser) (generation : Nat) (state : Fields) : Bool :=
  capabilitiesMatchGeneration s.capabilities (some generation) &&
    !matchesCurrentCapabilityTopology s.capabilities state

/-- A full of the accepted generation that is no advance. -/
def behind (s : Browser) (generation : Nat) (state : Fields) : Bool :=
  match s.fullState with
  | some base =>
      decide (s.acceptedProviderGeneration = some generation) &&
        !isStateAdvance (some (stateAdvanceBaselineOf base)) state
  | none => false

/-- The browser, without what a full of another generation retires. -/
def retireForFull (s : Browser) (generation : Nat) : Browser :=
  if (s.acceptedProviderGeneration ≠ some generation ∨ s.hasReceivedFullState = false) ∧
      s.expectedProviderGeneration ≠ some generation ∧
      (s.acceptedProviderGeneration ≠ none ∨
        capabilitiesMatchGeneration s.capabilities (some generation) = false) then
    s.resetForProviderGeneration generation
  else s

/-- The state becomes the base. -/
def install (s : Browser) (generation : Nat) (state : Fields) : Browser :=
  { s with
    fullState := some state
    hasReceivedFullState := true
    acceptedProviderGeneration := some generation
    expectedProviderGeneration := none }

/-- `applyDeltaEnvelope`, of a full. -/
def applyFull (s : Browser) (envelope : Fields) (generation : Nat) : Browser × Option Fields :=
  match fullOf envelope generation with
  | none => (s, none)
  | some state =>
      if s.forbidden generation state || s.behind generation state then (s, none)
      else ((s.retireForFull generation).install generation state).committed

/-- The state that a delta makes of a base, where it is valid. -/
def candidateOf (base : Fields) (ops : StateDeltaOps Json) (envelope : Fields) : Option Fields :=
  match applyDeltaOps base ops with
  | none => none
  | some state =>
      if isValidServerState (syncEnvelopeRevisions state envelope) then
        some (syncEnvelopeRevisions state envelope)
      else none

/-- The browser when a delta of another generation has come, or one before a full. -/
def retireForDelta (s : Browser) (generation : Nat) : Browser :=
  match s.highestSeenGeneration with
  | none => s.resetForProviderGeneration generation
  | some seen => if generation > seen then s.resetForProviderGeneration generation else s

/-- `applyDeltaEnvelope`, of the operations of a delta. -/
def applyDelta (s : Browser) (envelope : Fields) (generation : Nat) (ops : StateDeltaOps Json) :
    Browser × Option Fields :=
  match s.fullState with
  | none => (s.retireForDelta generation, none)
  | some base =>
      match candidateOf base ops envelope with
      | none => (s, none)
      | some state =>
          if s.forbidden generation state then (s, none)
          else if s.acceptedProviderGeneration ≠ some generation ∨
              s.hasReceivedFullState = false then
            (s.retireForDelta generation, none)
          else if isStateAdvance (some (stateAdvanceBaselineOf base)) state then
            ({ s with fullState := some state }).committed
          else (s, none)

/-- `applyDeltaEnvelope`. -/
def applyDeltaEnvelope (s : Browser) (envelope : Fields) : Browser × Option Fields :=
  match epochOf envelope with
  | none => (s, none)
  | some generation =>
      if s.highestSeenGeneration.any fun seen => decide (generation < seen) then (s, none)
      else if isText (Json.get envelope "type") "full" then s.applyFull envelope generation
      else if isText (Json.get envelope "type") "delta" then
        match stateDeltaOps envelope with
        | none => (s, none)
        | some ops =>
            if contradictsEpoch ops generation then (s, none)
            else s.applyDelta envelope generation ops
      else (s, none)

/-- The handler of a `state_update` message. -/
def onStateUpdate (s : Browser) (envelope : Fields) : Browser :=
  match s.applyDeltaEnvelope envelope with
  | (s, some state) => (s.setRadioState state).1
  | (s, none) => s

/-- The answer that `refreshCapabilities` waits for, where its `isCurrent` holds. -/
def onCapabilities (s : Browser) (capabilities : Fields) : Browser :=
  match s.acceptedProviderGeneration with
  | some generation =>
      if s.hasReceivedFullState && s.fullState.isSome &&
          capabilitiesMatchGeneration (some capabilities) (some generation) then
        ({ s with capabilities := some capabilities }).commitCurrentState.1
      else s
  | none => s

/-! ## Events -/

/-- What comes within a control session. -/
inductive Event where
  | stateUpdate (envelope : Fields)
  /-- The fetch of the capabilities answers. -/
  | capabilitiesFetched (capabilities : Fields)
  /-- `resetRadioState`, from the system controller. -/
  | radioReset

def react (s : Browser) : Event → Browser
  | .stateUpdate envelope => s.onStateUpdate envelope
  | .capabilitiesFetched capabilities => s.onCapabilities capabilities
  | .radioReset => { s with radio := {} }

/-- What a session comes to. -/
def run (s : Browser) (events : List Event) : Browser := events.foldl react s

/-- The browser when a control session begins, with capabilities that it may have. -/
def initial (capabilities : Option Fields) : Browser := { capabilities }

end Browser

end Rigplane.Web.Frontend
