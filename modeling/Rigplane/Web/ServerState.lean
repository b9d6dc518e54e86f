import Mathlib.Algebra.Order.Ring.Rat
import Rigplane.Web.StateDeltaHeap

/-!
# The state contract of the browser

`isValidServerState` and `matchesCurrentCapabilityTopology` of
`frontend/src/lib/stores/radio.svelte.ts`, `isStateAdvance` of `live-metadata.ts`, and the check of
the capabilities of `capabilities.svelte.ts`.

A value is one that `JSON.parse` gives, so that every number is finite.  A property that is missing
is `undefined`.
-/

namespace Rigplane.Web.Frontend

open Json

/-! ## Values -/

/-- The number of a value of type `number`. -/
def number : Json → Option ℚ
  | .int value => some value
  | .float value => some value
  | _ => none

/-- `Number.MAX_SAFE_INTEGER`. -/
def maxSafeInteger : Int := 9007199254740991

/-- `validProviderGeneration` and `validCounter`, with the number: a safe integer that is not
negative. -/
def safeNat (value : Json) : Option Nat :=
  match number value with
  | some q => if q.den = 1 ∧ 0 ≤ q.num ∧ q.num ≤ maxSafeInteger then some q.num.toNat else none
  | none => none

/-- `value === number`. -/
def isNumber (value : Json) (expected : Nat) : Bool := number value = some (expected : ℚ)

/-- `value === text`. -/
def isText (value : Json) (text : String) : Bool := asStr value = some text

/-- `typeof value === "string"`. -/
def isString (value : Json) : Bool := (asStr value).isSome

/-- `typeof value === "boolean"`. -/
def isBool : Json → Bool
  | .bool _ => true
  | _ => false

/-- `value !== undefined`, for a property. -/
def present (fields : Fields) (key : String) : Bool := (Dict.find key fields).isSome

/-- `value === null`, for a property. -/
def isNullAt (fields : Fields) (key : String) : Bool :=
  match Dict.find key fields with
  | some .null => true
  | _ => false

/-- `numberOrNull`, of a property. -/
def numberOrNull (fields : Fields) (key : String) : Bool :=
  isNullAt fields key || (number (Json.get fields key)).isSome

/-- `stringOrNull`, of a property. -/
def stringOrNull (fields : Fields) (key : String) : Bool :=
  isNullAt fields key || isString (Json.get fields key)

/-- `boolOrNull`, of a property. -/
def boolOrNull (fields : Fields) (key : String) : Bool :=
  isNullAt fields key || isBool (Json.get fields key)

/-- The check of the properties of a record. -/
def recordWith (value : Json) (check : Fields → Bool) : Bool :=
  match value with
  | .obj fields => check fields
  | _ => false

/-! ## The contract -/

/-- `validReceiver`. -/
def validReceiver (value : Json) : Bool :=
  recordWith value fun receiver =>
    numberOrNull receiver "freqHz" && stringOrNull receiver "mode" &&
    ["filter", "dataMode", "sMeter", "att", "preamp"].all (numberOrNull receiver) &&
    boolOrNull receiver "nb" && boolOrNull receiver "nr" &&
    ["afLevel", "rfGain", "squelch"].all (numberOrNull receiver)

/-- `validConnection`. -/
def validConnection (value : Json) : Bool :=
  recordWith value fun connection =>
    ["rigConnected", "radioReady", "controlConnected"].all fun key =>
      isBool (Json.get connection key)

/-- `validTxTarget`. -/
def validTxTarget (value : Json) : Bool :=
  recordWith value fun target =>
    if isText (Json.get target "status") "unknown" then isString (Json.get target "reason")
    else
      isText (Json.get target "status") "known" &&
      (isText (Json.get target "receiver") "MAIN" || isText (Json.get target "receiver") "SUB") &&
      (isText (Json.get target "slot") "A" || isText (Json.get target "slot") "B" ||
        isNullAt target "slot") &&
      numberOrNull target "frequencyHz"

/-- The properties of `wsClients`. -/
def validClients (value : Json) : Bool :=
  recordWith value fun clients =>
    ["scope", "control", "audio"].all fun key => (safeNat (Json.get clients key)).isSome

/-- `isValidServerState`, of a record. -/
def isValidServerState (state : Fields) : Bool :=
  isNumber (Json.get state "stateContractVersion") 1 &&
  (safeNat (Json.get state "providerGeneration")).isSome &&
  ["revision", "stateRevision", "freshnessRevision", "observationSeq"].all
    (fun key => (safeNat (Json.get state key)).isSome) &&
  isString (Json.get state "updatedAt") &&
  (isText (Json.get state "active") "MAIN" || isText (Json.get state "active") "SUB" ||
    isNullAt state "active") &&
  boolOrNull state "ptt" && boolOrNull state "split" && boolOrNull state "dualWatch" &&
  numberOrNull state "tunerStatus" &&
  validReceiver (Json.get state "main") &&
  (!present state "sub" || isNullAt state "sub" || validReceiver (Json.get state "sub")) &&
  validConnection (Json.get state "connection") &&
  validTxTarget (Json.get state "txTarget") &&
  ["healthRevision", "publicStateSeq", "transportSeq"].all
    (fun key => !present state key || (safeNat (Json.get state key)).isSome) &&
  (!present state "wsClients" || validClients (Json.get state "wsClients")) &&
  ["fieldStatus", "radioHealth"].all fun key =>
    !present state key || isRecord (Json.get state key)

/-- The generation of a state. -/
def generationOf (state : Fields) : Option Nat := safeNat (Json.get state "providerGeneration")

/-! ## Capabilities -/

/-- `capabilitiesMatchGeneration`. -/
def capabilitiesMatchGeneration (capabilities : Option Fields) (generation : Option Nat) : Bool :=
  match capabilities, generation with
  | some record, some generation =>
      isNumber (Json.get record "stateContractVersion") 1 &&
      isNumber (Json.get record "providerGeneration") generation
  | _, _ => false

/-- `hasSubReceiver`. -/
def hasSubReceiver (capabilities : Fields) : Bool :=
  (safeNat (Json.get capabilities "receivers")).any fun receivers => decide (2 ≤ receivers)

/-- The check of `scopeControls.receiver`. -/
def validScopeReceiver (controls : Json) (hasSub : Bool) : Bool :=
  recordWith controls fun controls =>
    isNullAt controls "receiver" ||
    (safeNat (Json.get controls "receiver")).any fun index =>
      decide (index ≤ if hasSub then 1 else 0)

/-- `matchesCurrentCapabilityTopology`. -/
def matchesCurrentCapabilityTopology (capabilities : Option Fields) (state : Fields) : Bool :=
  match capabilities with
  | none => false
  | some record =>
      capabilitiesMatchGeneration capabilities (generationOf state) &&
      !(isText (Json.get state "active") "SUB" && !hasSubReceiver record) &&
      (recordWith (Json.get state "txTarget") fun target =>
        !(isText (Json.get target "status") "known" && isText (Json.get target "receiver") "SUB" &&
          !hasSubReceiver record)) &&
      (!present state "scopeControls" ||
        validScopeReceiver (Json.get state "scopeControls") (hasSubReceiver record))

/-! ## Advances -/

/-- A counter of a state, or what stands for a missing one. -/
def counter (state : Fields) (key : String) (missing : ℚ) : ℚ :=
  (number (Json.get state key)).getD missing

/-- `stateRevisionOf` of a state. -/
def stateRevisionOf (state : Fields) : ℚ :=
  ((number (Json.get state "stateRevision")).or (number (Json.get state "revision"))).getD (-1)

/-- `deliverySeqOf` of a state. -/
def deliverySeqOf (state : Fields) : ℚ :=
  max (counter state "publicStateSeq" 0) (counter state "transportSeq" 0)

/-- `StateAdvanceBaseline`. -/
structure StateAdvanceBaseline where
  stateRevision : ℚ
  freshnessRevision : ℚ
  observationSeq : ℚ
  healthRevision : ℚ
  deliverySeq : ℚ
  state : Fields

/-- `stateAdvanceBaselineOf` of a state. -/
def stateAdvanceBaselineOf (state : Fields) : StateAdvanceBaseline where
  stateRevision := stateRevisionOf state
  freshnessRevision := counter state "freshnessRevision" 0
  observationSeq := counter state "observationSeq" 0
  healthRevision := counter state "healthRevision" 0
  deliverySeq := deliverySeqOf state
  state := state

/-- `LIVE_METADATA_KEYS`. -/
def liveMetadataKeys : List String :=
  ["connection", "fieldStatus", "healthRevision", "publicStateSeq", "radioHealth", "transportSeq",
    "updatedAt", "wsClients"]

mutual

/-- `JSON.stringify` gives the same text for both. -/
def sameText : Json → Json → Bool
  | .null, .null => true
  | .bool a, .bool b => a = b
  | .str a, .str b => a = b
  | .arr a, .arr b => sameTexts a b
  | .obj a, .obj b => sameEntries a b
  | a, b =>
      match number a, number b with
      | some x, some y => x = y
      | _, _ => false

def sameTexts : List Json → List Json → Bool
  | [], [] => true
  | a :: as, b :: bs => sameText a b && sameTexts as bs
  | _, _ => false

def sameEntries : List (String × Json) → List (String × Json) → Bool
  | [], [] => true
  | (key, a) :: as, (key', b) :: bs => (key = key') && sameText a b && sameEntries as bs
  | _, _ => false

end

/-- `valuesEqual`, of properties. -/
def valuesEqual : Option Json → Option Json → Bool
  | none, none => true
  | some left, some right => sameText left right
  | _, _ => false

/-- `hasOnlyLiveMetadataChanges`. -/
def hasOnlyLiveMetadataChanges (current next : Fields) : Bool :=
  (current.map Prod.fst ++ next.map Prod.fst).all fun key =>
    valuesEqual (Dict.find key current) (Dict.find key next) || liveMetadataKeys.contains key

/-- `isStateAdvance`.  The next state has passed `isValidServerState`, so that its counters are
numbers where it has them. -/
def isStateAdvance (baseline : Option StateAdvanceBaseline) (next : Fields) : Bool :=
  match baseline with
  | none => true
  | some baseline =>
      match (number (Json.get next "stateRevision")).or (number (Json.get next "revision")) with
      | none => false
      | some nextRevision =>
          if nextRevision > baseline.stateRevision then true
          else if nextRevision ≠ baseline.stateRevision then false
          else
            decide (counter next "freshnessRevision" 0 > baseline.freshnessRevision) ||
            decide (counter next "observationSeq" 0 > baseline.observationSeq) ||
            decide (counter next "healthRevision" 0 > baseline.healthRevision) ||
            (decide (deliverySeqOf next > baseline.deliverySeq) &&
              hasOnlyLiveMetadataChanges baseline.state next)

/-! ## What the checks say -/

theorem number_of_safeNat {value : Json} {n : Nat} (h : safeNat value = some n) :
    number value = some (n : ℚ) := by
  rw [safeNat] at h
  cases hnumber : number value with
  | none =>
      rw [hnumber] at h
      cases h
  | some q =>
      rw [hnumber] at h
      dsimp only at h
      split at h
      · rename_i hsafe
        cases h
        obtain ⟨hden, hnum, -⟩ := hsafe
        congr 1
        rw [← Int.cast_natCast, Int.toNat_of_nonneg hnum]
        exact (Rat.den_eq_one_iff q).mp hden |>.symm
      · cases h

/-- A number that is a generation is the only one its value is. -/
theorem generation_unique {value : Json} {n m : Nat} (hn : isNumber value n = true)
    (hm : isNumber value m = true) : n = m := by
  rw [isNumber, decide_eq_true_iff] at hn hm
  rw [hn] at hm
  exact Nat.cast_injective (Option.some.inj hm)

theorem isNumber_of_safeNat {value : Json} {n : Nat} (h : safeNat value = some n) :
    isNumber value n = true := decide_eq_true_iff.mpr (number_of_safeNat h)

/-- What a valid state has, as far as a run depends on it. -/
structure Valid (state : Fields) : Prop where
  generation : ∃ g, generationOf state = some g
  stateRevision : ∃ n : Nat, number (Json.get state "stateRevision") = some (n : ℚ)
  counters : ∀ key ∈ ["revision", "stateRevision", "freshnessRevision", "observationSeq",
    "healthRevision", "publicStateSeq", "transportSeq"],
    ∀ child, Dict.find key state ≠ some (.obj child)

theorem valid_of_isValidServerState {state : Fields} (h : isValidServerState state = true) :
    Valid state := by
  simp only [isValidServerState, Bool.and_eq_true, List.all_cons, List.all_nil, and_true,
    Option.isSome_iff_exists, Bool.or_eq_true, Bool.not_eq_true'] at h
  obtain ⟨⟨⟨⟨⟨⟨⟨⟨⟨⟨⟨⟨⟨⟨⟨-, hgeneration⟩, hrevision, hstate, hfresh, hobservation⟩, -⟩, -⟩, -⟩,
    -⟩, -⟩, -⟩,
    -⟩, -⟩, -⟩, -⟩, hhealth, hpublic, htransport⟩, -⟩, -⟩ := h
  have hcounter : ∀ {key : String} {child : Fields},
      (∃ n, safeNat (Json.get state key) = some n) → Dict.find key state ≠ some (.obj child) := by
    rintro key child ⟨n, hn⟩ hfind
    rw [Json.get, hfind] at hn
    cases hn
  have hoptional : ∀ {key : String} {child : Fields},
      (present state key = false ∨ ∃ n, safeNat (Json.get state key) = some n) →
      Dict.find key state ≠ some (.obj child) := by
    rintro key child (habsent | hn) hfind
    · rw [present, hfind] at habsent
      cases habsent
    · exact hcounter hn hfind
  refine ⟨hgeneration, ?_, ?_⟩
  · obtain ⟨n, hn⟩ := hstate
    exact ⟨n, number_of_safeNat hn⟩
  · intro key hkey child
    simp only [List.mem_cons, List.not_mem_nil, or_false] at hkey
    rcases hkey with rfl | rfl | rfl | rfl | rfl | rfl | rfl
    · exact hcounter hrevision
    · exact hcounter hstate
    · exact hcounter hfresh
    · exact hcounter hobservation
    · exact hoptional hhealth
    · exact hoptional hpublic
    · exact hoptional htransport

theorem Valid.stateRevisionOf_eq {state : Fields} (h : Valid state) :
    number (Json.get state "stateRevision") = some (stateRevisionOf state) := by
  obtain ⟨n, hn⟩ := h.stateRevision
  rw [stateRevisionOf, hn]
  rfl

/-- An advance does not go back. -/
theorem le_of_isStateAdvance {base next : Fields} (hvalid : Valid next)
    (h : isStateAdvance (some (stateAdvanceBaselineOf base)) next = true) :
    stateRevisionOf base ≤ stateRevisionOf next := by
  simp only [isStateAdvance, hvalid.stateRevisionOf_eq, Option.some_or] at h
  split at h
  · rename_i hgt
    exact le_of_lt hgt
  · split at h
    · cases h
    · rename_i heq
      exact le_of_eq (Decidable.not_not.mp heq).symm

/-- A state is no advance on one with the same counters. -/
theorem not_isStateAdvance {base next : Fields}
    (hsame : ∀ key ∈ ["revision", "stateRevision", "freshnessRevision", "observationSeq",
      "healthRevision", "publicStateSeq", "transportSeq"],
      Dict.find key next = Dict.find key base) :
    isStateAdvance (some (stateAdvanceBaselineOf base)) next = false := by
  have hget : ∀ key ∈ ["revision", "stateRevision", "freshnessRevision", "observationSeq",
      "healthRevision", "publicStateSeq", "transportSeq"], Json.get next key = Json.get base key :=
    fun key hkey => by rw [Json.get, Json.get, hsame key hkey]
  simp only [List.forall_mem_cons] at hget
  obtain ⟨hrevision, hstate, hfresh, hobservation, hhealth, hpublic, htransport, -⟩ := hget
  simp only [isStateAdvance, stateAdvanceBaselineOf, stateRevisionOf, counter, deliverySeqOf,
    hrevision, hstate, hfresh, hobservation, hhealth, hpublic, htransport]
  cases hnext : (number (Json.get base "stateRevision")).or (number (Json.get base "revision")) with
  | none => rfl
  | some q => simp

end Rigplane.Web.Frontend
