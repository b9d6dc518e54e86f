import Mathlib.Data.List.Sort
import Rigplane.Lib.Dict
import Rigplane.StatePipeline.Observation
import Rigplane.StatePipeline.PathParse

/-!
# The state store

`core/state_store.py` keeps one entry per observed field path and two revisions: the
state revision counts semantic changes and the freshness revision counts freshness
transitions.  Every write appends a record of what it changed to a bounded history, and
pruning that history raises a floor for each of the two revisions.  `deltaSince` answers
with the records above a snapshot's revisions, or asks for a full snapshot when the
snapshot is below a floor.

The readings of the freshness clock still to come are a sequence in the store.  The
caches of `snapshot` are kept, since a missed invalidation would show in a snapshot.  The
notifications of provider generations are not: they run after the generation has begun,
and what a subscriber does to the store is a later call.  A deep copy of a value is the
value.  `pruned` is not in the source; it remembers the records that pruning dropped, and
no operation reads it.
-/

namespace Rigplane.StateStore

open StatePipeline PyValue

/-! ## Records -/

inductive FreshnessState where
  | unknown
  | fresh
  | stale
deriving DecidableEq, Repr

structure FreshnessTransition where
  path : FieldPath
  previous : FreshnessState
  current : FreshnessState
  freshnessRevision : Nat
  timestampMonotonic : Time

structure ReconciliationRequest where
  path : FieldPath
  reason : String
  requestedAtMonotonic : Time
  stateRevision : Nat
  freshnessRevision : Nat
  maxAge : Option Time

structure FieldSnapshot (V : Type) where
  path : FieldPath
  value : V
  freshness : FreshnessState
  lastObservedMonotonic : Time
  maxAge : Option Time
  source : SourceMetadata
  quality : List Token
  providerGeneration : Nat
  clockDomain : Option String

structure StateSnapshot (V : Type) where
  stateRevision : Nat
  freshnessRevision : Nat
  observationSeq : Nat
  generatedAtMonotonic : Time
  fields : List (FieldSnapshot V)
  providerGeneration : Nat

structure SnapshotDelta (V : Type) where
  stateRevision : Nat
  freshnessRevision : Nat
  observationSeq : Nat
  changes : List (FieldChange V)
  freshness : List FreshnessTransition := []
  reconciliationRequests : List ReconciliationRequest := []
  requiresFullSnapshot : Bool := false
  providerGeneration : Nat := 0

structure FieldEntry (V : Type) where
  value : V
  freshness : FreshnessState
  lastObservedMonotonic : Time
  maxAge : Option Time
  source : SourceMetadata
  quality : List Token
  providerGeneration : Nat
  clockDomain : Option String
  /-- The entry as a snapshot projects it, while it does not change. -/
  projected : Option (FieldSnapshot V) := none

structure RelativeVfoRetention (V : Type) where
  generation : Int
  maxAge : Time
  coherenceWindow : Time
  pending : Dict FieldPath (Observation V) := .empty
  expiresAt : Option Time := none
  maxAge_pos : 0 < maxAge
  coherenceWindow_pos : 0 < coherenceWindow

structure Store (V : Type) where
  /-- The clock's readings still to come. -/
  clock : Nat → Time
  maxHistoryCount : Nat
  stateRevision : Nat := 0
  freshnessRevision : Nat := 0
  observationSeq : Nat := 0
  providerGeneration : Nat := 0
  retention : Option (RelativeVfoRetention V) := none
  entries : Dict FieldPath (FieldEntry V) := .empty
  orderedPaths : Option (List FieldPath) := none
  projectedFields : Option (List (FieldSnapshot V)) := none
  history : List (SnapshotDelta V) := []
  historyFloorStateRevision : Nat := 0
  historyFloorFreshnessRevision : Nat := 0
  /-- The records `_prune_history` has dropped, oldest first. -/
  pruned : List (SnapshotDelta V) := []

/-! ## Relative VFO paths -/

/-- The leaves of one tuple. -/
def relativeNames : List Token :=
  [⟨"freq_hz", by decide⟩, ⟨"mode", by decide⟩, ⟨"filter_num", by decide⟩,
    ⟨"data_mode", by decide⟩]

def receiverZero : Token := ⟨"0", by decide⟩

/-- `retention.paths`: the same eight paths for every retention. -/
def relativePaths : List FieldPath :=
  [FieldPath.active, FieldPath.unselected].flatMap fun builder =>
    relativeNames.filterMap fun name => (builder receiverZero .freqMode name).toOption

/-- `retention.required_paths`: frequency and mode of both tuples. -/
def requiredPaths : List FieldPath :=
  relativePaths.filter fun path => path.name.text = "freq_hz" ∨ path.name.text = "mode"

/-- `_relative_vfo_session_paths`: the relative paths and their identity-bound aliases. -/
def relativeVfoSessionPaths : List FieldPath :=
  let receiverIds := (relativePaths.filterMap FieldPath.receiverId).dedup
  relativePaths ++ receiverIds.flatMap fun receiverId =>
    (FieldPath.activeSlot receiverId).toOption.toList ++
      [VfoSlot.a, VfoSlot.b].flatMap fun slot =>
        relativeNames.filterMap fun name =>
          (FieldPath.vfoSlot receiverId slot .freqMode name).toOption

/-- An item of `discard`: a path, or a text to parse as one. -/
inductive PathItem where
  | path (path : FieldPath)
  | text (text : String)

/-- `FieldPath.parse(item) if isinstance(item, str) else item`. -/
def PathItem.parse : PathItem → Except ParseError FieldPath
  | .path p => .ok p
  | .text value => FieldPath.parse value

namespace Store

variable {V : Type} [PyValue V]

/-! ## Change sets -/

/-- The clock has been read once. -/
def clockRead (s : Store V) : Store V := { s with clock := fun n => s.clock (n + 1) }

/-- The store's revisions around some changes. -/
def changeset (s : Store V) (changes : List (FieldChange V)) (timestamp : Time)
    (sources : List SourceMetadata) : ChangeSet V where
  revision := s.stateRevision
  freshnessRevision := s.freshnessRevision
  observationSeq := s.observationSeq
  changes := changes
  timestampMonotonic := timestamp
  sources := sources

/-- `_empty_changeset`. -/
def emptyChangeset (s : Store V) (timestamp : Option Time) : ChangeSet V × Store V :=
  match timestamp with
  | some t => (s.changeset [] t [], s)
  | none => (s.changeset [] (s.clock 0) [], s.clockRead)

/-- `_merge_changesets`. -/
def mergeChangesets (s : Store V) (parts : List (ChangeSet V)) : ChangeSet V × Store V :=
  match parts with
  | [] => s.emptyChangeset none
  | part :: rest =>
      ({ s.changeset (parts.flatMap ChangeSet.changes)
          (rest.foldl (fun t part => max t part.timestampMonotonic) part.timestampMonotonic)
          (parts.flatMap ChangeSet.sources) with
        coalesced := parts.any ChangeSet.coalesced
        observedPaths := parts.flatMap ChangeSet.observedPaths
        freshnessPaths := parts.flatMap ChangeSet.freshnessPaths }, s)

/-! ## History -/

/-- The loop of `_prune_history` over the records from the oldest on. -/
def pruneFrom : List (SnapshotDelta V) → Store V → Store V
  | [], s => s
  | record :: rest, s =>
      if rest.length + 1 ≤ s.maxHistoryCount then s
      else pruneFrom rest { s with
        history := rest
        pruned := s.pruned ++ [record]
        historyFloorStateRevision :=
          if record.changes.isEmpty then s.historyFloorStateRevision
          else max s.historyFloorStateRevision record.stateRevision
        historyFloorFreshnessRevision :=
          if record.freshness.isEmpty && record.reconciliationRequests.isEmpty then
            s.historyFloorFreshnessRevision
          else max s.historyFloorFreshnessRevision record.freshnessRevision }

/-- `_prune_history`. -/
def pruneHistory (s : Store V) : Store V := pruneFrom s.history s

/-- `_append_history`. -/
def appendHistory (s : Store V) (changes : List (FieldChange V))
    (freshness : List FreshnessTransition) (requests : List ReconciliationRequest) : Store V :=
  if changes.isEmpty && freshness.isEmpty && requests.isEmpty then s
  else
    pruneHistory { s with
      history := s.history ++ [{
        stateRevision := s.stateRevision
        freshnessRevision := s.freshnessRevision
        observationSeq := s.observationSeq
        changes := changes
        freshness := freshness
        reconciliationRequests := requests
        providerGeneration := s.providerGeneration }] }

/-! ## One observation -/

/-- `_is_current_observation`. -/
def IsCurrent (s : Store V) (o : Observation V) : Prop :=
  o.providerGeneration = some s.providerGeneration

instance (s : Store V) (o : Observation V) : Decidable (s.IsCurrent o) :=
  inferInstanceAs (Decidable (_ = _))

/-- `_strictly_older_than_entry`. -/
def OlderThanEntry (o : Observation V) (entry : FieldEntry V) : Prop :=
  o.providerGeneration = some entry.providerGeneration ∧ o.clockDomain ≠ none ∧
    o.clockDomain = entry.clockDomain ∧ o.timestampMonotonic < entry.lastObservedMonotonic

instance (o : Observation V) (entry : FieldEntry V) : Decidable (OlderThanEntry o entry) :=
  inferInstanceAs (Decidable (_ ∧ _ ∧ _ ∧ _))

/-- `_strictly_older_than_observation`. -/
def OlderThanObservation (o previous : Observation V) : Prop :=
  o.providerGeneration = previous.providerGeneration ∧ o.clockDomain ≠ none ∧
    o.clockDomain = previous.clockDomain ∧ o.timestampMonotonic < previous.timestampMonotonic

instance (o previous : Observation V) : Decidable (OlderThanObservation o previous) :=
  inferInstanceAs (Decidable (_ ∧ _ ∧ _ ∧ _))

/-- The observation is strictly older than what the store holds for its path. -/
def Superseded (s : Store V) (o : Observation V) : Prop :=
  ∃ entry ∈ s.entries.get? o.path, OlderThanEntry o entry

instance (s : Store V) (o : Observation V) : Decidable (s.Superseded o) :=
  inferInstanceAs (Decidable (∃ entry ∈ s.entries.get? o.path, OlderThanEntry o entry))

/-- `_mark_fresh`. -/
def markFresh (s : Store V) (path : FieldPath) (previous : FreshnessState) (timestamp : Time) :
    Option FreshnessTransition × Store V :=
  if previous = .fresh then (none, s)
  else
    (some ⟨path, previous, .fresh, s.freshnessRevision + 1, timestamp⟩,
      { s with freshnessRevision := s.freshnessRevision + 1 })

/-- The semantic part of `_apply_one`. -/
def semanticChange (s : Store V) (o : Observation V) (previous : Option (FieldEntry V)) :
    List (FieldChange V) × Store V :=
  let previousValue := (previous.map FieldEntry.value).getD pyNone
  if previous.isNone || !eq previousValue o.value then
    ([⟨o.path, previousValue, o.value⟩], { s with stateRevision := s.stateRevision + 1 })
  else ([], s)

/-- The entry an observation leaves behind. -/
def observed (s : Store V) (o : Observation V) : FieldEntry V where
  value := o.value
  freshness := .fresh
  lastObservedMonotonic := o.timestampMonotonic
  maxAge := o.maxAge
  source := o.source
  quality := o.quality
  providerGeneration := s.providerGeneration
  clockDomain := o.clockDomain

/-- The write of `_apply_one`: a new path also voids the order of the paths. -/
def writeObserved (s : Store V) (o : Observation V) : Store V :=
  { s with
    entries := s.entries.set o.path (s.observed o)
    orderedPaths := if (s.entries.get? o.path).isNone then none else s.orderedPaths
    projectedFields := none }

/-- `_apply_one`. -/
def applyOne (s : Store V) (o : Observation V) : ChangeSet V × Store V :=
  if ¬ s.IsCurrent o ∨ s.Superseded o then s.emptyChangeset (some o.timestampMonotonic)
  else
    let previous := s.entries.get? o.path
    let s := { s with observationSeq := s.observationSeq + 1 }
    let (transition, s) := s.markFresh o.path
      ((previous.map FieldEntry.freshness).getD .unknown) o.timestampMonotonic
    let (changes, s) := s.semanticChange o previous
    let s := s.writeObserved o
    ({ s.changeset changes o.timestampMonotonic [o.source] with
        observedPaths := [o.path]
        freshnessPaths := (transition.map FreshnessTransition.path).toList },
      s.appendHistory changes transition.toList [])

/-- The loop of `_apply_observation_batch`. -/
def applyEach : List (Observation V) → Store V → List (ChangeSet V) × Store V
  | [], s => ([], s)
  | o :: rest, s =>
      let (changeset, s) := s.applyOne o
      let (changesets, s) := applyEach rest s
      (changeset :: changesets, s)

/-- `max((item.timestamp_monotonic for item in batch), default=None)`. -/
def newest (batch : List (Observation V)) : Option Time :=
  (batch.map Observation.timestampMonotonic).max?

/-- `_apply_observation_batch`. -/
def applyObservationBatch (s : Store V) (batch : List (Observation V)) : ChangeSet V × Store V :=
  if ∃ o ∈ batch, ¬ s.IsCurrent o then s.emptyChangeset (newest batch)
  else
    let (changesets, s) := applyEach batch s
    s.mergeChangesets changesets

/-! ## Removal -/

/-- The loop of `discard`. -/
def popEach : List FieldPath → Store V → List (FieldChange V) × Store V
  | [], s => ([], s)
  | path :: rest, s =>
      match s.entries.get? path with
      | none => popEach rest s
      | some entry =>
          let (removed, s) := popEach rest { s with
            entries := s.entries.erase path, orderedPaths := none, projectedFields := none }
          (⟨path, entry.value, pyNone⟩ :: removed, s)

/-- A removal is recorded if it removed something. -/
def recordRemoved (s : Store V) (removed : List (FieldChange V)) : Store V :=
  if removed.isEmpty then s
  else { s with stateRevision := s.stateRevision + 1 }.appendHistory removed [] []

/-- `discard` of paths. -/
def discardPaths (s : Store V) (paths : List FieldPath) : ChangeSet V × Store V :=
  let (removed, s) := popEach paths s
  let s := s.recordRemoved removed
  (s.changeset removed (s.clock 0) [], s.clockRead)

/-- The loop of `discard` over paths and texts.  A text that does not parse raises there, and what
was popped before it is gone. -/
def popItems : List PathItem → Store V → Except ParseError (List (FieldChange V)) × Store V
  | [], s => (.ok [], s)
  | item :: rest, s =>
      match item.parse with
      | .error error => (.error error, s)
      | .ok path =>
          match s.entries.get? path with
          | none => popItems rest s
          | some entry =>
              let (removed, s) := popItems rest { s with
                entries := s.entries.erase path, orderedPaths := none, projectedFields := none }
              (removed.map (⟨path, entry.value, pyNone⟩ :: ·), s)

/-- `discard`. -/
def discard (s : Store V) (items : List PathItem) : Except ParseError (ChangeSet V) × Store V :=
  match popItems items s with
  | (.error error, s) => (.error error, s)
  | (.ok removed, s) =>
      let s := s.recordRemoved removed
      (.ok (s.changeset removed (s.clock 0) []), s.clockRead)

/-! ## Snapshots -/

/-- `_paths_in_order`. -/
def pathsInOrder (s : Store V) : List FieldPath × Store V :=
  match s.orderedPaths with
  | some paths => (paths, s)
  | none =>
      let paths := s.entries.keys.insertionSort fun p q => p.str ≤ q.str
      (paths, { s with orderedPaths := some paths })

/-- `_field_snapshot`. -/
def fieldSnapshot (path : FieldPath) (entry : FieldEntry V) : FieldSnapshot V where
  path := path
  value := entry.value
  freshness := entry.freshness
  lastObservedMonotonic := entry.lastObservedMonotonic
  maxAge := entry.maxAge
  source := entry.source
  quality := entry.quality
  providerGeneration := entry.providerGeneration
  clockDomain := entry.clockDomain

/-- `_projected_field`, with the entry that may now keep its projection. -/
def projectedField (path : FieldPath) (entry : FieldEntry V) : FieldSnapshot V × FieldEntry V :=
  match entry.projected with
  | some item => (item, entry)
  | none =>
      let item := fieldSnapshot path entry
      (item, if immutable entry.value then { entry with projected := some item } else entry)

/-- The loop of `_snapshot_fields`: the fields, and whether every one of them is shared. -/
def projectEach : List FieldPath → Store V → List (FieldSnapshot V) × Bool × Store V
  | [], s => ([], true, s)
  | path :: rest, s =>
      match s.entries.get? path with
      | none => projectEach rest s
      | some entry =>
          let (item, entry) := projectedField path entry
          let (items, shared, s) := projectEach rest { s with entries := s.entries.set path entry }
          (item :: items, entry.projected.isSome && shared, s)

/-- `_snapshot_fields`. -/
def snapshotFields (s : Store V) : List (FieldSnapshot V) × Store V :=
  match s.projectedFields with
  | some items => (items, s)
  | none =>
      let (paths, s) := s.pathsInOrder
      let (items, shared, s) := projectEach paths s
      (items, if shared then { s with projectedFields := some items } else s)

def snapshot (s : Store V) : StateSnapshot V × Store V :=
  let generatedAt := s.clock 0
  let (fields, s) := s.clockRead.snapshotFields
  ({ stateRevision := s.stateRevision
     freshnessRevision := s.freshnessRevision
     observationSeq := s.observationSeq
     generatedAtMonotonic := generatedAt
     fields := fields
     providerGeneration := s.providerGeneration }, s)

/-- `field`, which raises `KeyError` for an absent path.  Its argument may be a text, which is
parsed before anything is read. -/
def field (s : Store V) (path : FieldPath) : Except String (FieldSnapshot V) × Store V :=
  match s.entries.get? path with
  | none => (.error path.str, s)
  | some entry =>
      let (item, entry) := projectedField path entry
      (.ok item, { s with entries := s.entries.set path entry })

/-- `_requires_full_snapshot`. -/
def requiresFullSnapshot (s : Store V) (base : StateSnapshot V) : Bool :=
  decide (base.providerGeneration ≠ s.providerGeneration ∨
    base.stateRevision < s.historyFloorStateRevision ∨
    base.freshnessRevision < s.historyFloorFreshnessRevision)

/-- `delta_since`. -/
def deltaSince (s : Store V) (base : StateSnapshot V) : SnapshotDelta V :=
  let full := s.requiresFullSnapshot base
  { stateRevision := s.stateRevision
    freshnessRevision := s.freshnessRevision
    observationSeq := s.observationSeq
    changes :=
      if full then []
      else s.history.flatMap fun record =>
        if base.stateRevision < record.stateRevision then record.changes else []
    freshness :=
      if full then []
      else s.history.flatMap fun record =>
        record.freshness.filter fun t => base.freshnessRevision < t.freshnessRevision
    reconciliationRequests :=
      if full then []
      else s.history.flatMap fun record =>
        record.reconciliationRequests.filter fun r => base.freshnessRevision < r.freshnessRevision
    requiresFullSnapshot := full
    providerGeneration := s.providerGeneration }

end Store

end Rigplane.StateStore
