import Mathlib.Algebra.Order.Group.Unbundled.Abs
import Rigplane.StateStore.Store

/-!
# The operations of the state store

Freshness decay, provider generations, and the retention of the Selected and Unselected
VFO tuples.  Relative observations are staged until both tuples have a coherent
frequency and mode; then the staged leaves enter the store under one deadline.  From
there each leaf is applied at once under that deadline, and a further coherent round of
the required leaves advances it for every leaf.

`step` is one public call.  A call that raises leaves behind what it had written, so the
operations that may raise return the error beside the store.
-/

namespace Rigplane.StateStore

open StatePipeline PyValue

namespace Store

variable {V : Type} [PyValue V] [Rounding]

/-! ## Aliases -/

/-- `_bound_relative_vfo_alias_path`: the A/B path that a relative path now stands for. -/
def boundAliasPath (s : Store V) (path : FieldPath) : Option FieldPath :=
  match path.receiverId, path.slot with
  | some receiverId, some slot =>
      if ¬ slot.IsRelative then none
      else
        (FieldPath.activeSlot receiverId).toOption.bind fun bindingPath =>
          (s.entries.get? bindingPath).bind fun binding =>
            if binding.freshness ≠ .fresh then none
            else match PyValue.slot binding.value with
              | some .a => (FieldPath.vfoSlot receiverId (if slot = .active then .a else .b)
                  path.family path.name).toOption
              | some .b => (FieldPath.vfoSlot receiverId (if slot = .active then .b else .a)
                  path.family path.name).toOption
              | _ => none
  | _, _ => none

/-- `_with_bound_relative_vfo_aliases`. -/
def withBoundAliases (s : Store V) (batch : List (Observation V)) : List (Observation V) :=
  batch.flatMap fun o => o :: ((s.boundAliasPath o.path).map o.withPath).toList

/-! ## Freshness decay -/

/-- The retention is written back. -/
def setRetention (s : Store V) (r : RelativeVfoRetention V) : Store V :=
  { s with retention := some r }

/-- The retention starts over: no deadline and nothing staged. -/
def clearRetention (s : Store V) : Store V :=
  { s with retention := s.retention.map fun r => { r with expiresAt := none, pending := .empty } }

/-- `_expire_relative_vfo`. -/
def expireRelativeVfo (s : Store V) (now : Time) : List FieldPath × Store V :=
  match s.retention.bind RelativeVfoRetention.expiresAt with
  | none => ([], s)
  | some expiresAt =>
      if now < expiresAt then ([], s)
      else (relativePaths ++ relativePaths.filterMap s.boundAliasPath, s.clearRetention)

/-- The entry has outlived its own age. -/
def Overdue (entry : FieldEntry V) (now : Time) : Prop :=
  ∃ age ∈ entry.maxAge, age < Rounding.round (now - entry.lastObservedMonotonic)

instance (entry : FieldEntry V) (now : Time) : Decidable (Overdue entry now) :=
  inferInstanceAs (Decidable (∃ age ∈ entry.maxAge, _))

/-- An entry is replaced in place, and its projection is void (`_entry_changed`). -/
def writeEntry (s : Store V) (path : FieldPath) (entry : FieldEntry V) : Store V :=
  { s with entries := s.entries.set path { entry with projected := none }, projectedFields := none }

/-- A field goes stale, at the next freshness revision. -/
def markStale (s : Store V) (path : FieldPath) (entry : FieldEntry V) : Store V :=
  { s with freshnessRevision := s.freshnessRevision + 1 }.writeEntry path
    { entry with freshness := .stale }

/-- The loop of `mark_stale_due`. -/
def staleEach (now : Time) (due : List FieldPath) :
    List FieldPath → Store V → List FreshnessTransition × List ReconciliationRequest × Store V
  | [], s => ([], [], s)
  | path :: rest, s =>
      match s.entries.get? path with
      | none => staleEach now due rest s
      | some entry =>
          if entry.freshness ≠ .fresh ∨ (path ∉ due ∧ ¬ Overdue entry now) then
            staleEach now due rest s
          else
            let s := s.markStale path entry
            let transition : FreshnessTransition :=
              ⟨path, .fresh, .stale, s.freshnessRevision, now⟩
            let request : ReconciliationRequest :=
              ⟨path, "stale", now, s.stateRevision, s.freshnessRevision, entry.maxAge⟩
            let (transitions, requests, s) := staleEach now due rest s
            (transition :: transitions, request :: requests, s)

/-- `mark_stale_due`, at a known instant. -/
def markStaleAt (s : Store V) (now : Time) : SnapshotDelta V × Store V :=
  let (due, s) := s.expireRelativeVfo now
  let (paths, s) := s.pathsInOrder
  let (transitions, requests, s) := staleEach now due paths s
  ({ stateRevision := s.stateRevision
     freshnessRevision := s.freshnessRevision
     observationSeq := s.observationSeq
     changes := []
     freshness := transitions
     reconciliationRequests := requests
     providerGeneration := s.providerGeneration },
    s.appendHistory [] transitions requests)

/-- `mark_stale_due`. -/
def markStaleDue (s : Store V) (now : Option Time) : SnapshotDelta V × Store V :=
  match now with
  | some t => s.markStaleAt t
  | none => s.clockRead.markStaleAt (s.clock 0)

/-! ## Provider generations -/

/-- `begin_provider_generation`, up to the notification of the subscribers. -/
def beginProviderGeneration (s : Store V) : Nat × Store V :=
  let s := { s with providerGeneration := s.providerGeneration + 1 }.clearRetention
  let removed := (s.entries.items.insertionSort fun a b => a.1.str ≤ b.1.str).map fun item =>
    (⟨item.1, item.2.value, pyNone⟩ : FieldChange V)
  let s := { s with entries := .empty, orderedPaths := none, projectedFields := none }
  let s := s.recordRemoved removed
  (s.providerGeneration, s)

/-! ## Relative VFO retention -/

/-- `reset_relative_vfo_retention`. -/
def resetRetention (s : Store V) (generation : Int) : ChangeSet V × Store V :=
  match s.retention with
  | none => s.emptyChangeset none
  | some r =>
      (s.setRetention { r with generation := generation }).clearRetention.discardPaths
        relativeVfoSessionPaths

/-- The part of a batch that the retention takes. -/
def relative (s : Store V) (batch : List (Observation V)) : List (Observation V) :=
  batch.filter fun o => o.path ∈ relativePaths ∧ ¬ s.Superseded o

/-- A batch that has reached the deadline lets the tuples expire first. -/
def expireBefore (s : Store V) (newestAt : Time) : List (ChangeSet V) × Store V :=
  match s.retention.bind RelativeVfoRetention.expiresAt with
  | none => ([], s)
  | some expiresAt =>
      if newestAt < expiresAt then ([], s)
      else
        let (expired, s) := s.markStaleAt newestAt
        if expired.freshness.isEmpty then ([], s)
        else ([{ s.changeset [] newestAt [] with
          freshnessPaths := expired.freshness.map FreshnessTransition.path }], s)

/-- One observation is staged unless it is strictly older than the one staged. -/
def stageOne (pending : Dict FieldPath (Observation V)) (o : Observation V) :
    Dict FieldPath (Observation V) :=
  if ∃ previous ∈ pending.get? o.path, OlderThanObservation o previous then pending
  else pending.set o.path o

/-- The instants of the required leaves that are staged. -/
def requiredTimes (pending : Dict FieldPath (Observation V)) : List Time :=
  requiredPaths.filterMap fun path =>
    (pending.get? path).map Observation.timestampMonotonic

/-- The instant of the newest required leaf, if all are staged within one window. -/
def completeAt (r : RelativeVfoRetention V) (pending : Dict FieldPath (Observation V)) :
    Option Time :=
  let times := requiredTimes pending
  match times.max?, times.min? with
  | some newest, some oldest =>
      if times.length = requiredPaths.length ∧
          Rounding.round (newest - oldest) ≤ r.coherenceWindow then some newest
      else none
  | _, _ => none

/-- Each leaf ages until the deadline. -/
def ageUntil (expiresAt : Time) (leaves : List (Observation V)) :
    Except String (List (Observation V)) :=
  leaves.mapM fun o => o.withMaxAge (Rounding.round (expiresAt - o.timestampMonotonic))

/-- The first complete round: the staged leaves enter the store under a new deadline. -/
def bootstrap (s : Store V) (r : RelativeVfoRetention V) (completeAt : Time)
    (before : List (ChangeSet V)) : Except String (ChangeSet V) × Store V :=
  let expiresAt := Rounding.round (completeAt + r.maxAge)
  let s := s.setRetention { r with expiresAt := some expiresAt }
  let leaves := r.pending.values.filter fun o =>
    |Rounding.round (completeAt - o.timestampMonotonic)| ≤ r.coherenceWindow
  match ageUntil expiresAt leaves with
  | .error text => (.error text, s)
  | .ok committed =>
      let (discarded, s) := s.discardPaths relativePaths
      let (applied, s) := s.applyObservationBatch (s.withBoundAliases committed)
      let s := s.setRetention { r with expiresAt := some expiresAt, pending := .empty }
      let (merged, s) := s.mergeChangesets (before ++ [discarded, applied])
      (.ok merged, s)

/-- An entry that is present ages until the deadline. -/
def reageEntry (expiresAt : Time) (s : Store V) (path : FieldPath) : Store V :=
  match s.entries.get? path with
  | none => s
  | some entry =>
      s.writeEntry path { entry with
        maxAge := some (Rounding.round (expiresAt - entry.lastObservedMonotonic)) }

/-- A leaf and its alias age until the deadline. -/
def reageLeaf (expiresAt : Time) (s : Store V) (path : FieldPath) : Store V :=
  let s := reageEntry expiresAt s path
  match s.boundAliasPath path with
  | none => s
  | some aliasPath => reageEntry expiresAt s aliasPath

/-- Under a deadline the leaves of a batch are applied at once, and a complete round
advances the deadline. -/
def patch (s : Store V) (r : RelativeVfoRetention V) (expiresAt : Time)
    (leaves : List (Observation V)) (before : List (ChangeSet V)) :
    Except String (ChangeSet V) × Store V :=
  match ageUntil expiresAt leaves with
  | .error text => (.error text, s)
  | .ok immediate =>
      let (applied, s) := s.applyObservationBatch (s.withBoundAliases immediate)
      match completeAt r r.pending with
      | none =>
          let (merged, s) := s.mergeChangesets (before ++ [applied])
          (.ok merged, s)
      | some newest =>
          let expiresAt := Rounding.round (newest + r.maxAge)
          let s := s.setRetention { r with expiresAt := some expiresAt, pending := .empty }
          let s := relativePaths.foldl (reageLeaf expiresAt) s
          let (merged, s) := s.mergeChangesets (before ++ [applied])
          (.ok merged, s)

/-- `apply_relative_vfo_observations`, once a batch has been taken and staged. -/
def commitStaged (s : Store V) (leaves : List (Observation V)) (before : List (ChangeSet V)) :
    Except String (ChangeSet V) × Store V :=
  match s.retention with
  | none =>
      let (merged, s) := s.mergeChangesets before
      (.ok merged, s)
  | some r =>
      match r.expiresAt, completeAt r r.pending with
      | some expiresAt, _ => s.patch r expiresAt leaves before
      | none, some newest => s.bootstrap r newest before
      | none, none =>
          let (merged, s) := s.mergeChangesets before
          (.ok merged, s)

/-- The batch is refused: it is empty, or of another generation. -/
def Refused (s : Store V) (r : RelativeVfoRetention V) (batch : List (Observation V))
    (generation : Int) : Prop :=
  batch.isEmpty ∨ generation ≠ r.generation ∨ ∃ o ∈ batch, ¬ s.IsCurrent o

instance (s : Store V) (r : RelativeVfoRetention V) (batch : List (Observation V))
    (generation : Int) : Decidable (s.Refused r batch generation) :=
  inferInstanceAs (Decidable (_ ∨ _ ∨ _))

/-- A required leaf is observed as `None`. -/
def LosesRequired [DecidableEq V] (leaves : List (Observation V)) : Prop :=
  ∃ o ∈ leaves, o.path ∈ requiredPaths ∧ o.value = pyNone

instance [DecidableEq V] (leaves : List (Observation V)) : Decidable (LosesRequired leaves) :=
  inferInstanceAs (Decidable (∃ o ∈ leaves, _))

/-- The leaves are added to what the retention has staged. -/
def stage (s : Store V) (leaves : List (Observation V)) : Store V :=
  { s with retention := s.retention.map fun r => { r with
      pending := leaves.foldl stageOne r.pending } }

variable [DecidableEq V]

/-- `apply_relative_vfo_observations`. -/
def applyRelative (s : Store V) (batch : List (Observation V)) (generation : Int) :
    Except String (ChangeSet V) × Store V :=
  match s.retention with
  | none =>
      let (changeset, s) := s.applyObservationBatch batch
      (.ok changeset, s)
  | some r =>
      if s.Refused r batch generation then
        let (empty, s) := s.emptyChangeset (newest batch)
        (.ok empty, s)
      else
        let leaves := s.relative batch
        match newest leaves with
        | none =>
            let (empty, s) := s.emptyChangeset none
            (.ok empty, s)
        | some newestAt =>
            let (before, s) := s.expireBefore newestAt
            if LosesRequired leaves then
              let (cleared, s) := s.resetRetention generation
              let (merged, s) := s.mergeChangesets (before ++ [cleared])
              (.ok merged, s)
            else (s.stage leaves).commitStaged leaves before

/-- `apply`. -/
def apply (s : Store V) (o : Observation V) : Except String (ChangeSet V) × Store V :=
  if ¬ s.IsCurrent o then
    let (empty, s) := s.emptyChangeset (some o.timestampMonotonic)
    (.ok empty, s)
  else
    match s.retention with
    | some r =>
        if o.path ∈ relativePaths then s.applyRelative [o] r.generation
        else
          let (changeset, s) := s.applyOne o
          (.ok changeset, s)
    | none =>
        let (changeset, s) := s.applyOne o
        (.ok changeset, s)

/-- `apply_current`. -/
def applyCurrent (s : Store V) (o : Observation V) : Except String (ChangeSet V) × Store V :=
  s.apply (o.withGeneration s.providerGeneration)

/-- An entry as the observation that made it, with the checks of `Observation`. -/
def entryObservation (path : FieldPath) (entry : FieldEntry V) : Except String (Observation V) :=
  if hage : ¬ ∀ a ∈ entry.maxAge, 0 ≤ a then .error "max_age must be non-negative"
  else if hdomain : entry.clockDomain = some "" then .error "clock_domain must not be empty"
  else .ok {
    path := path
    value := entry.value
    source := entry.source
    timestampMonotonic := entry.lastObservedMonotonic
    quality := entry.quality
    maxAge := entry.maxAge
    providerGeneration := some entry.providerGeneration
    clockDomain := entry.clockDomain
    maxAge_nonneg := not_not.mp hage
    clockDomain_nonempty := hdomain }

/-- The relative facts that are still good when the retention is configured. -/
def existing (s : Store V) (now : Time) : Except String (List (Observation V)) :=
  (s.entries.items.filter fun item =>
    item.1 ∈ relativePaths ∧ item.2.freshness = .fresh ∧ ¬ Overdue item.2 now).mapM
      fun item => entryObservation item.1 item.2

/-- `configure_relative_vfo_retention`. -/
def configureRetention (s : Store V) (generation : Int) (maxAge coherenceWindow : Time) :
    Except String Unit × Store V :=
  if h : generation < 0 ∨ maxAge ≤ 0 ∨ coherenceWindow ≤ 0 then
    (.error "relative VFO retention values must be positive", s)
  else
    match s.existing (s.clock 0) with
    | .error text => (.error text, s.clockRead)
    | .ok existing =>
        let (_, s) := s.clockRead.discardPaths relativePaths
        let s := s.setRetention {
          generation := generation
          maxAge := maxAge
          coherenceWindow := coherenceWindow
          maxAge_pos := not_le.mp fun hle => h (.inr (.inl hle))
          coherenceWindow_pos := not_le.mp fun hle => h (.inr (.inr hle)) }
        let (result, s) := s.applyRelative existing generation
        (result.map fun _ => (), s)

end Store

/-! ## Calls and runs -/

/-- A call of a public method that may write. -/
inductive Op (V : Type) where
  | apply (observation : Observation V)
  | applyCurrent (observation : Observation V)
  | applyRelative (batch : List (Observation V)) (generation : Int)
  | configureRetention (generation : Int) (maxAge coherenceWindow : Time)
  | resetRetention (generation : Int)
  | discard (items : List PathItem)
  | markStaleDue (now : Option Time)
  | beginProviderGeneration
  | snapshot
  | field (path : FieldPath)

variable {V : Type} [PyValue V] [DecidableEq V] [Rounding]

/-- The store after a call, whether the call returned or raised. -/
def step (s : Store V) : Op V → Store V
  | .apply o => (s.apply o).2
  | .applyCurrent o => (s.applyCurrent o).2
  | .applyRelative batch generation => (s.applyRelative batch generation).2
  | .configureRetention generation maxAge window =>
      (s.configureRetention generation maxAge window).2
  | .resetRetention generation => (s.resetRetention generation).2
  | .discard items => (s.discard items).2
  | .markStaleDue now => (s.markStaleDue now).2
  | .beginProviderGeneration => s.beginProviderGeneration.2
  | .snapshot => s.snapshot.2
  | .field path => (s.field path).2

/-- The store after a run of calls. -/
def run (s : Store V) (ops : List (Op V)) : Store V := ops.foldl step s

/-- A new store. -/
def Store.init (clock : Nat → Time) (maxHistoryCount : Nat) : Store V where
  clock := clock
  maxHistoryCount := maxHistoryCount

end Rigplane.StateStore
