import Rigplane.StateStore.Snapshots

/-!
# Replaying a delta

A consumer that holds a snapshot asks for the delta since it, and replays the changes
over its values and the transitions over its freshness.  The log of a store is all it
has ever recorded, the pruned records before the history.  `Extends` says what a write
adds to the log: replaying the addition over what shows the store before the write gives
what shows the store after it, and the added records lie above the revisions before it.
Deltas are then a matter of the two floors (`FloorOk`).

A change to `None` is how a removal is written.  So a path that is present with the value
`None` may be missing from the replay, and `Shows` allows that and nothing else.  Values
agree up to `==`, which is when the store does not record a change.

A `discard` that raises behind a removal records nothing of it, and no delta reports what it
removed; the runs here are those without one (`Op.Recorded`).
-/

namespace Rigplane.StateStore

open StatePipeline PyValue

variable {V : Type}

/-! ## Replay -/

/-- One change: a current value of `None` removes the path. -/
def replayChange [PyValue V] [DecidableEq V] (values : FieldPath → Option V)
    (change : FieldChange V) : FieldPath → Option V :=
  fun path => if path = change.path then
    (if change.current = pyNone then none else some change.current) else values path

/-- One freshness transition. -/
def replayTransition (freshness : FieldPath → Option FreshnessState)
    (t : FreshnessTransition) : FieldPath → Option FreshnessState :=
  fun path => if path = t.path then some t.current else freshness path

/-- The value of a path in a snapshot. -/
def StateSnapshot.value? (snapshot : StateSnapshot V) (path : FieldPath) : Option V :=
  (snapshot.field? path).map FieldSnapshot.value

/-- The freshness of a path in a snapshot. -/
def StateSnapshot.freshness? (snapshot : StateSnapshot V) (path : FieldPath) :
    Option FreshnessState :=
  (snapshot.field? path).map FieldSnapshot.freshness

/-- What a replay has for a path shows what the store has: the same absence, the same or
an equal value, or an absence where the value is `None`. -/
def Shows [PyValue V] (replayed : Option V) : Option V → Prop
  | none => replayed = none
  | some current =>
      (∃ value, replayed = some value ∧ (value = current ∨ eq value current)) ∨
        current = pyNone ∧ replayed = none

/-- The same absence, or the same or an equal value. -/
def Agrees [PyValue V] : Option V → Option V → Prop
  | none, none => True
  | some value, some current => value = current ∨ eq value current
  | _, _ => False

theorem Shows.agrees [PyValue V] {replayed current : Option V} (h : Shows replayed current)
    (hvalue : current ≠ some pyNone) : Agrees replayed current := by
  cases current with
  | none =>
      rw [show replayed = none from h]
      trivial
  | some current =>
      rcases h with ⟨value, rfl, heq⟩ | ⟨rfl, -⟩
      · exact heq
      · exact absurd rfl hvalue

namespace Store

/-- Everything the store has recorded. -/
def log (s : Store V) : List (SnapshotDelta V) := s.pruned ++ s.history

def values (s : Store V) (path : FieldPath) : Option V :=
  (s.shown path).map FieldSnapshot.value

def freshness (s : Store V) (path : FieldPath) : Option FreshnessState :=
  (s.shown path).map FieldSnapshot.freshness

theorem values_eq (s : Store V) (path : FieldPath) :
    s.values path = (s.entries.get? path).map FieldEntry.value := by
  rw [values, shown, Option.map_map]
  rfl

theorem freshness_eq (s : Store V) (path : FieldPath) :
    s.freshness path = (s.entries.get? path).map FieldEntry.freshness := by
  rw [freshness, shown, Option.map_map]
  rfl

/-- A replay shows the values of the store. -/
def ShowsValues [PyValue V] (replayed : FieldPath → Option V) (s : Store V) : Prop :=
  ∀ path, Shows (replayed path) (s.values path)

/-- A replay has the freshness of every present path. -/
def ShowsFreshness (replayed : FieldPath → Option FreshnessState) (s : Store V) : Prop :=
  ∀ path state, s.freshness path = some state → replayed path = some state

variable {s s' m : Store V}

/-! ## The floors -/

/-- What was pruned lies at or below the floors. -/
def FloorOk (s : Store V) : Prop :=
  ∀ record ∈ s.pruned,
    (record.changes ≠ [] → record.stateRevision ≤ s.historyFloorStateRevision) ∧
      (record.freshness ≠ [] → record.freshnessRevision ≤ s.historyFloorFreshnessRevision)

theorem pruneFrom_log (records : List (SnapshotDelta V)) (h : s.history = records) :
    (pruneFrom records s).log = s.log := by
  induction records generalizing s with
  | nil => rfl
  | cons record rest ih =>
      rw [pruneFrom]
      split
      · rfl
      · rw [ih rfl, log, log, h, List.append_assoc]
        rfl

theorem FloorOk.pruneFrom (records : List (SnapshotDelta V)) (hs : s.FloorOk) :
    (Store.pruneFrom records s).FloorOk := by
  induction records generalizing s with
  | nil => exact hs
  | cons record rest ih =>
      rw [Store.pruneFrom]
      split
      · exact hs
      · refine ih fun e he => ?_
        rcases List.mem_append.mp he with he | he
        · -- The floors only rise.
          refine ⟨fun hc => ((hs e he).1 hc).trans ?_, fun hf => ((hs e he).2 hf).trans ?_⟩
          · dsimp only
            split
            · exact le_rfl
            · exact le_max_left _ _
          · dsimp only
            split
            · exact le_rfl
            · exact le_max_left _ _
        · rw [List.mem_singleton.mp he]
          refine ⟨fun hc => ?_, fun hf => ?_⟩
          · dsimp only
            rw [if_neg (by simpa using hc)]
            exact le_max_right _ _
          · dsimp only
            rw [if_neg (by simp [hf])]
            exact le_max_right _ _

theorem FloorOk.congr (hs : s.FloorOk) (hp : s'.pruned = s.pruned)
    (hf : s'.historyFloorStateRevision = s.historyFloorStateRevision)
    (hf' : s'.historyFloorFreshnessRevision = s.historyFloorFreshnessRevision) : s'.FloorOk := by
  rw [FloorOk, hp, hf, hf']
  exact hs

theorem FloorOk.appendHistory (hs : s.FloorOk) (changes : List (FieldChange V))
    (freshness : List FreshnessTransition) (requests : List ReconciliationRequest) :
    (s.appendHistory changes freshness requests).FloorOk := by
  rw [Store.appendHistory]
  split
  · exact hs
  · exact FloorOk.pruneFrom _ (hs.congr rfl rfl rfl)

/-- The records are at or below the store's revisions. -/
def Below (s : Store V) : Prop :=
  ∀ record ∈ s.log, (record.changes ≠ [] → record.stateRevision ≤ s.stateRevision) ∧
    ∀ t ∈ record.freshness, t.freshnessRevision ≤ record.freshnessRevision ∧
      record.freshnessRevision ≤ s.freshnessRevision

/-- A reachable store. -/
structure Sound (s : Store V) : Prop where
  cacheOk : s.CacheOk
  floorOk : s.FloorOk
  below : s.Below

theorem Sound.init (clock : Nat → Time) (maxHistoryCount : Nat) :
    (Store.init clock maxHistoryCount : Store V).Sound where
  cacheOk := .init clock maxHistoryCount
  floorOk record h := by cases h
  below record h := by cases h

theorem requiresFullSnapshot_eq_false {base : StateSnapshot V}
    (h : s.requiresFullSnapshot base = false) :
    base.providerGeneration = s.providerGeneration ∧
      s.historyFloorStateRevision ≤ base.stateRevision ∧
      s.historyFloorFreshnessRevision ≤ base.freshnessRevision := by
  simpa [requiresFullSnapshot, not_or] using h

/-- What `_append_history` adds to the log. -/
theorem appendHistory_log (s : Store V) (changes : List (FieldChange V))
    (freshness : List FreshnessTransition) (requests : List ReconciliationRequest) :
    ∃ new, (s.appendHistory changes freshness requests).log = s.log ++ new ∧
      new.flatMap SnapshotDelta.changes = changes ∧
      new.flatMap SnapshotDelta.freshness = freshness ∧
      ∀ record ∈ new, record.stateRevision = s.stateRevision ∧
        record.freshnessRevision = s.freshnessRevision := by
  rw [appendHistory]
  split
  case isTrue h =>
    simp only [Bool.and_eq_true, List.isEmpty_iff] at h
    exact ⟨[], by rw [List.append_nil], h.1.1.symm, h.1.2.symm, fun _ h => by cases h⟩
  case isFalse =>
    refine ⟨[⟨s.stateRevision, s.freshnessRevision, s.observationSeq, changes, freshness, requests,
      false, s.providerGeneration⟩], ?_, List.append_nil _, List.append_nil _, fun record h => ?_⟩
    · rw [pruneHistory, pruneFrom_log _ rfl, log, log, ← List.append_assoc]
    · rw [List.mem_singleton.mp h]
      exact ⟨rfl, rfl⟩

/-- The store differs in nothing a delta reads. -/
structure Quiet (s s' : Store V) : Prop where
  history : s'.history = s.history
  pruned : s'.pruned = s.pruned
  floor : s'.historyFloorStateRevision = s.historyFloorStateRevision
  floor' : s'.historyFloorFreshnessRevision = s.historyFloorFreshnessRevision
  stateRevision : s'.stateRevision = s.stateRevision
  freshnessRevision : s'.freshnessRevision = s.freshnessRevision
  generation : s'.providerGeneration = s.providerGeneration
  values : s'.values = s.values
  freshness : s'.freshness = s.freshness

theorem Quiet.floorOk (h : Quiet s s') (hs : s.FloorOk) : s'.FloorOk :=
  hs.congr h.pruned h.floor h.floor'

/-! ## Transitions to fresh -/

theorem markFresh_above (s : Store V) (path : FieldPath) (previous : FreshnessState)
    (timestamp : Time) :
    s.freshnessRevision ≤ (s.markFresh path previous timestamp).2.freshnessRevision ∧
      ∀ t ∈ (s.markFresh path previous timestamp).1.toList,
        s.freshnessRevision < t.freshnessRevision ∧
          t.freshnessRevision ≤ (s.markFresh path previous timestamp).2.freshnessRevision := by
  rw [markFresh]
  split
  · exact ⟨le_rfl, fun t h => by cases h⟩
  · refine ⟨Nat.le_succ _, fun t h => ?_⟩
    rw [List.mem_singleton.mp h]
    exact ⟨Nat.lt_succ_self _, le_rfl⟩

theorem showsFreshness_set {r : FieldPath → Option FreshnessState} (hr : ShowsFreshness r s)
    (path : FieldPath) (t : Store V) (timestamp : Time)
    (hm : ∀ q, m.freshness q = if q = path then some .fresh else s.freshness q) :
    ShowsFreshness ((t.markFresh path (((s.entries.get? path).map FieldEntry.freshness).getD
      .unknown) timestamp).1.toList.foldl replayTransition r) m := by
  intro q state hq
  rw [hm] at hq
  rw [markFresh]
  by_cases hfresh : ((s.entries.get? path).map FieldEntry.freshness).getD .unknown = .fresh
  · -- It was fresh already, and there is no transition.
    rw [if_pos hfresh]
    by_cases h : q = path
    · subst h
      rw [if_pos rfl] at hq
      cases hq
      refine hr q .fresh ?_
      rw [freshness_eq]
      cases he : (s.entries.get? q).map FieldEntry.freshness with
      | none =>
          rw [he] at hfresh
          cases hfresh
      | some state =>
          rw [he] at hfresh
          exact congrArg some hfresh
    · rw [if_neg h] at hq
      exact hr q state hq
  · rw [if_neg hfresh]
    change (if q = path then some FreshnessState.fresh else r q) = some state
    by_cases h : q = path
    · rw [if_pos h] at hq ⊢
      exact hq
    · rw [if_neg h] at hq ⊢
      exact hr q state hq

/-! ## Sweeps -/

/-- Some entries went stale, and nothing else that a delta reads. -/
structure Sweeps (s m : Store V) (transitions : List FreshnessTransition) : Prop where
  history : m.history = s.history
  pruned : m.pruned = s.pruned
  floor : m.historyFloorStateRevision = s.historyFloorStateRevision
  floor' : m.historyFloorFreshnessRevision = s.historyFloorFreshnessRevision
  stateRevision : m.stateRevision = s.stateRevision
  generation : m.providerGeneration = s.providerGeneration
  values : m.values = s.values
  freshness : ∀ r, ShowsFreshness r s →
    ShowsFreshness (transitions.foldl replayTransition r) m
  freshnessRevision : s.freshnessRevision ≤ m.freshnessRevision
  above : ∀ t ∈ transitions, s.freshnessRevision < t.freshnessRevision ∧
    t.freshnessRevision ≤ m.freshnessRevision

theorem markStale_values {path : FieldPath} {entry : FieldEntry V}
    (h : s.entries.get? path = some entry) : (s.markStale path entry).values = s.values := by
  funext q
  simp only [values_eq, markStale, writeEntry, Dict.get?_set]
  by_cases hq : q = path
  · rw [if_pos hq, hq, h]
    rfl
  · rw [if_neg hq]

theorem markStale_freshness (s : Store V) (path : FieldPath) (entry : FieldEntry V)
    (q : FieldPath) : (s.markStale path entry).freshness q =
      if q = path then some .stale else s.freshness q := by
  simp only [freshness_eq, markStale, writeEntry, Dict.get?_set]
  split <;> rfl

theorem staleEach_sweeps [Rounding] (now : Time) (due paths : List FieldPath) (s : Store V) :
    Sweeps s (staleEach now due paths s).2.2 (staleEach now due paths s).1 := by
  induction paths generalizing s with
  | nil =>
      exact ⟨rfl, rfl, rfl, rfl, rfl, rfl, rfl, fun _ h => h, le_rfl, fun _ h => by cases h⟩
  | cons path rest ih =>
      rw [staleEach]
      cases h : s.entries.get? path with
      | none => exact ih s
      | some entry =>
          dsimp only
          split
          · exact ih s
          · have hrest := ih (s.markStale path entry)
            exact {
              history := hrest.history
              pruned := hrest.pruned
              floor := hrest.floor
              floor' := hrest.floor'
              stateRevision := hrest.stateRevision
              generation := hrest.generation
              values := hrest.values.trans (markStale_values h)
              freshness := fun r hr => by
                refine hrest.freshness _ fun q state hq => ?_
                rw [markStale_freshness] at hq
                change (if q = path then some FreshnessState.stale else r q) = some state
                by_cases hpath : q = path
                · rw [if_pos hpath] at hq ⊢
                  exact hq
                · rw [if_neg hpath] at hq ⊢
                  exact hr q state hq
              freshnessRevision := (Nat.le_succ _).trans hrest.freshnessRevision
              above := fun t ht => by
                rcases List.mem_cons.mp ht with rfl | ht
                · exact ⟨Nat.lt_succ_self _, hrest.freshnessRevision⟩
                · exact ⟨(Nat.lt_succ_self _).trans (hrest.above t ht).1, (hrest.above t ht).2⟩ }

theorem reageEntry_quiet [Rounding] (s : Store V) (expiresAt : Time) (path : FieldPath) :
    Quiet s (reageEntry expiresAt s path) := by
  rw [reageEntry]
  cases h : s.entries.get? path with
  | none => exact ⟨rfl, rfl, rfl, rfl, rfl, rfl, rfl, rfl, rfl⟩
  | some entry =>
      refine ⟨rfl, rfl, rfl, rfl, rfl, rfl, rfl, funext fun q => ?_, funext fun q => ?_⟩
      · simp only [values_eq, writeEntry, Dict.get?_set]
        by_cases hq : q = path
        · rw [if_pos hq, hq, h]
          rfl
        · rw [if_neg hq]
      · simp only [freshness_eq, writeEntry, Dict.get?_set]
        by_cases hq : q = path
        · rw [if_pos hq, hq, h]
          rfl
        · rw [if_neg hq]

theorem CachesOnly.quiet (h : CachesOnly s s') : Quiet s s' where
  history := by rw [h.same]
  pruned := by rw [h.same]
  floor := by rw [h.same]
  floor' := by rw [h.same]
  stateRevision := by rw [h.same]
  freshnessRevision := by rw [h.same]
  generation := by rw [h.same]
  values := funext fun p => by rw [values, values, h.shown]
  freshness := funext fun p => by rw [freshness, freshness, h.shown]

theorem pathsInOrder_quiet (s : Store V) : Quiet s s.pathsInOrder.2 := by
  rw [pathsInOrder]
  split <;> exact ⟨rfl, rfl, rfl, rfl, rfl, rfl, rfl, rfl, rfl⟩

/-! ## Changes -/

variable [PyValue V]

theorem semanticChange_above (s : Store V) (o : Observation V)
    (previous : Option (FieldEntry V)) :
    s.stateRevision ≤ (s.semanticChange o previous).2.stateRevision ∧
      ((s.semanticChange o previous).1 ≠ [] →
        s.stateRevision < (s.semanticChange o previous).2.stateRevision) := by
  rw [semanticChange]
  split
  · exact ⟨Nat.le_succ _, fun _ => Nat.lt_succ_self _⟩
  · exact ⟨le_rfl, fun h => absurd rfl h⟩

/-! ## Removals -/

/-- Some paths were removed, and nothing else that a delta reads. -/
structure Removes (s m : Store V) (removed : List (FieldChange V)) : Prop where
  history : m.history = s.history
  pruned : m.pruned = s.pruned
  floor : m.historyFloorStateRevision = s.historyFloorStateRevision
  floor' : m.historyFloorFreshnessRevision = s.historyFloorFreshnessRevision
  stateRevision : m.stateRevision = s.stateRevision
  freshnessRevision : m.freshnessRevision = s.freshnessRevision
  generation : s.providerGeneration ≤ m.providerGeneration
  toNone : ∀ change ∈ removed, change.current = pyNone
  entries : ∀ path, m.entries.get? path =
    if path ∈ removed.map FieldChange.path then none else s.entries.get? path

theorem popEach_removes (paths : List FieldPath) (s : Store V) :
    Removes s (popEach paths s).2 (popEach paths s).1 := by
  induction paths generalizing s with
  | nil => exact ⟨rfl, rfl, rfl, rfl, rfl, rfl, le_rfl, (fun _ h => by cases h), fun _ => rfl⟩
  | cons path rest ih =>
      rw [popEach]
      cases h : s.entries.get? path with
      | none => exact ih s
      | some entry =>
          have hrest := ih { s with
            entries := s.entries.erase path, orderedPaths := none, projectedFields := none }
          exact {
            history := hrest.history
            pruned := hrest.pruned
            floor := hrest.floor
            floor' := hrest.floor'
            stateRevision := hrest.stateRevision
            freshnessRevision := hrest.freshnessRevision
            generation := hrest.generation
            toNone := fun change hc => by
              rcases List.mem_cons.mp hc with rfl | hc
              · rfl
              · exact hrest.toNone change hc
            entries := fun q => by
              rw [hrest.entries, Dict.get?_erase, List.map_cons]
              by_cases hq : q = path
              · subst hq
                rw [if_pos rfl, ite_self, if_pos List.mem_cons_self]
              · rw [if_neg hq]
                simp only [List.mem_cons, hq, false_or] }

theorem begin_removes (s : Store V) :
    ∃ m removed, s.beginProviderGeneration.2 = m.recordRemoved removed ∧ Removes s m removed := by
  refine ⟨_, _, rfl, ?_⟩
  exact {
    history := rfl
    pruned := rfl
    floor := rfl
    floor' := rfl
    stateRevision := rfl
    freshnessRevision := rfl
    generation := Nat.le_succ _
    toNone := fun change hc => by
      obtain ⟨item, -, rfl⟩ := List.mem_map.mp hc
      rfl
    entries := fun path => by
      rw [Dict.get?_empty]
      split
      · rfl
      · rename_i hnot
        refine (Dict.get?_eq_none.mpr fun hkey => hnot ?_).symm
        obtain ⟨entry, hentry⟩ := Dict.mem_keys.mp hkey
        refine List.mem_map.mpr ⟨⟨path, entry.value, pyNone⟩, List.mem_map.mpr ?_, rfl⟩
        exact ⟨(path, entry), (List.mem_insertionSort _).mpr (Dict.mem_items.mpr hentry), rfl⟩ }

/-! ## What a write adds -/

theorem showsValues_self (s : Store V) : ShowsValues s.values s := fun path => by
  cases s.values path with
  | none => rfl
  | some value => exact .inl ⟨value, rfl, .inl rfl⟩

/-- Taking a snapshot changes nothing that a delta reads. -/
theorem snapshot_quiet (hs : s.CacheOk) : Quiet s s.snapshot.2 := by
  have hread : s.clockRead.CacheOk := hs.congr rfl rfl rfl
  have h := (snapshotFields_spec hread).2.2.quiet
  exact ⟨h.history, h.pruned, h.floor, h.floor', h.stateRevision, h.freshnessRevision,
    h.generation, h.values, h.freshness⟩

theorem snapshot_value? (hs : s.CacheOk) : s.snapshot.1.value? = s.values :=
  funext fun path => by rw [StateSnapshot.value?, snapshot_field hs, values]

theorem snapshot_freshness? (hs : s.CacheOk) : s.snapshot.1.freshness? = s.freshness :=
  funext fun path => by rw [StateSnapshot.freshness?, snapshot_field hs, freshness]

variable [DecidableEq V]

/-- The records `new` lead from one store to a later one. -/
structure Extends (s s' : Store V) (new : List (SnapshotDelta V)) : Prop where
  log : s'.log = s.log ++ new
  values : ∀ replayed, ShowsValues replayed s →
    ShowsValues ((new.flatMap SnapshotDelta.changes).foldl replayChange replayed) s'
  freshness : ∀ replayed, ShowsFreshness replayed s →
    ShowsFreshness ((new.flatMap SnapshotDelta.freshness).foldl replayTransition replayed) s'
  stateRevision : s.stateRevision ≤ s'.stateRevision
  freshnessRevision : s.freshnessRevision ≤ s'.freshnessRevision
  generation : s.providerGeneration ≤ s'.providerGeneration
  /-- A record with changes is above the state revision before it. -/
  changesAbove : ∀ record ∈ new, record.changes ≠ [] →
    s.stateRevision < record.stateRevision ∧ record.stateRevision ≤ s'.stateRevision
  /-- A transition is above the freshness revision before it, and its record at or above it. -/
  freshnessAbove : ∀ record ∈ new, ∀ t ∈ record.freshness,
    s.freshnessRevision < t.freshnessRevision ∧
      t.freshnessRevision ≤ record.freshnessRevision ∧
      record.freshnessRevision ≤ s'.freshnessRevision

theorem Extends.refl (s : Store V) : Extends s s [] where
  log := (List.append_nil _).symm
  values _ h := h
  freshness _ h := h
  stateRevision := le_rfl
  freshnessRevision := le_rfl
  generation := le_rfl
  changesAbove _ h := by cases h
  freshnessAbove _ h := by cases h

theorem Extends.trans {s₁ s₂ s₃ : Store V} {new new' : List (SnapshotDelta V)}
    (h : Extends s₁ s₂ new) (h' : Extends s₂ s₃ new') : Extends s₁ s₃ (new ++ new') where
  log := by rw [h'.log, h.log, List.append_assoc]
  values r hr := by
    rw [List.flatMap_append, List.foldl_append]
    exact h'.values _ (h.values r hr)
  freshness r hr := by
    rw [List.flatMap_append, List.foldl_append]
    exact h'.freshness _ (h.freshness r hr)
  stateRevision := h.stateRevision.trans h'.stateRevision
  freshnessRevision := h.freshnessRevision.trans h'.freshnessRevision
  generation := h.generation.trans h'.generation
  changesAbove e he hc := by
    rcases List.mem_append.mp he with he | he
    · exact ⟨(h.changesAbove e he hc).1, (h.changesAbove e he hc).2.trans h'.stateRevision⟩
    · exact ⟨h.stateRevision.trans_lt (h'.changesAbove e he hc).1, (h'.changesAbove e he hc).2⟩
  freshnessAbove e he t ht := by
    rcases List.mem_append.mp he with he | he
    · obtain ⟨h₁, h₂, h₃⟩ := h.freshnessAbove e he t ht
      exact ⟨h₁, h₂, h₃.trans h'.freshnessRevision⟩
    · obtain ⟨h₁, h₂, h₃⟩ := h'.freshnessAbove e he t ht
      exact ⟨h.freshnessRevision.trans_lt h₁, h₂, h₃⟩

theorem Quiet.extends (h : Quiet s s') : Extends s s' [] where
  log := by rw [log, log, h.history, h.pruned, List.append_nil]
  values r hr := by
    rw [ShowsValues, h.values]
    exact hr
  freshness r hr := by
    rw [ShowsFreshness, h.freshness]
    exact hr
  stateRevision := h.stateRevision.ge
  freshnessRevision := h.freshnessRevision.ge
  generation := h.generation.ge
  changesAbove _ h := by cases h
  freshnessAbove _ h := by cases h

/-- What a write has done to the entries, `m`, before it records it. -/
structure Pending (s m : Store V) (changes : List (FieldChange V))
    (transitions : List FreshnessTransition) : Prop where
  history : m.history = s.history
  pruned : m.pruned = s.pruned
  floor : m.historyFloorStateRevision = s.historyFloorStateRevision
  floor' : m.historyFloorFreshnessRevision = s.historyFloorFreshnessRevision
  generation : s.providerGeneration ≤ m.providerGeneration
  values : ∀ replayed, ShowsValues replayed s →
    ShowsValues (changes.foldl replayChange replayed) m
  freshness : ∀ replayed, ShowsFreshness replayed s →
    ShowsFreshness (transitions.foldl replayTransition replayed) m
  stateRevision : s.stateRevision ≤ m.stateRevision
  changed : changes ≠ [] → s.stateRevision < m.stateRevision
  freshnessRevision : s.freshnessRevision ≤ m.freshnessRevision
  above : ∀ t ∈ transitions, s.freshnessRevision < t.freshnessRevision ∧
    t.freshnessRevision ≤ m.freshnessRevision

variable {changes : List (FieldChange V)} {transitions : List FreshnessTransition}

/-- Recording it completes the write. -/
theorem Pending.extends (h : Pending s m changes transitions)
    (requests : List ReconciliationRequest) :
    ∃ new, Extends s (m.appendHistory changes transitions requests) new := by
  obtain ⟨new, hlog, hchanges, htransitions, hrev⟩ :=
    m.appendHistory_log changes transitions requests
  have hsame : (m.appendHistory changes transitions requests).shown = m.shown :=
    funext fun p => by rw [shown, shown, appendHistory_entries]
  refine ⟨new, ?_⟩
  exact {
    log := by rw [hlog, log, log, h.history, h.pruned]
    values := fun r hr => by
      rw [hchanges, ShowsValues]
      intro p
      rw [Store.values, hsame]
      exact h.values r hr p
    freshness := fun r hr => by
      rw [htransitions, ShowsFreshness]
      intro p state hp
      rw [Store.freshness, hsame] at hp
      exact h.freshness r hr p state hp
    stateRevision := by rw [appendHistory_stateRevision]; exact h.stateRevision
    freshnessRevision := by rw [appendHistory_freshnessRevision]; exact h.freshnessRevision
    generation := by rw [appendHistory_providerGeneration]; exact h.generation
    changesAbove := fun e he hc => by
      rw [(hrev e he).1, appendHistory_stateRevision]
      refine ⟨h.changed ?_, le_rfl⟩
      rintro rfl
      exact hc (List.flatMap_eq_nil_iff.mp hchanges e he)
    freshnessAbove := fun e he t ht => by
      rw [(hrev e he).2, appendHistory_freshnessRevision]
      have hmem : t ∈ transitions := by
        rw [← htransitions]
        exact List.mem_flatMap.mpr ⟨e, he, ht⟩
      exact ⟨(h.above t hmem).1, (h.above t hmem).2, le_rfl⟩ }

theorem Pending.floorOk (h : Pending s m changes transitions) (hs : s.FloorOk)
    (requests : List ReconciliationRequest) :
    (m.appendHistory changes transitions requests).FloorOk :=
  (hs.congr h.pruned h.floor h.floor').appendHistory _ _ _

/-! ## Each write -/

theorem showsValues_set {r : FieldPath → Option V} (hr : ShowsValues r s) {o : Observation V}
    (t : Store V)
    {previous : Option (FieldEntry V)} (hp : s.entries.get? o.path = previous)
    (hm : ∀ path, m.values path = if path = o.path then some o.value else s.values path) :
    ShowsValues ((t.semanticChange o previous).1.foldl replayChange r) m := by
  intro p
  rw [hm, semanticChange]
  by_cases hsame : previous.isNone || !eq ((previous.map FieldEntry.value).getD pyNone) o.value
  · -- The change is recorded.
    rw [if_pos hsame]
    change Shows (if p = o.path then (if o.value = pyNone then none else some o.value) else r p) _
    by_cases h : p = o.path
    · rw [if_pos h, if_pos h]
      by_cases hnone : o.value = pyNone
      · rw [if_pos hnone]
        exact .inr ⟨hnone, rfl⟩
      · rw [if_neg hnone]
        exact .inl ⟨o.value, rfl, .inl rfl⟩
    · rw [if_neg h, if_neg h]
      exact hr p
  · rw [if_neg hsame]
    by_cases h : p = o.path
    · subst h
      rw [if_pos rfl]
      have hrp := hr o.path
      rw [values_eq, hp] at hrp
      cases previous with
      | none => exact absurd rfl hsame
      | some e =>
          have heq : eq e.value o.value = true := by simpa using hsame
          rcases hrp with ⟨x, hx, hxe⟩ | ⟨hnone, habs⟩
          · refine .inl ⟨x, hx, ?_⟩
            rcases hxe with rfl | hxe
            · exact .inr heq
            · exact .inr (eq_trans x e.value o.value hxe heq)
          · exact .inr ⟨none_eq o.value (by rw [← hnone]; exact heq), habs⟩
    · rw [if_neg h]
      exact hr p

/-- An accepted observation: its write, and what it records. -/
theorem applyOne_pending {o : Observation V} (h : ¬ (¬ s.IsCurrent o ∨ s.Superseded o)) :
    ∃ m changes transitions, Pending s m changes transitions ∧
      (s.applyOne o).2 = m.appendHistory changes transitions [] := by
  rw [applyOne, if_neg h]
  refine ⟨_, _, _, ?_, rfl⟩
  generalize hs₁ : ({ s with observationSeq := s.observationSeq + 1 } : Store V) = s₁
  generalize hprevious : (s.entries.get? o.path).map FieldEntry.freshness = previous
  have hfresh := markFresh_eq s₁ o.path (previous.getD .unknown) o.timestampMonotonic
  have hfreshAbove := markFresh_above s₁ o.path (previous.getD .unknown) o.timestampMonotonic
  have hshows := fun r (hr : ShowsFreshness r s) (m : Store V) =>
    showsFreshness_set hr (m := m) o.path s₁ o.timestampMonotonic
  rw [hprevious] at hshows
  generalize s₁.markFresh o.path (previous.getD .unknown) o.timestampMonotonic = fresh at *
  have hsem := semanticChange_eq fresh.2 o (s.entries.get? o.path)
  have hsemAbove := semanticChange_above fresh.2 o (s.entries.get? o.path)
  have hvalues := fun r (hr : ShowsValues r s) (m : Store V) =>
    showsValues_set hr (m := m) fresh.2 (o := o) rfl
  generalize fresh.2.semanticChange o (s.entries.get? o.path) = sem at *
  obtain ⟨revision, hsem⟩ := hsem
  have hwritten : (sem.2.writeObserved o).entries = s.entries.set o.path (sem.2.observed o) := by
    rw [writeObserved, hsem, hfresh, ← hs₁]
  have hrevisions : s.stateRevision = fresh.2.stateRevision ∧
      s.freshnessRevision = s₁.freshnessRevision ∧
      sem.2.freshnessRevision = fresh.2.freshnessRevision := by
    rw [hsem, hfresh, ← hs₁]
    exact ⟨rfl, rfl, rfl⟩
  rw [hfresh, ← hs₁] at hsem
  exact {
    history := by rw [hsem]; rfl
    pruned := by rw [hsem]; rfl
    floor := by rw [hsem]; rfl
    floor' := by rw [hsem]; rfl
    generation := by rw [hsem]; exact le_rfl
    values := fun r hr => hvalues r hr _ fun path => by
      rw [values_eq, values_eq, hwritten, Dict.get?_set]
      split <;> rfl
    freshness := fun r hr => hshows r hr _ fun path => by
      rw [freshness_eq, freshness_eq, hwritten, Dict.get?_set]
      split <;> rfl
    stateRevision := by rw [hrevisions.1]; exact hsemAbove.1
    changed := fun hne => by rw [hrevisions.1]; exact hsemAbove.2 hne
    freshnessRevision := by
      rw [hrevisions.2.1]
      exact hfreshAbove.1.trans hrevisions.2.2.ge
    above := fun t ht => by
      rw [hrevisions.2.1]
      exact ⟨(hfreshAbove.2 t ht).1, (hfreshAbove.2 t ht).2.trans hrevisions.2.2.ge⟩ }

theorem foldl_removals {removed : List (FieldChange V)}
    (h : ∀ change ∈ removed, change.current = pyNone) (r : FieldPath → Option V)
    (path : FieldPath) : removed.foldl replayChange r path =
      if path ∈ removed.map FieldChange.path then none else r path := by
  induction removed generalizing r with
  | nil => rfl
  | cons change rest ih =>
      rw [List.foldl_cons, ih (fun c hc => h c (List.mem_cons_of_mem _ hc)), replayChange,
        if_pos (h change List.mem_cons_self), List.map_cons]
      by_cases hrest : path ∈ rest.map FieldChange.path
      · rw [if_pos hrest, if_pos (List.mem_cons_of_mem _ hrest)]
      · rw [if_neg hrest]
        by_cases hpath : path = change.path
        · rw [if_pos hpath, if_pos (by rw [hpath]; exact List.mem_cons_self)]
        · rw [if_neg hpath, if_neg (fun hmem => (List.mem_cons.mp hmem).elim hpath hrest)]

/-- A removal is recorded at the next state revision, or is none. -/
theorem Removes.pending {removed : List (FieldChange V)} (h : Removes s m removed) :
    ∃ m', m.recordRemoved removed = m'.appendHistory removed [] [] ∧ Pending s m' removed [] := by
  have hvalues : ∀ m' : Store V, m'.entries = m.entries → ∀ r, ShowsValues r s →
      ShowsValues (removed.foldl replayChange r) m' := fun m' hm' r hr p => by
    rw [foldl_removals h.toNone, values_eq, hm', h.entries]
    by_cases hp : p ∈ removed.map FieldChange.path
    · rw [if_pos hp, if_pos hp]
      exact rfl
    · rw [if_neg hp, if_neg hp, ← values_eq]
      exact hr p
  have hfreshness : ∀ m' : Store V, m'.entries = m.entries → ∀ r, ShowsFreshness r s →
      ShowsFreshness r m' := fun m' hm' r hr p state hp => by
    rw [freshness_eq, hm', h.entries] at hp
    by_cases hmem : p ∈ removed.map FieldChange.path
    · rw [if_pos hmem] at hp
      cases hp
    · rw [if_neg hmem, ← freshness_eq] at hp
      exact hr p state hp
  rw [recordRemoved]
  cases removed with
  | nil =>
      refine ⟨m, rfl, ?_⟩
      exact {
        history := h.history
        pruned := h.pruned
        floor := h.floor
        floor' := h.floor'
        generation := h.generation
        values := hvalues m rfl
        freshness := hfreshness m rfl
        stateRevision := h.stateRevision.ge
        changed := fun hne => absurd rfl hne
        freshnessRevision := h.freshnessRevision.ge
        above := fun t ht => by cases ht }
  | cons change rest =>
      refine ⟨{ m with stateRevision := m.stateRevision + 1 }, rfl, ?_⟩
      exact {
        history := h.history
        pruned := h.pruned
        floor := h.floor
        floor' := h.floor'
        generation := h.generation
        values := hvalues _ rfl
        freshness := hfreshness _ rfl
        stateRevision := h.stateRevision.ge.trans (Nat.le_succ _)
        changed := fun _ => by rw [← h.stateRevision]; exact Nat.lt_succ_self _
        freshnessRevision := h.freshnessRevision.ge
        above := fun t ht => by cases ht }

theorem Sweeps.pending {s₀ : Store V} (h : Sweeps s m transitions) (hq : Quiet s₀ s) :
    Pending s₀ m [] transitions where
  history := h.history.trans hq.history
  pruned := h.pruned.trans hq.pruned
  floor := h.floor.trans hq.floor
  floor' := h.floor'.trans hq.floor'
  generation := (h.generation.trans hq.generation).ge
  values r hr := by
    rw [List.foldl_nil, ShowsValues, h.values, hq.values]
    exact hr
  freshness r hr := h.freshness r (by rw [ShowsFreshness, hq.freshness]; exact hr)
  stateRevision := (h.stateRevision.trans hq.stateRevision).ge
  changed hne := absurd rfl hne
  freshnessRevision := by rw [← hq.freshnessRevision]; exact h.freshnessRevision
  above := by rw [← hq.freshnessRevision]; exact h.above

/-- Every write extends the log, and keeps the floors above what was pruned. -/
theorem write_extends [Rounding] (hc : s.CacheOk) (hf : s.FloorOk) (h : Write s s') :
    (∃ new, Extends s s' new) ∧ s'.FloorOk := by
  have hquiet : ∀ {s'}, Quiet s s' → (∃ new, Extends s s' new) ∧ s'.FloorOk := fun hq =>
    ⟨⟨[], hq.extends⟩, hq.floorOk hf⟩
  have hpending : ∀ {m : Store V} {changes transitions} requests,
      Pending s m changes transitions →
      (∃ new, Extends s (m.appendHistory changes transitions requests) new) ∧
        (m.appendHistory changes transitions requests).FloorOk := fun requests hp =>
    ⟨hp.extends requests, hp.floorOk hf requests⟩
  cases h with
  | silent => exact hquiet ⟨rfl, rfl, rfl, rfl, rfl, rfl, rfl, rfl, rfl⟩
  | observe o =>
      by_cases h : ¬ s.IsCurrent o ∨ s.Superseded o
      · rw [applyOne, if_pos h]
        exact hquiet ⟨rfl, rfl, rfl, rfl, rfl, rfl, rfl, rfl, rfl⟩
      · obtain ⟨m, changes, transitions, hp, heq⟩ := applyOne_pending h
        rw [heq]
        exact hpending [] hp
  | remove paths =>
      obtain ⟨m, heq, hp⟩ := (popEach_removes paths s).pending
      have heq' : s.removed paths = m.appendHistory (popEach paths s).1 [] [] := heq
      rw [heq']
      exact hpending [] hp
  | sweep now due =>
      exact hpending _ ((staleEach_sweeps now due _ _).pending s.pathsInOrder_quiet)
  | begin =>
      obtain ⟨m, removed, heq, hr⟩ := begin_removes s
      obtain ⟨m', heq', hp⟩ := hr.pending
      rw [heq, heq']
      exact hpending [] hp
  | reage expiresAt path => exact hquiet (s.reageEntry_quiet expiresAt path)
  | project => exact hquiet (snapshotFields_spec hc).2.2.quiet
  | field path =>
      have hre := s.field_reprojected path
      refine hquiet (CachesOnly.quiet ⟨?_, hre.shown⟩)
      rw [hre.same]

theorem writes_extends [Rounding] (hc : s.CacheOk) (hf : s.FloorOk) (h : Writes s s') :
    (∃ new, Extends s s' new) ∧ s'.FloorOk ∧ s'.CacheOk := by
  induction h with
  | refl => exact ⟨⟨[], .refl s⟩, hf, hc⟩
  | tail _ hw ih =>
      obtain ⟨⟨new, hext⟩, hf', hc'⟩ := ih
      obtain ⟨⟨new', hext'⟩, hf''⟩ := write_extends hc' hf' hw
      exact ⟨⟨new ++ new', hext.trans hext'⟩, hf'', hc'.write hw⟩

/-! ## Deltas -/

theorem Extends.below {new : List (SnapshotDelta V)} (h : Extends s s' new) (hs : s.Below) :
    s'.Below := by
  intro record hmem
  rw [h.log] at hmem
  rcases List.mem_append.mp hmem with hmem | hmem
  · exact ⟨fun hc => ((hs record hmem).1 hc).trans h.stateRevision,
      fun t ht => ⟨((hs record hmem).2 t ht).1,
        ((hs record hmem).2 t ht).2.trans h.freshnessRevision⟩⟩
  · exact ⟨fun hc => (h.changesAbove record hmem hc).2,
      fun t ht => (h.freshnessAbove record hmem t ht).2⟩

theorem Sound.writes [Rounding] (hs : s.Sound) (h : Writes s s') :
    (∃ new, Extends s s' new) ∧ s'.Sound := by
  obtain ⟨⟨new, hext⟩, hf, hc⟩ := writes_extends hs.cacheOk hs.floorOk h
  exact ⟨⟨new, hext⟩, hc, hf, hext.below hs.below⟩

variable {base : StateSnapshot V} {new : List (SnapshotDelta V)}

/-- The part of the log that a delta drops is empty: what was pruned is below a floor, and
what is older than the base is below its revisions. -/
theorem delta_flatMap {β : Type} (hext : Extends s m new) (g : SnapshotDelta V → List β)
    (hpruned : ∀ record ∈ m.pruned, g record = []) (hold : ∀ record ∈ s.log, g record = []) :
    m.history.flatMap g = new.flatMap g := by
  have hlog : (m.pruned ++ m.history).flatMap g = (s.log ++ new).flatMap g :=
    congrArg (List.flatMap g) hext.log
  rw [List.flatMap_append, List.flatMap_append, List.flatMap_eq_nil_iff.mpr hpruned,
    List.flatMap_eq_nil_iff.mpr hold] at hlog
  exact hlog

theorem delta_changes (hext : Extends s m new) (hs : s.Sound) (hm : m.FloorOk)
    (hbase : base.stateRevision = s.stateRevision) (h : m.requiresFullSnapshot base = false) :
    (m.deltaSince base).changes = new.flatMap SnapshotDelta.changes := by
  obtain ⟨-, hfloor, -⟩ := requiresFullSnapshot_eq_false h
  rw [deltaSince, h]
  have hflat := delta_flatMap hext
    (fun record => if base.stateRevision < record.stateRevision then record.changes else [])
    (fun record hmem => by
      by_cases hc : record.changes = []
      · rw [hc, ite_self]
      · rw [if_neg (not_lt.mpr (((hm record hmem).1 hc).trans hfloor))])
    (fun record hmem => by
      by_cases hc : record.changes = []
      · rw [hc, ite_self]
      · rw [if_neg (not_lt.mpr (by rw [hbase]; exact (hs.below record hmem).1 hc))])
  refine hflat.trans (List.flatMap_congr fun record hmem => ?_)
  by_cases hc : record.changes = []
  · rw [hc, ite_self]
  · rw [if_pos (by rw [hbase]; exact (hext.changesAbove record hmem hc).1)]

theorem delta_freshness (hext : Extends s m new) (hs : s.Sound) (hm : m.Sound)
    (hbase : base.freshnessRevision = s.freshnessRevision)
    (h : m.requiresFullSnapshot base = false) :
    (m.deltaSince base).freshness = new.flatMap SnapshotDelta.freshness := by
  obtain ⟨-, -, hfloor⟩ := requiresFullSnapshot_eq_false h
  rw [deltaSince, h]
  have hflat := delta_flatMap hext
    (fun record => record.freshness.filter fun t => base.freshnessRevision < t.freshnessRevision)
    (fun record hmem => List.filter_eq_nil_iff.mpr fun t ht => by
      have hrecord : t.freshnessRevision ≤ record.freshnessRevision :=
        ((hm.below record (List.mem_append_left _ hmem)).2 t ht).1
      have hle := ((hm.floorOk record hmem).2 (List.ne_nil_of_mem ht)).trans hfloor
      simpa using hrecord.trans hle)
    (fun record hmem => List.filter_eq_nil_iff.mpr fun t ht => by
      obtain ⟨hle, hle'⟩ := (hs.below record hmem).2 t ht
      simpa [hbase] using hle.trans hle')
  refine hflat.trans (List.flatMap_congr fun record hmem => ?_)
  refine List.filter_eq_self.mpr fun t ht => ?_
  rw [hbase]
  exact decide_eq_true (hext.freshnessAbove record hmem t ht).1

/-- A record since the base that was pruned forces a full snapshot. -/
theorem pruned_requires (hext : Extends s m new) (hm : m.FloorOk)
    (hstate : base.stateRevision = s.stateRevision)
    (hfresh : base.freshnessRevision = s.freshnessRevision)
    {record : SnapshotDelta V} (hmem : record ∈ m.pruned.drop s.log.length)
    (hne : record.changes ≠ [] ∨ record.freshness ≠ []) :
    m.requiresFullSnapshot base = true := by
  have hpruned : record ∈ m.pruned := List.mem_of_mem_drop hmem
  have hnew : record ∈ new := by
    have hdrop : (m.pruned ++ m.history).drop s.log.length = new := by
      rw [show m.pruned ++ m.history = s.log ++ new from hext.log, List.drop_left]
    rw [← hdrop, List.drop_append]
    exact List.mem_append_left _ hmem
  refine decide_eq_true (.inr ?_)
  rcases hne with hc | hf
  · refine .inl ?_
    rw [hstate]
    exact (hext.changesAbove record hnew hc).1.trans_le ((hm record hpruned).1 hc)
  · refine .inr ?_
    obtain ⟨t, ht⟩ := List.exists_mem_of_ne_nil _ hf
    obtain ⟨hlt, hle, -⟩ := hext.freshnessAbove record hnew t ht
    rw [hfresh]
    exact (hlt.trans_le hle).trans_le ((hm record hpruned).2 hf)

end Store

open Store

variable [PyValue V] [DecidableEq V]

/-- What the delta since a snapshot is good for.  `seen` is how much the store had
recorded when the snapshot was taken. -/
structure DeltaSafe (base : StateSnapshot V) (seen : Nat) (s : Store V) : Prop where
  /-- Replaying the changes shows the current snapshot. -/
  values : (s.deltaSince base).requiresFullSnapshot = false → ∀ path,
    Shows ((s.deltaSince base).changes.foldl replayChange base.value? path)
      (s.snapshot.1.value? path)
  /-- Where no path holds `None`, to exactly its paths, and their values. -/
  agrees : (s.deltaSince base).requiresFullSnapshot = false →
    (∀ path, s.snapshot.1.value? path ≠ some pyNone) → ∀ path,
      Agrees ((s.deltaSince base).changes.foldl replayChange base.value? path)
        (s.snapshot.1.value? path)
  /-- Replaying the transitions gives the freshness of every present path. -/
  freshness : (s.deltaSince base).requiresFullSnapshot = false → ∀ path state,
    s.snapshot.1.freshness? path = some state →
      (s.deltaSince base).freshness.foldl replayTransition base.freshness? path = some state
  /-- A record the replay would need, and that was pruned, forces a full snapshot. -/
  pruned : ∀ record ∈ s.pruned.drop seen, record.changes ≠ [] ∨ record.freshness ≠ [] →
    (s.deltaSince base).requiresFullSnapshot = true
  /-- So does another provider generation. -/
  generation : base.providerGeneration ≠ s.providerGeneration →
    (s.deltaSince base).requiresFullSnapshot = true

theorem Store.Extends.deltaSafe {s m : Store V} {new : List (SnapshotDelta V)}
    (h : Extends s.snapshot.2 m new) (hs : s.Sound) (hs' : s.snapshot.2.Sound) (hm : m.Sound) :
    DeltaSafe s.snapshot.1 s.log.length m := by
  have hq := snapshot_quiet hs.cacheOk
  -- A snapshot reads its revisions after it has filled the caches.
  have hstate : s.snapshot.1.stateRevision = s.snapshot.2.stateRevision := rfl
  have hfresh : s.snapshot.1.freshnessRevision = s.snapshot.2.freshnessRevision := rfl
  have hvalues (hfull : (m.deltaSince s.snapshot.1).requiresFullSnapshot = false)
      (path : FieldPath) : Shows
        ((m.deltaSince s.snapshot.1).changes.foldl replayChange s.snapshot.1.value? path)
        (m.snapshot.1.value? path) := by
    rw [delta_changes h hs' hm.floorOk hstate hfull, snapshot_value? hm.cacheOk,
      snapshot_value? hs.cacheOk, ← hq.values]
    exact h.values _ (showsValues_self _) path
  exact {
    values := hvalues
    agrees := fun hfull hnone path => (hvalues hfull path).agrees (hnone path)
    freshness := fun hfull path state hstate' => by
      rw [snapshot_freshness? hm.cacheOk] at hstate'
      rw [delta_freshness h hs' hm hfresh hfull, snapshot_freshness? hs.cacheOk, ← hq.freshness]
      exact h.freshness _ (fun _ _ h => h) path state hstate'
    pruned := fun record hmem hne => by
      refine pruned_requires h hm.floorOk hstate hfresh ?_ hne
      have hlog : s.snapshot.2.log = s.log := by
        rw [Store.log, Store.log, hq.pruned, hq.history]
      rwa [hlog]
    generation := fun hne => decide_eq_true (.inl hne) }

section

variable [Rounding]

/-- A run through a new provider generation ends in a later one. -/
theorem run_generation {s : Store V} (hs : s.Sound) {ops : List (Op V)}
    (hops : Runs.Along machine Op.Recorded s ops) (hmem : .beginProviderGeneration ∈ ops) :
    s.providerGeneration < (run s ops).providerGeneration := by
  obtain ⟨before, after, rfl⟩ := List.append_of_mem hmem
  have hsplit : run s (before ++ .beginProviderGeneration :: after) =
      run (run s before).beginProviderGeneration.2 after := by
    rw [run, List.foldl_append]
    rfl
  obtain ⟨hbefore, hrest⟩ := hops.append (machine_exec s before)
  have hafter : Runs.Along machine Op.Recorded (run s before).beginProviderGeneration.2 after :=
    hrest.2 _ rfl
  rw [hsplit]
  obtain ⟨⟨_, hfirst⟩, hs₁⟩ := hs.writes (run_writes hbefore)
  obtain ⟨-, hs₂⟩ := hs₁.writes (Write.begin (run s before)).writes
  obtain ⟨⟨_, hlast⟩, -⟩ := hs₂.writes (run_writes hafter)
  have hbegin : (run s before).beginProviderGeneration.2.providerGeneration =
      (run s before).providerGeneration + 1 := by
    rw [beginProviderGeneration, recordRemoved]
    split
    · rfl
    · rw [appendHistory_providerGeneration]
      rfl
  calc s.providerGeneration
      ≤ (run s before).providerGeneration := hfirst.generation
    _ < (run s before).beginProviderGeneration.2.providerGeneration := by
        rw [hbegin]
        exact Nat.lt_succ_self _
    _ ≤ _ := hlast.generation

/-- Where every `discard` that raises has removed nothing, a delta since any earlier snapshot of a
run replays to the current snapshot, or asks for a full one; and it asks for one after a new
provider generation. -/
theorem delta_since_replays (clock : Nat → Time) (maxHistoryCount : Nat)
    (ops ops' : List (Op V)) :
    let s := run (Store.init clock maxHistoryCount) ops
    Runs.Along machine Op.Recorded (Store.init clock maxHistoryCount) ops →
      Runs.Along machine Op.Recorded s.snapshot.2 ops' →
        DeltaSafe s.snapshot.1 s.log.length (run s.snapshot.2 ops') ∧
          (.beginProviderGeneration ∈ ops' →
            ((run s.snapshot.2 ops').deltaSince s.snapshot.1).requiresFullSnapshot = true) := by
  intro s hops hops'
  have hs : s.Sound := ((Sound.init clock maxHistoryCount).writes (run_writes hops)).2
  have hs' : s.snapshot.2.Sound := (hs.writes s.snapshot_writes).2
  obtain ⟨⟨new, hext⟩, hm⟩ := hs'.writes (run_writes hops')
  have hsafe := hext.deltaSafe hs hs' hm
  refine ⟨hsafe, fun hmem => hsafe.generation ?_⟩
  have hlt := run_generation hs' hops' hmem
  exact ne_of_lt hlt

end

theorem isToken_mode : IsToken "mode" := by decide

/-- The operator mode, read as a text or as `None`. -/
def modeIs (value : Option String) : Observation (Option String) where
  path := ⟨.global, .slowState, ⟨"mode", isToken_mode⟩, none, none, by decide⟩
  value := value
  source := ⟨"poll_response", "radio", none, none, none, none, none⟩
  timestampMonotonic := 0
  quality := []
  maxAge := none
  providerGeneration := some 0
  clockDomain := none
  maxAge_nonneg := Observation.noAge_nonneg
  clockDomain_nonempty := Observation.noClockDomain_nonempty

/-- The mode was read as `"USB"`. -/
def readMode : List (Op (Option String)) := [.apply (modeIs (some "USB"))]

/-- A `discard` that raises at once, and one that removes the mode. -/
def discardMode : List (Op (Option String)) :=
  [.discard [.text "bogus", .path (modeIs none).path],
    .discard [.text "global.slow_state.mode"]]

theorem delta_since_replays_discardMode :
    let s := run (Store.init (fun _ => 0) 4096) readMode
    let m := run s.snapshot.2 discardMode
    (m.deltaSince s.snapshot.1).requiresFullSnapshot = false ∧ ∀ path,
      Agrees ((m.deltaSince s.snapshot.1).changes.foldl replayChange s.snapshot.1.value? path)
        (m.snapshot.1.value? path) := by
  intro s m
  have hread : Runs.Along machine Op.Recorded (Store.init (fun _ => 0) 4096) readMode :=
    ⟨trivial, fun _ _ => trivial⟩
  have hdiscard : Runs.Along machine Op.Recorded s.snapshot.2 discardMode :=
    ⟨.inr fun _ hmem => absurd hmem List.not_mem_nil,
      fun _ _ => ⟨.inl (by decide +kernel), fun _ _ => trivial⟩⟩
  have hfull : (m.deltaSince s.snapshot.1).requiresFullSnapshot = false := by decide +kernel
  have hempty : m.snapshot.1.fields = [] := List.isEmpty_iff.mp (by decide +kernel)
  have hsafe := (delta_since_replays (fun _ => 0) 4096 readMode discardMode hread hdiscard).1
  refine ⟨hfull, hsafe.agrees hfull fun path => ?_⟩
  change m.snapshot.1.value? path ≠ some pyNone
  rw [StateSnapshot.value?, StateSnapshot.field?, hempty]
  rintro ⟨⟩

/-- An observation of `None` makes its path present, and its change reads as a removal: such a path
is not in the replay. -/
example : (((run (Store.init (fun _ => 0) 4096) [.apply (modeIs none)]).deltaSince
    (Store.init (fun _ => 0) 4096).snapshot.1).changes.foldl replayChange (fun _ => none)
      (modeIs none).path) = none := by
  decide +kernel

/-- The mode is gone, and no record says so: the text behind it raised. -/
theorem discard_loses_removal : ¬ ∀ (clock : Nat → Time) (maxHistoryCount : Nat)
    (ops ops' : List (Op (Option String))),
    let s := run (Store.init clock maxHistoryCount) ops
    let delta := (run s.snapshot.2 ops').deltaSince s.snapshot.1
    delta.requiresFullSnapshot = false → ∀ path,
      (delta.changes.foldl replayChange s.snapshot.1.value? path).isSome =
        ((run s.snapshot.2 ops').snapshot.1.value? path).isSome := by
  intro h
  have hpath := h (fun _ => 0) 4096 readMode
    [.discard [.path (modeIs none).path, .text "bogus"]] rfl (modeIs none).path
  revert hpath
  decide +kernel

end Rigplane.StateStore
