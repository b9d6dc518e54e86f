import Rigplane.StateStore.Writes

/-!
# What a snapshot shows

`snapshot` reuses three caches: the projection of each entry, the order of the paths, and
the list of projected fields.  `CacheOk` says that a cache that is filled holds what it
would be filled with again.  Every write keeps it, so a snapshot of a reachable store is
the projection of its entries (`snapshot_field`), and taking one changes nothing that a
later one shows.
-/

namespace Rigplane.StateStore

open StatePipeline PyValue

variable {V : Type}

/-- The field of a path in a snapshot, if it has one. -/
def StateSnapshot.field? (snapshot : StateSnapshot V) (path : FieldPath) :
    Option (FieldSnapshot V) :=
  snapshot.fields.find? fun item => item.path = path

namespace Store

/-- The entry of a path as a snapshot shows it. -/
def shown (s : Store V) (path : FieldPath) : Option (FieldSnapshot V) :=
  (s.entries.get? path).map (fieldSnapshot path)

/-- The paths in snapshot order. -/
def sortedPaths (s : Store V) : List FieldPath :=
  s.entries.keys.insertionSort fun p q => p.str ≤ q.str

/-- The fields of a snapshot, from the entries alone. -/
def shownFields (s : Store V) : List (FieldSnapshot V) := s.sortedPaths.filterMap s.shown

/-- The caches agree with the entries. -/
structure CacheOk (s : Store V) : Prop where
  projected : ∀ path entry, s.entries.get? path = some entry →
    ∀ item, entry.projected = some item → item = fieldSnapshot path entry
  ordered : ∀ paths, s.orderedPaths = some paths → paths = s.sortedPaths
  fields : ∀ items, s.projectedFields = some items → items = s.shownFields

variable {s s' : Store V}

theorem CacheOk.init (clock : Nat → Time) (maxHistoryCount : Nat) :
    (Store.init clock maxHistoryCount : Store V).CacheOk where
  projected path entry h := by cases h
  ordered paths h := by cases h
  fields items h := by cases h

theorem CacheOk.congr (hs : s.CacheOk) (he : s'.entries = s.entries)
    (ho : s'.orderedPaths = s.orderedPaths) (hp : s'.projectedFields = s.projectedFields) :
    s'.CacheOk where
  projected := by rw [he]; exact hs.projected
  ordered := by rw [ho, sortedPaths, he]; exact hs.ordered
  fields := by
    rw [hp]
    intro items h
    rw [hs.fields items h, shownFields, shownFields, sortedPaths, sortedPaths, he]
    exact congrArg (List.filterMap · _) (funext fun p => by rw [shown, shown, he])

/-- A write of one entry keeps the caches right if it leaves no projection behind. -/
theorem CacheOk.set (hs : s.CacheOk) {path : FieldPath} {entry : FieldEntry V}
    (he : s'.entries = s.entries.set path entry) (hentry : entry.projected = none)
    (hp : s'.projectedFields = none)
    (ho : s'.orderedPaths = none ∨ s'.orderedPaths = s.orderedPaths ∧ path ∈ s.entries.keys) :
    s'.CacheOk where
  projected q e h item hitem := by
    rw [he, Dict.get?_set] at h
    by_cases hq : q = path
    · rw [if_pos hq] at h
      cases h
      rw [hentry] at hitem
      cases hitem
    · rw [if_neg hq] at h
      exact hs.projected q e h item hitem
  ordered paths h := by
    rcases ho with ho | ⟨ho, hmem⟩
    · rw [ho] at h
      cases h
    · rw [ho] at h
      rw [hs.ordered paths h, sortedPaths, sortedPaths, he, Dict.keys_set_of_mem hmem]
  fields items h := by
    rw [hp] at h
    cases h

/-! ## History leaves the entries alone -/

/-- Pruning changes the history, what was pruned and the floors. -/
theorem pruneFrom_eq (records : List (SnapshotDelta V)) (s : Store V) :
    ∃ history pruned floor floor', pruneFrom records s = { s with
      history := history, pruned := pruned, historyFloorStateRevision := floor,
      historyFloorFreshnessRevision := floor' } := by
  induction records generalizing s with
  | nil => exact ⟨s.history, s.pruned, _, _, rfl⟩
  | cons record rest ih =>
      rw [pruneFrom]
      split
      · exact ⟨s.history, s.pruned, _, _, rfl⟩
      · obtain ⟨history, pruned, floor, floor', h⟩ := ih _
        exact ⟨history, pruned, floor, floor', h⟩

theorem appendHistory_eq (s : Store V) (changes : List (FieldChange V))
    (freshness : List FreshnessTransition) (requests : List ReconciliationRequest) :
    ∃ history pruned floor floor', s.appendHistory changes freshness requests = { s with
      history := history, pruned := pruned, historyFloorStateRevision := floor,
      historyFloorFreshnessRevision := floor' } := by
  rw [appendHistory]
  split
  · exact ⟨s.history, s.pruned, _, _, rfl⟩
  · obtain ⟨history, pruned, floor, floor', h⟩ := pruneFrom_eq _ _
    exact ⟨history, pruned, floor, floor', h⟩

section AppendHistory

variable (s : Store V) (changes : List (FieldChange V)) (freshness : List FreshnessTransition)
  (requests : List ReconciliationRequest)

@[simp] theorem appendHistory_entries :
    (s.appendHistory changes freshness requests).entries = s.entries := by
  obtain ⟨_, _, _, _, h⟩ := s.appendHistory_eq changes freshness requests
  rw [h]

@[simp] theorem appendHistory_orderedPaths :
    (s.appendHistory changes freshness requests).orderedPaths = s.orderedPaths := by
  obtain ⟨_, _, _, _, h⟩ := s.appendHistory_eq changes freshness requests
  rw [h]

@[simp] theorem appendHistory_projectedFields :
    (s.appendHistory changes freshness requests).projectedFields = s.projectedFields := by
  obtain ⟨_, _, _, _, h⟩ := s.appendHistory_eq changes freshness requests
  rw [h]

@[simp] theorem appendHistory_retention :
    (s.appendHistory changes freshness requests).retention = s.retention := by
  obtain ⟨_, _, _, _, h⟩ := s.appendHistory_eq changes freshness requests
  rw [h]

@[simp] theorem appendHistory_providerGeneration :
    (s.appendHistory changes freshness requests).providerGeneration = s.providerGeneration := by
  obtain ⟨_, _, _, _, h⟩ := s.appendHistory_eq changes freshness requests
  rw [h]

@[simp] theorem appendHistory_stateRevision :
    (s.appendHistory changes freshness requests).stateRevision = s.stateRevision := by
  obtain ⟨_, _, _, _, h⟩ := s.appendHistory_eq changes freshness requests
  rw [h]

@[simp] theorem appendHistory_freshnessRevision :
    (s.appendHistory changes freshness requests).freshnessRevision = s.freshnessRevision := by
  obtain ⟨_, _, _, _, h⟩ := s.appendHistory_eq changes freshness requests
  rw [h]

end AppendHistory

theorem CacheOk.appendHistory (hs : s.CacheOk) (changes : List (FieldChange V))
    (freshness : List FreshnessTransition) (requests : List ReconciliationRequest) :
    (s.appendHistory changes freshness requests).CacheOk :=
  hs.congr (by simp) (by simp) (by simp)

/-! ## The writes keep the caches right -/

theorem CacheOk.writeEntry (hs : s.CacheOk) {path : FieldPath} {entry : FieldEntry V}
    (h : path ∈ s.entries.keys) : (s.writeEntry path entry).CacheOk :=
  hs.set rfl rfl rfl (.inr ⟨rfl, h⟩)

theorem CacheOk.writeObserved (hs : s.CacheOk) (o : Observation V) :
    (s.writeObserved o).CacheOk := by
  refine hs.set rfl rfl rfl ?_
  cases h : s.entries.get? o.path with
  | none => exact .inl (if_pos (by rw [h]; rfl))
  | some entry =>
      refine .inr ⟨if_neg (by rw [h]; simp), Dict.mem_keys.mpr ⟨entry, h⟩⟩

theorem markFresh_eq (s : Store V) (path : FieldPath) (previous : FreshnessState)
    (timestamp : Time) :
    (s.markFresh path previous timestamp).2 =
      { s with freshnessRevision :=
        s.freshnessRevision + if previous = .fresh then 0 else 1 } := by
  rw [markFresh]
  split <;> rfl

theorem CacheOk.recordRemoved (hs : s.CacheOk) (changes : List (FieldChange V)) :
    (s.recordRemoved changes).CacheOk := by
  rw [Store.recordRemoved]
  split
  · exact hs
  · refine CacheOk.appendHistory ?_ _ _ _
    exact hs.congr rfl rfl rfl

theorem CacheOk.pathsInOrder (hs : s.CacheOk) :
    s.pathsInOrder.1 = s.sortedPaths ∧ s.pathsInOrder.2.CacheOk := by
  rw [Store.pathsInOrder]
  cases h : s.orderedPaths with
  | some paths => exact ⟨hs.ordered paths h, hs⟩
  | none =>
      refine ⟨rfl, ?_⟩
      exact {
        projected := hs.projected
        ordered := fun paths h => by
          cases h
          rfl
        fields := hs.fields }

theorem CacheOk.staleEach [Rounding] (now : Time) (due paths : List FieldPath) (hs : s.CacheOk) :
    (Store.staleEach now due paths s).2.2.CacheOk := by
  induction paths generalizing s with
  | nil => exact hs
  | cons path rest ih =>
      rw [Store.staleEach]
      split
      · exact ih hs
      · rename_i entry hentry
        split
        · exact ih hs
        · refine ih (hs.set rfl rfl rfl (.inr ⟨rfl, ?_⟩))
          exact Dict.mem_keys.mpr ⟨entry, hentry⟩

theorem CacheOk.reageEntry [Rounding] (hs : s.CacheOk) (expiresAt : Time) (path : FieldPath) :
    (Store.reageEntry expiresAt s path).CacheOk := by
  rw [Store.reageEntry]
  cases h : s.entries.get? path with
  | none => exact hs
  | some entry => exact hs.writeEntry (Dict.mem_keys.mpr ⟨entry, h⟩)

variable [PyValue V]

theorem semanticChange_eq (s : Store V) (o : Observation V) (previous : Option (FieldEntry V)) :
    ∃ revision, (s.semanticChange o previous).2 = { s with stateRevision := revision } := by
  rw [semanticChange]
  split
  · exact ⟨_, rfl⟩
  · exact ⟨s.stateRevision, rfl⟩

/-- An accepted observation: the counters move, the entry is written, and both are
recorded. -/
theorem applyOne_eq {s : Store V} {o : Observation V} (h : ¬ (¬ s.IsCurrent o ∨ s.Superseded o)) :
    ∃ seq freshnessRevision stateRevision changes transitions, (s.applyOne o).2 =
      (writeObserved { s with
        observationSeq := seq, freshnessRevision := freshnessRevision,
        stateRevision := stateRevision } o).appendHistory changes transitions [] := by
  rw [applyOne, if_neg h]
  obtain ⟨revision, hsem⟩ := semanticChange_eq (V := V) _ o (s.entries.get? o.path)
  dsimp only
  rw [hsem, markFresh_eq]
  exact ⟨_, _, _, _, _, rfl⟩

theorem CacheOk.applyOne (hs : s.CacheOk) (o : Observation V) : (s.applyOne o).2.CacheOk := by
  by_cases h : ¬ s.IsCurrent o ∨ s.Superseded o
  · rw [Store.applyOne, if_pos h]
    exact hs
  · obtain ⟨_, _, _, _, _, heq⟩ := applyOne_eq h
    rw [heq]
    refine CacheOk.appendHistory (CacheOk.writeObserved ?_ o) _ _ _
    exact hs.congr rfl rfl rfl

theorem CacheOk.popEach (paths : List FieldPath) (hs : s.CacheOk) :
    (Store.popEach paths s).2.CacheOk := by
  induction paths generalizing s with
  | nil => exact hs
  | cons path rest ih =>
      rw [Store.popEach]
      split
      · exact ih hs
      · refine ih ?_
        exact {
          projected := fun q e h item hitem => by
            rw [Dict.get?_erase] at h
            by_cases hq : q = path
            · rw [if_pos hq] at h
              cases h
            · rw [if_neg hq] at h
              exact hs.projected q e h item hitem
          ordered := fun paths h => by cases h
          fields := fun items h => by cases h }

theorem CacheOk.begin (s : Store V) : s.beginProviderGeneration.2.CacheOk := by
  refine CacheOk.recordRemoved ?_ _
  exact {
    projected := fun _ _ h => by cases h
    ordered := fun _ h => by cases h
    fields := fun _ h => by cases h }

/-! ## Projecting -/

/-- Every filled projection is the one its entry has. -/
def Projected (s : Store V) : Prop :=
  ∀ path entry, s.entries.get? path = some entry →
    ∀ item, entry.projected = some item → item = fieldSnapshot path entry

/-- Only projections were filled in: the same paths show the same fields. -/
structure Reprojected (s s' : Store V) : Prop where
  same : s' = { s with entries := s'.entries }
  keys : s'.entries.keys = s.entries.keys
  shown : s'.shown = s.shown
  projected : s.Projected → s'.Projected

omit [PyValue V] in
theorem Reprojected.refl (s : Store V) : Reprojected s s := ⟨rfl, rfl, rfl, id⟩

omit [PyValue V] in
theorem Reprojected.trans {s₁ s₂ s₃ : Store V} (h : Reprojected s₁ s₂) (h' : Reprojected s₂ s₃) :
    Reprojected s₁ s₃ where
  same := by
    rw [h'.same, h.same]
  keys := h'.keys.trans h.keys
  shown := h'.shown.trans h.shown
  projected := h'.projected ∘ h.projected

theorem projectedField_fst (path : FieldPath) (entry : FieldEntry V)
    (h : ∀ item, entry.projected = some item → item = fieldSnapshot path entry) :
    (projectedField path entry).1 = fieldSnapshot path entry := by
  rw [projectedField]
  cases hp : entry.projected with
  | some item => exact h item hp
  | none => rfl

theorem projectedField_snd (path : FieldPath) (entry : FieldEntry V) :
    (projectedField path entry).2 = entry ∨
      (projectedField path entry).2 =
        { entry with projected := some (fieldSnapshot path entry) } := by
  rw [projectedField]
  split
  · exact .inl rfl
  · dsimp only
    split
    · exact .inr rfl
    · exact .inl rfl

/-- The step of the loop: one entry keeps its projection. -/
theorem reprojected_set {path : FieldPath} {entry : FieldEntry V}
    (h : s.entries.get? path = some entry) :
    Reprojected s { s with
      entries := s.entries.set path (projectedField path entry).2 } where
  same := rfl
  keys := Dict.keys_set_of_mem (Dict.mem_keys.mpr ⟨entry, h⟩)
  shown := funext fun q => by
    simp only [Store.shown, Dict.get?_set]
    by_cases hq : q = path
    · subst hq
      rw [if_pos rfl, h]
      rcases projectedField_snd q entry with he | he
      · rw [he]
      · rw [he]
        rfl
    · rw [if_neg hq]
  projected hs q e he item hitem := by
    simp only [Dict.get?_set] at he
    by_cases hq : q = path
    · subst hq
      rw [if_pos rfl] at he
      cases he
      rcases projectedField_snd q entry with he | he
      · rw [he] at hitem ⊢
        exact hs q entry h item hitem
      · rw [he] at hitem ⊢
        cases hitem
        rfl
    · rw [if_neg hq] at he
      exact hs q e he item hitem

theorem projectEach_spec (paths : List FieldPath) {s : Store V} (hs : s.Projected) :
    (projectEach paths s).1 = paths.filterMap s.shown ∧
      Reprojected s (projectEach paths s).2.2 := by
  induction paths generalizing s with
  | nil => exact ⟨rfl, .refl s⟩
  | cons path rest ih =>
      rw [projectEach]
      cases h : s.entries.get? path with
      | none =>
          obtain ⟨hitems, hre⟩ := ih hs
          refine ⟨?_, hre⟩
          rw [List.filterMap_cons_none (by rw [Store.shown, h]; rfl)]
          exact hitems
      | some entry =>
          have hstep := reprojected_set h
          obtain ⟨hitems, hre⟩ := ih (hstep.projected hs)
          refine ⟨?_, hstep.trans hre⟩
          rw [List.filterMap_cons_some (b := fieldSnapshot path entry)
            (by rw [Store.shown, h]; rfl)]
          exact congrArg₂ List.cons (projectedField_fst path entry (hs path entry h))
            (hitems.trans (by rw [hstep.shown]))

omit [PyValue V] in
theorem Reprojected.shownFields (h : Reprojected s s') : s'.shownFields = s.shownFields := by
  rw [Store.shownFields, Store.shownFields, sortedPaths, sortedPaths, h.keys, h.shown]

omit [PyValue V] in
theorem Reprojected.cacheOk (h : Reprojected s s') (hs : s.CacheOk) : s'.CacheOk where
  projected := h.projected hs.projected
  ordered := by
    rw [sortedPaths, h.keys, h.same]
    exact hs.ordered
  fields := by
    rw [h.shownFields, h.same]
    exact hs.fields

/-- Only the caches differ. -/
structure CachesOnly (s s' : Store V) : Prop where
  same : s' = { s with
    entries := s'.entries, orderedPaths := s'.orderedPaths, projectedFields := s'.projectedFields }
  shown : s'.shown = s.shown

/-- `_snapshot_fields` shows the entries, and fills caches alone. -/
theorem snapshotFields_spec (hs : s.CacheOk) :
    s.snapshotFields.1 = s.shownFields ∧ s.snapshotFields.2.CacheOk ∧
      CachesOnly s s.snapshotFields.2 := by
  rw [snapshotFields]
  cases h : s.projectedFields with
  | some items => exact ⟨hs.fields items h, hs, rfl, rfl⟩
  | none =>
      obtain ⟨hpaths, hm⟩ := hs.pathsInOrder
      have hsame : s.pathsInOrder.2 = { s with orderedPaths := s.pathsInOrder.2.orderedPaths } := by
        rw [pathsInOrder]
        split <;> rfl
      have hshown : s.pathsInOrder.2.shown = s.shown := by rw [hsame]; rfl
      obtain ⟨hitems, hre⟩ := projectEach_spec s.pathsInOrder.1 hm.projected
      have hfields : (projectEach s.pathsInOrder.1 s.pathsInOrder.2).1 = s.shownFields := by
        rw [hitems, hpaths, hshown]
        rfl
      have hfields' : s.shownFields =
          (projectEach s.pathsInOrder.1 s.pathsInOrder.2).2.2.shownFields := by
        rw [hre.shownFields, hsame]
        rfl
      refine ⟨hfields, ?_, ?_, ?_⟩
      · dsimp only
        split
        · exact {
            projected := (hre.cacheOk hm).projected
            ordered := (hre.cacheOk hm).ordered
            fields := fun items h => by
              cases h
              exact hfields.trans hfields' }
        · exact hre.cacheOk hm
      · dsimp only
        split
        · rw [hre.same, hsame]
        · rw [hre.same, hsame]
      · dsimp only
        split
        · exact hre.shown.trans hshown
        · exact hre.shown.trans hshown

theorem field_reprojected (s : Store V) (path : FieldPath) : Reprojected s (s.field path).2 := by
  rw [Store.field]
  cases h : s.entries.get? path with
  | none => exact .refl s
  | some entry => exact reprojected_set h

/-! ## Every store of a run -/

theorem CacheOk.write [Rounding] (hs : s.CacheOk) (h : Write s s') : s'.CacheOk := by
  cases h with
  | silent => exact hs.congr rfl rfl rfl
  | observe o => exact hs.applyOne o
  | remove paths => exact (CacheOk.popEach paths hs).recordRemoved _
  | sweep now due => exact ((CacheOk.staleEach now due _ hs.pathsInOrder.2).appendHistory _ _ _)
  | begin => exact .begin s
  | reage expiresAt path => exact hs.reageEntry expiresAt path
  | project => exact (snapshotFields_spec hs).2.1
  | field path => exact (s.field_reprojected path).cacheOk hs

theorem CacheOk.writes [Rounding] (hs : s.CacheOk) (h : Writes s s') : s'.CacheOk := by
  induction h with
  | refl => exact hs
  | tail _ hw ih => exact ih.write hw

/-- A call that is no sequence of writes has popped some paths. -/
theorem CacheOk.step [DecidableEq V] [Rounding] (hs : s.CacheOk) (op : Op V) :
    (StateStore.step s op).CacheOk := by
  by_cases h : op.Recorded s
  · exact hs.writes (step_writes h)
  · cases op with
    | discard items =>
        cases herror : firstError items with
        | none => exact absurd (.inl herror) h
        | some error =>
            rw [StateStore.step, discard_of_error herror]
            exact CacheOk.popEach _ hs
    | _ => exact absurd trivial h

/-! ## Fields of a snapshot -/

omit [PyValue V] in
theorem find?_filterMap_shown (s : Store V) (path : FieldPath) (paths : List FieldPath) :
    (paths.filterMap s.shown).find? (fun item => item.path = path) =
      if path ∈ paths then s.shown path else none := by
  induction paths with
  | nil => rfl
  | cons q rest ih =>
      cases hq : s.shown q with
      | none =>
          rw [List.filterMap_cons_none hq, ih]
          by_cases h : path = q
          · subst h
            simp [hq]
          · simp [h]
      | some item =>
          obtain ⟨entry, -, rfl⟩ := Option.map_eq_some_iff.mp hq
          rw [List.filterMap_cons_some hq]
          by_cases h : q = path
          · subst h
            rw [List.find?_cons, if_pos List.mem_cons_self, hq]
            simp [fieldSnapshot]
          · rw [List.find?_cons, ih]
            simp [fieldSnapshot, h, Ne.symm h]

/-- A snapshot has, at every path, the field of its entry. -/
theorem snapshot_field (hs : s.CacheOk) (path : FieldPath) :
    s.snapshot.1.field? path = s.shown path := by
  have hread : s.clockRead.CacheOk := hs.congr rfl rfl rfl
  have hfields : s.snapshot.1.fields = s.sortedPaths.filterMap s.shown :=
    (snapshotFields_spec hread).1
  rw [StateSnapshot.field?, hfields, find?_filterMap_shown]
  by_cases h : path ∈ s.sortedPaths
  · rw [if_pos h]
  · rw [if_neg h, shown, Dict.get?_eq_none.mpr]
    · rfl
    · rwa [sortedPaths, List.mem_insertionSort] at h

end Store

end Rigplane.StateStore
