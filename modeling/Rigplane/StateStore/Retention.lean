import Rigplane.StateStore.Snapshots

/-!
# The deadline of the relative VFO tuples

While a retention is configured, the relative paths that are fresh share one deadline:
`FreshUntil` says that the age of each of them is what is left until the given instant, as
the program computes it, and that there is none where there is no deadline.  The operations
write relative entries in two ways, through a batch whose leaves were aged until the deadline
(`ageUntil`), and by ageing what is present (`reageLeaf`).  Everything else removes entries or
makes them stale.

The deadline itself is set in two places, and both read it off what was staged
(`Coherent`).
-/

namespace Rigplane.StateStore

open StatePipeline PyValue

variable {V : Type}

namespace Store

variable {s s' m : Store V}

/-- What is staged is staged under its own path, and of the current generation. -/
def StagedOk (s : Store V) : Prop :=
  ∀ r, s.retention = some r → ∀ path o, r.pending.get? path = some o →
    o.path = path ∧ o.providerGeneration = some s.providerGeneration

/-- Neither the retention nor the generation has changed. -/
structure Keeps (s m : Store V) : Prop where
  retention : m.retention = s.retention
  generation : m.providerGeneration = s.providerGeneration

theorem Keeps.refl (s : Store V) : Keeps s s := ⟨rfl, rfl⟩

theorem Keeps.trans {s₁ s₂ s₃ : Store V} (h : Keeps s₁ s₂) (h' : Keeps s₂ s₃) : Keeps s₁ s₃ :=
  ⟨h'.retention.trans h.retention, h'.generation.trans h.generation⟩

theorem Keeps.staged (h : Keeps s m) (hs : s.StagedOk) : m.StagedOk := by
  rw [StagedOk, h.retention, h.generation]
  exact hs

theorem Keeps.appendHistory (s : Store V) (changes : List (FieldChange V))
    (freshness : List FreshnessTransition) (requests : List ReconciliationRequest) :
    Keeps s (s.appendHistory changes freshness requests) :=
  ⟨appendHistory_retention s _ _ _, appendHistory_providerGeneration s _ _ _⟩

variable [Rounding]

/-- Every fresh relative entry has the age that is left until the instant. -/
def FreshUntil (s : Store V) (expiresAt : Option Time) : Prop :=
  ∀ path ∈ relativePaths, ∀ entry, s.entries.get? path = some entry → entry.freshness = .fresh →
    ∃ t age, expiresAt = some t ∧ entry.maxAge = some age ∧
      age = Rounding.round (t - entry.lastObservedMonotonic)

/-- The invariant of a store with a retention. -/
structure RetentionOk (s : Store V) : Prop where
  cacheOk : s.CacheOk
  fresh : ∀ r, s.retention = some r → s.FreshUntil r.expiresAt
  staged : s.StagedOk

/-! ## Frames -/

/-- The retention and the generation are the same, and no relative path became fresh. -/
structure Frame (s m : Store V) : Prop where
  keeps : Keeps s m
  fresh : ∀ expiresAt, s.FreshUntil expiresAt → m.FreshUntil expiresAt

theorem Frame.refl (s : Store V) : Frame s s := ⟨.refl s, fun _ h => h⟩

theorem Frame.trans {s₁ s₂ s₃ : Store V} (h : Frame s₁ s₂) (h' : Frame s₂ s₃) : Frame s₁ s₃ :=
  ⟨h.keeps.trans h'.keeps, fun t ht => h'.fresh t (h.fresh t ht)⟩

theorem FreshUntil.congr {expiresAt : Option Time} (hs : s.FreshUntil expiresAt)
    (h : m.entries = s.entries) : m.FreshUntil expiresAt := by
  rw [FreshUntil, h]
  exact hs

/-- What is fresh later was fresh before. -/
theorem FreshUntil.of_entries {expiresAt : Option Time} (hs : s.FreshUntil expiresAt)
    (h : ∀ path ∈ relativePaths, ∀ entry, m.entries.get? path = some entry →
      entry.freshness = .fresh → s.entries.get? path = some entry) : m.FreshUntil expiresAt :=
  fun path hp entry he hf => hs path hp entry (h path hp entry he hf) hf

theorem FreshUntil.of_none (expiresAt : Option Time)
    (h : ∀ path ∈ relativePaths, s.entries.get? path = none) : s.FreshUntil expiresAt :=
  fun path hp entry he _ => by cases (h path hp).symm.trans he

theorem RetentionOk.frame (hs : s.RetentionOk) (h : Frame s m) (hm : m.CacheOk) :
    m.RetentionOk where
  cacheOk := hm
  fresh r hr := h.fresh _ (hs.fresh r (h.keeps.retention ▸ hr))
  staged := h.keeps.staged hs.staged

theorem freshUntil_of_shown (h : m.shown = s.shown) {expiresAt : Option Time}
    (hs : s.FreshUntil expiresAt) : m.FreshUntil expiresAt := by
  intro path hp entry he hf
  have hshown : s.shown path = some (fieldSnapshot path entry) := by
    rw [← h, shown, he]
    rfl
  obtain ⟨entry', he', hsame⟩ := Option.map_eq_some_iff.mp hshown
  obtain ⟨t, age, ht, hage, hsum⟩ := hs path hp entry' he' (by
    rw [← hf]
    exact congrArg FieldSnapshot.freshness hsame)
  have htime : entry'.lastObservedMonotonic = entry.lastObservedMonotonic :=
    congrArg FieldSnapshot.lastObservedMonotonic hsame
  refine ⟨t, age, ht, ?_, by rw [hsum, htime]⟩
  rw [← hage]
  exact (congrArg FieldSnapshot.maxAge hsame).symm

/-! ## Sweeps -/

theorem staleEach_keeps (now : Time) (due paths : List FieldPath) (s : Store V) :
    Keeps s (staleEach now due paths s).2.2 := by
  induction paths generalizing s with
  | nil => exact .refl s
  | cons path rest ih =>
      rw [staleEach]
      cases h : s.entries.get? path with
      | none => exact ih s
      | some entry =>
          dsimp only
          split
          · exact ih s
          · have hrest := ih (s.markStale path entry)
            exact ⟨hrest.retention, hrest.generation⟩

/-- A swept entry was there before, and is not fresh where it was due. -/
theorem staleEach_entries (now : Time) (due paths : List FieldPath) (s : Store V)
    {path : FieldPath} {entry : FieldEntry V}
    (h : (staleEach now due paths s).2.2.entries.get? path = some entry)
    (hf : entry.freshness = .fresh) :
    s.entries.get? path = some entry ∧ (path ∈ paths → path ∉ due) := by
  induction paths generalizing s with
  | nil => exact ⟨h, fun hmem => by cases hmem⟩
  | cons q rest ih =>
      rw [staleEach] at h
      cases hq : s.entries.get? q with
      | none =>
          rw [hq] at h
          obtain ⟨he, hdue⟩ := ih s h
          refine ⟨he, fun hmem => ?_⟩
          rcases List.mem_cons.mp hmem with rfl | hmem
          · cases hq.symm.trans he
          · exact hdue hmem
      | some old =>
          rw [hq] at h
          dsimp only at h
          by_cases hskip : old.freshness ≠ .fresh ∨ (q ∉ due ∧ ¬ Overdue old now)
          · rw [if_pos hskip] at h
            obtain ⟨he, hdue⟩ := ih s h
            refine ⟨he, fun hmem => ?_⟩
            rcases List.mem_cons.mp hmem with rfl | hmem
            · cases hq.symm.trans he
              exact hskip.elim (absurd hf) And.left
            · exact hdue hmem
          · rw [if_neg hskip] at h
            obtain ⟨he, hdue⟩ := ih (s.markStale q old) h
            have hne : path ≠ q := by
              rintro rfl
              simp only [markStale, writeEntry, Dict.get?_set_self, Option.some.injEq] at he
              rw [← he] at hf
              cases hf
            refine ⟨?_, fun hmem => ?_⟩
            · simpa only [markStale, writeEntry, Dict.get?_set_ne _ _ hne] using he
            · exact hdue ((List.mem_cons.mp hmem).resolve_left hne)

theorem swept_keeps (s : Store V) (now : Time) (due : List FieldPath) :
    Keeps s (s.swept now due) := by
  have hpaths : Keeps s s.pathsInOrder.2 := by
    rw [pathsInOrder]
    split <;> exact ⟨rfl, rfl⟩
  exact hpaths.trans ((staleEach_keeps now due _ _).trans (.appendHistory _ _ _ _))

/-- After a sweep what is fresh was fresh before, and was not due. -/
theorem swept_entries (hs : s.CacheOk) (now : Time) (due : List FieldPath) {path : FieldPath}
    {entry : FieldEntry V} (h : (s.swept now due).entries.get? path = some entry)
    (hf : entry.freshness = .fresh) : s.entries.get? path = some entry ∧ path ∉ due := by
  have hentries : s.pathsInOrder.2.entries = s.entries := by
    rw [pathsInOrder]
    split <;> rfl
  have hstale : (staleEach now due s.pathsInOrder.1 s.pathsInOrder.2).2.2.entries.get? path =
      some entry := by
    rw [← h]
    exact congrArg (Dict.get? · path) (appendHistory_entries _ _ _ _).symm
  obtain ⟨he, hdue⟩ := staleEach_entries now due _ _ hstale hf
  rw [hentries] at he
  refine ⟨he, hdue ?_⟩
  rw [hs.pathsInOrder.1, sortedPaths, List.mem_insertionSort]
  exact Dict.mem_keys.mpr ⟨entry, he⟩

omit [Rounding] in
theorem clearRetention_staged (s : Store V) : s.clearRetention.StagedOk := by
  intro r hr path o ho
  obtain ⟨r₀, -, rfl⟩ := Option.map_eq_some_iff.mp hr
  cases ho

omit [Rounding] in
theorem clearRetention_expiresAt {r : RelativeVfoRetention V}
    (h : s.clearRetention.retention = some r) : r.expiresAt = none := by
  obtain ⟨r₀, -, rfl⟩ := Option.map_eq_some_iff.mp h
  rfl

theorem reageEntry_keeps (expiresAt : Time) (s : Store V) (path : FieldPath) :
    Keeps s (reageEntry expiresAt s path) := by
  rw [reageEntry]
  split <;> exact ⟨rfl, rfl⟩

/-- The entry of a path, if there is one, ages until the instant. -/
def AgesUntil (s : Store V) (expiresAt : Time) (path : FieldPath) : Prop :=
  ∀ entry, s.entries.get? path = some entry →
    entry.maxAge = some (Rounding.round (expiresAt - entry.lastObservedMonotonic))

theorem reageEntry_agesUntil (expiresAt : Time) (s : Store V) (path q : FieldPath)
    (h : q = path ∨ s.AgesUntil expiresAt q) :
    (reageEntry expiresAt s path).AgesUntil expiresAt q := by
  intro entry he
  rw [reageEntry] at he
  cases hp : s.entries.get? path with
  | none =>
      rw [hp] at he
      rcases h with rfl | h
      · cases hp.symm.trans he
      · exact h entry he
  | some old =>
      rw [hp] at he
      simp only [writeEntry, Dict.get?_set] at he
      by_cases hq : q = path
      · rw [if_pos hq] at he
        cases he
        rfl
      · rw [if_neg hq] at he
        exact h.resolve_left hq entry he

theorem FreshUntil.of_agesUntil {expiresAt : Time}
    (h : ∀ path ∈ relativePaths, s.AgesUntil expiresAt path) : s.FreshUntil (some expiresAt) :=
  fun path hp entry he _ => ⟨expiresAt, _, rfl, h path hp entry he, rfl⟩

theorem emptyChangeset_frame (s : Store V) (timestamp : Option Time) :
    Frame s (s.emptyChangeset timestamp).2 := by
  cases timestamp with
  | none => exact ⟨⟨rfl, rfl⟩, fun _ h => h.congr rfl⟩
  | some t => exact .refl s

theorem mergeChangesets_frame (s : Store V) (parts : List (ChangeSet V)) :
    Frame s (s.mergeChangesets parts).2 := by
  cases parts with
  | nil => exact s.emptyChangeset_frame none
  | cons part rest => exact .refl s

omit [Rounding] in
theorem mergeChangesets_entries (s : Store V) (parts : List (ChangeSet V)) :
    (s.mergeChangesets parts).2.entries = s.entries := by
  cases parts <;> rfl

/-- The age of the observation is what is left until the instant. -/
def GoodUntil (expiresAt : Time) (o : Observation V) : Prop :=
  o.maxAge = some (Rounding.round (expiresAt - o.timestampMonotonic))

omit [Rounding] in
/-- What a checked copy of a list holds was copied from it. -/
theorem mem_of_mapM_eq_ok {α β : Type} {f : α → Except String β} {xs : List α} {ys : List β}
    (h : xs.mapM f = .ok ys) : ∀ y ∈ ys, ∃ x ∈ xs, f x = .ok y := by
  induction xs generalizing ys with
  | nil =>
      cases h
      exact fun y hy => by cases hy
  | cons x rest ih =>
      rw [List.mapM_cons] at h
      cases hx : f x with
      | error text =>
          rw [hx] at h
          cases h
      | ok first =>
          cases hrest : rest.mapM f with
          | error text =>
              rw [hx, hrest] at h
              cases h
          | ok others =>
              rw [hx, hrest] at h
              cases h
              intro y hy
              rcases List.mem_cons.mp hy with rfl | hy
              · exact ⟨x, List.mem_cons_self, hx⟩
              · obtain ⟨x', hmem, hx'⟩ := ih hrest y hy
                exact ⟨x', List.mem_cons_of_mem x hmem, hx'⟩

/-- The leaves aged until the deadline are good until it. -/
theorem ageUntil_goodUntil {expiresAt : Time} {leaves aged : List (Observation V)}
    (h : ageUntil expiresAt leaves = .ok aged) : ∀ o ∈ aged, GoodUntil expiresAt o := by
  intro o ho
  obtain ⟨leaf, -, hleaf⟩ := mem_of_mapM_eq_ok h o ho
  obtain ⟨-, -, htime, -, -, hage⟩ := Observation.withMaxAge_eq_ok hleaf
  rw [GoodUntil, hage, htime]

omit [Rounding] in
theorem recordRemoved_keeps (s : Store V) (removed : List (FieldChange V)) :
    Keeps s (s.recordRemoved removed) := by
  rw [recordRemoved]
  split
  · exact .refl s
  · exact ⟨appendHistory_retention _ _ _ _, appendHistory_providerGeneration _ _ _ _⟩

omit [Rounding] in
theorem recordRemoved_entries (s : Store V) (removed : List (FieldChange V)) :
    (s.recordRemoved removed).entries = s.entries := by
  rw [recordRemoved]
  split
  · rfl
  · exact appendHistory_entries _ _ _ _

/-! ## Observations -/

variable [PyValue V]

omit [Rounding] in
theorem applyOne_keeps (s : Store V) (o : Observation V) : Keeps s (s.applyOne o).2 := by
  by_cases h : ¬ s.IsCurrent o ∨ s.Superseded o
  · rw [applyOne, if_pos h]
    exact .refl s
  · obtain ⟨_, _, _, _, _, heq⟩ := applyOne_eq h
    rw [heq]
    exact ⟨appendHistory_retention _ _ _ _, appendHistory_providerGeneration _ _ _ _⟩

omit [Rounding] in
/-- The entries after one observation, if it was accepted. -/
theorem applyOne_entries (s : Store V) (o : Observation V) :
    (s.applyOne o).2.entries = s.entries ∨ ∃ entry : FieldEntry V,
      (s.applyOne o).2.entries = s.entries.set o.path entry ∧ entry.maxAge = o.maxAge ∧
        entry.lastObservedMonotonic = o.timestampMonotonic := by
  by_cases h : ¬ s.IsCurrent o ∨ s.Superseded o
  · rw [applyOne, if_pos h]
    exact .inl rfl
  · obtain ⟨_, _, _, _, _, heq⟩ := applyOne_eq h
    rw [heq, appendHistory_entries]
    exact .inr ⟨_, rfl, rfl, rfl⟩

/-- An observation of another path, or good until the deadline, keeps the deadline. -/
theorem applyOne_freshUntil {expiresAt : Option Time} (hs : s.FreshUntil expiresAt)
    {o : Observation V}
    (ho : o.path ∈ relativePaths → ∃ t, expiresAt = some t ∧ GoodUntil t o) :
    (s.applyOne o).2.FreshUntil expiresAt := by
  rcases s.applyOne_entries o with h | ⟨new, h, hage, htime⟩
  · exact hs.congr h
  · intro path hp entry he hf
    rw [h, Dict.get?_set] at he
    by_cases hpath : path = o.path
    · rw [if_pos hpath] at he
      cases he
      obtain ⟨t, ht, hgood⟩ := ho (hpath ▸ hp)
      exact ⟨t, _, ht, hage.trans hgood, by rw [htime]⟩
    · rw [if_neg hpath] at he
      exact hs path hp entry he hf

omit [Rounding] in
theorem applyEach_keeps (batch : List (Observation V)) (s : Store V) :
    Keeps s (applyEach batch s).2 := by
  induction batch generalizing s with
  | nil => exact .refl s
  | cons o rest ih => exact (s.applyOne_keeps o).trans (ih _)

theorem applyEach_freshUntil {expiresAt : Time} (batch : List (Observation V))
    (hbatch : ∀ o ∈ batch, GoodUntil expiresAt o) (hs : s.FreshUntil (some expiresAt)) :
    (applyEach batch s).2.FreshUntil (some expiresAt) := by
  induction batch generalizing s with
  | nil => exact hs
  | cons o rest ih =>
      refine ih (fun o' ho' => hbatch o' (List.mem_cons_of_mem o ho')) (applyOne_freshUntil hs ?_)
      exact fun _ => ⟨expiresAt, rfl, hbatch o List.mem_cons_self⟩

theorem applyObservationBatch_keeps (s : Store V) (batch : List (Observation V)) :
    Keeps s (s.applyObservationBatch batch).2 := by
  rw [applyObservationBatch]
  split
  · exact (s.emptyChangeset_frame _).keeps
  · exact (applyEach_keeps batch s).trans (mergeChangesets_frame _ _).keeps

theorem applyObservationBatch_freshUntil {expiresAt : Time} {batch : List (Observation V)}
    (hbatch : ∀ o ∈ batch, GoodUntil expiresAt o) (hs : s.FreshUntil (some expiresAt)) :
    (s.applyObservationBatch batch).2.FreshUntil (some expiresAt) := by
  rw [applyObservationBatch]
  split
  · exact (s.emptyChangeset_frame _).fresh _ hs
  · exact (mergeChangesets_frame _ _).fresh _ (applyEach_freshUntil batch hbatch hs)

/-- An alias is good as long as its leaf. -/
theorem withBoundAliases_goodUntil {expiresAt : Time} {batch : List (Observation V)}
    (s : Store V) (h : ∀ o ∈ batch, GoodUntil expiresAt o) :
    ∀ o ∈ s.withBoundAliases batch, GoodUntil expiresAt o := by
  intro o ho
  obtain ⟨leaf, hleaf, ho⟩ := List.mem_flatMap.mp ho
  rcases List.mem_cons.mp ho with rfl | ho
  · exact h o hleaf
  · obtain ⟨path, -, rfl⟩ := Option.mem_toList.mp ho |> Option.map_eq_some_iff.mp
    exact h leaf hleaf

/-! ## Removals -/

omit [Rounding] in
theorem popEach_keeps (paths : List FieldPath) (s : Store V) : Keeps s (popEach paths s).2 := by
  induction paths generalizing s with
  | nil => exact .refl s
  | cons path rest ih =>
      rw [popEach]
      cases s.entries.get? path with
      | none => exact ih s
      | some entry =>
          have hrest := ih { s with
            entries := s.entries.erase path, orderedPaths := none, projectedFields := none }
          exact ⟨hrest.retention, hrest.generation⟩

omit [Rounding] in
theorem popEach_entries (paths : List FieldPath) (s : Store V) (q : FieldPath) :
    (popEach paths s).2.entries.get? q = if q ∈ paths then none else s.entries.get? q := by
  induction paths generalizing s with
  | nil => rfl
  | cons path rest ih =>
      rw [popEach]
      cases h : s.entries.get? path with
      | none =>
          dsimp only
          rw [ih]
          by_cases hq : q = path
          · rw [hq, h, ite_self, ite_self]
          · simp only [List.mem_cons, hq, false_or]
      | some entry =>
          dsimp only
          rw [ih, Dict.get?_erase]
          by_cases hq : q = path
          · rw [if_pos hq, ite_self, if_pos (by rw [hq]; exact List.mem_cons_self)]
          · simp only [List.mem_cons, hq, false_or, if_false]

omit [Rounding] in
/-- Its paths are removed and no other. -/
theorem discardPaths_entries (s : Store V) (paths : List FieldPath) (q : FieldPath) :
    (s.discardPaths paths).2.entries.get? q = if q ∈ paths then none else s.entries.get? q := by
  rw [← popEach_entries]
  exact congrArg (Dict.get? · q) (recordRemoved_entries _ _)

omit [PyValue V] in
/-- What only removes entries makes none fresh. -/
theorem Frame.of_removed {paths : List FieldPath} (hkeeps : Keeps s m)
    (hentries : ∀ q, m.entries.get? q = if q ∈ paths then none else s.entries.get? q) :
    Frame s m where
  keeps := hkeeps
  fresh expiresAt hs := hs.of_entries fun path _ entry he _ => by
    rw [hentries] at he
    by_cases h : path ∈ paths
    · rw [if_pos h] at he
      cases he
    · rwa [if_neg h] at he

theorem discardPaths_frame (s : Store V) (paths : List FieldPath) :
    Frame s (s.discardPaths paths).2 :=
  .of_removed ((popEach_keeps paths s).trans (Keeps.trans (recordRemoved_keeps _ _) ⟨rfl, rfl⟩))
    (s.discardPaths_entries paths)

/-- Whether it raises or not, `discard` only removes entries. -/
theorem discard_frame (s : Store V) (items : List PathItem) : Frame s (s.discard items).2 := by
  cases herror : firstError items with
  | none =>
      rw [discard_of_parses herror]
      exact s.discardPaths_frame _
  | some error =>
      rw [discard_of_error herror]
      exact .of_removed (popEach_keeps _ s) (popEach_entries _ s)

end Store

end Rigplane.StateStore
