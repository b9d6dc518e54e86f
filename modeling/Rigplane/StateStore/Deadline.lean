import Rigplane.StateStore.Retention

/-!
# Every run keeps the deadline

`RetentionOk` holds in every state of a run: one lemma per operation, each put together
from the frames of its parts.  The deadline is written in two places, where the first
round completes and where a later one does; `Coherent` is what both have seen
(`completeAt_coherent`).

`retention_safe` reads the result off a run: what is fresh, when a deadline is set, and
what a call that loses a required leaf removes.
-/

namespace Rigplane.StateStore

open StatePipeline PyValue

variable {V : Type} [Rounding]

/-! ## Rounds -/

/-- A round: every required leaf is staged, as an observation of the generation; the newest and the
oldest of them lie within one window; and the deadline is the maximal age after the newest. -/
structure Coherent (maxAge window : Time) (generation : Nat)
    (staged : Dict FieldPath (Observation V)) (expiresAt : Time) : Prop where
  required : ∀ path ∈ requiredPaths, ∃ o, staged.get? path = some o ∧ o.path = path ∧
    o.providerGeneration = some generation
  window : ∃ path ∈ requiredPaths, ∃ path' ∈ requiredPaths, ∃ newest oldest,
    staged.get? path = some newest ∧ staged.get? path' = some oldest ∧
      (∀ q ∈ requiredPaths, ∀ o, staged.get? q = some o →
        oldest.timestampMonotonic ≤ o.timestampMonotonic ∧
          o.timestampMonotonic ≤ newest.timestampMonotonic) ∧
      Rounding.round (newest.timestampMonotonic - oldest.timestampMonotonic) ≤ window ∧
      Rounding.round (newest.timestampMonotonic + maxAge) = expiresAt

namespace Store

variable {s s' m : Store V}

/-- `retention.expires_at`. -/
def deadline (s : Store V) : Option Time := s.retention.bind RelativeVfoRetention.expiresAt

omit [Rounding] in
theorem mem_requiredTimes {pending : Dict FieldPath (Observation V)} {path : FieldPath}
    {o : Observation V} (hp : path ∈ requiredPaths) (h : pending.get? path = some o) :
    o.timestampMonotonic ∈ requiredTimes pending :=
  List.mem_filterMap.mpr ⟨path, hp, by rw [h]; rfl⟩

omit [Rounding] in
theorem exists_of_mem_requiredTimes {pending : Dict FieldPath (Observation V)} {t : Time}
    (h : t ∈ requiredTimes pending) : ∃ path ∈ requiredPaths, ∃ o, pending.get? path = some o ∧
      o.timestampMonotonic = t := by
  obtain ⟨path, hp, htime⟩ := List.mem_filterMap.mp h
  obtain ⟨o, ho, heq⟩ := Option.map_eq_some_iff.mp htime
  exact ⟨path, hp, o, ho, heq⟩

/-- A complete round is coherent. -/
theorem completeAt_coherent {r : RelativeVfoRetention V} {newest : Time}
    (h : completeAt r r.pending = some newest)
    (hstaged : ∀ path o, r.pending.get? path = some o →
      o.path = path ∧ o.providerGeneration = some s.providerGeneration) :
    Coherent r.maxAge r.coherenceWindow s.providerGeneration r.pending
      (Rounding.round (newest + r.maxAge)) := by
  rw [completeAt] at h
  cases hmax : (requiredTimes r.pending).max? with
  | none =>
      rw [hmax] at h
      cases h
  | some hi =>
      cases hmin : (requiredTimes r.pending).min? with
      | none =>
          rw [hmax, hmin] at h
          cases h
      | some lo =>
          rw [hmax, hmin] at h
          dsimp only at h
          split at h
          case isFalse => cases h
          case isTrue hround =>
            cases h
            obtain ⟨hlength, hwindow⟩ := hround
            obtain ⟨hmem, hle⟩ := List.max?_eq_some_iff.mp hmax
            obtain ⟨hmem', hge⟩ := List.min?_eq_some_iff.mp hmin
            have hall := List.filterMap_length_eq_length.mp hlength
            refine ⟨fun path hp => ?_, ?_⟩
            · obtain ⟨o, ho⟩ : ∃ o, r.pending.get? path = some o := by
                simpa [Option.isSome_iff_exists] using hall path hp
              exact ⟨o, ho, hstaged path o ho⟩
            · obtain ⟨path, hp, upper, hupper, rfl⟩ := exists_of_mem_requiredTimes hmem
              obtain ⟨path', hp', lower, hlower, rfl⟩ := exists_of_mem_requiredTimes hmem'
              exact ⟨path, hp, path', hp', upper, lower, hupper, hlower,
                fun q hq o ho => ⟨hge _ (mem_requiredTimes hq ho), hle _ (mem_requiredTimes hq ho)⟩,
                hwindow, rfl⟩

/-! ## Staging -/

omit [Rounding] in
theorem stageOne_get? {pending : Dict FieldPath (Observation V)} {o o' : Observation V}
    {path : FieldPath} (h : (stageOne pending o).get? path = some o') :
    (o' = o ∧ o.path = path) ∨ pending.get? path = some o' := by
  rw [stageOne] at h
  split at h
  · exact .inr h
  · rw [Dict.get?_set] at h
    by_cases hp : path = o.path
    · rw [if_pos hp] at h
      cases h
      exact .inl ⟨rfl, hp.symm⟩
    · rw [if_neg hp] at h
      exact .inr h

omit [Rounding] in
/-- What is staged was staged before or is one of the leaves. -/
theorem foldl_stageOne_get? {leaves : List (Observation V)}
    {pending : Dict FieldPath (Observation V)} {o : Observation V} {path : FieldPath}
    (h : (leaves.foldl stageOne pending).get? path = some o) :
    (o ∈ leaves ∧ o.path = path) ∨ pending.get? path = some o := by
  induction leaves generalizing pending with
  | nil => exact .inr h
  | cons leaf rest ih =>
      rcases ih h with ⟨hmem, hp⟩ | h
      · exact .inl ⟨List.mem_cons_of_mem leaf hmem, hp⟩
      · rcases stageOne_get? h with ⟨rfl, hp⟩ | h
        · exact .inl ⟨List.mem_cons_self, hp⟩
        · exact .inr h

/-! ## Expiry -/

theorem swept_frame (hs : s.CacheOk) (now : Time) (due : List FieldPath) :
    Frame s (s.swept now due) where
  keeps := s.swept_keeps now due
  fresh _ h := h.of_entries fun _ _ _ he hf => (swept_entries hs now due he hf).1

omit [Rounding] in
theorem clearRetention_deadline (s : Store V) : s.clearRetention.deadline = none := by
  rw [deadline, clearRetention]
  cases s.retention <;> rfl

theorem clearRetention_ok (hk : Keeps s.clearRetention m) (hm : m.CacheOk)
    (hf : m.FreshUntil none) : m.RetentionOk where
  cacheOk := hm
  fresh r hr := by
    rw [clearRetention_expiresAt (hk.retention ▸ hr)]
    exact hf
  staged := hk.staged s.clearRetention_staged

theorem FreshUntil.of_freshUntil_none (h : s.FreshUntil none) (expiresAt : Option Time) :
    s.FreshUntil expiresAt := fun path hp entry he hf => by
  obtain ⟨t, -, ht, -⟩ := h path hp entry he hf
  cases ht

/-- What a commit of the staged leaves leaves behind. -/
structure Commits (s m : Store V) (r : RelativeVfoRetention V) : Prop where
  ok : m.RetentionOk
  generation : m.providerGeneration = s.providerGeneration
  deadline : ∀ t, m.deadline = some t → r.expiresAt = some t ∨ ∃ r', m.retention = some r' ∧
    Coherent r'.maxAge r'.coherenceWindow s.providerGeneration r.pending t

theorem Commits.keeps {r : RelativeVfoRetention V} (hr : s.retention = some r)
    (hk : Keeps s m) (hm : m.RetentionOk) : Commits s m r where
  ok := hm
  generation := hk.generation
  deadline t ht := .inl (by
    rw [Store.deadline, hk.retention, hr] at ht
    exact ht)

/-- A store whose retention was written after a complete round. -/
theorem Commits.round {r r' : RelativeVfoRetention V} {newest expiresAt : Time}
    (hs : s.RetentionOk) (hr : s.retention = some r) (hc : completeAt r r.pending = some newest)
    (hround : Rounding.round (newest + r.maxAge) = expiresAt)
    (hretention : m.retention = some r') (hgen : m.providerGeneration = s.providerGeneration)
    (hage : r'.maxAge = r.maxAge) (hwindow : r'.coherenceWindow = r.coherenceWindow)
    (hexpires : r'.expiresAt = some expiresAt) (hm : m.CacheOk)
    (hf : m.FreshUntil (some expiresAt)) (hstaged : m.StagedOk) : Commits s m r where
  ok := {
    cacheOk := hm
    fresh := fun r₀ hr₀ => by
      cases hretention.symm.trans hr₀
      rw [hexpires]
      exact hf
    staged := hstaged }
  generation := hgen
  deadline t ht := by
    rw [Store.deadline, hretention] at ht
    cases hexpires.symm.trans ht
    refine .inr ⟨r', hretention, ?_⟩
    rw [hage, hwindow, ← hround]
    exact completeAt_coherent hc (hs.staged r hr)

theorem stage_ok {r : RelativeVfoRetention V} (hs : s.RetentionOk) (hr : s.retention = some r)
    {leaves : List (Observation V)} (h : ∀ o ∈ leaves, s.IsCurrent o) :
    (s.stage leaves).RetentionOk ∧ (s.stage leaves).retention =
      some { r with pending := leaves.foldl stageOne r.pending } := by
  have hstage : (s.stage leaves).retention =
      some { r with pending := leaves.foldl stageOne r.pending } := by
    rw [stage, hr]
    rfl
  refine ⟨⟨hs.cacheOk.congr rfl rfl rfl, fun r₀ hr₀ => ?_, fun r₀ hr₀ path o ho => ?_⟩, hstage⟩
  · cases hstage.symm.trans hr₀
    exact (hs.fresh r hr).congr rfl
  · cases hstage.symm.trans hr₀
    rcases foldl_stageOne_get? ho with ⟨hmem, hp⟩ | ho
    · exact ⟨hp, h o hmem⟩
    · exact hs.staged r hr path o ho

omit [Rounding] in
theorem newest_le {batch : List (Observation V)} {newestAt : Time}
    (h : newest batch = some newestAt) {o : Observation V} (ho : o ∈ batch) :
    o.timestampMonotonic ≤ newestAt :=
  (List.max?_eq_some_iff.mp h).2 _ (List.mem_map_of_mem ho)

omit [Rounding] in
theorem newest_eq_none {batch : List (Observation V)} (h : newest batch = none) : batch = [] :=
  List.map_eq_nil_iff.mp (List.max?_eq_none_iff.mp h)

theorem cachesOnly_frame (h : CachesOnly s s') : Frame s s' where
  keeps := by
    rw [h.same]
    exact ⟨rfl, rfl⟩
  fresh _ hs := freshUntil_of_shown h.shown hs

theorem reprojected_frame (h : Reprojected s s') : Frame s s' where
  keeps := by
    rw [h.same]
    exact ⟨rfl, rfl⟩
  fresh _ hs := freshUntil_of_shown h.shown hs

variable [PyValue V]

/-- Before the deadline a sweep touches no retention. -/
theorem markStaleAt_frame (hs : s.CacheOk) {now : Time}
    (h : ∀ expiresAt, s.deadline = some expiresAt → now < expiresAt) :
    Frame s (s.markStaleAt now).2 := by
  have hexpire : s.expireRelativeVfo now = ([], s) := by
    rw [expireRelativeVfo]
    split
    · rfl
    · rename_i expiresAt he
      exact if_pos (h expiresAt he)
  have hmark : (s.markStaleAt now).2 =
      (s.expireRelativeVfo now).2.swept now (s.expireRelativeVfo now).1 := rfl
  rw [hmark, hexpire]
  exact swept_frame hs now []

/-- From the deadline on a sweep ends it, and makes every relative path stale. -/
theorem markStaleAt_expires (hs : s.CacheOk) {now expiresAt : Time}
    (h : s.deadline = some expiresAt) (hnow : expiresAt ≤ now) :
    Keeps s.clearRetention (s.markStaleAt now).2 ∧ (s.markStaleAt now).2.FreshUntil none := by
  have hexpire : s.expireRelativeVfo now =
      (relativePaths ++ relativePaths.filterMap s.boundAliasPath, s.clearRetention) := by
    rw [deadline] at h
    rw [expireRelativeVfo, h]
    exact if_neg (not_lt.mpr hnow)
  have hmark : (s.markStaleAt now).2 =
      (s.expireRelativeVfo now).2.swept now (s.expireRelativeVfo now).1 := rfl
  rw [hmark, hexpire]
  refine ⟨swept_keeps _ now _, fun path hp entry he hf => ?_⟩
  have hclear : s.clearRetention.CacheOk := hs.congr rfl rfl rfl
  obtain ⟨-, hdue⟩ := swept_entries hclear now _ he hf
  exact absurd (List.mem_append_left _ hp) hdue

theorem RetentionOk.markStaleAt (hs : s.RetentionOk) (now : Time) :
    (s.markStaleAt now).2.RetentionOk := by
  have hm := hs.cacheOk.writes (s.markStaleAt_writes now)
  by_cases h : ∀ expiresAt, s.deadline = some expiresAt → now < expiresAt
  · exact hs.frame (markStaleAt_frame hs.cacheOk h) hm
  · obtain ⟨expiresAt, he, hnow⟩ : ∃ expiresAt, s.deadline = some expiresAt ∧
      ¬ now < expiresAt := by
      simpa using h
    obtain ⟨hk, hf⟩ := markStaleAt_expires hs.cacheOk he (not_lt.mp hnow)
    exact clearRetention_ok hk hm hf

theorem markStaleAt_deadline (hs : s.CacheOk) {now t : Time}
    (h : (s.markStaleAt now).2.deadline = some t) : s.deadline = some t := by
  by_cases hnow : ∀ expiresAt, s.deadline = some expiresAt → now < expiresAt
  · rw [deadline, (markStaleAt_frame hs hnow).keeps.retention] at h
    exact h
  · obtain ⟨expiresAt, he, hle⟩ : ∃ expiresAt, s.deadline = some expiresAt ∧ ¬ now < expiresAt := by
      simpa using hnow
    have hcleared := s.clearRetention_deadline
    rw [deadline, ← (markStaleAt_expires hs he (not_lt.mp hle)).1.retention] at hcleared
    cases h.symm.trans hcleared

theorem RetentionOk.begin (s : Store V) : s.beginProviderGeneration.2.RetentionOk := by
  obtain ⟨m, removed, h, hentries, hk⟩ : ∃ m removed,
      s.beginProviderGeneration.2 = m.recordRemoved removed ∧ m.entries = .empty ∧
        Keeps ({ s with providerGeneration := s.providerGeneration + 1 }).clearRetention m :=
    ⟨_, _, rfl, rfl, rfl, rfl⟩
  have hremoved : s.beginProviderGeneration.2.entries = .empty := by
    rw [h, recordRemoved_entries, hentries]
  refine clearRetention_ok (h ▸ hk.trans (recordRemoved_keeps _ _)) (.begin s)
    (.of_none none fun path _ => ?_)
  rw [hremoved]
  rfl

/-- A reset ends the deadline and removes the tuples with their aliases. -/
theorem resetRetention_spec {r : RelativeVfoRetention V} (hr : s.retention = some r)
    (generation : Int) :
    Keeps (s.setRetention { r with generation := generation }).clearRetention
        (s.resetRetention generation).2 ∧
      ∀ path ∈ relativeVfoSessionPaths,
        (s.resetRetention generation).2.entries.get? path = none := by
  rw [resetRetention, hr]
  refine ⟨(discardPaths_frame _ _).keeps, fun path hp => ?_⟩
  dsimp only
  rw [discardPaths_entries, if_pos hp]

theorem RetentionOk.resetRetention (hs : s.RetentionOk) (generation : Int) :
    (s.resetRetention generation).2.RetentionOk := by
  have hm := hs.cacheOk.writes (s.resetRetention_writes generation)
  cases hr : s.retention with
  | none =>
      rw [Store.resetRetention, hr] at hm ⊢
      exact hs.frame (s.emptyChangeset_frame none) hm
  | some r =>
      obtain ⟨hk, hremoved⟩ := resetRetention_spec hr generation
      refine clearRetention_ok hk hm (.of_none none fun path hp => hremoved path ?_)
      exact List.mem_append_left _ hp

theorem resetRetention_deadline {generation : Int} {t : Time}
    (h : (s.resetRetention generation).2.deadline = some t) : s.deadline = some t := by
  cases hr : s.retention with
  | none =>
      rw [resetRetention, hr] at h
      rw [deadline, (s.emptyChangeset_frame none).keeps.retention] at h
      exact h
  | some r =>
      rw [deadline, (resetRetention_spec hr generation).1.retention] at h
      cases h

omit [Rounding] in
theorem begin_deadline (s : Store V) : s.beginProviderGeneration.2.deadline = none := by
  have hretention : s.beginProviderGeneration.2.retention = s.clearRetention.retention :=
    (recordRemoved_keeps _ _).retention
  rw [deadline, hretention]
  exact s.clearRetention_deadline

/-! ## Commits -/

theorem reageLeaf_keeps (expiresAt : Time) (s : Store V) (path : FieldPath) :
    Keeps s (reageLeaf expiresAt s path) := by
  rw [reageLeaf]
  split
  · exact reageEntry_keeps expiresAt s path
  · exact (reageEntry_keeps expiresAt s path).trans (reageEntry_keeps expiresAt _ _)

theorem reageLeaf_agesUntil (expiresAt : Time) (s : Store V) (path q : FieldPath)
    (h : q = path ∨ s.AgesUntil expiresAt q) :
    (reageLeaf expiresAt s path).AgesUntil expiresAt q := by
  have hleaf := reageEntry_agesUntil expiresAt s path q h
  rw [reageLeaf]
  split
  · exact hleaf
  · exact reageEntry_agesUntil expiresAt _ _ q (.inr hleaf)

theorem foldl_reageLeaf_keeps (expiresAt : Time) (paths : List FieldPath) (s : Store V) :
    Keeps s (paths.foldl (reageLeaf expiresAt) s) := by
  induction paths generalizing s with
  | nil => exact .refl s
  | cons path rest ih => exact (reageLeaf_keeps expiresAt s path).trans (ih _)

/-- The loop ages every path it visits, and no other loses its age. -/
theorem foldl_reageLeaf_agesUntil (expiresAt : Time) (paths : List FieldPath) (s : Store V)
    (q : FieldPath) (h : q ∈ paths ∨ s.AgesUntil expiresAt q) :
    (paths.foldl (reageLeaf expiresAt) s).AgesUntil expiresAt q := by
  induction paths generalizing s with
  | nil => exact h.resolve_left List.not_mem_nil
  | cons path rest ih =>
      refine ih _ ?_
      rcases h with h | h
      · rcases List.mem_cons.mp h with h | h
        · exact .inr (reageLeaf_agesUntil expiresAt s path q (.inl h))
        · exact .inl h
      · exact .inr (reageLeaf_agesUntil expiresAt s path q (.inr h))

theorem foldl_reageLeaf_spec (expiresAt : Time) (hc : s.CacheOk) :
    Keeps s (relativePaths.foldl (reageLeaf expiresAt) s) ∧
      (relativePaths.foldl (reageLeaf expiresAt) s).CacheOk ∧
      (relativePaths.foldl (reageLeaf expiresAt) s).FreshUntil (some expiresAt) :=
  ⟨foldl_reageLeaf_keeps expiresAt relativePaths s,
    hc.writes (foldl_reageLeaf_writes expiresAt relativePaths s),
    .of_agesUntil fun path hp => foldl_reageLeaf_agesUntil expiresAt relativePaths s path (.inl hp)⟩

/-- Leaves aged until the deadline enter the store, with their aliases. -/
theorem applyAged_spec {expiresAt : Time} {leaves aged : List (Observation V)}
    (h : ageUntil expiresAt leaves = .ok aged) (hc : s.CacheOk)
    (hs : s.FreshUntil (some expiresAt)) :
    Keeps s (s.applyObservationBatch (s.withBoundAliases aged)).2 ∧
      (s.applyObservationBatch (s.withBoundAliases aged)).2.CacheOk ∧
      (s.applyObservationBatch (s.withBoundAliases aged)).2.FreshUntil (some expiresAt) :=
  ⟨s.applyObservationBatch_keeps _, hc.writes (s.applyObservationBatch_writes _),
    applyObservationBatch_freshUntil (withBoundAliases_goodUntil s (ageUntil_goodUntil h)) hs⟩

/-- The answer of a commit writes nothing. -/
theorem Commits.merge {r : RelativeVfoRetention V} (h : Commits s m r)
    (parts : List (ChangeSet V)) : Commits s (m.mergeChangesets parts).2 r where
  ok := h.ok.frame (m.mergeChangesets_frame parts)
    (h.ok.cacheOk.writes (m.mergeChangesets_writes parts))
  generation := (m.mergeChangesets_frame parts).keeps.generation.trans h.generation
  deadline := by
    rw [Store.deadline, (m.mergeChangesets_frame parts).keeps.retention]
    exact h.deadline

theorem bootstrap_commits {r : RelativeVfoRetention V} (hs : s.RetentionOk)
    (hr : s.retention = some r) (hnone : r.expiresAt = none) {newest : Time}
    (hc : completeAt r r.pending = some newest) (before : List (ChangeSet V)) :
    Commits s (s.bootstrap r newest before).2 r := by
  rw [bootstrap]
  generalize hround : Rounding.round (newest + r.maxAge) = expiresAt
  cases hage : ageUntil expiresAt (r.pending.values.filter fun o =>
      |Rounding.round (newest - o.timestampMonotonic)| ≤ r.coherenceWindow) with
  | error text =>
      -- The deadline is set, and nothing has entered the store.
      dsimp only
      refine .round hs hr hc hround rfl rfl rfl rfl rfl (hs.cacheOk.congr rfl rfl rfl) ?_ ?_
      · have hfresh := hs.fresh r hr
        rw [hnone] at hfresh
        exact (hfresh.of_freshUntil_none _).congr rfl
      · intro r₀ hr₀
        cases hr₀
        exact hs.staged r hr
  | ok committed =>
      dsimp only
      refine Commits.merge ?_ _
      have hremoved : ((s.setRetention { r with expiresAt := some expiresAt }).discardPaths
          relativePaths).2.FreshUntil (some expiresAt) :=
        .of_none _ fun path hp => by rw [discardPaths_entries, if_pos hp]
      have hset : (s.setRetention { r with expiresAt := some expiresAt }).CacheOk :=
        hs.cacheOk.congr rfl rfl rfl
      obtain ⟨hk, hm, hf⟩ := applyAged_spec hage (hset.writes (discardPaths_writes _ _)) hremoved
      have hgen := ((discardPaths_frame _ _).keeps.trans hk).generation
      refine .round hs hr hc hround rfl hgen rfl rfl rfl (hm.congr rfl rfl rfl) (hf.congr rfl) ?_
      intro r₀ hr₀
      cases hr₀
      exact fun path o ho => by cases ho

theorem patch_commits {r : RelativeVfoRetention V} (hs : s.RetentionOk)
    (hr : s.retention = some r) {expiresAt : Time} (he : r.expiresAt = some expiresAt)
    (leaves : List (Observation V)) (before : List (ChangeSet V)) :
    Commits s (s.patch r expiresAt leaves before).2 r := by
  rw [patch]
  cases hage : ageUntil expiresAt leaves with
  | error text => exact .keeps hr (.refl s) hs
  | ok immediate =>
      have hfresh : s.FreshUntil (some expiresAt) := he ▸ hs.fresh r hr
      obtain ⟨hk, happlied, hf⟩ := applyAged_spec hage hs.cacheOk hfresh
      cases hc : completeAt r r.pending with
      | none =>
          dsimp only
          refine Commits.merge (.keeps hr hk {
            cacheOk := happlied
            fresh := fun r₀ hr₀ => ?_
            staged := hk.staged hs.staged }) _
          cases hr.symm.trans (hk.retention.symm.trans hr₀)
          rw [he]
          exact hf
      | some newest =>
          dsimp only
          refine Commits.merge ?_ _
          generalize hround : Rounding.round (newest + r.maxAge) = next
          -- Every leaf that is present ages until the new deadline.
          have hset : ((s.applyObservationBatch (s.withBoundAliases immediate)).2.setRetention
              { r with expiresAt := some next, pending := .empty }).CacheOk :=
            happlied.congr rfl rfl rfl
          obtain ⟨hfold, hm, hages⟩ := foldl_reageLeaf_spec next hset
          refine .round hs hr hc hround hfold.retention (hfold.generation.trans hk.generation)
            rfl rfl rfl hm hages (hfold.staged ?_)
          intro r₀ hr₀
          cases hr₀
          exact fun path o ho => by cases ho

theorem commitStaged_commits {r : RelativeVfoRetention V} (hs : s.RetentionOk)
    (hr : s.retention = some r) (leaves : List (Observation V)) (before : List (ChangeSet V)) :
    Commits s (s.commitStaged leaves before).2 r := by
  have hkept : Commits s s r := .keeps hr (.refl s) hs
  rw [commitStaged, hr]
  dsimp only
  split
  · rename_i expiresAt _ he
    exact patch_commits hs hr he leaves before
  · rename_i newest he hc
    exact bootstrap_commits hs hr he hc before
  · exact hkept.merge before

/-! ## Batches -/

/-- What a batch that is newer than the deadline leaves of it. -/
theorem expireBefore_spec {r : RelativeVfoRetention V} (hs : s.RetentionOk)
    (hr : s.retention = some r) (newestAt : Time) :
    (s.expireBefore newestAt).2.RetentionOk ∧
      (s.expireBefore newestAt).2.providerGeneration = s.providerGeneration ∧
      ∃ r', (s.expireBefore newestAt).2.retention = some r' ∧
        (∀ path o, r'.pending.get? path = some o → r.pending.get? path = some o) ∧
        ∀ t, r'.expiresAt = some t → s.deadline = some t ∧ newestAt < t := by
  have hdeadline : s.retention.bind RelativeVfoRetention.expiresAt = r.expiresAt := by
    rw [hr]
    rfl
  rw [expireBefore, hdeadline]
  cases he : r.expiresAt with
  | none => exact ⟨hs, rfl, r, hr, fun _ _ h => h, fun t ht => by cases he.symm.trans ht⟩
  | some expiresAt =>
      dsimp only
      by_cases hnow : newestAt < expiresAt
      · rw [if_pos hnow]
        refine ⟨hs, rfl, r, hr, fun _ _ h => h, fun t ht => ?_⟩
        cases he.symm.trans ht
        exact ⟨hdeadline.trans he, hnow⟩
      · rw [if_neg hnow]
        obtain ⟨hk, -⟩ := markStaleAt_expires hs.cacheOk (hdeadline.trans he) (not_lt.mp hnow)
        have hcleared : (s.markStaleAt newestAt).2.retention =
            some { r with expiresAt := none, pending := .empty } := by
          rw [hk.retention, clearRetention, hr]
          rfl
        have hexpired : ∃ r', (s.markStaleAt newestAt).2.retention = some r' ∧
            (∀ path o, r'.pending.get? path = some o → r.pending.get? path = some o) ∧
            ∀ t, r'.expiresAt = some t → s.deadline = some t ∧ newestAt < t := by
          refine ⟨_, hcleared, fun path o h => ?_, fun t ht => ?_⟩
          · cases h
          · cases ht
        split <;> exact ⟨hs.markStaleAt newestAt, hk.generation, hexpired⟩

/-- The leaves of a batch that the retention takes. -/
def taken (s : Store V) (batch : List (Observation V)) : List (Observation V) :=
  if s.retention = none ∨ ∃ o ∈ batch, ¬ s.IsCurrent o then [] else s.relative batch

variable [DecidableEq V]

/-- What a call that takes some leaves does. -/
structure Takes (s m : Store V) (leaves : List (Observation V)) : Prop where
  ok : m.RetentionOk
  deadline : ∀ t, m.deadline = some t →
    (s.deadline = some t ∧ ∀ o ∈ leaves, o.timestampMonotonic < t) ∨
    ∃ r staged, m.retention = some r ∧
      Coherent r.maxAge r.coherenceWindow m.providerGeneration staged t ∧
      ∀ path o, staged.get? path = some o → o ∈ leaves ∨
        ∃ r₀, s.retention = some r₀ ∧ r₀.pending.get? path = some o
  loses : LosesRequired leaves → ∀ path ∈ relativeVfoSessionPaths, m.entries.get? path = none

/-- A call that takes nothing may only frame the retention or end its deadline. -/
theorem Takes.nothing (hm : m.RetentionOk) (h : ∀ t, m.deadline = some t → s.deadline = some t) :
    Takes s m [] where
  ok := hm
  deadline t ht := .inl ⟨h t ht, fun o ho => by cases ho⟩
  loses hlost := by
    obtain ⟨o, ho, -⟩ := hlost
    cases ho

theorem Takes.frame (hs : s.RetentionOk) (h : Frame s m) (hm : m.CacheOk) : Takes s m [] :=
  .nothing (hs.frame h hm) fun t ht => by
    rw [Store.deadline, h.keeps.retention] at ht
    exact ht

/-- A batch under a retention: what is not refused is taken. -/
theorem applyRelative_takes {r : RelativeVfoRetention V} (hs : s.RetentionOk)
    (hr : s.retention = some r) (batch : List (Observation V)) (generation : Int) :
    Takes s (s.applyRelative batch generation).2
      (if generation = r.generation then s.taken batch else []) := by
  rw [applyRelative, hr]
  dsimp only
  by_cases hrefused : s.Refused r batch generation
  · rw [if_pos hrefused]
    have hnothing : (if generation = r.generation then s.taken batch else []) = [] := by
      rcases hrefused with hempty | hgen | hstale
      · rw [List.isEmpty_iff.mp hempty, taken]
        simp [relative]
      · rw [if_neg hgen]
      · have hnone : s.taken batch = [] := if_pos (.inr hstale)
        rw [hnone, ite_self]
    rw [hnothing]
    exact .frame hs (s.emptyChangeset_frame _) (hs.cacheOk.writes (s.emptyChangeset_writes _))
  · rw [if_neg hrefused]
    obtain ⟨-, hgen, hcurrent⟩ : ¬ batch.isEmpty ∧ generation = r.generation ∧
        ∀ o ∈ batch, s.IsCurrent o := by
      simpa [Refused, not_or] using hrefused
    have htaken : (if generation = r.generation then s.taken batch else []) =
        s.relative batch := by
      rw [if_pos hgen, taken, if_neg]
      rintro (hnone | ⟨o, ho, hstale⟩)
      · cases hr.symm.trans hnone
      · exact hstale (hcurrent o ho)
    rw [htaken]
    cases hnewest : newest (s.relative batch) with
    | none =>
        rw [newest_eq_none hnewest]
        exact .frame hs (s.emptyChangeset_frame none)
          (hs.cacheOk.writes (s.emptyChangeset_writes none))
    | some newestAt =>
        dsimp only
        obtain ⟨hbefore, hgeneration, r', hr', hpending, hdeadline⟩ :=
          expireBefore_spec hs hr newestAt
        by_cases hlost : LosesRequired (s.relative batch)
        · rw [if_pos hlost]
          obtain ⟨hk, hremoved⟩ := resetRetention_spec hr' generation
          have hmerge := mergeChangesets_frame ((s.expireBefore newestAt).2.resetRetention
            generation).2 ((s.expireBefore newestAt).1 ++
              [((s.expireBefore newestAt).2.resetRetention generation).1])
          refine ⟨?_, fun t ht => ?_, fun _ path hp => ?_⟩
          · exact (hbefore.resetRetention generation).frame hmerge
              ((hbefore.resetRetention generation).cacheOk.writes (mergeChangesets_writes _ _))
          · rw [Store.deadline, hmerge.keeps.retention, hk.retention] at ht
            cases ht
          · rw [mergeChangesets_entries]
            exact hremoved path hp
        · rw [if_neg hlost]
          have hleaves : ∀ o ∈ s.relative batch, (s.expireBefore newestAt).2.IsCurrent o :=
            fun o ho => by
              rw [IsCurrent, hgeneration]
              exact hcurrent o (List.mem_filter.mp ho).1
          obtain ⟨hstaged, hstage⟩ := stage_ok hbefore hr' hleaves
          have hcommit := commitStaged_commits hstaged hstage (s.relative batch)
            (s.expireBefore newestAt).1
          refine ⟨hcommit.ok, fun t ht => ?_, fun h => absurd h hlost⟩
          rcases hcommit.deadline t ht with he | ⟨r₁, hr₁, hcoherent⟩
          · obtain ⟨ht, hlt⟩ := hdeadline t he
            exact .inl ⟨ht, fun o ho => (newest_le hnewest ho).trans_lt hlt⟩
          · refine .inr ⟨r₁, _, hr₁, hcommit.generation ▸ hcoherent, fun path o ho => ?_⟩
            rcases foldl_stageOne_get? ho with ⟨hmem, -⟩ | ho
            · exact .inl hmem
            · exact .inr ⟨r, hr, hpending path o ho⟩

theorem apply_takes (hs : s.RetentionOk) (o : Observation V) :
    Takes s (s.apply o).2 (s.taken [o]) := by
  have hm := hs.cacheOk.writes (s.apply_writes o)
  rw [apply] at hm ⊢
  by_cases hcurrent : s.IsCurrent o
  · rw [if_neg (not_not.mpr hcurrent)] at hm ⊢
    cases hr : s.retention with
    | none =>
        have hnothing : s.taken [o] = [] := if_pos (.inl hr)
        simp only [hr] at hm ⊢
        rw [hnothing]
        have hkeeps := s.applyOne_keeps o
        refine .nothing ⟨hm, fun r₀ hr₀ => ?_, hkeeps.staged hs.staged⟩ fun t ht => ?_
        · cases (hkeeps.retention.trans hr).symm.trans hr₀
        · rw [Store.deadline, hkeeps.retention] at ht
          exact ht
    | some r =>
        simp only [hr] at hm ⊢
        by_cases hpath : o.path ∈ relativePaths
        · have htakes := applyRelative_takes hs hr [o] r.generation
          rw [if_pos rfl] at htakes
          rw [if_pos hpath]
          exact htakes
        · rw [if_neg hpath] at hm ⊢
          have hnothing : s.taken [o] = [] := by
            rw [taken]
            split
            · rfl
            · exact List.filter_eq_nil_iff.mpr (by simp [hpath])
          rw [hnothing]
          exact .frame hs
            ⟨s.applyOne_keeps o, fun _ h => applyOne_freshUntil h fun hp => absurd hp hpath⟩ hm
  · rw [if_pos hcurrent] at hm ⊢
    have hnothing : s.taken [o] = [] := if_pos (.inr ⟨o, List.mem_singleton_self o, hcurrent⟩)
    rw [hnothing]
    exact .frame hs (s.emptyChangeset_frame _) hm

/-- The relative facts a new retention starts from, if it is configured at all. -/
def reobserved (s : Store V) (generation : Int) (maxAge coherenceWindow : Time) :
    Option (List (Observation V)) :=
  if generation < 0 ∨ maxAge ≤ 0 ∨ coherenceWindow ≤ 0 then none
  else (s.existing (s.clock 0)).toOption.map fun existing =>
    if ∃ o ∈ existing, ¬ s.IsCurrent o then [] else existing

omit [Rounding] [PyValue V] [DecidableEq V] in
theorem entryObservation_path {path : FieldPath} {entry : FieldEntry V} {o : Observation V}
    (h : entryObservation path entry = .ok o) : o.path = path := by
  rw [entryObservation] at h
  split at h
  · cases h
  · split at h
    · cases h
    · cases h
      rfl

omit [PyValue V] [DecidableEq V] in
theorem existing_relative {now : Time} {existing : List (Observation V)}
    (h : s.existing now = .ok existing) : ∀ o ∈ existing, o.path ∈ relativePaths := by
  intro o ho
  obtain ⟨item, hitem, hobservation⟩ := mem_of_mapM_eq_ok h o ho
  rw [entryObservation_path hobservation]
  exact (of_decide_eq_true (List.mem_filter.mp hitem).2).1

/-- A configured retention takes the facts that are still good into an empty one. -/
theorem configureRetention_takes (hs : s.RetentionOk) {generation : Int} {maxAge window : Time}
    {leaves : List (Observation V)} (h : s.reobserved generation maxAge window = some leaves) :
    ∃ s₀ r₀, s₀.retention = some r₀ ∧ r₀.expiresAt = none ∧ r₀.pending = .empty ∧
      Takes s₀ (s.configureRetention generation maxAge window).2 leaves := by
  rw [reobserved] at h
  rw [configureRetention]
  split at h
  case isTrue => cases h
  case isFalse hvalid =>
    rw [dif_neg hvalid]
    cases hexisting : s.existing (s.clock 0) with
    | error text =>
        rw [hexisting] at h
        cases h
    | ok existing =>
        rw [hexisting] at h
        cases h
        dsimp only
        have hremoved : ∀ path ∈ relativePaths,
            (s.clockRead.discardPaths relativePaths).2.entries.get? path = none :=
          fun path hp => by rw [discardPaths_entries, if_pos hp]
        have hdiscard := hs.cacheOk.writes
          (s.clockRead_writes.trans (s.clockRead.discardPaths_writes relativePaths))
        have hgen : (s.clockRead.discardPaths relativePaths).2.providerGeneration =
            s.providerGeneration := (s.clockRead.discardPaths_frame relativePaths).keeps.generation
        generalize s.clockRead.discardPaths relativePaths = discarded at *
        let r₀ : RelativeVfoRetention V := {
          generation := generation
          maxAge := maxAge
          coherenceWindow := window
          maxAge_pos := not_le.mp fun hle => hvalid (.inr (.inl hle))
          coherenceWindow_pos := not_le.mp fun hle => hvalid (.inr (.inr hle)) }
        have hok : (discarded.2.setRetention r₀).RetentionOk := by
          refine ⟨hdiscard.congr rfl rfl rfl, fun r hr => .of_none _ hremoved, fun r hr => ?_⟩
          cases hr
          exact fun path o ho => by cases ho
        have htakes := applyRelative_takes hok rfl existing generation
        have htaken : (discarded.2.setRetention r₀).taken existing =
            if ∃ o ∈ existing, ¬ s.IsCurrent o then [] else existing := by
          have hcurrent : ∀ o, (discarded.2.setRetention r₀).IsCurrent o ↔ s.IsCurrent o :=
            fun o => by
              rw [IsCurrent, IsCurrent, ← hgen]
              rfl
          have hrelative : (discarded.2.setRetention r₀).relative existing = existing := by
            refine List.filter_eq_self.mpr fun o ho => decide_eq_true
              ⟨existing_relative hexisting o ho, ?_⟩
            rintro ⟨entry, hentry, -⟩
            cases (hremoved o.path (existing_relative hexisting o ho)).symm.trans hentry
          rw [taken, hrelative]
          simp only [hcurrent]
          by_cases hstale : ∃ o ∈ existing, ¬ s.IsCurrent o
          · rw [if_pos hstale, if_pos (.inr hstale)]
          · rw [if_neg hstale, if_neg]
            rintro (hnone | h)
            · cases hnone
            · exact hstale h
        rw [if_pos rfl, htaken] at htakes
        exact ⟨discarded.2.setRetention r₀, r₀, rfl, rfl, rfl, htakes⟩

/-- A call that configures no retention leaves the one there is. -/
theorem configureRetention_frame (s : Store V) {generation : Int} {maxAge window : Time}
    (h : s.reobserved generation maxAge window = none) :
    Frame s (s.configureRetention generation maxAge window).2 := by
  rw [reobserved] at h
  rw [configureRetention]
  by_cases hvalid : generation < 0 ∨ maxAge ≤ 0 ∨ window ≤ 0
  · rw [dif_pos hvalid]
    exact .refl s
  · rw [if_neg hvalid] at h
    rw [dif_neg hvalid]
    cases hexisting : s.existing (s.clock 0) with
    | error text => exact s.emptyChangeset_frame none
    | ok existing =>
        rw [hexisting] at h
        cases h

end Store

/-! ## Runs -/

open Store

variable [PyValue V] [DecidableEq V]

/-- The leaves a call takes into the retention. -/
def Op.taken (s : Store V) : Op V → List (Observation V)
  | .apply o => s.taken [o]
  | .applyCurrent o => s.taken [o.withGeneration s.providerGeneration]
  | .applyRelative batch generation =>
      if s.retention.map RelativeVfoRetention.generation = some generation then s.taken batch
      else []
  | .configureRetention generation maxAge window =>
      (s.reobserved generation maxAge window).getD []
  | _ => []

/-- The call starts a retention over. -/
def Op.Configures (s : Store V) : Op V → Prop
  | .configureRetention generation maxAge window =>
      (s.reobserved generation maxAge window).isSome
  | _ => False

/-- A fact of a tuple of the retained receiver, under a relative path or an A/B alias. -/
structure IsTupleFact (path : FieldPath) : Prop where
  scope : path.scope = .receiver
  family : path.family = .freqMode
  name : path.name ∈ relativeNames
  receiverId : path.receiverId = some receiverZero
  slot : path.slot ≠ none

omit [Rounding] in
theorem IsTupleFact.mem {path : FieldPath} (h : IsTupleFact path) :
    path ∈ relativeVfoSessionPaths := by
  obtain ⟨scope, family, name, receiverId, slot, hchecked⟩ := path
  obtain ⟨rfl, rfl, hname, rfl, hslot⟩ := h
  obtain ⟨slot, rfl⟩ := Option.ne_none_iff_exists'.mp hslot
  have hmem : ∀ name ∈ relativeNames,
      ∀ h : pathError .receiver .freqMode (some receiverZero) (some slot) = none,
        ⟨.receiver, .freqMode, name, some receiverZero, some slot, h⟩ ∈
          relativeVfoSessionPaths := by
    cases slot <;> decide
  exact hmem name hname hchecked

/-- A store in a run: what is fresh, and what its next call may do to the deadline. -/
structure RetentionSafe (s : Store V) : Prop where
  withoutDeadline : s.retention ≠ none → s.deadline = none → ∀ path ∈ relativePaths, ∀ entry,
    s.entries.get? path = some entry → entry.freshness ≠ .fresh
  underDeadline : ∀ t, s.deadline = some t → ∀ path ∈ relativePaths, ∀ entry,
    s.entries.get? path = some entry → entry.freshness = .fresh →
      entry.maxAge = some (Rounding.round (t - entry.lastObservedMonotonic))
  /-- A deadline is the old one, not yet reached by what the call takes, or it is set after
  a coherent round of what the call takes and what was staged before it. -/
  sets : ∀ op t, (step s op).deadline = some t →
    (s.deadline = some t ∧ ¬ op.Configures s ∧ ∀ o ∈ op.taken s, o.timestampMonotonic < t) ∨
    ∃ r staged, (step s op).retention = some r ∧
      Coherent r.maxAge r.coherenceWindow (step s op).providerGeneration staged t ∧
      ∀ path o, staged.get? path = some o → o ∈ op.taken s ∨ ¬ op.Configures s ∧
        ∃ r₀, s.retention = some r₀ ∧ r₀.pending.get? path = some o
  loses : ∀ op, LosesRequired (op.taken s) → ∀ path, IsTupleFact path →
    (step s op).entries.get? path = none

/-- The calls other than `configure_relative_vfo_retention`. -/
theorem step_takes {s : Store V} (hs : s.RetentionOk) (op : Op V) (h : ¬ op.Configures s) :
    Takes s (step s op) (op.taken s) := by
  have hm := hs.cacheOk.step op
  cases op with
  | apply o => exact apply_takes hs o
  | applyCurrent o => exact apply_takes hs _
  | applyRelative batch generation =>
      cases hr : s.retention with
      | none =>
          have hnothing : (Op.applyRelative batch generation).taken s = [] := by
            rw [Op.taken, hr]
            exact if_neg nofun
          have hkeeps : Keeps s (step s (.applyRelative batch generation)) := by
            rw [step, applyRelative, hr]
            exact s.applyObservationBatch_keeps batch
          rw [hnothing]
          refine .nothing ⟨hm, fun r₀ hr₀ => ?_, hkeeps.staged hs.staged⟩ fun t ht => ?_
          · cases (hkeeps.retention.trans hr).symm.trans hr₀
          · rw [deadline, hkeeps.retention] at ht
            exact ht
      | some r =>
          have htaken : (Op.applyRelative batch generation).taken s =
              if generation = r.generation then s.taken batch else [] := by
            rw [Op.taken, hr]
            simp only [Option.map_some, Option.some.injEq, eq_comm]
          rw [htaken]
          exact applyRelative_takes hs hr batch generation
  | configureRetention generation maxAge window =>
      have hnone : s.reobserved generation maxAge window = none := by
        simpa [Op.Configures] using h
      have hnothing : (Op.configureRetention generation maxAge window).taken s = [] := by
        rw [Op.taken, hnone]
        rfl
      rw [hnothing]
      exact .frame hs (s.configureRetention_frame hnone) hm
  | resetRetention generation =>
      exact .nothing (hs.resetRetention generation) fun _ => resetRetention_deadline
  | discard items => exact .frame hs (s.discard_frame items) hm
  | markStaleDue now =>
      cases now with
      | some t => exact .nothing (hs.markStaleAt t) fun _ => markStaleAt_deadline hs.cacheOk
      | none =>
          have hread : s.clockRead.RetentionOk :=
            hs.frame (s.emptyChangeset_frame none) (hs.cacheOk.writes s.clockRead_writes)
          exact .nothing (hread.markStaleAt _) fun _ => markStaleAt_deadline hread.cacheOk
  | beginProviderGeneration =>
      exact .nothing (.begin s) fun t ht => by cases s.begin_deadline.symm.trans ht
  | snapshot =>
      have hread : s.clockRead.CacheOk := hs.cacheOk.writes s.clockRead_writes
      exact .frame hs ((s.emptyChangeset_frame none).trans
        (cachesOnly_frame (snapshotFields_spec hread).2.2)) hm
  | field path => exact .frame hs (reprojected_frame (s.field_reprojected path)) hm

theorem configures_takes {s : Store V} (hs : s.RetentionOk) {op : Op V} (h : op.Configures s) :
    ∃ s₀ r₀, s₀.retention = some r₀ ∧ r₀.expiresAt = none ∧ r₀.pending = .empty ∧
      Takes s₀ (step s op) (op.taken s) := by
  cases op with
  | configureRetention generation maxAge window =>
      obtain ⟨leaves, hleaves⟩ := Option.isSome_iff_exists.mp h
      have htaken : (Op.configureRetention generation maxAge window).taken s = leaves := by
        rw [Op.taken, hleaves]
        rfl
      rw [htaken]
      exact configureRetention_takes hs hleaves
  | _ => exact h.elim

theorem step_retentionOk {s : Store V} (hs : s.RetentionOk) (op : Op V) :
    (step s op).RetentionOk := by
  by_cases h : op.Configures s
  · obtain ⟨_, _, _, _, _, htakes⟩ := configures_takes hs h
    exact htakes.ok
  · exact (step_takes hs op h).ok

theorem run_retentionOk {s : Store V} (hs : s.RetentionOk) (ops : List (Op V)) :
    (run s ops).RetentionOk := by
  induction ops generalizing s with
  | nil => exact hs
  | cons op rest ih => exact ih (step_retentionOk hs op)

theorem Store.RetentionOk.safe {s : Store V} (hs : s.RetentionOk) : RetentionSafe s where
  withoutDeadline hr hnone path hp entry he hf := by
    obtain ⟨r, hr⟩ := Option.ne_none_iff_exists'.mp hr
    obtain ⟨t, -, ht, -⟩ := hs.fresh r hr path hp entry he hf
    rw [deadline, hr] at hnone
    cases hnone.symm.trans ht
  underDeadline t ht path hp entry he hf := by
    obtain ⟨r, hr, hexpires⟩ := Option.bind_eq_some_iff.mp ht
    obtain ⟨t', age, ht', hage, hsum⟩ := hs.fresh r hr path hp entry he hf
    cases hexpires.symm.trans ht'
    rw [hage, hsum]
  sets op t ht := by
    by_cases h : op.Configures s
    · -- The new retention has no deadline and nothing staged.
      obtain ⟨s₀, r₀, hr₀, hexpires, hpending, htakes⟩ := configures_takes hs h
      rcases htakes.deadline t ht with ⟨hold, -⟩ | ⟨r, staged, hr, hcoherent, hstaged⟩
      · rw [deadline, hr₀] at hold
        cases hexpires.symm.trans hold
      · refine .inr ⟨r, staged, hr, hcoherent, fun path o ho => .inl ?_⟩
        refine (hstaged path o ho).resolve_right ?_
        rintro ⟨r', hr', ho'⟩
        cases hr₀.symm.trans hr'
        rw [hpending] at ho'
        cases ho'
    · rcases (step_takes hs op h).deadline t ht with ⟨hold, hleaves⟩ |
        ⟨r, staged, hr, hcoherent, hstaged⟩
      · exact .inl ⟨hold, h, hleaves⟩
      · exact .inr ⟨r, staged, hr, hcoherent, fun path o ho =>
          (hstaged path o ho).imp_right (⟨h, ·⟩)⟩
  loses op hlost path hpath := by
    by_cases h : op.Configures s
    · obtain ⟨_, _, _, _, _, htakes⟩ := configures_takes hs h
      exact htakes.loses hlost path hpath.mem
    · exact (step_takes hs op h).loses hlost path hpath.mem

/-- While a retention is configured, the age of every fresh relative path is what is left until the
common deadline and none is fresh without one; only a coherent round of the required leaves sets the
deadline; and losing a required leaf removes the tuples and their aliases. -/
theorem retention_safe (clock : Nat → Time) (maxHistoryCount : Nat) (ops : List (Op V)) :
    RetentionSafe (run (Store.init clock maxHistoryCount) ops) := by
  have hinit : (Store.init clock maxHistoryCount : Store V).RetentionOk :=
    ⟨.init clock maxHistoryCount, fun _ hr => (by cases hr), fun _ hr => by cases hr⟩
  exact (run_retentionOk hinit ops).safe

/-- A frequency or a mode, observed at the double next to an instant. -/
def requiredAt (path : FieldPath) (instant : ℚ) : Observation (Option String) where
  path := path
  value := some "7"
  source := ⟨"poll_response", "radio", none, none, none, none, none⟩
  timestampMonotonic := Rounding.double.round instant
  quality := []
  maxAge := none
  providerGeneration := some 0
  clockDomain := none
  maxAge_nonneg := Observation.noAge_nonneg
  clockDomain_nonempty := Observation.noClockDomain_nonempty

/-- A round of the required leaves: the active tuple at 0.7, the unselected one at 0.6. -/
def tenthApart : List (Observation (Option String)) :=
  requiredPaths.map fun path =>
    requiredAt path (if path.slot = some .active then 7 / 10 else 6 / 10)

omit [Rounding] in
/-- The age is rounded, and the sum of the age and the instant of a leaf is not the deadline, be the
sum rounded or not: 1.7 - 0.6 is 1.1, and 0.6 + 1.1 is above 1.7. -/
theorem deadline_sum_rounds : ¬ ∀ (clock : Nat → Time) (maxHistoryCount : Nat)
    (ops : List (Op (Option String))),
    let s := @run _ _ _ Rounding.double (Store.init clock maxHistoryCount) ops
    ∀ t, s.deadline = some t → ∀ path ∈ relativePaths, ∀ entry,
      s.entries.get? path = some entry → entry.freshness = .fresh → ∃ age,
        entry.maxAge = some age ∧ (entry.lastObservedMonotonic + age = t ∨
          Rounding.double.round (entry.lastObservedMonotonic + age) = t) := by
  intro h
  have hsum := h (fun _ => 0) 8 [.configureRetention 0 1 1, .applyRelative tenthApart 0]
  generalize hs : @run _ _ _ Rounding.double (Store.init (fun _ => 0) 8)
    [.configureRetention 0 1 1, .applyRelative tenthApart 0] = s at hsum
  have hoff : ∃ item ∈ s.entries.items, item.1 ∈ relativePaths ∧ item.2.freshness = .fresh ∧
      ∃ t ∈ s.deadline, ∃ age ∈ item.2.maxAge, item.2.lastObservedMonotonic + age ≠ t ∧
        Rounding.double.round (item.2.lastObservedMonotonic + age) ≠ t := by
    rw [← hs]
    decide +kernel
  obtain ⟨item, hmem, hpath, hfresh, t, ht, age, hage, hexact, hrounded⟩ := hoff
  obtain ⟨age', hage', hsums⟩ := hsum t ht item.1 hpath item.2 (Dict.mem_items.mp hmem) hfresh
  cases Option.some.inj (hage'.symm.trans hage)
  exact hsums.elim hexact hrounded

end Rigplane.StateStore
