import Rigplane.Acquisition.MeterCoalescer
import Rigplane.StateStore.Replay

/-!
# Which meter samples reach the store

Per path, what is pending is the end of what was recorded (`Ordered.tail`), and no call breaks that.
So the latest recorded sample of a path is lost only where `record` trims all the path has pending,
and `Spares` excludes just that.

`flush` and `flush_due` both release the pending samples of some paths, so there is one lemma for
both.
-/

namespace Rigplane.Acquisition

open StatePipeline StateStore

variable {V : Type}

/-! ## The latest sample of a path -/

namespace PendingMeterSample

variable {samples : List (PendingMeterSample V)} {x y : PendingMeterSample V} {p : FieldPath}

/-- The samples are in the order they were recorded. -/
abbrev InOrder (samples : List (PendingMeterSample V)) : Prop :=
  samples.Pairwise fun x y => x.serial < y.serial

/-- No sample of the path is later. -/
def Latest (samples : List (PendingMeterSample V)) (x : PendingMeterSample V) : Prop :=
  x ∈ samples ∧ ∀ y ∈ samples, y.path = x.path → y.serial ≤ x.serial

theorem InOrder.serial_inj (h : InOrder samples) (hx : x ∈ samples) (hy : y ∈ samples)
    (heq : x.serial = y.serial) : x = y := by
  have hnodup : (samples.map serial).Nodup := List.pairwise_map.mpr (h.imp Nat.ne_of_lt)
  exact List.inj_on_of_nodup_map hnodup hx hy heq

theorem latestByPath_concat (samples : List (PendingMeterSample V)) (x : PendingMeterSample V) :
    latestByPath (samples ++ [x]) = (latestByPath samples).set x.path x := by
  rw [latestByPath, List.foldl_append]
  rfl

theorem mem_of_latestByPath (h : (latestByPath samples).get? p = some x) : x ∈ samples ∧
    x.path = p := by
  induction samples using List.reverseRecOn with
  | nil => cases h
  | append_singleton samples z ih =>
      rw [latestByPath_concat, Dict.get?_set] at h
      split at h
      · rename_i hpath
        cases h
        exact ⟨List.mem_append_right _ (List.mem_singleton_self _), hpath.symm⟩
      · exact ⟨List.mem_append_left _ (ih h).1, (ih h).2⟩

theorem exists_latestByPath (hy : y ∈ samples) :
    ∃ x, (latestByPath samples).get? y.path = some x := by
  induction samples using List.reverseRecOn with
  | nil => cases hy
  | append_singleton samples z ih =>
      rw [latestByPath_concat, Dict.get?_set]
      split
      · exact ⟨z, rfl⟩
      · rename_i hpath
        rcases List.mem_append.mp hy with hy | hy
        · exact ih hy
        · exact absurd (congrArg PendingMeterSample.path (List.mem_singleton.mp hy)) hpath

theorem latestByPath_get? (h : InOrder samples) :
    (latestByPath samples).get? p = some x ↔ Latest samples x ∧ x.path = p := by
  induction samples using List.reverseRecOn with
  | nil => simp [latestByPath, Latest]
  | append_singleton samples z ih =>
      obtain ⟨hsamples, -, hlast⟩ := List.pairwise_append.mp h
      have hlater : ∀ y ∈ samples, y.serial < z.serial := fun y hy =>
        hlast y hy z (List.mem_singleton_self z)
      rw [latestByPath_concat, Dict.get?_set]
      split
      · rename_i hpath
        subst hpath
        constructor
        · intro heq
          cases heq
          refine ⟨⟨List.mem_append_right _ (List.mem_singleton_self _), fun y hy _ => ?_⟩, rfl⟩
          rcases List.mem_append.mp hy with hy | hy
          · exact Nat.le_of_lt (hlater y hy)
          · rw [List.mem_singleton.mp hy]
        · rintro ⟨⟨hx, hmax⟩, hpath⟩
          have hle : z.serial ≤ x.serial :=
            hmax z (List.mem_append_right _ (List.mem_singleton_self z)) hpath.symm
          rcases List.mem_append.mp hx with hx | hx
          · exact absurd (hlater x hx) (Nat.not_lt.mpr hle)
          · rw [List.mem_singleton.mp hx]
      · rename_i hpath
        rw [ih hsamples]
        constructor
        · rintro ⟨⟨hx, hmax⟩, rfl⟩
          refine ⟨⟨List.mem_append_left _ hx, fun y hy hsame => ?_⟩, rfl⟩
          rcases List.mem_append.mp hy with hy | hy
          · exact hmax y hy hsame
          · rw [List.mem_singleton.mp hy] at hsame
            exact absurd hsame.symm hpath
        · rintro ⟨⟨hx, hmax⟩, rfl⟩
          rcases List.mem_append.mp hx with hx | hx
          · exact ⟨⟨hx, fun y hy => hmax y (List.mem_append_left _ hy)⟩, rfl⟩
          · exact absurd (congrArg PendingMeterSample.path (List.mem_singleton.mp hx)) hpath

theorem length_latestByPath_le (samples : List (PendingMeterSample V)) :
    (latestByPath samples).values.length ≤ samples.length := by
  induction samples using List.reverseRecOn with
  | nil => exact Nat.le_refl 0
  | append_singleton samples z ih =>
      have hset : (latestByPath (samples ++ [z])).values.length ≤
          (latestByPath samples).values.length + 1 := by
        rw [latestByPath_concat, Dict.values, Dict.values, List.length_map, List.length_map]
        show (Dict.assign z.path z _).length ≤ _
        rw [Dict.length_items_assign]
        split <;> omega
      rw [List.length_append]
      exact hset.trans (Nat.add_le_add_right ih 1)

/-- What a flush of these samples hands over. -/
theorem mem_sorted_latest (h : InOrder samples) :
    x ∈ sorted (latestByPath samples).values ↔ Latest samples x := by
  rw [sorted, (List.perm_insertionSort _ _).mem_iff, Dict.mem_values]
  constructor
  · rintro ⟨p, hx⟩
    exact ((latestByPath_get? h).mp hx).1
  · exact fun hx => ⟨x.path, (latestByPath_get? h).mpr ⟨hx, rfl⟩⟩

theorem nodup_sorted_latest (h : InOrder samples) :
    ((sorted (latestByPath samples).values).map PendingMeterSample.path).Nodup := by
  have hkeys : (latestByPath samples).values.map PendingMeterSample.path =
    (latestByPath samples).keys := by
    rw [Dict.values, Dict.keys, List.map_map]
    refine List.map_congr_left fun item hitem => ?_
    exact ((latestByPath_get? h).mp (Dict.mem_items.mp hitem)).2
  have hperm : ((sorted (latestByPath samples).values).map PendingMeterSample.path).Perm
      (latestByPath samples).keys := by
    rw [← hkeys]
    exact (List.perm_insertionSort _ _).map _
  exact hperm.nodup_iff.mpr (latestByPath samples).nodup

end PendingMeterSample

open PendingMeterSample

/-! ## Samples in the store -/

variable [PyValue V]

/-- The store holds the observation, or something newer, unless it is of another generation. -/
def Holds (store : Store V) (o : Observation V) : Prop :=
  ¬ store.IsCurrent o ∨
    ∃ entry ∈ store.entries.get? o.path, Store.OlderThanEntry o entry ∨ entry = store.observed o

omit [PyValue V] in
theorem Holds.congr {store store' : Store V} {o : Observation V} (h : Holds store o)
    (hgeneration : store'.providerGeneration = store.providerGeneration)
    (hentry : store'.entries.get? o.path = store.entries.get? o.path) : Holds store' o := by
  rw [Holds, Store.IsCurrent, Store.observed, hgeneration, hentry]
  exact h

theorem holds_applyOne (store : Store V) (o : Observation V) : Holds (store.applyOne o).2 o := by
  by_cases h : ¬ store.IsCurrent o ∨ store.Superseded o
  · rw [Store.applyOne, if_pos h]
    rcases h with hold | ⟨entry, hentry, holder⟩
    · exact .inl hold
    · exact .inr ⟨entry, hentry, .inl holder⟩
  · obtain ⟨_, _, _, _, _, heq⟩ := Store.applyOne_eq h
    refine .inr ⟨store.observed o, ?_, .inr ?_⟩
    · rw [heq, Store.appendHistory_entries]
      exact Dict.get?_set_self _ _ _
    · rw [Store.observed, Store.observed, (store.applyOne_keeps o).generation]

theorem Holds.applyOne {store : Store V} {o o' : Observation V} (h : Holds store o)
    (hpath : o.path ≠ o'.path) : Holds (store.applyOne o').2 o := by
  refine h.congr (store.applyOne_keeps o').generation ?_
  rcases store.applyOne_entries o' with heq | ⟨entry, heq, -⟩
  · rw [heq]
  · rw [heq, Dict.get?_set_ne _ _ hpath]

/-- The store after these samples. -/
def handOver (samples : List (PendingMeterSample V)) (store : Store V) : Store V :=
  samples.foldl (fun store x => (store.applyOne x.observation).2) store

theorem Holds.handOver {samples : List (PendingMeterSample V)} {store : Store V} {o : Observation V}
    (h : Holds store o) (hpath : o.path ∉ samples.map PendingMeterSample.path) :
    Holds (handOver samples store) o := by
  induction samples generalizing store with
  | nil => exact h
  | cons x rest ih =>
      rw [List.map_cons, List.mem_cons, not_or] at hpath
      exact ih (h.applyOne hpath.1) hpath.2

/-- Where no path comes twice, every sample is held in the end. -/
theorem holds_handOver {samples : List (PendingMeterSample V)} {x : PendingMeterSample V}
    (hnodup : (samples.map PendingMeterSample.path).Nodup) (hx : x ∈ samples) (store : Store V) :
    Holds (handOver samples store) x.observation := by
  induction samples generalizing store with
  | nil => cases hx
  | cons y rest ih =>
      obtain ⟨hy, hrest⟩ := List.nodup_cons.mp hnodup
      rcases List.mem_cons.mp hx with rfl | hx
      · exact (holds_applyOne store x.observation).handOver hy
      · exact ih hrest hx _

variable [DecidableEq V]

theorem relative_family : ∀ path ∈ relativePaths, path.family = .freqMode := by decide

/-- No meter is staged. -/
theorem apply_meter {store : Store V} {o : Observation V} (hmeter : o.path.family = .meters) :
    store.apply o = (.ok (store.applyOne o).1, (store.applyOne o).2) := by
  have hrelative : o.path ∉ relativePaths := fun hmem => by
    rw [relative_family o.path hmem] at hmeter
    cases hmeter
  rw [Store.apply]
  split
  · rename_i hold
    rw [Store.applyOne, if_pos (.inl hold)]
  · split <;> rfl

theorem applyInOrder_eq (samples : List (PendingMeterSample V)) (store : Store V) :
    ∃ results, results.length = samples.length ∧
      MeterObservationCoalescer.applyInOrder samples store =
        (.ok results, handOver samples store) := by
  induction samples generalizing store with
  | nil => exact ⟨[], rfl, rfl⟩
  | cons x rest ih =>
      obtain ⟨results, hlength, hrest⟩ := ih (store.applyOne x.observation).2
      refine ⟨(store.applyOne x.observation).1 :: results, congrArg Nat.succ hlength, ?_⟩
      rw [MeterObservationCoalescer.applyInOrder, apply_meter x.isMeter]
      simp only
      rw [hrest]
      rfl

/-! ## What the calls do -/

namespace MeterObservationCoalescer

variable {c c' : MeterObservationCoalescer V} {x y : PendingMeterSample V}

/-- How many samples `record` will trim. -/
def overflow (c : MeterObservationCoalescer V) (policy : MeterCoalescingPolicy) : Nat :=
  (policy.maxSamples.map fun maxSamples => c.pending.length + 1 - maxSamples).getD 0

omit [PyValue V] [DecidableEq V] in
theorem record_eq {o : Observation V} {policy : MeterCoalescingPolicy}
    (h : c.record o policy = .ok c') :
    ∃ x : PendingMeterSample V, x.observation = o ∧ x.serial = c.recorded.length ∧ c' = { c with
      pending := (c.pending ++ [x]).drop (c.overflow policy)
      droppedSampleCount := c.droppedSampleCount + c.overflow policy
      recorded := c.recorded ++ [x] } := by
  rw [record] at h
  split at h
  · cases h
  · rename_i hmeter
    refine ⟨⟨o, policy, c.recorded.length, not_not.mp hmeter⟩, rfl, rfl, ?_⟩
    rw [overflow]
    simp only at h
    split at h
    · rename_i hmax
      cases h
      rw [hmax]
      rfl
    · rename_i maxSamples hmax
      rw [hmax]
      simp only [List.length_append, List.length_singleton] at h
      split at h
      · rename_i hle
        cases h
        rw [Option.map_some, Option.getD_some, Nat.sub_eq_zero_of_le hle]
        rfl
      · cases h
        rfl

omit [PyValue V] [DecidableEq V] in
/-- `record` raises on other fields than meters. -/
theorem record_isOk {o : Observation V} {policy : MeterCoalescingPolicy} :
    (∃ c', c.record o policy = .ok c') ↔ o.path.family = .meters := by
  rw [record]
  split
  · rename_i hmeter
    refine ⟨?_, fun h => absurd h hmeter⟩
    rintro ⟨_, ⟨⟩⟩
  · rename_i hmeter
    refine ⟨fun _ => not_not.mp hmeter, fun _ => ?_⟩
    simp only
    split
    · exact ⟨_, rfl⟩
    · split <;> exact ⟨_, rfl⟩

/-- What a flush of some paths hands over. -/
def released (c : MeterObservationCoalescer V) (due : FieldPath → Bool) :
    List (PendingMeterSample V) :=
  sorted (latestByPath (c.pending.filter fun x => due x.path)).values

/-- The coalescer after a flush of some paths. -/
def release (c : MeterObservationCoalescer V) (due : FieldPath → Bool) :
    MeterObservationCoalescer V :=
  { c with
    pending := c.pending.filter fun x => !due x.path
    coalescedSampleCount := c.coalescedSampleCount +
      ((c.pending.filter fun x => due x.path).length - (c.released due).length)
    applied := c.applied ++ c.released due }

theorem flushSamples_eq {samples : List (PendingMeterSample V)} (store : Store V)
    (hne : samples ≠ []) :
    ∃ result, c.flushSamples store samples = (.ok result, { c with
      coalescedSampleCount := c.coalescedSampleCount +
        (samples.length - (sorted (latestByPath samples).values).length)
      applied := c.applied ++ sorted (latestByPath samples).values },
      handOver (sorted (latestByPath samples).values) store) := by
  obtain ⟨results, hlength, happly⟩ := applyInOrder_eq (sorted (latestByPath samples).values) store
  have hsorted : (sorted (latestByPath samples).values).length =
    (latestByPath samples).values.length :=
    List.length_insertionSort _ _
  have hlatest : (latestByPath samples).values ≠ [] := by
    intro hnil
    obtain ⟨x, hx⟩ := List.exists_mem_of_ne_nil samples hne
    obtain ⟨y, hy⟩ := exists_latestByPath hx
    have hmem := Dict.mem_values.mpr ⟨x.path, hy⟩
    rw [hnil] at hmem
    cases hmem
  rw [flushSamples]
  simp only
  split
  · rename_i hnone
    rw [Store.newest, List.max?_eq_none_iff, List.map_eq_nil_iff, List.map_eq_nil_iff] at hnone
    exact absurd hnone hlatest
  · rw [happly]
    simp only
    split
    · rename_i hnone
      rw [List.getLast?_eq_none_iff] at hnone
      rw [hnone, hsorted, List.length_nil, eq_comm, List.length_eq_zero_iff] at hlength
      exact absurd hlength hlatest
    · rw [hsorted]
      exact ⟨_, rfl⟩

omit [PyValue V] [DecidableEq V] in
theorem release_of_none (due : FieldPath → Bool) (h : ∀ x ∈ c.pending, due x.path = false) :
    c.release due = c ∧ c.released due = [] := by
  have hfilter : (c.pending.filter fun x => due x.path) = [] :=
    List.filter_eq_nil_iff.mpr fun x hx => by rw [h x hx]; exact Bool.false_ne_true
  have hreleased : c.released due = [] := by rw [released, hfilter]; rfl
  have hkeep : (c.pending.filter fun x => !due x.path) = c.pending :=
    List.filter_eq_self.mpr fun x hx => by rw [h x hx]; rfl
  refine ⟨?_, hreleased⟩
  rw [release, hreleased, hfilter, hkeep, List.append_nil]
  rfl

theorem flush_eq (c : MeterObservationCoalescer V) (store : Store V) :
    (c.flush store).2 = (c.release fun _ => true, handOver (c.released fun _ => true) store) := by
  rw [flush]
  split
  · rename_i hempty
    have hnone : ∀ x ∈ c.pending, true = false := by
      intro x hx
      rw [List.isEmpty_iff.mp hempty] at hx
      cases hx
    obtain ⟨hrelease, hreleased⟩ := release_of_none (fun _ => true) hnone
    rw [hrelease, hreleased]
    rfl
  · rename_i hpending
    have hne : c.pending ≠ [] := fun hnil => hpending (List.isEmpty_iff.mpr hnil)
    obtain ⟨result, hflush⟩ := flushSamples_eq (c := { c with pending := [] }) store hne
    have htrue : (c.pending.filter fun _ => true) = c.pending := List.filter_true _
    rw [hflush, release, released, htrue]
    simp

theorem flushDue_eq (c : MeterObservationCoalescer V) (store : Store V) (now : Time) :
    (c.flushDue store now).2 =
      (c.release fun path => path ∈ c.duePaths now,
        handOver (c.released fun path => path ∈ c.duePaths now) store) := by
  rw [flushDue]
  simp only
  split
  · rename_i hempty
    have hnone : ∀ x ∈ c.pending, decide (x.path ∈ c.duePaths now) = false := by
      intro x _
      rw [List.isEmpty_iff.mp hempty]
      exact decide_eq_false List.not_mem_nil
    obtain ⟨hrelease, hreleased⟩ := release_of_none (fun path => path ∈ c.duePaths now) hnone
    rw [hrelease, hreleased]
    rfl
  · rename_i hdue
    have hne : (c.pending.filter fun x => x.path ∈ c.duePaths now) ≠ [] := by
      obtain ⟨path, hpath⟩ := List.exists_mem_of_ne_nil _
        (fun hnil => hdue (List.isEmpty_iff.mpr hnil))
      obtain ⟨⟨path', x⟩, hitem, rfl⟩ := List.mem_map.mp hpath
      obtain ⟨hx, rfl⟩ := mem_of_latestByPath (Dict.mem_items.mp (List.mem_filter.mp hitem).1)
      exact List.ne_nil_of_mem (List.mem_filter.mpr ⟨hx, decide_eq_true hpath⟩)
    obtain ⟨result, hflush⟩ := flushSamples_eq
      (c := { c with pending := c.pending.filter fun x => ¬ x.path ∈ c.duePaths now }) store hne
    rw [hflush, release, released]
    simp

/-! ## Order -/

omit [PyValue V] [DecidableEq V]

/-- What is pending of a path is the end of what was recorded of it. -/
structure Ordered (c : MeterObservationCoalescer V) : Prop where
  serials : ∀ x ∈ c.recorded, x.serial < c.recorded.length
  inOrder : InOrder c.recorded
  pending : c.pending.Sublist c.recorded
  tail : ∀ x ∈ c.pending, ∀ y ∈ c.recorded, y.path = x.path → x.serial < y.serial → y ∈ c.pending
  applied : ∀ x ∈ c.applied, x ∈ c.recorded ∧ x ∉ c.pending
  counted : c.recorded.length =
    c.applied.length + c.coalescedSampleCount + c.droppedSampleCount + c.pending.length

/-- A sample that is gone without having been handed over has a later one of its path. -/
def Covered (c : MeterObservationCoalescer V) : Prop :=
  ∀ x ∈ c.recorded, x ∉ c.applied → x ∉ c.pending →
    ∃ y ∈ c.recorded, y.path = x.path ∧ x.serial < y.serial

theorem Ordered.pendingInOrder (h : c.Ordered) : InOrder c.pending := h.inOrder.sublist h.pending

theorem Ordered.mem_recorded (h : c.Ordered) (hx : x ∈ c.pending) :
    x ∈ c.recorded := h.pending.subset hx

theorem Ordered.initial : Ordered ({} : MeterObservationCoalescer V) where
  serials _ hx := by cases hx
  inOrder := .nil
  pending := .refl _
  tail _ hx := by cases hx
  applied _ hx := by cases hx
  counted := rfl

/-- The pending samples with a new one behind them, before `record` trims. -/
structure Extends (c : MeterObservationCoalescer V) (x : PendingMeterSample V) : Prop where
  inOrder : InOrder (c.pending ++ [x])
  recorded : InOrder (c.recorded ++ [x])
  tail : ∀ y ∈ c.pending ++ [x], ∀ z ∈ c.recorded ++ [x], z.path = y.path → y.serial < z.serial →
    z ∈ c.pending ++ [x]

theorem Ordered.extends (h : c.Ordered) (hserial : x.serial = c.recorded.length) : c.Extends x := by
  have hbefore : ∀ y ∈ c.recorded, y.serial < x.serial := fun y hy => hserial ▸ h.serials y hy
  refine ⟨?_, ?_, ?_⟩
  · exact List.pairwise_append.mpr ⟨h.pendingInOrder, List.pairwise_singleton _ _,
      fun y hy z hz => by
      rw [List.mem_singleton.mp hz]
      exact hbefore y (h.mem_recorded hy)⟩
  · exact List.pairwise_append.mpr ⟨h.inOrder, List.pairwise_singleton _ _, fun y hy z hz => by
      rw [List.mem_singleton.mp hz]
      exact hbefore y hy⟩
  · intro y hy z hz hpath hlt
    rcases List.mem_append.mp hz with hz | hz
    · refine List.mem_append_left _ ?_
      rcases List.mem_append.mp hy with hy | hy
      · exact h.tail y hy z hz hpath hlt
      · rw [List.mem_singleton.mp hy] at hlt
        exact absurd (hbefore z hz) (Nat.lt_asymm hlt)
    · exact List.mem_append_right _ hz

/-- `record` trims the front, so a path keeps its end. -/
theorem Extends.tail_drop (h : c.Extends x) (n : Nat) :
    ∀ y ∈ (c.pending ++ [x]).drop n, ∀ z ∈ c.recorded ++ [x], z.path = y.path →
      y.serial < z.serial →
      z ∈ (c.pending ++ [x]).drop n := by
  intro y hy z hz hpath hlt
  have hmem := h.tail y (List.mem_of_mem_drop hy) z hz hpath hlt
  have horder := h.inOrder
  rw [← List.take_append_drop n (c.pending ++ [x])] at hmem horder
  rcases List.mem_append.mp hmem with htake | hdrop
  · exact absurd ((List.pairwise_append.mp horder).2.2 z htake y hy) (Nat.lt_asymm hlt)
  · exact hdrop

theorem Ordered.record (h : c.Ordered) {o : Observation V} {policy : MeterCoalescingPolicy}
    (hrecord : c.record o policy = .ok c') : c'.Ordered := by
  obtain ⟨x, -, hserial, rfl⟩ := record_eq hrecord
  have hextends := h.extends hserial
  have hoverflow : c.overflow policy ≤ c.pending.length + 1 := by
    rw [overflow]
    cases policy.maxSamples with
    | none => exact Nat.zero_le _
    | some maxSamples => exact Nat.sub_le _ _
  constructor
  · intro y hy
    rw [List.length_append, List.length_singleton]
    rcases List.mem_append.mp hy with hy | hy
    · exact Nat.lt_succ_of_lt (h.serials y hy)
    · rw [List.mem_singleton.mp hy, hserial]
      exact Nat.lt_succ_self _
  · exact hextends.recorded
  · exact (List.drop_sublist _ _).trans (h.pending.append_right [x])
  · exact hextends.tail_drop _
  · intro y hy
    obtain ⟨hmem, hgone⟩ := h.applied y hy
    refine ⟨List.mem_append_left _ hmem, fun hpending => ?_⟩
    rcases List.mem_append.mp (List.mem_of_mem_drop hpending) with hpending | hpending
    · exact hgone hpending
    · have hlt := h.serials y hmem
      rw [List.mem_singleton.mp hpending, hserial] at hlt
      exact Nat.lt_irrefl _ hlt
  · have hcounted := h.counted
    simp only [List.length_append, List.length_singleton, List.length_drop]
    omega

/-- `record` loses no path where what it keeps has all the paths it trims. -/
theorem Covered.record (h : c.Ordered) (hcovered : c.Covered) {o : Observation V}
    {policy : MeterCoalescingPolicy} (hrecord : c.record o policy = .ok c')
    (hspares : ∀ p ∈ (c.pending.map PendingMeterSample.path ++ [o.path]).take (c.overflow policy),
      p ∈ (c.pending.map PendingMeterSample.path ++ [o.path]).drop (c.overflow policy)) :
        c'.Covered := by
  obtain ⟨x, rfl, hserial, rfl⟩ := record_eq hrecord
  have hextends := h.extends hserial
  have hpaths : c.pending.map PendingMeterSample.path ++ [x.observation.path] =
      (c.pending ++ [x]).map PendingMeterSample.path := by rw [List.map_append]; rfl
  intro y hy happlied hgone
  by_cases hpending : y ∈ c.pending ++ [x]
  · have hsplit := hextends.inOrder
    rw [← List.take_append_drop (c.overflow policy) (c.pending ++ [x])] at hpending hsplit
    have htake := (List.mem_append.mp hpending).resolve_right hgone
    rw [hpaths, ← List.map_take, ← List.map_drop] at hspares
    obtain ⟨z, hz, hpath⟩ := List.mem_map.mp (hspares y.path (List.mem_map_of_mem htake))
    have hmem : z ∈ c.recorded ++ [x] :=
      (h.pending.append_right [x]).subset (List.mem_of_mem_drop hz)
    exact ⟨z, hmem, hpath, (List.pairwise_append.mp hsplit).2.2 y htake z hz⟩
  · rw [List.mem_append, not_or] at hpending
    obtain ⟨z, hz, hpath, hlt⟩ :=
      hcovered y ((List.mem_append.mp hy).resolve_right hpending.2) happlied hpending.1
    exact ⟨z, List.mem_append_left _ hz, hpath, hlt⟩

theorem mem_released (h : c.Ordered) {due : FieldPath → Bool} :
    x ∈ c.released due ↔ due x.path = true ∧ Latest c.pending x := by
  rw [released, mem_sorted_latest (h.pendingInOrder.sublist List.filter_sublist), Latest, Latest,
    List.mem_filter]
  constructor
  · rintro ⟨⟨hx, hdue⟩, hmax⟩
    refine ⟨hdue, hx, fun y hy hpath => hmax y (List.mem_filter.mpr ⟨hy, ?_⟩) hpath⟩
    rw [hpath]
    exact hdue
  · rintro ⟨hdue, hx, hmax⟩
    exact ⟨⟨hx, hdue⟩, fun y hy hpath => hmax y (List.mem_filter.mp hy).1 hpath⟩

theorem nodup_released (h : c.Ordered) (due : FieldPath → Bool) :
    ((c.released due).map PendingMeterSample.path).Nodup :=
  nodup_sorted_latest (h.pendingInOrder.sublist List.filter_sublist)

theorem Ordered.release (h : c.Ordered) (due : FieldPath → Bool) : (c.release due).Ordered := by
  refine { h with
    pending := List.filter_sublist.trans h.pending, tail := ?_, applied := ?_, counted := ?_ }
  · intro y hy z hz hpath hlt
    obtain ⟨hpending, hkept⟩ := List.mem_filter.mp hy
    refine List.mem_filter.mpr ⟨h.tail y hpending z hz hpath hlt, ?_⟩
    rw [hpath]
    exact hkept
  · intro y hy
    rcases List.mem_append.mp hy with hy | hy
    · obtain ⟨hmem, hgone⟩ := h.applied y hy
      exact ⟨hmem, fun hkept => hgone (List.mem_filter.mp hkept).1⟩
    · obtain ⟨hdue, hpending, -⟩ := (mem_released h).mp hy
      refine ⟨h.mem_recorded hpending, fun hkept => ?_⟩
      have hnot := (List.mem_filter.mp hkept).2
      rw [hdue] at hnot
      cases hnot
  · have hcounted := h.counted
    have hsplit := c.pending.length_eq_length_filter_add fun x => due x.path
    have hle : (c.released due).length ≤ (c.pending.filter fun x => due x.path).length := by
      rw [released, sorted, List.length_insertionSort]
      exact length_latestByPath_le _
    simp only [MeterObservationCoalescer.release, List.length_append]
    omega

theorem Covered.release (h : c.Ordered) (hcovered : c.Covered) (due : FieldPath → Bool) :
    (c.release due).Covered := by
  intro x hx happlied hgone
  rw [MeterObservationCoalescer.release, List.mem_append, not_or] at happlied
  by_cases hpending : x ∈ c.pending
  · have hdue : due x.path = true := by
      by_contra hnot
      refine hgone (List.mem_filter.mpr ⟨hpending, ?_⟩)
      rw [Bool.eq_false_iff.mpr hnot]
      rfl
    have hearlier := happlied.2
    rw [mem_released h, Latest] at hearlier
    push Not at hearlier
    obtain ⟨y, hy, hpath, hlt⟩ := hearlier hdue hpending
    exact ⟨y, h.mem_recorded hy, hpath, hlt⟩
  · exact hcovered x hx happlied.1 hpending

/-- The latest recorded sample of a path is pending or was handed over. -/
theorem Covered.pending_or_applied (hcovered : c.Covered) (hx : Latest c.recorded x) :
    x ∈ c.pending ∨ x ∈ c.applied := by
  by_contra hnot
  rw [not_or] at hnot
  obtain ⟨y, hy, hpath, hlt⟩ := hcovered x hx.1 hnot.2 hnot.1
  exact Nat.not_lt.mpr (hx.2 y hy hpath) hlt

/-- Once it was handed over, no flush releases its path. -/
theorem not_mem_released (h : c.Ordered) (due : FieldPath → Bool) (hx : Latest c.recorded x)
    (happlied : x ∈ c.applied) : x.path ∉ (c.released due).map PendingMeterSample.path := by
  intro hmem
  obtain ⟨y, hy, hpath⟩ := List.mem_map.mp hmem
  have hpending := ((mem_released h).mp hy).2.1
  have hgone := (h.applied x happlied).2
  rcases (hx.2 y (h.mem_recorded hpending) hpath).lt_or_eq with hlt | heq
  · exact hgone (h.tail y hpending x hx.1 hpath.symm hlt)
  · exact hgone (h.inOrder.serial_inj (h.mem_recorded hpending) hx.1 heq ▸ hpending)

end MeterObservationCoalescer

/-! ## Runs -/

namespace MeterSession

open MeterObservationCoalescer

variable {s s' : MeterSession V} {call : MeterCall V}

/-- What the coalescer owes to the samples it recorded. -/
structure Served (s : MeterSession V) : Prop where
  /-- A sample is discarded only when a later one of its path was recorded. -/
  superseded : ∀ x ∈ s.coalescer.recorded, x ∉ s.coalescer.applied → x ∉ s.coalescer.pending →
    ∃ y ∈ s.coalescer.recorded, y.path = x.path ∧ x.serial < y.serial
  counted : s.coalescer.recorded.length = s.coalescer.applied.length +
    s.coalescer.coalescedSampleCount + s.coalescer.droppedSampleCount + s.coalescer.pending.length
  /-- A `flush` now leaves the latest recorded sample of each path handed over.  The store holds it
  if it was recorded since the last `flush`, and unless another producer came after it. -/
  flushed : ∀ s', step s .flush = some s' → ∀ x, Latest s.coalescer.recorded x →
    x ∈ s'.coalescer.applied ∧ (s.flushedAt ≤ x.serial →
      (x ∈ s.coalescer.applied → s.overwritten = false) → Holds s'.store x.observation)

/-- A path that `record` trims keeps a sample. -/
def Spares (s : MeterSession V) : MeterCall V → Prop
  | .record o policy => o.path.family = .meters →
      let paths := s.coalescer.pending.map PendingMeterSample.path ++ [o.path]
      ∀ p ∈ paths.take (s.coalescer.overflow policy), p ∈ paths.drop (s.coalescer.overflow policy)
  | _ => True

/-- The invariant of a run whose records spare every path. -/
structure Ok (s : MeterSession V) : Prop where
  ordered : s.coalescer.Ordered
  covered : s.coalescer.Covered
  held : s.overwritten = false → ∀ x, Latest s.coalescer.recorded x → s.flushedAt ≤ x.serial →
    x ∈ s.coalescer.applied → Holds s.store x.observation

omit [PyValue V] [DecidableEq V] in
theorem Ok.initial (store : Store V) : Ok ({ store } : MeterSession V) where
  ordered := .initial
  covered _ hx := by cases hx
  held _ x hx := by cases hx.1

theorem step_flush (s : MeterSession V) : step s .flush = some {
    coalescer := s.coalescer.release fun _ => true
    store := handOver (s.coalescer.released fun _ => true) s.store
    flushedAt := s.coalescer.recorded.length } := by
  have hflush := s.coalescer.flush_eq s.store
  rw [Prod.ext_iff] at hflush
  rw [step]
  simp only
  rw [hflush.1, hflush.2]

theorem step_flushDue (s : MeterSession V) (now : Time) :
    ∃ due, step s (.flushDue now) = some { s with
    coalescer := s.coalescer.release due
    store := handOver (s.coalescer.released due) s.store } := by
  have hflush := s.coalescer.flushDue_eq s.store now
  rw [Prod.ext_iff] at hflush
  refine ⟨fun path => path ∈ s.coalescer.duePaths now, ?_⟩
  rw [step]
  simp only
  rw [hflush.1, hflush.2]

theorem ordered_step (h : s.coalescer.Ordered) (hstep : step s call = some s') :
    s'.coalescer.Ordered := by
  cases call with
  | record o policy =>
      rw [step] at hstep
      split at hstep
      · cases hstep
        exact h
      · rename_i hrecord
        cases hstep
        exact h.record hrecord
  | flush =>
      rw [step_flush] at hstep
      cases hstep
      exact h.release fun _ => true
  | flushDue now =>
      obtain ⟨due, hdue⟩ := s.step_flushDue now
      rw [hdue] at hstep
      cases hstep
      exact h.release due
  | elsewhere op =>
      cases hstep
      exact h

omit [DecidableEq V] in
/-- A flush leaves in the store what it hands over, and what it does not touch. -/
theorem Ok.holds (h : s.Ok) (due : FieldPath → Bool) {x : PendingMeterSample V}
    (hx : Latest s.coalescer.recorded x) (hserial : s.flushedAt ≤ x.serial)
    (hquiet : x ∈ s.coalescer.applied → s.overwritten = false)
    (happlied : x ∈ (s.coalescer.release due).applied) :
    Holds (handOver (s.coalescer.released due) s.store) x.observation := by
  rcases List.mem_append.mp happlied with hbefore | hnow
  · exact (h.held (hquiet hbefore) x hx hserial hbefore).handOver
      (not_mem_released h.ordered due hx hbefore)
  · exact holds_handOver (nodup_released h.ordered due) hnow s.store

theorem Ok.step (h : s.Ok) (hspares : Spares s call) (hstep : MeterSession.step s call = some s') :
    s'.Ok := by
  have hordered := ordered_step h.ordered hstep
  cases call with
  | record o policy =>
      rw [MeterSession.step] at hstep
      split at hstep
      · cases hstep
        exact h
      · rename_i c hrecord
        cases hstep
        refine ⟨hordered, h.covered.record h.ordered hrecord
          (hspares (record_isOk.mp ⟨c, hrecord⟩)), ?_⟩
        obtain ⟨new, -, -, rfl⟩ := record_eq hrecord
        intro hquiet x hx hserial happlied
        have hbefore := (h.ordered.applied x happlied).1
        exact h.held hquiet x ⟨hbefore, fun y hy => hx.2 y
          (List.mem_append_left _ hy)⟩ hserial happlied
  | flush =>
      rw [step_flush] at hstep
      cases hstep
      refine ⟨hordered, h.covered.release h.ordered _, fun _ x hx hserial => ?_⟩
      exact absurd (h.ordered.serials x hx.1) (Nat.not_lt.mpr hserial)
  | flushDue now =>
      obtain ⟨due, hdue⟩ := s.step_flushDue now
      rw [hdue] at hstep
      cases hstep
      exact ⟨hordered, h.covered.release h.ordered due, fun hquiet x hx hserial happlied =>
        h.holds due hx hserial (fun _ => hquiet) happlied⟩
  | elsewhere op =>
      cases hstep
      exact ⟨h.ordered, h.covered, fun hquiet => by cases hquiet⟩

theorem Ok.served (h : s.Ok) : Served s where
  superseded := h.covered
  counted := h.ordered.counted
  flushed s' hstep x hx := by
    rw [step_flush] at hstep
    cases hstep
    have happlied : x ∈ (s.coalescer.release fun _ => true).applied := by
      rcases h.covered.pending_or_applied hx with hpending | happlied
      · refine List.mem_append_right _ ((mem_released h.ordered).mpr
          ⟨rfl, hpending, fun y hy => ?_⟩)
        exact hx.2 y (h.ordered.mem_recorded hy)
      · exact List.mem_append_left _ happlied
    exact ⟨happlied, fun hserial hquiet => h.holds _ hx hserial hquiet happlied⟩

theorem isToken_main : IsToken "main" := by decide

/-- A reading of a transmit meter of the main receiver. -/
def reading (name : Token) : Observation (Option String) where
  path := ⟨.receiver, .meters, name, some ⟨"main", isToken_main⟩, none, by simp [pathError]⟩
  value := some "7"
  source := ⟨"poll_response", "radio", none, none, none, none, none⟩
  timestampMonotonic := 0
  quality := []
  maxAge := none
  providerGeneration := some 0
  clockDomain := none
  maxAge_nonneg := Observation.noAge_nonneg
  clockDomain_nonempty := Observation.noClockDomain_nonempty

end MeterSession

end Rigplane.Acquisition
