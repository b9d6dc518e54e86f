import Rigplane.Acquisition.SchedulerRuns

/-!
# Poll clocks

The clock that a settlement sets for a key stays as it is until the key is settled again, and
`due_requests` does not ask for the key before it, with one exception: a `due_requests` that knows
the selected receiver drops every clock that is slower than the undemoted cadence of its group,
whether a demotion made it slow or the idle decay of its policy.
-/

namespace Rigplane.Acquisition

open StatePipeline AcquisitionScheduler

namespace Scheduler

variable {A : Type} [DecidableEq A] {c : SchedulerConfig A} {p : RadioAcquisitionProfile A}
  {s s' : Scheduler A} {key : AcquisitionRequestKey A} {state : CadenceState} {call : Call A}
  {calls : List (Call A)} {paths : List FieldPath}

/-! ## Operations that set no clock -/

theorem queueGroup_clocks (s : Scheduler A) (ask : Ask) (requireFreshDispatch : Bool)
    (key : AcquisitionRequestKey A) (paths : List FieldPath) :
    (s.queueGroup p ask requireFreshDispatch key paths).2.cadenceByKey = s.cadenceByKey := by
  unfold queueGroup
  split
  · simp only
    split
    · unfold reissue
      simp only
      split
      · rfl
      · split <;> rfl
    · rfl
  · rfl

theorem queueGrouped_clocks (ask : Ask) (requireFreshDispatch : Bool) (groups : List (PollGroup A))
    (s : Scheduler A) :
    (queueGrouped p ask requireFreshDispatch groups s).2.cadenceByKey = s.cadenceByKey := by
  induction groups generalizing s with
  | nil => rfl
  | cons group rest ih =>
      obtain ⟨key, paths⟩ := group
      exact (ih _).trans (s.queueGroup_clocks ask requireFreshDispatch key paths)

theorem queue_clocks {ask : Ask} {requireFreshDispatch : Bool}
    {requests : List (AcquisitionRequest A)}
    (h : s.queue p ask requireFreshDispatch paths = .ok (requests, s')) :
    s'.cadenceByKey = s.cadenceByKey := by
  rw [queue] at h
  cases hgroups : requestGroups p paths with
  | error text =>
      rw [hgroups] at h
      cases h
  | ok groups =>
      rw [hgroups] at h
      have hqueued : (queueGrouped p ask requireFreshDispatch groups s).2 = s' :=
        congrArg Prod.snd (Except.ok.inj h)
      rw [← hqueued]
      exact queueGrouped_clocks ask requireFreshDispatch groups s

theorem pausedGroups_clocks {ask : Ask} {requireFreshDispatch : Bool} {groups : List (PollGroup A)}
    {queued : List (AcquisitionRequest A)} {deferred : Bool}
    (h : pausedGroups p ask requireFreshDispatch groups s = .ok (queued, deferred, s')) :
    s'.cadenceByKey = s.cadenceByKey := by
  induction groups generalizing s queued deferred with
  | nil =>
      cases h
      rfl
  | cons group rest ih =>
      obtain ⟨key, paths⟩ := group
      rw [pausedGroups] at h
      split at h
      · cases hloop : pausedGroups p ask requireFreshDispatch rest
            (s.defer key (s.deferredItem ask paths)) with
        | error text =>
            rw [hloop] at h
            cases h
        | ok result =>
            obtain ⟨queued', deferred', s''⟩ := result
            rw [hloop] at h
            cases h
            have hrest := ih hloop
            exact hrest
      · cases hqueue : s.queue p ask requireFreshDispatch paths with
        | error text =>
            rw [hqueue] at h
            cases h
        | ok result =>
            obtain ⟨requests, m⟩ := result
            rw [hqueue] at h
            simp only at h
            cases hloop : pausedGroups p ask requireFreshDispatch rest m with
            | error text =>
                rw [hloop] at h
                cases h
            | ok result =>
                obtain ⟨queued', deferred', s''⟩ := result
                rw [hloop] at h
                cases h
                exact (ih hloop).trans (queue_clocks hqueue)

theorem ensureAskable_clocks {ask : Ask} {requireFreshDispatch : Bool}
    {result : EnsureFreshResult A}
    (h : s.ensureAskable p ask requireFreshDispatch paths = .ok (result, s')) :
    s'.cadenceByKey = s.cadenceByKey := by
  have hunpaused {m : Scheduler A}
      (h : ((m.queue p { ask with externalCatOwner := none } requireFreshDispatch paths).map
        fun queued => (queued.2.queuedResult queued.1, queued.2)) = .ok (result, s')) :
      s'.cadenceByKey = m.cadenceByKey := by
    cases hqueue : m.queue p { ask with externalCatOwner := none } requireFreshDispatch paths with
    | error text =>
        rw [hqueue] at h
        cases h
    | ok queued =>
        rw [hqueue] at h
        cases h
        exact queue_clocks hqueue
  rw [ensureAskable] at h
  simp only at h
  split at h
  · cases hgroups : requestGroups p paths with
    | error text =>
        rw [hgroups] at h
        cases h
    | ok groups =>
        rw [hgroups] at h
        simp only at h
        cases hloop : pausedGroups p ask requireFreshDispatch groups s with
        | error text =>
            rw [hloop] at h
            cases h
        | ok looped =>
            obtain ⟨queued, deferred, m⟩ := looped
            rw [hloop] at h
            have hm := pausedGroups_clocks hloop
            cases queued with
            | cons request requests =>
                cases h
                exact hm
            | nil =>
                cases deferred with
                | true =>
                    cases h
                    exact hm
                | false => exact (hunpaused h).trans hm
  · exact hunpaused h

theorem ensureFresh_clocks {call : EnsureFreshCall} {result : EnsureFreshResult A}
    (h : s.ensureFresh p call = .ok (result, s')) : s'.cadenceByKey = s.cadenceByKey := by
  rw [ensureFresh] at h
  split at h
  · cases h
  split at h
  · cases h
  simp only at h
  split at h
  · cases h
    rfl
  · split at h
    · cases h
      rfl
    · have hasks := ensureAskable_clocks h
      exact hasks

theorem queueDue_clocks (now : Time) (groups : List (PollGroup A)) (s : Scheduler A) :
    (queueDue p now groups s).2.cadenceByKey = s.cadenceByKey := by
  induction groups generalizing s with
  | nil => rfl
  | cons group rest ih =>
      obtain ⟨key, paths⟩ := group
      rw [queueDue]
      simp only
      split
      · exact ih _
      · exact (ih _).trans (s.queueGroup_clocks _ _ key paths)

theorem pauseExternalCat_clocks (s : Scheduler A) (owner : Option String) (reason : String) :
    (s.pauseExternalCat p owner reason).cadenceByKey = s.cadenceByKey := by
  have hloop (items : List (AcquisitionRequestKey A × AcquisitionRequest A)) (m : Scheduler A) :
      (items.foldl (pauseRequest p owner) m).cadenceByKey = m.cadenceByKey := by
    induction items generalizing m with
    | nil => rfl
    | cons item rest ih =>
        refine (ih _).trans ?_
        rw [pauseRequest]
        split <;> rfl
  exact hloop _ _

theorem resumeExternalCat_clocks (s : Scheduler A) :
    (s.resumeExternalCat p).2.cadenceByKey = s.cadenceByKey := by
  have hloop (owner : Option String) (items : List PendingEnsureFresh) (m : Scheduler A) :
      (resumeItems p owner items m).2.cadenceByKey = m.cadenceByKey := by
    induction items generalizing m with
    | nil => rfl
    | cons item rest ih =>
        rw [resumeItems]
        split
        · rfl
        · rename_i requests m' hqueue
          exact (ih m').trans (queue_clocks hqueue)
  exact hloop _ _ _

omit [DecidableEq A] in
theorem isDispatchable_clocks (s : Scheduler A) (request : AcquisitionRequest A) :
    (s.isDispatchable request).2.cadenceByKey = s.cadenceByKey := by
  rw [isDispatchable]
  split <;> rfl

omit [DecidableEq A] in
theorem dispatchableAmong_clocks (s : Scheduler A) (requests : List (AcquisitionRequest A)) :
    (s.dispatchableAmong requests).2.cadenceByKey = s.cadenceByKey := by
  induction requests generalizing s with
  | nil => rfl
  | cons request rest ih => exact (ih _).trans (s.isDispatchable_clocks request)

/-! ## Settlements -/

theorem cadenceStateFor_clock (s : Scheduler A) (key' : AcquisitionRequestKey A)
    (declared now : Time)
    (hstate : s.cadenceByKey.get? key = some state) :
    (s.cadenceStateFor c key' declared now).2.cadenceByKey.get? key = some state := by
  rw [cadenceStateFor]
  split
  · exact hstate
  · rename_i hnone
    refine (Dict.get?_set_ne _ _ fun hkey => ?_).trans hstate
    rw [← hkey, hstate] at hnone
    cases hnone

theorem diagnostics_clock (hstate : s.cadenceByKey.get? key = some state) :
    (s.diagnostics c).cadenceByKey.get? key = some state := by
  have hloop (now : Time) (groups : List (PollGroup A)) (m : Scheduler A)
      (hm : m.cadenceByKey.get? key = some state) :
      (groups.foldl (startClock c now) m).cadenceByKey.get? key = some state := by
    induction groups generalizing m with
    | nil => exact hm
    | cons group rest ih =>
        refine ih _ ?_
        rw [startClock]
        split
        · exact hm
        · exact m.cadenceStateFor_clock group.1 _ now hm
  refine hloop _ _ _ ?_
  have hread := s.dispatchableAmong_clocks s.requestsByKey.values
  exact hread ▸ hstate

theorem settleCadence_clock (s : Scheduler A) {key' : AcquisitionRequestKey A} (hne : key ≠ key')
    (policy : AcquisitionPolicy A) (declared now : Time) (semanticChanged : Bool)
    (hstate : s.cadenceByKey.get? key = some state) :
    (s.settleCadence c key' policy declared now semanticChanged).cadenceByKey.get? key =
      some state :=
  (Dict.get?_set_ne _ _ hne).trans (s.cadenceStateFor_clock key' declared now hstate)

theorem resultCadence_clock (s : Scheduler A) {key' : AcquisitionRequestKey A} (hne : key ≠ key')
    (request : AcquisitionRequest A) (changed : List FieldPath) (now : Time)
    (matchedRequest left : Bool) (hstate : s.cadenceByKey.get? key = some state) :
    (s.resultCadence c key' request changed now matchedRequest left).cadenceByKey.get? key =
      some state := by
  rw [resultCadence]
  split
  · split <;> exact hstate
  · rename_i declared _
    have hsettle {m : Scheduler A} (hm : m.cadenceByKey.get? key = some state)
        (whole semanticChanged : Bool) : (if whole = true then
          m.settleCadence c key' request.policy declared now semanticChanged
            else m).cadenceByKey.get? key = some state := by
      split
      · exact m.settleCadence_clock hne _ _ _ _ hm
      · exact hm
    simp only
    split
    · exact hstate
    · split
      · exact hsettle (m := { s with pendingCadenceByKey := s.pendingCadenceByKey.erase key' })
          hstate _ _
      · exact hsettle (m := s) hstate _ _

theorem dropPaths_clocks (s : Scheduler A) (key' : AcquisitionRequestKey A)
    (existing : AcquisitionRequest A) (gone : List FieldPath) :
    (s.dropPaths c key' existing gone).cadenceByKey = s.cadenceByKey := by
  rw [dropPaths]
  split
  · rfl
  · split <;> rfl

theorem recordAcquisitionResult_clock {request : AcquisitionRequest A} (changed : List FieldPath)
    (now : Time) (hne : keyOf request ≠ some key) (hstate : s.cadenceByKey.get? key = some state) :
    ((s.recordAcquisitionResult c request changed now).getD s).cadenceByKey.get? key =
      some state := by
  rw [recordAcquisitionResult]
  cases hkey : keyOf request with
  | none => exact hstate
  | some key' =>
      have hne' : key ≠ key' := by
        rintro rfl
        exact hne hkey
      rw [Option.map_some, Option.getD_some]
      split
      · exact resultCadence_clock _ hne' _ _ _ _ _ hstate
      · rename_i existing _
        refine resultCadence_clock _ hne' _ _ _ _ _ ?_
        have hdropped := s.dropPaths_clocks (c := c) key' existing request.paths
        exact hdropped ▸ hstate

theorem failCadence_clock (s : Scheduler A) {key' : AcquisitionRequestKey A} (hne : key ≠ key')
    (policy : AcquisitionPolicy A) (timedOut : Bool) (now : Option Time)
    (hstate : s.cadenceByKey.get? key = some state) :
    (s.failCadence c key' policy timedOut now).cadenceByKey.get? key = some state := by
  rw [failCadence]
  split
  · exact hstate
  · have htimed : (s.timestamp now).2.cadenceByKey.get? key = some state := by
      cases now <;> exact hstate
    exact (Dict.get?_set_ne _ _ hne).trans (cadenceStateFor_clock _ key' _ _ htimed)

theorem recordAcquisitionFailure_clock {call : FailureCall A}
    (hne : call.Void ∨ keyOf call.request ≠ some key)
    (hstate : s.cadenceByKey.get? key = some state) :
    (s.recordAcquisitionFailure c call).cadenceByKey.get? key = some state := by
  rw [recordAcquisitionFailure]
  split
  · exact hstate
  · rename_i hvoid
    split
    · exact hstate
    · rename_i key' hkey
      have hne' : key ≠ key' := by
        rintro rfl
        exact hne.elim hvoid fun hne => hne hkey
      refine failCadence_clock _ hne' _ _ _ ?_
      rw [dropFailed]
      split
      · exact hstate
      · simp only
        split
        · rw [dropPaths_clocks]
          exact hstate
        · change (dropPaths c _ key' _ call.failed).cadenceByKey.get? key = some state
          rw [dropPaths_clocks]
          exact hstate

/-- The key of a pending request is the key of what a refusal says about it. -/
theorem keyOf_refused (hs : Sound p s) {request : AcquisitionRequest A}
    (hfound : s.requestsByKey.get? key = some request) {refusedOf : List FieldPath}
    (hsub : refusedOf ⊆ request.paths) (hne : refusedOf ≠ []) :
    keyOf { request with paths := refusedOf } = some key := by
  have hplaced := hs.placed key request hfound
  exact Grouped.keyOf (hplaced.grouped.subset hne hsub) hplaced.method hplaced.policy

/-- A refusal of no path that the key asks for. -/
theorem recordReadRefusal_clock (hs : Sound p s) {refused : List FieldPath} (now : Time)
    (hkey : ∀ request ∈ s.requestsByKey.get? key, ∀ path ∈ request.paths, path ∉ refused)
    (hstate : s.cadenceByKey.get? key = some state) :
    (s.recordReadRefusal c refused now).cadenceByKey.get? key = some state := by
  have hquiet : Quiet s (refused.dedup.foldl (refusePath c now) s) :=
    foldl_quiet (f := refusePath c now) (fun _ _ => ⟨rfl, rfl, rfl, rfl, rfl⟩) _ _
  have hrefused (l : List FieldPath) (m : Scheduler A) :
      (l.foldl (refusePath c now) m).cadenceByKey = m.cadenceByKey := by
    induction l generalizing m with
    | nil => rfl
    | cons path rest ih => exact ih _
  have hloop (requests : List (AcquisitionRequest A)) (m : Scheduler A)
      (hrequests : ∀ request ∈ requests, ∃ key', s.requestsByKey.get? key' = some request)
      (hm : m.cadenceByKey.get? key = some state) :
      (requests.foldl (refuseRequest c refused now) m).cadenceByKey.get? key = some state := by
    induction requests generalizing m with
    | nil => exact hm
    | cons request rest ih =>
        refine ih _ (fun other hother => hrequests other (List.mem_cons_of_mem _ hother)) ?_
        obtain ⟨key', hfound⟩ := hrequests request List.mem_cons_self
        rw [refuseRequest]
        split
        · rename_i hsome
          refine recordAcquisitionFailure_clock (.inr ?_) hm
          rw [keyOf_refused hs hfound (List.filter_subset_self _) hsome.1]
          intro hsame
          cases hsame
          obtain ⟨path, hpath⟩ := List.exists_mem_of_ne_nil _ hsome.1
          obtain ⟨hmem, hin⟩ := List.mem_filter.mp hpath
          exact hkey request hfound path hmem (of_decide_eq_true hin)
        · exact hm
  refine hloop _ _ (fun request hrequest => ?_) (by rw [hrefused]; exact hstate)
  have hmem := (List.perm_insertionSort _ _).mem_iff.mp hrequest
  rw [hquiet.requests] at hmem
  exact Dict.mem_values.mp hmem

/-! ## `due_requests` -/

/-- The call drops a clock of the key that runs as `state` says: it knows the selected receiver, the
group is not demoted, and the clock is slower than the cadence that the group has then. -/
structure DueCall.Drops (c : SchedulerConfig A) (s : Scheduler A) (key : AcquisitionRequestKey A)
    (state : CadenceState) (call : DueCall) : Prop where
  observed : call.observedActive ≠ none
  undemoted : (s.noteDueCall c call).demotedQueueEnvelope.get? key = none
  slow : (s.noteDueCall c call).fittedCadenceSeconds c key (key.policy.cadenceSeconds.getD 0) +
    cadenceSlack < state.currentCadenceSeconds

theorem noteDueCall_clock (hstate : s.cadenceByKey.get? key = some state) (call : DueCall) :
    (call.Drops c s key state → (s.noteDueCall c call).cadenceByKey.get? key = none) ∧
      (¬ call.Drops c s key state → (s.noteDueCall c call).cadenceByKey.get? key = some state) := by
  cases hobserved : call.observedActive with
  | none =>
      have hnoted : (s.noteDueCall c call).cadenceByKey.get? key = some state := by
        rw [noteDueCall, hobserved]
        exact hstate
      exact ⟨fun hdrops => absurd hobserved hdrops.observed, fun _ => hnoted⟩
  | some observed =>
      have hnoted (state' : CadenceState) :
          (s.noteDueCall c call).cadenceByKey.get? key = some state' ↔
            s.cadenceByKey.get? key = some state' ∧
              (((s.noteDueCall c call).demotedQueueEnvelope.get? key).isSome = true ∨
                state'.currentCadenceSeconds ≤ (s.noteDueCall c call).fittedCadenceSeconds c key
                  (key.policy.cadenceSeconds.getD 0) + cadenceSlack) := by
        rw [noteDueCall, hobserved]
        simp only
        refine Dict.get?_filter.trans ?_
        rw [Bool.or_eq_true, decide_eq_true_eq]
        exact Iff.rfl
      constructor
      · intro hdrops
        rw [Option.eq_none_iff_forall_ne_some]
        intro state' hget
        obtain ⟨hsame, hkept⟩ := (hnoted state').mp hget
        rw [hstate] at hsame
        cases hsame
        rcases hkept with hdemoted | hfast
        · rw [hdrops.undemoted] at hdemoted
          cases hdemoted
        · exact absurd hfast (not_le.mpr hdrops.slow)
      · intro hkept
        refine (hnoted state).mpr ⟨hstate, ?_⟩
        by_cases hdemoted : (s.noteDueCall c call).demotedQueueEnvelope.get? key = none
        · refine .inr (not_lt.mp fun hslow => hkept ⟨?_, hdemoted, hslow⟩)
          rw [hobserved]
          exact Option.some_ne_none observed
        · exact .inl (Option.isSome_iff_ne_none.mpr hdemoted)

/-- The loop starts clocks, and asks for a group only when its clock is due. -/
theorem duePollGroups_clock (now : Time) (groups : List (PollGroup A))
    (hstate : s.cadenceByKey.get? key = some state) :
    (duePollGroups c now groups s).2.cadenceByKey.get? key = some state ∧
      (now < state.nextDueMonotonic →
        ∀ group ∈ (duePollGroups c now groups s).1, group.1 ≠ key) := by
  induction groups generalizing s with
  | nil => exact ⟨hstate, fun _ _ hgroup => by cases hgroup⟩
  | cons group rest ih =>
      obtain ⟨key', paths⟩ := group
      rw [duePollGroups]
      simp only
      cases hpolicy : key'.policy.cadenceSeconds with
      | none => exact ih hstate
      | some cadence =>
        simp only
        split
        · exact ih hstate
        · have hkept := s.cadenceStateFor_clock (c := c) key' cadence now hstate
          obtain ⟨hclock, hearly⟩ := ih hkept
          refine ⟨hclock, fun hlt due hdue => ?_⟩
          split at hdue
          · rename_i hnow
            rcases List.mem_cons.mp hdue with rfl | hdue
            · rintro rfl
              rw [cadenceStateFor, hstate] at hnow
              exact absurd hnow (not_le.mpr hlt)
            · exact hearly hlt due hdue
          · exact hearly hlt due hdue

/-- What a group is queued as stands under its key. -/
theorem queueGroup_keyOf (hs : Sound p s) (hgrouped : Grouped p key paths) (ask : Ask)
    (requireFreshDispatch : Bool) :
    keyOf (s.queueGroup p ask requireFreshDispatch key paths).1 = some key := by
  unfold queueGroup
  cases hfound : s.requestsByKey.get? key with
  | some existing =>
      have hplaced : Placed p key (AcquisitionScheduler.coalesce p existing ask paths) :=
        (hs.placed key existing hfound).coalesce hgrouped
      simp only
      split
      · exact Grouped.keyOf hplaced.grouped hplaced.method hplaced.policy
      · exact hplaced.grouped.keyOf hplaced.method hplaced.policy
  | none =>
      have hplaced : Placed p key (s.toAcquisitionScheduler.newRequest p ask paths key).1 :=
        ⟨hgrouped, rfl, rfl⟩
      exact hplaced.grouped.keyOf hplaced.method hplaced.policy

omit [DecidableEq A] in
theorem mustDeferForExternalCat_sorted (p : RadioAcquisitionProfile A) (paths : List FieldPath) :
    AcquisitionScheduler.mustDeferForExternalCat p (sortedPaths paths) =
      AcquisitionScheduler.mustDeferForExternalCat p paths := by
  have hperm : (sortedPaths paths).Perm paths := List.perm_insertionSort _ _
  simp only [AcquisitionScheduler.mustDeferForExternalCat, hperm.all_eq]
  exact hperm.any_eq

/-- No external CAT owner holds the paths back. -/
def Released (p : RadioAcquisitionProfile A) (s : Scheduler A) (paths : List FieldPath) : Prop :=
  s.externalCatPaused = true → AcquisitionScheduler.mustDeferForExternalCat p paths = false

omit [DecidableEq A] in
theorem Released.same (h : s.Released p paths)
    (hpaused : s'.externalCatPaused = s.externalCatPaused) : s'.Released p paths :=
  fun hpaused' => h (hpaused.symm.trans hpaused')

omit [DecidableEq A] in
theorem Released.sorted (h : s.Released p paths) : s.Released p (sortedPaths paths) :=
  fun hpaused => (mustDeferForExternalCat_sorted p paths).trans (h hpaused)

theorem Released.moves {gone : List FieldPath} (h : s.Released p paths)
    (hmoves : Moves p gone s s') : s'.Released p paths :=
  h.same hmoves.paused

theorem queueDue_keyOf (now : Time) {groups : List (PollGroup A)} (hs : Sound p s)
    (hgroups : ∀ group ∈ groups, Grouped p group.1 group.2) :
    (∀ request ∈ (queueDue p now groups s).1, ∃ group ∈ groups, keyOf request = some group.1) ∧
      ∀ group ∈ groups, s.Released p group.2 →
        ∃ request ∈ (queueDue p now groups s).1, keyOf request = some group.1 := by
  induction groups generalizing s with
  | nil => exact ⟨fun _ hrequest => (by cases hrequest), fun _ hgroup => (by cases hgroup)⟩
  | cons group rest ih =>
      obtain ⟨key, paths⟩ := group
      obtain ⟨hgroup, hrest⟩ := List.forall_mem_cons.mp hgroups
      rw [queueDue]
      simp only
      split
      · rename_i hheld
        have hasks := defer_asks hs hheld.1 hgroup (s.dueAsk key now)
        obtain ⟨hkeys, hall⟩ := ih (hs.moves hasks.moves) hrest
        refine ⟨fun request hrequest => ?_, fun group hmem hreleased => ?_⟩
        · obtain ⟨group, hmem, hkey⟩ := hkeys request hrequest
          exact ⟨group, List.mem_cons_of_mem _ hmem, hkey⟩
        · rcases List.mem_cons.mp hmem with rfl | hmem
          · exact absurd hheld.2 (by simp [hreleased hheld.1])
          · exact hall group hmem (hreleased.moves hasks.moves)
      · have hasks := queueGroup_asks hs hgroup (s.dueAsk key now) false
        have hkey := queueGroup_keyOf hs hgroup (s.dueAsk key now) false
        obtain ⟨hkeys, hall⟩ := ih (hs.moves hasks.moves) hrest
        refine ⟨fun request hrequest => ?_, fun group hmem hreleased => ?_⟩
        · rcases List.mem_cons.mp hrequest with rfl | hrequest
          · exact ⟨(key, paths), List.mem_cons_self, hkey⟩
          · obtain ⟨group, hmem, hother⟩ := hkeys request hrequest
            exact ⟨group, List.mem_cons_of_mem _ hmem, hother⟩
        · rcases List.mem_cons.mp hmem with rfl | hmem
          · exact ⟨_, List.mem_cons_self, hkey⟩
          · obtain ⟨request, hrequest, hother⟩ :=
              hall group hmem (hreleased.moves hasks.moves)
            exact ⟨request, List.mem_cons_of_mem _ hrequest, hother⟩

/-- The time of a call of `due_requests`. -/
def dueTime (c : SchedulerConfig A) (s : Scheduler A) (call : DueCall) : Time :=
  ((s.noteDueCall c call).timestamp call.now).1

theorem dueRequests_clock (hs : Sound c.profile s) (hstate : s.cadenceByKey.get? key = some state)
    {call : DueCall} (hkept : ¬ call.Drops c s key state) :
    (s.dueRequests c call).2.cadenceByKey.get? key = some state ∧
      (s.dueTime c call < state.nextDueMonotonic →
        ∀ request ∈ (s.dueRequests c call).1, keyOf request ≠ some key) := by
  have hnoted := (noteDueCall_clock (c := c) hstate call).2 hkept
  have htimed : ((s.noteDueCall c call).timestamp call.now).2.cadenceByKey.get? key =
      some state := by
    cases call.now <;> exact hnoted
  obtain ⟨hclock, hearly⟩ := duePollGroups_clock (c := c) (s.dueTime c call)
    (pollCadenceGroups c.profile) htimed
  have hquiet := (s.noteDueCall_quiet (c := c) call).trans (timestamp_quiet _ call.now)
  obtain ⟨hloop, hdue⟩ := duePollGroups_spec (c := c) (s.dueTime c call)
    (fun _ => pollCadenceGroups_grouped) ((s.noteDueCall c call).timestamp call.now).2
  have hkeys := (queueDue_keyOf (s.dueTime c call) (hs.quiet (hquiet.trans hloop)) hdue).1
  constructor
  · rw [dueRequests]
    simp only
    rw [queueDue_clocks]
    exact hclock
  · intro hlt request hrequest hkey
    obtain ⟨group, hgroup, hother⟩ := hkeys request hrequest
    rw [hkey] at hother
    exact hearly hlt group hgroup (Option.some.inj hother).symm

/-! ## Runs -/

/-- The call neither settles the key nor drops its clock. -/
def LeavesClock (c : SchedulerConfig A) (s : Scheduler A) (key : AcquisitionRequestKey A)
    (state : CadenceState) : Call A → Prop
  | .dueRequests call => ¬ call.Drops c s key state
  | .recordAcquisitionResult request _ _ => keyOf request ≠ some key
  | .recordAcquisitionFailure call => call.Void ∨ keyOf call.request ≠ some key
  | .recordReadRefusal paths _ =>
      ∀ request ∈ s.requestsByKey.get? key, ∀ path ∈ request.paths, path ∉ paths
  | _ => True

theorem run_clock (hs : Sound c.profile s) (hstate : s.cadenceByKey.get? key = some state)
    (call : Call A) (hcall : LeavesClock c s key state call) :
    (s.run c call).cadenceByKey.get? key = some state := by
  cases call with
  | ensureFresh call =>
      rw [run]
      split
      · rename_i result s' hresult
        rw [ensureFresh_clocks hresult]
        exact hstate
      · exact hstate
  | dueRequests call => exact (dueRequests_clock hs hstate hcall).1
  | tryClaim request claimant generation =>
      rw [run, tryClaim]
      split
      · exact hstate
      · simp only
        split
        · exact hstate
        · split
          · exact hstate
          · split <;> exact hstate
  | releaseClaim requestId claimant generation =>
      rw [run, releaseClaim]
      split
      · exact hstate
      · split <;> exact hstate
  | noteExecuteStarted requestId now => exact hstate
  | noteExecuteFinished requestId => exact hstate
  | recordDispatch requestId paths now => exact hstate
  | noteTxActive txActive => exact hstate
  | noteAvailability availability => exact hstate
  | dispatchableRequests =>
      rw [run, dispatchableRequests, dispatchableAmong_clocks]
      exact hstate
  | isDispatchable request =>
      rw [run, isDispatchable_clocks]
      exact hstate
  | diagnostics => exact diagnostics_clock hstate
  | recordAcquisitionResult request changed now =>
      exact recordAcquisitionResult_clock changed now hcall hstate
  | recordAcquisitionFailure call => exact recordAcquisitionFailure_clock hcall hstate
  | recordReadRefusal paths now => exact recordReadRefusal_clock hs now hcall hstate
  | endRefusals paths => exact hstate
  | pauseExternalCat owner reason =>
      rw [run, pauseExternalCat_clocks]
      exact hstate
  | resumeExternalCat =>
      rw [run, resumeExternalCat_clocks]
      exact hstate
  | primeCursor cursor => exact hstate

/-- Every call of the run, where it is made, neither settles the key nor drops its clock. -/
def LeaveClock (c : SchedulerConfig A) (s : Scheduler A) (key : AcquisitionRequestKey A)
    (state : CadenceState) (calls : List (Call A)) : Prop :=
  ∀ pre call post, calls = pre ++ call :: post → LeavesClock c (s.runs c pre) key state call

theorem runs_clock (hs : Sound c.profile s) (hstate : s.cadenceByKey.get? key = some state)
    (hcalls : LeaveClock c s key state calls) :
    (s.runs c calls).cadenceByKey.get? key = some state := by
  induction calls generalizing s with
  | nil => exact hstate
  | cons call rest ih =>
      have hran := run_clock hs hstate call (hcalls [] call rest rfl)
      exact ih (hs.ran (Scheduler.ran hs call)) hran fun pre other post hrest =>
        hcalls (call :: pre) other post (congrArg (call :: ·) hrest)

/-- A clock runs on, whatever is called, until its key is settled or a `due_requests` that knows the
selected receiver drops it; and no `due_requests` that leaves it there asks for the key before the
time that it gives. -/
theorem clock_runs (c : SchedulerConfig A) (clock : FreshnessClock) (before calls : List (Call A))
    {key : AcquisitionRequestKey A} {state : CadenceState}
    (hstate : ((init clock).runs c before).cadenceByKey.get? key = some state)
    (hcalls : LeaveClock c ((init clock).runs c before) key state calls) :
    let s := ((init clock).runs c before).runs c calls
    s.cadenceByKey.get? key = some state ∧ ∀ call : DueCall, ¬ call.Drops c s key state →
      s.dueTime c call < state.nextDueMonotonic →
        ∀ request ∈ (s.dueRequests c call).1, keyOf request ≠ some key := by
  have hs := (sound_init c.profile clock).runs before
  have hclock := runs_clock hs hstate hcalls
  exact ⟨hclock, fun call hkept => (dueRequests_clock (hs.runs calls) hclock hkept).2⟩

/-! A meter that is polled every five seconds, and less often while it does not change. -/

theorem decay_ge : (1 : ℚ) ≤ 2 := by norm_num

theorem decay_widens : true = true → (1 : ℚ) < 2 := by norm_num

theorem decay_uncapped : ∀ t ∈ (none : Option Time), 0 < t := by simp

theorem polled_bare : FieldAvailability.supported ≠ .supported →
    false = false ∧ true = false ∧ false = false := by simp

/-- The defaults of `AcquisitionPolicy`. -/
def plainPolicy : AcquisitionPolicy Unit := menuProfile.defaultPolicy

def decayPolicy : AcquisitionPolicy Unit := { plainPolicy with
  adaptiveDecay := {
    enabled := true
    idleMultiplier := 2
    idleMultiplier_ge := decay_ge
    enabled_widens := decay_widens
    maxCadence_pos := decay_uncapped } }

def decayCapabilities : List FieldCapability :=
  [{ path := vox, polling := true, unavailable_bare := polled_bare }]

theorem decayCapabilities_nodup : (decayCapabilities.map FieldCapability.path).Nodup :=
  List.nodup_singleton vox

def decayPolicies : List (FieldPath × AcquisitionPolicy Unit) := [(vox, decayPolicy)]

theorem decayPolicies_nodup : (decayPolicies.map Prod.fst).Nodup := List.nodup_singleton vox

def decayProfile : RadioAcquisitionProfile Unit := { menuProfile with
  capabilities := decayCapabilities
  fieldPolicies := ⟨decayPolicies, decayPolicies_nodup⟩
  capabilities_nodup := decayCapabilities_nodup }

def decayConfig : SchedulerConfig Unit where
  profile := decayProfile

def voxKey : AcquisitionRequestKey Unit := requestKey vox .poll decayPolicy

def voxPoll : AcquisitionRequest Unit :=
  { voxRequest with acquisitionMethod := .poll, policy := decayPolicy }

/-- Answered at 1, without a change. -/
def answeredOnce : List (Call Unit) :=
  [.dueRequests {}, .recordAcquisitionResult voxPoll [] 1]

def decayedState : CadenceState := ⟨15 / 2, 17 / 2⟩

theorem answeredOnce_decays :
    ((init stillClock).runs decayConfig answeredOnce).cadenceByKey.get? voxKey =
      some decayedState := by decide +kernel

theorem clock_runs_decayed :
    (((init stillClock).runs decayConfig answeredOnce).runs decayConfig
      [.dueRequests { now := some 5 }]).cadenceByKey.get? voxKey = some decayedState :=
  (clock_runs decayConfig stillClock answeredOnce [.dueRequests { now := some 5 }]
    answeredOnce_decays fun pre call post hcalls => by
      rcases List.cons_eq_append_iff.mp hcalls with ⟨rfl, hcons⟩ | ⟨rest, rfl, hrest⟩
      · cases hcons
        exact fun hdrops => hdrops.observed rfl
      · exact absurd hrest.symm (by simp)).1

/-! ## A clock that is dropped -/

theorem addPollPath_cadence {capabilities : List FieldCapability}
    {grouped : Dict (AcquisitionRequestKey A) (List FieldPath)}
    (h : ∀ key paths, grouped.get? key = some paths → key.policy.cadenceSeconds ≠ none) :
    ∀ key paths, (capabilities.foldl (addPollPath p) grouped).get? key = some paths →
      key.policy.cadenceSeconds ≠ none := by
  induction capabilities generalizing grouped with
  | nil => exact h
  | cons capability rest ih =>
      rw [List.foldl_cons]
      refine ih fun key paths hget => ?_
      rw [addPollPath] at hget
      split at hget
      · rename_i hpoll
        rw [Dict.get?_set] at hget
        split at hget
        · rename_i hkey
          rw [hkey]
          exact hpoll.2
        · exact h key paths hget
      · exact h key paths hget

theorem pollCadenceGroups_cadence {group : PollGroup A} (h : group ∈ pollCadenceGroups p) :
    group.1.policy.cadenceSeconds ≠ none := by
  obtain ⟨item, hitem, rfl⟩ := List.mem_map.mp h
  have hempty (key : AcquisitionRequestKey A) (paths : List FieldPath)
      (hget : Dict.empty.get? key = some paths) : key.policy.cadenceSeconds ≠ none := by cases hget
  exact addPollPath_cadence hempty _ _ (Dict.mem_items.mp hitem)

theorem pollCadenceGroups_nodup (p : RadioAcquisitionProfile A) :
    ((pollCadenceGroups p).map Prod.fst).Nodup := by
  rw [pollCadenceGroups, List.map_map]
  exact (p.capabilities.foldl (addPollPath p) .empty).nodup

/-- The paths that no refusal withholds. -/
def asked (s : Scheduler A) (now : Time) (paths : List FieldPath) : List FieldPath :=
  paths.filter fun path => !s.refusalWithheld path now

/-- Nothing but its clock holds a group back. -/
structure Idle (p : RadioAcquisitionProfile A) (s : Scheduler A) (now : Time)
    (key : AcquisitionRequestKey A) (paths : List FieldPath) : Prop where
  pending : s.requestsByKey.get? key = none
  deferred : s.deferred.get? key = none
  txOnly : key.policy.txOnly = true → s.txActive = true
  available : ∃ path ∈ paths, contradicted s.availability path = false
  asked : ∃ path ∈ paths, s.refusalWithheld path now = false
  released : s.Released p (s.asked now paths)

theorem cadenceStateFor_frame (s : Scheduler A) (key : AcquisitionRequestKey A)
    (declared now : Time) : ∃ clocks,
    (s.cadenceStateFor c key declared now).2 = { s with cadenceByKey := clocks } := by
  rw [cadenceStateFor]
  split
  · exact ⟨s.cadenceByKey, rfl⟩
  · exact ⟨_, rfl⟩

theorem cadenceStateFor_none (s : Scheduler A) {key' : AcquisitionRequestKey A} (hne : key ≠ key')
    (declared now : Time) (hnone : s.cadenceByKey.get? key = none) :
    (s.cadenceStateFor c key' declared now).2.cadenceByKey.get? key = none := by
  rw [cadenceStateFor]
  split
  · exact hnone
  · exact (Dict.get?_set_ne _ _ hne).trans hnone

/-- A group without a clock is due, with the paths that no refusal withholds. -/
theorem duePollGroups_due (now : Time) {groups : List (PollGroup A)}
    (hnodup : (groups.map Prod.fst).Nodup) (hmem : (key, paths) ∈ groups)
    (hcadence : key.policy.cadenceSeconds ≠ none) (hidle : s.Idle p now key paths)
    (hnone : s.cadenceByKey.get? key = none) :
    (key, sortedPaths (s.asked now paths)) ∈ (duePollGroups c now groups s).1 := by
  induction groups generalizing s with
  | nil => cases hmem
  | cons group rest ih =>
      obtain ⟨key', paths'⟩ := group
      obtain ⟨hkey, hrest⟩ := List.nodup_cons.mp hnodup
      rw [duePollGroups]
      simp only
      rcases List.mem_cons.mp hmem with hhead | hlater
      · cases hhead
        obtain ⟨cadence, hpolicy⟩ := Option.ne_none_iff_exists'.mp hcadence
        rw [hpolicy]
        simp only
        split
        · rename_i hblocked
          obtain ⟨path, hpath, hfree⟩ := hidle.available
          obtain ⟨path', hpath', hopen⟩ := hidle.asked
          rcases hblocked with hpending | hdeferred | ⟨htx, hoff⟩ | hall | hempty
          · rw [hidle.pending] at hpending
            cases hpending
          · rw [hidle.deferred] at hdeferred
            cases hdeferred
          · rw [hidle.txOnly htx] at hoff
            cases hoff
          · rw [List.all_eq_true.mp hall path hpath] at hfree
            cases hfree
          · have hasked : path' ∈ paths.filter fun path => !s.refusalWithheld path now :=
              List.mem_filter.mpr ⟨hpath', by rw [hopen]; rfl⟩
            rw [List.isEmpty_iff.mp hempty] at hasked
            cases hasked
        · rw [if_pos]
          · exact List.mem_cons_self
          · rw [cadenceStateFor, hnone]
      · have hne : key ≠ key' := by
          rintro rfl
          exact hkey (List.mem_map.mpr ⟨(key, paths), hlater, rfl⟩)
        split
        · exact ih hrest hlater hidle hnone
        · split
          · exact ih hrest hlater hidle hnone
          · rename_i cadence _ _
            have hnone' := s.cadenceStateFor_none (c := c) hne cadence now hnone
            obtain ⟨clocks, hframe⟩ := s.cadenceStateFor_frame (c := c) key' cadence now
            rw [hframe] at hnone' ⊢
            have hdue := ih hrest hlater (s := { s with cadenceByKey := clocks })
              ⟨hidle.pending, hidle.deferred, hidle.txOnly, hidle.available, hidle.asked,
                hidle.released⟩ hnone'
            split
            · exact List.mem_cons_of_mem _ hdue
            · exact hdue

/-- The idle decay of a group ends at the next `due_requests` that knows the selected receiver: the
decayed clock is dropped, and a group that nothing else holds back is asked for at once, however
far off its time was. -/
theorem decayed_clock_polled (c : SchedulerConfig A) (clock : FreshnessClock)
    (before : List (Call A)) {key : AcquisitionRequestKey A} {paths : List FieldPath}
    {state : CadenceState} {call : DueCall}
    (hgroup : (key, paths) ∈ pollCadenceGroups c.profile)
    (hstate : ((init clock).runs c before).cadenceByKey.get? key = some state)
    (hdrops : call.Drops c ((init clock).runs c before) key state)
    (hidle : (((init clock).runs c before).noteDueCall c call).Idle c.profile
      (((init clock).runs c before).dueTime c call) key paths) :
    ∃ request ∈ (((init clock).runs c before).dueRequests c call).1, keyOf request = some key := by
  have hs := (sound_init c.profile clock).runs before
  have hnone := (noteDueCall_clock hstate call).1 hdrops
  have hquiet := (noteDueCall_quiet (c := c) ((init clock).runs c before) call).trans
    (timestamp_quiet _ call.now)
  have hidle' : ((((init clock).runs c before).noteDueCall c call).timestamp call.now).2.Idle
      c.profile (((init clock).runs c before).dueTime c call) key paths := by
    cases call.now with
    | none =>
        exact ⟨hidle.pending, hidle.deferred, hidle.txOnly, hidle.available, hidle.asked,
          hidle.released⟩
    | some now => exact hidle
  have hnone' : ((((init clock).runs c before).noteDueCall c call).timestamp
      call.now).2.cadenceByKey.get? key = none := by
    cases call.now <;> exact hnone
  have hdue := duePollGroups_due (c := c) _ (pollCadenceGroups_nodup c.profile)
    hgroup (pollCadenceGroups_cadence hgroup) hidle' hnone'
  obtain ⟨hloop, hgrouped⟩ := duePollGroups_spec (c := c)
    (((init clock).runs c before).dueTime c call) (fun _ => pollCadenceGroups_grouped)
    ((((init clock).runs c before).noteDueCall c call).timestamp call.now).2
  have hall := (queueDue_keyOf (((init clock).runs c before).dueTime c call)
    (hs.quiet (hquiet.trans hloop)) hgrouped).2
  exact hall _ hdue (hidle'.released.sorted.same hloop.paused)

def observedAtTwo : DueCall where
  now := some 2
  observedActive := some .main

theorem vox_polled : (voxKey, [vox]) ∈ pollCadenceGroups decayProfile := by decide +kernel

theorem decayed_clock_polled_at_two :
    ∃ request ∈ (((init stillClock).runs decayConfig answeredOnce).dueRequests decayConfig
      observedAtTwo).1, keyOf request = some voxKey :=
  decayed_clock_polled decayConfig stillClock answeredOnce vox_polled answeredOnce_decays
    ⟨Option.some_ne_none _, by decide +kernel, by decide +kernel⟩
    ⟨by decide +kernel, by decide +kernel, by decide +kernel, ⟨vox, by decide, by decide +kernel⟩,
      ⟨vox, by decide, by decide +kernel⟩, fun hpaused => (by cases hpaused)⟩

end Scheduler

end Rigplane.Acquisition
