import Rigplane.Acquisition.SchedulerSteps

/-!
# The moves of each call

One lemma per operation of `Scheduler`: the moves that it makes, and, where it asks for something,
that the demand is met afterwards.
-/

namespace Rigplane.Acquisition

open StatePipeline AcquisitionScheduler

namespace Scheduler

variable {A : Type} [DecidableEq A] {p : RadioAcquisitionProfile A} {s s' s'' : Scheduler A}
  {key : AcquisitionRequestKey A} {paths gone : List FieldPath} {path : FieldPath} {ask : Ask}
  {request existing : AcquisitionRequest A}

/-! ## Queueing -/

omit [DecidableEq A] in
theorem Placed.coalesce (h : Placed p key existing) (hgrouped : Grouped p key paths) :
    Placed p key (coalesce p existing ask paths) :=
  ⟨h.grouped.merge hgrouped, h.method, h.policy⟩

omit [DecidableEq A] in
theorem metBy_coalesce (p : RadioAcquisitionProfile A) {d : Demand}
    (h : d.MetBy existing ∨ d.Asked ask paths) :
    d.MetBy (AcquisitionScheduler.coalesce p existing ask paths) := .merge h

/-- What `_reissue` leaves to the rest of the scheduler: the claim of the old id is gone. -/
structure Reissued (s s' : Scheduler A) (previous : String) : Prop where
  requests : s'.requestsByKey = s.requestsByKey
  deferred : s'.deferred = s.deferred
  claims : s'.claimsByRequestId = s.claimsByRequestId.erase previous
  nextId : s'.nextId = s.nextId + 1
  paused : s'.externalCatPaused = s.externalCatPaused

theorem reissue_reissued (s : Scheduler A) (request : AcquisitionRequest A)
    (key : AcquisitionRequestKey A) (previous : String) :
    (s.reissue request key previous).1 = { request with id := acqId s.nextId } ∧
      Reissued s (s.reissue request key previous).2 previous := by
  refine ⟨rfl, ?_⟩
  unfold reissue
  simp only
  split
  · exact ⟨rfl, rfl, rfl, rfl, rfl⟩
  · split <;> exact ⟨rfl, rfl, rfl, rfl, rfl⟩

/-- A request that takes the place of another one under a new id. -/
theorem Reissued.moves (h : Reissued s s' existing.id)
    (hfound : s.requestsByKey.get? key = some existing) (placed : Placed p key request)
    (hid : request.id = acqId s.nextId)
    (carries : ∀ d : Demand, d.MetBy existing → d.MetBy request) :
    Moves p gone s { s' with requestsByKey := s'.requestsByKey.set key request } := by
  have hissue : Move p gone s { s with
      requestsByKey := s.requestsByKey.set key request
      nextId := s.nextId + 1
      claimsByRequestId := s.claimsWithout (s.requestsByKey.get? key) } :=
    .issue placed hid fun other hother d hmet => by
      rw [hfound] at hother
      cases hother
      exact carries d hmet
  have hclaims : s.claimsWithout (s.requestsByKey.get? key) = s'.claimsByRequestId := by
    rw [hfound, h.claims]
    rfl
  refine .head hissue (Quiet.moves ⟨?_, h.deferred, hclaims.symm, h.nextId, h.paused⟩)
  rw [h.requests]

/-- Some paths were asked for, and nothing that others ask for is lost. -/
structure AsksFor (p : RadioAcquisitionProfile A) (s : Scheduler A) (ask : Ask)
    (paths : List FieldPath) (s' : Scheduler A) : Prop where
  moves : Moves p [] s s'
  met : ∀ d : Demand, d.Asked ask paths → Carries s' d

theorem queueGroup_asks (hs : Sound p s) (hgrouped : Grouped p key paths) (ask : Ask)
    (requireFreshDispatch : Bool) :
    AsksFor p s ask paths (s.queueGroup p ask requireFreshDispatch key paths).2 := by
  unfold queueGroup
  cases hfound : s.requestsByKey.get? key with
  | some existing =>
      have hplaced := hs.placed key existing hfound
      simp only
      split
      · obtain ⟨hrequest, hreissued⟩ :=
          s.reissue_reissued (AcquisitionScheduler.coalesce p existing ask paths) key existing.id
        refine ⟨hreissued.moves hfound ?_ (by rw [hrequest]) ?_, fun d hd =>
          .inl ⟨key, _, Dict.get?_set_self _ _ _, ?_⟩⟩
        · rw [hrequest]
          have hcoalesced : Placed p key (AcquisitionScheduler.coalesce p existing ask paths) :=
            hplaced.coalesce hgrouped
          exact ⟨hcoalesced.grouped, hcoalesced.method, hcoalesced.policy⟩
        · intro d hmet
          rw [hrequest]
          exact metBy_coalesce p (.inl hmet)
        · rw [hrequest]
          exact metBy_coalesce p (.inr hd)
      · refine ⟨.single (.rewrite hfound (hplaced.coalesce hgrouped) rfl fun d _ hmet =>
          metBy_coalesce p (.inl hmet)), fun d hd => .inl ⟨key, _, Dict.get?_set_self _ _ _, ?_⟩⟩
        exact metBy_coalesce p (.inr hd)
  | none =>
      refine ⟨?_, fun d hd => .inl ⟨key, _, Dict.get?_set_self _ _ _, hd⟩⟩
      have hplaced : Placed p key (s.newRequest p ask paths key).1 := ⟨hgrouped, rfl, rfl⟩
      refine .head (.issue hplaced rfl fun existing hexisting => ?_)
        (Quiet.moves ⟨rfl, rfl, ?_, rfl, rfl⟩)
      · rw [hfound] at hexisting
        cases hexisting
      · rw [hfound]
        rfl

/-- Some groups were asked for. -/
structure AsksForAll (p : RadioAcquisitionProfile A) (s : Scheduler A) (ask : Ask)
    (groups : List (PollGroup A)) (s' : Scheduler A) : Prop where
  moves : Moves p [] s s'
  met : ∀ d : Demand, ∀ group ∈ groups, d.Asked ask group.2 → Carries s' d

omit [DecidableEq A] in
theorem AsksForAll.nil [DecidableEq A] (s : Scheduler A) (ask : Ask) : AsksForAll p s ask [] s :=
  ⟨.refl, fun _ _ hgroup => by cases hgroup⟩

theorem AsksForAll.cons {group : PollGroup A} {groups : List (PollGroup A)}
    (h : AsksFor p s ask group.2 s') (h' : AsksForAll p s' ask groups s'') :
    AsksForAll p s ask (group :: groups) s'' := by
  refine ⟨h.moves.trans h'.moves, fun d other hother hd => ?_⟩
  rcases List.mem_cons.mp hother with rfl | hother
  · exact (h.met d hd).moves h'.moves List.not_mem_nil
  · exact h'.met d other hother hd

theorem AsksForAll.cover {groups : List (PollGroup A)} (h : AsksForAll p s ask groups s')
    (hgroups : ∀ path ∈ paths, ∃ group ∈ groups, path ∈ group.2) : AsksFor p s ask paths s' := by
  refine ⟨h.moves, fun d hd => ?_⟩
  obtain ⟨group, hgroup, hmem⟩ := hgroups d.path hd.path
  exact h.met d group hgroup ⟨hmem, hd.priority, hd.deadline, hd.maxAge⟩

theorem queueGrouped_asks {groups : List (PollGroup A)} (hs : Sound p s)
    (hgroups : ∀ group ∈ groups, Grouped p group.1 group.2) (ask : Ask)
    (requireFreshDispatch : Bool) :
    AsksForAll p s ask groups (queueGrouped p ask requireFreshDispatch groups s).2 := by
  induction groups generalizing s with
  | nil => exact .nil s ask
  | cons group rest ih =>
      obtain ⟨key, paths⟩ := group
      obtain ⟨hgroup, hrest⟩ := List.forall_mem_cons.mp hgroups
      have hasks := queueGroup_asks hs hgroup ask requireFreshDispatch
      exact .cons hasks (ih (hs.moves hasks.moves) hrest)

theorem queue_asks (hs : Sound p s) {requireFreshDispatch : Bool}
    {requests : List (AcquisitionRequest A)}
    (h : s.queue p ask requireFreshDispatch paths = .ok (requests, s')) :
    AsksFor p s ask paths s' := by
  rw [queue] at h
  cases hgroups : requestGroups p paths with
  | error text =>
      rw [hgroups] at h
      cases h
  | ok groups =>
      rw [hgroups] at h
      have hqueued : (queueGrouped p ask requireFreshDispatch groups s).2 = s' :=
        congrArg Prod.snd (Except.ok.inj h)
      obtain ⟨hgrouped, hcover⟩ := requestGroups_spec hgroups
      rw [← hqueued]
      exact (queueGrouped_asks hs hgrouped ask requireFreshDispatch).cover hcover

theorem queue_isOk (s : Scheduler A) (ask : Ask) (requireFreshDispatch : Bool)
    (h : ∀ path ∈ paths, (p.capabilityFor path).hasAcquisitionHook = true) :
    ∃ requests s', s.queue p ask requireFreshDispatch paths = .ok (requests, s') := by
  obtain ⟨groups, hgroups⟩ := requestGroups_isOk h
  rw [queue, hgroups]
  exact ⟨_, _, rfl⟩

/-! ## Deferring -/

theorem defer_moves (gone : List FieldPath) (item : PendingEnsureFresh) (hs : Sound p s)
    (hpaused : s.externalCatPaused = true) (hgrouped : Grouped p key item.paths) :
    Move p gone s (s.defer key item) ∧
      ∀ d : Demand, d.MetLater item → Waits (s.defer key item) d := by
  rw [defer, AcquisitionScheduler.defer]
  cases hfound : s.deferred.get? key with
  | none =>
      refine ⟨.defer hpaused hgrouped fun existing hexisting => ?_, fun d hd =>
        ⟨key, item, Dict.get?_set_self _ _ _, hd⟩⟩
      rw [hfound] at hexisting
      cases hexisting
  | some existing =>
      refine ⟨.defer hpaused ((hs.deferred key existing hfound).merge hgrouped)
        fun other hother d hmet => ?_, fun d hd => ⟨key, _, Dict.get?_set_self _ _ _, .merge
          (.inr hd)⟩⟩
      rw [hfound] at hother
      cases hother
      exact .merge (.inl hmet)

theorem defer_asks (hs : Sound p s) (hpaused : s.externalCatPaused = true)
    (hgrouped : Grouped p key paths) (ask : Ask) :
    AsksFor p s ask paths (s.defer key (s.deferredItem ask paths)) := by
  obtain ⟨hmove, hwaits⟩ := defer_moves [] (s.deferredItem ask paths) hs hpaused hgrouped
  exact ⟨.single hmove, fun d hd => .inr (hwaits d hd)⟩

/-! ## `ensure_fresh` -/

theorem Move.paused (h : Move p gone s s') : s'.externalCatPaused = s.externalCatPaused := by
  cases h with
  | quiet hquiet => exact hquiet.paused
  | rewrite _ _ _ _ => rfl
  | issue _ _ _ => rfl
  | remove _ _ => rfl
  | defer _ _ _ => rfl

theorem Moves.paused (h : Moves p gone s s') : s'.externalCatPaused = s.externalCatPaused := by
  induction h with
  | refl => rfl
  | tail _ hmove ih => exact hmove.paused.trans ih

theorem pausedGroups_asks {groups : List (PollGroup A)} {requireFreshDispatch : Bool}
    {queued : List (AcquisitionRequest A)} {deferred : Bool} (hs : Sound p s)
    (hpaused : s.externalCatPaused = true) (hgroups : ∀ group ∈ groups, Grouped p group.1 group.2)
    (h : pausedGroups p ask requireFreshDispatch groups s = .ok (queued, deferred, s')) :
    AsksForAll p s ask groups s' := by
  induction groups generalizing s queued deferred with
  | nil =>
      cases h
      exact .nil _ ask
  | cons group rest ih =>
      obtain ⟨key, paths⟩ := group
      obtain ⟨hgroup, hrest⟩ := List.forall_mem_cons.mp hgroups
      rw [pausedGroups] at h
      split at h
      · have hasks := defer_asks hs hpaused hgroup ask
        cases hloop : pausedGroups p ask requireFreshDispatch rest
            (s.defer key (s.deferredItem ask paths)) with
        | error text =>
            rw [hloop] at h
            cases h
        | ok result =>
            obtain ⟨queued', deferred', s''⟩ := result
            rw [hloop] at h
            cases h
            exact .cons hasks (ih (hs.moves hasks.moves)
              (hasks.moves.paused.trans hpaused) hrest hloop)
      · cases hqueue : s.queue p ask requireFreshDispatch paths with
        | error text =>
            rw [hqueue] at h
            cases h
        | ok result =>
            obtain ⟨requests, m⟩ := result
            rw [hqueue] at h
            have hasks := queue_asks hs hqueue
            simp only at h
            cases hloop : pausedGroups p ask requireFreshDispatch rest m with
            | error text =>
                rw [hloop] at h
                cases h
            | ok result =>
                obtain ⟨queued', deferred', s''⟩ := result
                rw [hloop] at h
                cases h
                exact .cons hasks
                  (ih (hs.moves hasks.moves) (hasks.moves.paused.trans hpaused) hrest hloop)

theorem AsksFor.owner (owner : Option String)
    (h : AsksFor p s { ask with externalCatOwner := owner } paths s') : AsksFor p s ask paths s' :=
  ⟨h.moves, fun d hd => h.met d hd⟩

theorem ensureAskable_asks {requireFreshDispatch : Bool} {result : EnsureFreshResult A}
    (hs : Sound p s) (h : s.ensureAskable p ask requireFreshDispatch paths = .ok (result, s')) :
    AsksFor p s ask paths s' := by
  have hunpaused {m : Scheduler A} (hm : Sound p m)
      (h : ((m.queue p { ask with externalCatOwner := none } requireFreshDispatch paths).map
        fun queued => (queued.2.queuedResult queued.1, queued.2)) = .ok (result, s')) :
      AsksFor p m ask paths s' := by
    cases hqueue : m.queue p { ask with externalCatOwner := none } requireFreshDispatch paths with
    | error text =>
        rw [hqueue] at h
        cases h
    | ok queued =>
        rw [hqueue] at h
        cases h
        exact (queue_asks hm hqueue).owner none
  rw [ensureAskable] at h
  simp only at h
  split at h
  · rename_i hpaused
    cases hgroups : requestGroups p paths with
    | error text =>
        rw [hgroups] at h
        cases h
    | ok groups =>
        rw [hgroups] at h
        obtain ⟨hgrouped, hcover⟩ := requestGroups_spec hgroups
        simp only at h
        cases hloop : pausedGroups p ask requireFreshDispatch groups s with
        | error text =>
            rw [hloop] at h
            cases h
        | ok looped =>
            obtain ⟨queued, deferred, m⟩ := looped
            rw [hloop] at h
            have hasks := (pausedGroups_asks hs hpaused hgrouped hloop).cover hcover
            cases queued with
            | cons request requests =>
                cases h
                exact hasks
            | nil =>
                cases deferred with
                | true =>
                    cases h
                    exact hasks
                | false =>
                    have hqueued := hunpaused (hs.moves hasks.moves) h
                    exact ⟨hasks.moves.trans hqueued.moves, hqueued.met⟩
  · exact hunpaused hs h

omit [DecidableEq A] in
theorem availabilityFor_status {result : EnsureFreshResult A}
    (h : availabilityFor p paths = some result) : result.status = .unavailable := by
  induction paths with
  | nil => cases h
  | cons path rest ih =>
      rw [availabilityFor] at h
      split at h
      · cases h
        rfl
      · split at h
        · cases h
          rfl
        · exact ih h

omit [DecidableEq A] in
/-- Reading the clock moves nothing. -/
theorem readClock_quiet (s : Scheduler A) : Quiet s s.readClock.2 := ⟨rfl, rfl, rfl, rfl, rfl⟩

/-- The demand that a call of `ensure_fresh` makes for a path. -/
def EnsureFreshCall.demand (s : Scheduler A) (call : EnsureFreshCall) (path : FieldPath) :
    Demand where
  path := path
  priority := call.priority
  deadline := (s.askOf call s.clock.now).deadlineMonotonic
  maxAge := call.maxAge

/-- `ensure_fresh` answers that it queued or deferred what it was asked for: it did. -/
theorem ensureFresh_asks {call : EnsureFreshCall} {result : EnsureFreshResult A} (hs : Sound p s)
    (h : s.ensureFresh p call = .ok (result, s')) :
    Moves p [] s s' ∧ (result.status ≠ .unavailable →
      ∀ path ∈ s.askable call s.clock.now, Carries s' (call.demand s path)) := by
  have hread := s.readClock_quiet
  rw [ensureFresh] at h
  split at h
  · cases h
  split at h
  · cases h
  simp only at h
  cases havailable : availabilityFor p (sortedPaths call.paths) with
  | some refused =>
      rw [havailable] at h
      cases h
      exact ⟨hread.moves, fun hstatus => absurd (availabilityFor_status havailable) hstatus⟩
  | none =>
      rw [havailable] at h
      simp only at h
      split at h
      · cases h
        exact ⟨hread.moves, fun hstatus => absurd rfl hstatus⟩
      · have hasks := ensureAskable_asks (hs.quiet hread) h
        refine ⟨.head (.quiet hread) hasks.moves, fun _ path hpath => hasks.met _ ?_⟩
        exact ⟨hpath, le_rfl, le_rfl, le_rfl⟩

/-! ## What `prime_unobserved` asks -/

/-- A result, with the part of the scheduler that `prime_unobserved` sees. -/
def onBase {α : Type} (r : α × Scheduler A) : α × AcquisitionScheduler A :=
  (r.1, r.2.toAcquisitionScheduler)

theorem queueGroup_onBase (s : Scheduler A) (key : AcquisitionRequestKey A)
    (paths : List FieldPath) :
    onBase (s.queueGroup p ask false key paths) =
      s.toAcquisitionScheduler.queueGroup p ask key paths := by
  rw [queueGroup, AcquisitionScheduler.queueGroup]
  cases s.requestsByKey.get? key with
  | some existing => rfl
  | none => rfl

theorem queueGrouped_onBase (groups : List (PollGroup A)) (s : Scheduler A) :
    onBase (queueGrouped p ask false groups s) =
      AcquisitionScheduler.queueGrouped p ask groups s.toAcquisitionScheduler := by
  induction groups generalizing s with
  | nil => rfl
  | cons group rest ih =>
      obtain ⟨key, paths⟩ := group
      rw [AcquisitionScheduler.queueGrouped, ← queueGroup_onBase]
      exact congrArg (fun r => (_ :: r.1, r.2)) (ih _)

theorem queue_onBase (s : Scheduler A) (paths : List FieldPath) :
    (s.queue p ask false paths).map onBase = s.toAcquisitionScheduler.queue p ask paths := by
  rw [queue, AcquisitionScheduler.queue]
  cases AcquisitionScheduler.requestGroups p paths with
  | error text => rfl
  | ok groups => exact congrArg Except.ok (queueGrouped_onBase groups s)

theorem pausedGroups_onBase (groups : List (PollGroup A)) (s : Scheduler A) :
    (pausedGroups p ask false groups s).map (fun r => (r.1, onBase r.2)) =
      AcquisitionScheduler.pausedGroups p ask groups s.toAcquisitionScheduler := by
  induction groups generalizing s with
  | nil => rfl
  | cons group rest ih =>
      obtain ⟨key, paths⟩ := group
      rw [pausedGroups, AcquisitionScheduler.pausedGroups]
      split
      · refine Eq.trans ?_ (congrArg (Except.map _) (ih (s.defer key (s.deferredItem ask paths))))
        cases pausedGroups p ask false rest (s.defer key (s.deferredItem ask paths)) with
        | error text => rfl
        | ok r => rfl
      · rw [← queue_onBase]
        cases s.queue p ask false paths with
        | error text => rfl
        | ok r =>
            obtain ⟨requests, s'⟩ := r
            refine Eq.trans ?_ (congrArg (Except.map _) (ih s'))
            dsimp only
            cases pausedGroups p ask false rest s' with
            | error text => rfl
            | ok r => rfl

theorem ensureAskable_onBase (s : Scheduler A) (paths : List FieldPath) :
    (s.ensureAskable p ask false paths).map onBase =
      s.toAcquisitionScheduler.ensureAskable p ask paths := by
  have hunpaused (s : Scheduler A) :
      ((s.queue p { ask with externalCatOwner := none } false paths).map fun r =>
        (r.2.queuedResult r.1, r.2)).map onBase =
      (s.toAcquisitionScheduler.queue p { ask with externalCatOwner := none } paths).map fun r =>
        (r.2.queuedResult r.1, r.2) := by
    rw [← queue_onBase]
    cases s.queue p { ask with externalCatOwner := none } false paths with
    | error text => rfl
    | ok r => rfl
  rw [ensureAskable, AcquisitionScheduler.ensureAskable]
  split
  · cases AcquisitionScheduler.requestGroups p paths with
    | error text => rfl
    | ok groups =>
        dsimp only
        rw [← pausedGroups_onBase]
        cases pausedGroups p ask false groups s with
        | error text => rfl
        | ok r =>
            obtain ⟨requests, deferred, s'⟩ := r
            cases requests with
            | cons request rest => rfl
            | nil =>
                cases deferred with
                | true => rfl
                | false => exact hunpaused s'
  · exact hunpaused s

/-- Without `require_fresh_dispatch`, `ensure_fresh` does to the requests what it does where there
is nothing beside them. -/
theorem ensureFresh_onBase (s : Scheduler A) (call : EnsureFreshCall)
    (hfresh : call.requireFreshDispatch = false) :
    (s.ensureFresh p call).map onBase = s.toAcquisitionScheduler.ensureFresh p call.paths
      call.maxAge call.priority call.reason call.timeout := by
  rw [ensureFresh, AcquisitionScheduler.ensureFresh, hfresh]
  split
  · rfl
  · split
    · rfl
    · dsimp only
      cases AcquisitionScheduler.availabilityFor p (sortedPaths call.paths) with
      | some result => rfl
      | none =>
          dsimp only
          by_cases hempty : (s.readClock.2.askable call s.readClock.1).isEmpty = true
          · rw [if_pos hempty]
            exact (if_pos hempty).symm
          · rw [if_neg hempty]
            exact (ensureAskable_onBase _ _).trans (if_neg hempty).symm

/-! ## `due_requests` -/

variable {c : SchedulerConfig A}

omit [DecidableEq A] in
theorem timestamp_quiet (s : Scheduler A) (now : Option Time) : Quiet s (s.timestamp now).2 := by
  cases now with
  | none => exact s.readClock_quiet
  | some now => exact .refl s

theorem cadenceStateFor_quiet (s : Scheduler A) (key : AcquisitionRequestKey A)
    (declared now : Time) :
    Quiet s (s.cadenceStateFor c key declared now).2 := by
  rw [cadenceStateFor]
  split
  · exact .refl s
  · exact ⟨rfl, rfl, rfl, rfl, rfl⟩

omit [DecidableEq A] in
theorem isDispatchable_quiet (s : Scheduler A) (request : AcquisitionRequest A) :
    Quiet s (s.isDispatchable request).2 := by
  rw [isDispatchable]
  split
  · exact s.readClock_quiet
  · exact .refl s

omit [DecidableEq A] in
theorem dispatchableAmong_quiet (s : Scheduler A) (requests : List (AcquisitionRequest A)) :
    Quiet s (s.dispatchableAmong requests).2 := by
  induction requests generalizing s with
  | nil => exact .refl s
  | cons request rest ih => exact (s.isDispatchable_quiet request).trans (ih _)

omit [DecidableEq A] in
theorem foldl_quiet {α : Type*} {f : Scheduler A → α → Scheduler A} (hf : ∀ s a, Quiet s (f s a))
    (s : Scheduler A) (as : List α) : Quiet s (as.foldl f s) := by
  induction as generalizing s with
  | nil => exact .refl s
  | cons a rest ih => exact (hf s a).trans (ih _)

theorem diagnostics_quiet (s : Scheduler A) : Quiet s (s.diagnostics c) := by
  refine ((s.dispatchableAmong_quiet s.requestsByKey.values).trans (readClock_quiet _)).trans
    (foldl_quiet (fun s group => ?_) _ _)
  rw [startClock]
  split
  · exact .refl s
  · exact s.cadenceStateFor_quiet group.1 _ _

theorem noteDueCall_quiet (s : Scheduler A) (call : DueCall) : Quiet s (s.noteDueCall c call) := by
  rw [noteDueCall]
  simp only
  split <;> exact ⟨rfl, rfl, rfl, rfl, rfl⟩

/-- What is due is asked for as the profile does it, and not pending or deferred already. -/
theorem duePollGroups_spec (now : Time) {groups : List (PollGroup A)}
    (hgroups : ∀ group ∈ groups, Grouped c.profile group.1 group.2) (s : Scheduler A) :
    Quiet s (duePollGroups c now groups s).2 ∧
      ∀ group ∈ (duePollGroups c now groups s).1, Grouped c.profile group.1 group.2 := by
  induction groups generalizing s with
  | nil => exact ⟨.refl s, fun _ hgroup => by cases hgroup⟩
  | cons group rest ih =>
      obtain ⟨key, paths⟩ := group
      obtain ⟨hgroup, hrest⟩ := List.forall_mem_cons.mp hgroups
      rw [duePollGroups]
      simp only
      cases hpolicy : key.policy.cadenceSeconds with
      | none => exact ih hrest s
      | some cadence =>
        simp only
        split
        · exact ih hrest s
        · rename_i hblocked
          have hasked : paths.filter (fun path => !s.refusalWithheld path now) ≠ [] := by
            intro hnil
            rw [hnil] at hblocked
            exact hblocked (.inr (.inr (.inr (.inr rfl))))
          have hcadence := s.cadenceStateFor_quiet (c := c) key cadence now
          obtain ⟨hquiet, hdue⟩ := ih hrest (s.cadenceStateFor c key cadence now).2
          refine ⟨hcadence.trans hquiet, fun due hmem => ?_⟩
          split at hmem
          · rcases List.mem_cons.mp hmem with rfl | hmem
            · exact (hgroup.subset hasked (List.filter_subset_self _)).sorted
            · exact hdue due hmem
          · exact hdue due hmem

theorem queueDue_moves (now : Time) {groups : List (PollGroup A)} (hs : Sound p s)
    (hgroups : ∀ group ∈ groups, Grouped p group.1 group.2) :
    Moves p [] s (queueDue p now groups s).2 := by
  induction groups generalizing s with
  | nil => exact .refl
  | cons group rest ih =>
      obtain ⟨key, paths⟩ := group
      obtain ⟨hgroup, hrest⟩ := List.forall_mem_cons.mp hgroups
      rw [queueDue]
      simp only
      split
      · rename_i hheld
        have hasks := defer_asks hs hheld.1 hgroup (s.dueAsk key now)
        exact hasks.moves.trans (ih (hs.moves hasks.moves) hrest)
      · have hasks := queueGroup_asks hs hgroup (s.dueAsk key now) false
        exact hasks.moves.trans (ih (hs.moves hasks.moves) hrest)

theorem dueRequests_moves (hs : Sound c.profile s) (call : DueCall) :
    Moves c.profile [] s (s.dueRequests c call).2 := by
  have hnoted := (s.noteDueCall_quiet (c := c) call).trans (timestamp_quiet _ call.now)
  obtain ⟨hquiet, hdue⟩ := duePollGroups_spec (c := c)
    ((s.noteDueCall c call).timestamp call.now).1 (fun _ => pollCadenceGroups_grouped)
    ((s.noteDueCall c call).timestamp call.now).2
  have hbefore := hnoted.trans hquiet
  exact hbefore.moves.trans (queueDue_moves _ (hs.quiet hbefore) hdue)

/-! ## Settlements -/

theorem Move.mono {gone' : List FieldPath} (h : Move p gone s s') (hsub : gone ⊆ gone') :
    Move p gone' s s' := by
  cases h with
  | quiet hquiet => exact .quiet hquiet
  | rewrite found placed id carries =>
      exact .rewrite found placed id fun d hd => carries d fun hmem => hd (hsub hmem)
  | issue placed id carries => exact .issue placed id carries
  | remove found carries => exact .remove found fun d hd => carries d fun hmem => hd (hsub hmem)
  | defer paused grouped carries => exact .defer paused grouped carries

theorem Moves.mono {gone' : List FieldPath} (h : Moves p gone s s') (hsub : gone ⊆ gone') :
    Moves p gone' s s' :=
  Relation.ReflTransGen.mono (fun _ _ hmove => Move.mono hmove hsub) _ _ h

theorem dropPaths_moves (hs : Sound p s) (hfound : s.requestsByKey.get? key = some existing)
    (gone : List FieldPath) : Moves p gone s (s.dropPaths c key existing gone) := by
  have hremains {path : FieldPath} :
      path ∈ existing.paths.filter (fun path => path ∉ gone) ↔ path ∈ existing.paths ∧
        path ∉ gone := by
    rw [List.mem_filter, decide_eq_true_eq]
  rw [dropPaths]
  split
  · rename_i hnone
    refine .head (.remove hfound fun d hd hmet => ?_) (Quiet.moves ⟨rfl, rfl, rfl, rfl, rfl⟩)
    have hmem := hremains.mpr ⟨hmet.path, hd⟩
    rw [List.isEmpty_iff.mp hnone] at hmem
    cases hmem
  · rename_i hsome
    split
    · exact .refl
    · have hplaced := hs.placed key existing hfound
      refine .single (.rewrite hfound ⟨hplaced.grouped.subset (fun hnil => ?_)
        (List.filter_subset_self _), hplaced.method, hplaced.policy⟩ rfl fun d hd hmet => ?_)
      · exact hsome (List.isEmpty_iff.mpr hnil)
      · exact ⟨hremains.mpr ⟨hmet.path, hd⟩, hmet.priority, hmet.deadline, hmet.maxAge⟩

theorem settleCadence_quiet (s : Scheduler A) (policy : AcquisitionPolicy A) (declared now : Time)
    (semanticChanged : Bool) :
    Quiet s (s.settleCadence c key policy declared now semanticChanged) :=
  (s.cadenceStateFor_quiet key declared now).trans ⟨rfl, rfl, rfl, rfl, rfl⟩

theorem resultCadence_quiet (s : Scheduler A) (request : AcquisitionRequest A)
    (changed : List FieldPath) (now : Time) (matchedRequest left : Bool) :
    Quiet s (s.resultCadence c key request changed now matchedRequest left) := by
  rw [resultCadence]
  split
  · split <;> exact ⟨rfl, rfl, rfl, rfl, rfl⟩
  · simp only
    split
    · exact ⟨rfl, rfl, rfl, rfl, rfl⟩
    · rename_i declared _ _
      have hsettle {m : Scheduler A} (hm : Quiet s m) (whole semanticChanged : Bool) :
          Quiet s (if whole = true then
            m.settleCadence c key request.policy declared now semanticChanged else m) := by
        split
        · exact hm.trans (m.settleCadence_quiet _ _ _ _)
        · exact hm
      split
      · exact hsettle (m := { s with pendingCadenceByKey := s.pendingCadenceByKey.erase key })
          ⟨rfl, rfl, rfl, rfl, rfl⟩ _ _
      · exact hsettle (.refl s) _ _

/-- An answer to a key ends its row of timeouts. -/
theorem answered_quiet (s : Scheduler A) (key : AcquisitionRequestKey A)
    (request : AcquisitionRequest A)
    (changed : List FieldPath) (now : Time) (matchedRequest left : Bool) :
    Quiet s (resultCadence c { s with
      consecutiveTimeoutByKey := s.consecutiveTimeoutByKey.erase key } key request changed now
        matchedRequest left) := by
  have herase : Quiet s { s with consecutiveTimeoutByKey := s.consecutiveTimeoutByKey.erase key } :=
    ⟨rfl, rfl, rfl, rfl, rfl⟩
  exact herase.trans (resultCadence_quiet _ _ _ _ _ _)

theorem recordAcquisitionResult_moves (hs : Sound p s) (request : AcquisitionRequest A)
    (changed : List FieldPath) (now : Time) :
    Moves p request.paths s ((s.recordAcquisitionResult c request changed now).getD s) := by
  rw [recordAcquisitionResult]
  cases hkey : keyOf request with
  | none => exact .refl
  | some key =>
      rw [Option.map_some, Option.getD_some]
      split
      · exact (answered_quiet _ _ _ _ _ _ _).moves
      · rename_i existing hfound
        have hdrop := dropPaths_moves (c := c) hs
          (Option.filter_eq_some_iff.mp hfound).1 request.paths
        exact hdrop.trans (answered_quiet _ _ _ _ _ _ _).moves

theorem failCadence_quiet (s : Scheduler A) (policy : AcquisitionPolicy A) (timedOut : Bool)
    (now : Option Time) : Quiet s (s.failCadence c key policy timedOut now) := by
  rw [failCadence]
  split
  · exact .refl s
  · exact ((timestamp_quiet _ _).trans (cadenceStateFor_quiet _ _ _ _)).trans
      ⟨rfl, rfl, rfl, rfl, rfl⟩

/-- The paths that a failure takes out of the queue. -/
def FailureCall.taken (call : FailureCall A) : List FieldPath :=
  if call.Void then [] else call.failed

theorem recordAcquisitionFailure_moves (hs : Sound p s) (call : FailureCall A) :
    Moves p call.taken s (s.recordAcquisitionFailure c call) := by
  rw [recordAcquisitionFailure, FailureCall.taken]
  split
  · exact .refl
  · split
    · exact .refl
    · rename_i key hkey
      have hcounted : s.Quiet { s with
          failedRequestCount := s.failedRequestCount + 1
          failureCountByReason := s.failureCountByReason.set call.failureReason
            ((s.failureCountByReason.get? call.failureReason).getD 0 + 1) } :=
        ⟨rfl, rfl, rfl, rfl, rfl⟩
      refine .trans (.head (.quiet hcounted) ?_) (failCadence_quiet _ _ _ _).moves
      rw [dropFailed]
      split
      · exact .refl
      · rename_i existing hfound
        have hdrop := dropPaths_moves (c := c) (s := { s with
          failedRequestCount := s.failedRequestCount + 1
          failureCountByReason := s.failureCountByReason.set call.failureReason
            ((s.failureCountByReason.get? call.failureReason).getD 0 + 1) })
          (hs.quiet ⟨rfl, rfl, rfl, rfl, rfl⟩) (Option.filter_eq_some_iff.mp hfound).1 call.failed
        simp only
        split
        · exact hdrop
        · exact hdrop.tail (.quiet ⟨rfl, rfl, rfl, rfl, rfl⟩)

/-! ## Refusals -/

theorem refuseRequest_moves (hs : Sound p s) (refused : List FieldPath) (now : Time)
    (request : AcquisitionRequest A) : Moves p refused s
    (s.refuseRequest c refused now request) := by
  rw [refuseRequest]
  split
  · refine (recordAcquisitionFailure_moves hs _).mono fun path hpath => ?_
    rw [FailureCall.taken] at hpath
    split at hpath
    · cases hpath
    · have hfailed := (List.mem_filter.mp hpath).1
      exact of_decide_eq_true (List.mem_filter.mp hfailed).2
  · exact .refl

theorem refuseRequests_moves (hs : Sound p s) (refused : List FieldPath) (now : Time)
    (requests : List (AcquisitionRequest A)) :
    Moves p refused s (requests.foldl (refuseRequest c refused now) s) := by
  induction requests generalizing s with
  | nil => exact .refl
  | cons request rest ih =>
      have hmoves := refuseRequest_moves (c := c) hs refused now request
      exact hmoves.trans (ih (hs.moves hmoves))

theorem recordReadRefusal_moves (hs : Sound p s) (refused : List FieldPath) (now : Time) :
    Moves p refused s (s.recordReadRefusal c refused now) := by
  have hquiet : Quiet s (refused.dedup.foldl (refusePath c now) s) :=
    foldl_quiet (f := refusePath c now) (fun _ _ => ⟨rfl, rfl, rfl, rfl, rfl⟩) _ _
  exact .trans hquiet.moves (refuseRequests_moves (hs.quiet hquiet) refused now _)

/-! ## Pausing and resuming -/

/-- Deferring leaves all but the deferred asks alone. -/
theorem defer_frame (s : Scheduler A) (key : AcquisitionRequestKey A) (item : PendingEnsureFresh) :
    Quiet { s with deferred := (s.defer key item).deferred } (s.defer key item) := by
  rw [defer, AcquisitionScheduler.defer]
  split <;> exact ⟨rfl, rfl, rfl, rfl, rfl⟩

theorem defer_deferred (h : s'.deferred = s.deferred) (key : AcquisitionRequestKey A)
    (item : PendingEnsureFresh) : (s'.defer key item).deferred = (s.defer key item).deferred := by
  rw [defer, defer, AcquisitionScheduler.defer, AcquisitionScheduler.defer, h]
  split <;> rfl

/-- A pending request that is deferred: what it asks for waits under its key. -/
theorem pauseRequest_moves (hs : Sound p s) (hpaused : s.externalCatPaused = true)
    (hfound : s.requestsByKey.get? key = some request) (owner : Option String) :
    Moves p [] s (s.pauseRequest p owner (key, request)) := by
  rw [pauseRequest]
  split
  · let item := pausedItem request owner
    let parked := forget { s with requestsByKey := s.requestsByKey.erase key } request.id
    obtain ⟨hdefer, hwaits⟩ := defer_moves [] item hs hpaused (hs.placed key request hfound).grouped
    have hframe := s.defer_frame key item
    have hparked := parked.defer_frame key item
    have hfound' : (s.defer key item).requestsByKey.get? key = some request :=
      hframe.requests ▸ hfound
    refine .head hdefer (.head (.remove hfound' fun d _ hmet => hwaits d hmet) (Quiet.moves ?_))
    have hsame : parked.deferred = s.deferred := rfl
    refine ⟨hparked.requests.trans ?_, defer_deferred hsame key item, hparked.claims.trans ?_,
      hparked.nextId.trans hframe.nextId.symm, hparked.paused.trans hframe.paused.symm⟩
    · exact congrArg (Dict.erase · key) hframe.requests.symm
    · exact congrArg (Dict.erase · request.id) hframe.claims.symm
  · exact .refl

theorem pauseRequest_other {other : AcquisitionRequestKey A} (hne : other ≠ key)
    (owner : Option String) :
    (s.pauseRequest p owner (key, request)).requestsByKey.get? other =
    s.requestsByKey.get? other := by
  rw [pauseRequest]
  split
  · rw [(defer_frame _ key _).requests]
    exact (Dict.get?_erase _ _ _).trans (if_neg hne)
  · rfl

theorem pauseRequests_moves {items : List (AcquisitionRequestKey A × AcquisitionRequest A)}
    (hs : Sound p s) (hpaused : s.externalCatPaused = true) (hnodup : (items.map Prod.fst).Nodup)
    (hitems : ∀ item ∈ items, s.requestsByKey.get? item.1 = some item.2) (owner : Option String) :
    Moves p [] s (items.foldl (pauseRequest p owner) s) := by
  induction items generalizing s with
  | nil => exact .refl
  | cons item rest ih =>
      obtain ⟨key, request⟩ := item
      obtain ⟨hitem, hrest⟩ := List.forall_mem_cons.mp hitems
      obtain ⟨hkey, hnodup⟩ := List.nodup_cons.mp hnodup
      have hmoves := pauseRequest_moves hs hpaused hitem owner
      refine hmoves.trans (ih (hs.moves hmoves) (Moves.paused hmoves |>.trans hpaused) hnodup
        fun other hother => ?_)
      have hne : other.1 ≠ key := by
        rintro rfl
        have hmem : other.1 ∈ rest.map Prod.fst := List.mem_map_of_mem hother
        exact hkey hmem
      rw [pauseRequest_other hne]
      exact hrest other hother

/-- The external CAT owner takes the radio. -/
def held (s : Scheduler A) (owner : Option String) (reason : String) : Scheduler A :=
  { s with externalCatPaused := true, externalCatOwner := owner, externalCatReason := reason }

omit [DecidableEq A] in
theorem Sound.held [DecidableEq A] (hs : Sound p s) (owner : Option String) (reason : String) :
    Sound p (s.held owner reason) :=
  ⟨hs.placed, hs.issued, hs.distinct, hs.claimed, hs.deferred, fun h => (by cases h)⟩

theorem pauseExternalCat_moves (hs : Sound p s) (owner : Option String) (reason : String) :
    Moves p [] (s.held owner reason) (s.pauseExternalCat p owner reason) :=
  pauseRequests_moves (hs.held owner reason) rfl s.requestsByKey.nodup
    (fun _ hitem => Dict.mem_items.mp hitem) owner

/-- The external CAT owner gives the radio back, and nothing is deferred any more. -/
def freed (s : Scheduler A) : Scheduler A :=
  { s with
    externalCatPaused := false
    externalCatOwner := none
    externalCatReason := ""
    deferred := .empty }

omit [DecidableEq A] in
theorem Sound.freed [DecidableEq A] (hs : Sound p s) : Sound p s.freed :=
  ⟨hs.placed, hs.issued, hs.distinct, hs.claimed, fun _ _ h => (by cases h), fun _ => rfl⟩

/-- Every deferred ask is queued, whatever the order. -/
theorem resumeItems_asks {items : List PendingEnsureFresh} (hs : Sound p s)
    (hitems : ∀ item ∈ items, ∃ key, Grouped p key item.paths) (owner : Option String) :
    (resumeItems p owner items s).1.isOk = true ∧ Moves p [] s (resumeItems p owner items s).2 ∧
      ∀ d : Demand, ∀ item ∈ items, d.MetLater item →
        Carries (resumeItems p owner items s).2 d := by
  induction items generalizing s with
  | nil => exact ⟨rfl, .refl, fun _ _ hitem => by cases hitem⟩
  | cons item rest ih =>
      obtain ⟨⟨key, hgrouped⟩, hrest⟩ := List.forall_mem_cons.mp hitems
      obtain ⟨requests, s', hqueue⟩ := s.queue_isOk (resumedAsk owner item) false
        fun path hpath => (hgrouped.asked path hpath).hook
      have hasks := queue_asks hs hqueue
      obtain ⟨hok, hmoves, hmet⟩ := ih (hs.moves hasks.moves) hrest
      rw [resumeItems, hqueue]
      refine ⟨hok, hasks.moves.trans hmoves, fun d other hother hd => ?_⟩
      rcases List.mem_cons.mp hother with rfl | hother
      · exact (hasks.met d hd).moves hmoves List.not_mem_nil
      · exact hmet d other hother hd

theorem resumeExternalCat_asks (hs : Sound p s) :
    (s.resumeExternalCat p).1.isOk = true ∧ Moves p [] s.freed (s.resumeExternalCat p).2 ∧
      ∀ d : Demand, Waits s d → Carries (s.resumeExternalCat p).2 d := by
  have hmem {item : PendingEnsureFresh} :
      item ∈ s.deferred.values.insertionSort (fun item item' => resumesBefore item item' = true) ↔
        item ∈ s.deferred.values := (List.perm_insertionSort _ _).mem_iff
  have hgrouped : ∀ item ∈ s.deferred.values.insertionSort
      (fun item item' => resumesBefore item item' = true), ∃ key, Grouped p key item.paths := by
    intro item hitem
    obtain ⟨key, hkey⟩ := Dict.mem_values.mp (hmem.mp hitem)
    exact ⟨key, hs.deferred key item hkey⟩
  obtain ⟨hok, hmoves, hmet⟩ := resumeItems_asks hs.freed hgrouped s.externalCatOwner
  refine ⟨hok, hmoves, fun d hwaits => ?_⟩
  obtain ⟨key, item, hget, hd⟩ := hwaits
  exact hmet d item (hmem.mpr (Dict.mem_values.mpr ⟨key, hget⟩)) hd

end Scheduler

end Rigplane.Acquisition
