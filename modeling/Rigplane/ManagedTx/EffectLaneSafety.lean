import Rigplane.ManagedTx.EffectLaneClaims

/-!
# An accepted release has seen every ON end

Every action keeps `Ok`, as long as no failure of an isolation task has been swallowed by a
task behind it (`act_ok`).  So in a run without such a failure an accepted release saw
every ON that was started before it end before its own last provider call, or poisoned its
generation (`release_settles`).

The condition is needed.  An isolation task gathers its predecessor with
`return_exceptions=True`, so a failed `poison_generation` is lost as soon as another
isolation task is started behind it (`release_misses_failure`).
-/

namespace Rigplane.ManagedTx

namespace Lane

variable {s s' : Lane} {m n n' : Nat}

/-! ## Calls and isolation tasks end -/

/-- A provider call afterwards: the same, or it has just ended. -/
structure CallAdvances (n : Nat) (p p' : ProviderCall) : Prop where
  claim : p'.claim = p.claim
  operation : p'.operation = p.operation
  generation : p'.generation = p.generation
  startedAt : p'.startedAt = p.startedAt
  finished : p'.finished = p.finished ∨
    p.finished = none ∧ ∃ callEnd, p'.finished = some (callEnd, n)

theorem CallAdvances.refl (n : Nat) (p : ProviderCall) : CallAdvances n p p :=
  ⟨rfl, rfl, rfl, rfl, .inl rfl⟩

/-- A call that had finished is as it was. -/
theorem CallAdvances.finished_eq {p p' : ProviderCall} (h : CallAdvances n p p')
    {callEnd : CallEnd × Nat} (hf : p.finished = some callEnd) : p'.finished = some callEnd := by
  rcases h.finished with hsame | ⟨hnone, -⟩
  · exact hsame.trans hf
  · cases hnone.symm.trans hf

/-- An isolation task afterwards: the same, or one step on. -/
structure TaskAdvances (s : Lane) (poisoned : List Int) (t t' : Isolation) : Prop where
  claim : t'.claim = t.claim
  generation : t'.generation = t.generation
  previous : t'.previous = t.previous
  poison : t'.poison = t.poison
  state : t'.state = t.state ∨
    t.state = .poisoning ∧ t'.state = .waiting ∧ t.generation ∈ poisoned ∨
    t.state = .poisoning ∧ (∃ error, t'.state = .failed error) ∨
    t.state = .waiting ∧ t'.state = .done ∧ s.Gathered t

theorem TaskAdvances.refl (s : Lane) (poisoned : List Int) (t : Isolation) :
    TaskAdvances s poisoned t t :=
  ⟨rfl, rfl, rfl, rfl, .inl rfl⟩

theorem TaskAdvances.state_eq {poisoned : List Int} {t t' : Isolation}
    (h : TaskAdvances s poisoned t t') (hd : t.Done) : t'.state = t.state := by
  rcases h.state with hsame | ⟨hp, -⟩ | ⟨hp, -⟩ | ⟨hw, -⟩
  · exact hsame
  · exact absurd hp hd.1
  · exact absurd hp hd.1
  · exact absurd hw hd.2

/-- Provider calls and isolation tasks go on, and the lane itself is not touched; calls end
at the moment `n`. -/
structure Advances (n : Nat) (s s' : Lane) : Prop where
  made : s'.made = s.made
  claims : s'.claims = s.claims
  slots : s'.slots = s.slots
  scope : s'.scope = s.scope
  displaced : s'.displaced = s.displaced
  isolation : s'.isolation = s.isolation
  poisons : s'.poisons = s.poisons
  poisoned : ∀ generation ∈ s.poisoned, generation ∈ s'.poisoned
  calls_length : s'.calls.length = s.calls.length
  calls : ∀ (call : CallId) (p : ProviderCall), s.calls[call]? = some p →
    ∃ p', s'.calls[call]? = some p' ∧ CallAdvances n p p'
  tasks_length : s'.tasks.length = s.tasks.length
  tasks : ∀ (task : TaskId) (t : Isolation), s.tasks[task]? = some t →
    ∃ t', s'.tasks[task]? = some t' ∧ TaskAdvances s s'.poisoned t t'

theorem Advances.refl (n : Nat) (s : Lane) : Advances n s s :=
  ⟨rfl, rfl, rfl, rfl, rfl, rfl, rfl, fun _ h => h, rfl, fun _ p hp => ⟨p, hp, .refl _ p⟩, rfl,
    fun _ t ht => ⟨t, ht, .refl s _ t⟩⟩

theorem Advances.calls_back (h : Advances n s s') {call : CallId} {p' : ProviderCall}
    (hp' : s'.calls[call]? = some p') :
    ∃ p, s.calls[call]? = some p ∧ CallAdvances n p p' := by
  obtain ⟨hlt, -⟩ := List.getElem?_eq_some_iff.mp hp'
  rw [h.calls_length] at hlt
  obtain ⟨p'', hp'', ha⟩ := h.calls call _ (List.getElem?_eq_getElem hlt)
  cases hp'.symm.trans hp''
  exact ⟨_, List.getElem?_eq_getElem hlt, ha⟩

theorem Advances.tasks_back (h : Advances n s s') {task : TaskId} {t' : Isolation}
    (ht' : s'.tasks[task]? = some t') :
    ∃ t, s.tasks[task]? = some t ∧ TaskAdvances s s'.poisoned t t' := by
  obtain ⟨hlt, -⟩ := List.getElem?_eq_some_iff.mp ht'
  rw [h.tasks_length] at hlt
  obtain ⟨t'', ht'', ha⟩ := h.tasks task _ (List.getElem?_eq_getElem hlt)
  cases ht'.symm.trans ht''
  exact ⟨_, List.getElem?_eq_getElem hlt, ha⟩

theorem Advances.over (h : Advances n s s') {p p' : ProviderCall} (ha : CallAdvances n p p')
    (hp : s.Over p) : s'.Over p' := by
  rcases hp with hfinished | hpoisoned
  · obtain ⟨callEnd, hfinished⟩ := Option.isSome_iff_exists.mp hfinished
    exact .inl (Option.isSome_iff_exists.mpr ⟨callEnd, ha.finished_eq hfinished⟩)
  · exact .inr (h.poisoned _ (ha.generation.symm ▸ hpoisoned))

theorem Advances.covers (h : Advances n s s') {p p' : ProviderCall}
    (ha : CallAdvances n p p') {task : TaskId} (hc : s.Covers p task) :
    s'.Covers p' task := by
  induction hc with
  | own ht claim =>
      obtain ⟨t', ht', hta⟩ := h.tasks _ _ ht
      exact .own ht' (hta.claim.trans (claim.trans ha.claim.symm))
  | poison ht poison poisons generation =>
      obtain ⟨t', ht', hta⟩ := h.tasks _ _ ht
      exact .poison ht' (hta.poison.trans poison) (h.poisons.trans poisons)
        (hta.generation.trans (generation.trans ha.generation.symm))
  | previous ht hprevious _ ih =>
      obtain ⟨t', ht', hta⟩ := h.tasks _ _ ht
      exact .previous ht' (hta.previous.trans hprevious) ih

theorem Advances.callDone (h : Advances n s s') {call : CallId} (hd : s.CallDone call) :
    s'.CallDone call := by
  obtain ⟨p, hp, hfinished⟩ := hd
  obtain ⟨p', hp', ha⟩ := h.calls call p hp
  obtain ⟨callEnd, hfinished⟩ := Option.isSome_iff_exists.mp hfinished
  exact ⟨p', hp', Option.isSome_iff_exists.mpr ⟨callEnd, ha.finished_eq hfinished⟩⟩

theorem Advances.taskDone (h : Advances n s s') {task : TaskId} (hd : s.TaskDone task) :
    s'.TaskDone task := by
  obtain ⟨t, ht, hdone⟩ := hd
  obtain ⟨t', ht', ha⟩ := h.tasks task t ht
  refine ⟨t', ht', ?_⟩
  rw [Isolation.Done, ha.state_eq hdone]
  exact hdone

theorem Advances.gathered (h : Advances n s s') {t t' : Isolation}
    (ha : TaskAdvances s s'.poisoned t t')
    (hg : s.Gathered t) : s'.Gathered t' := by
  obtain ⟨⟨c, hc, call, hcall, hd⟩, hprevious⟩ := hg
  refine ⟨⟨c, ?_, call, hcall, h.callDone hd⟩, fun previous hp => ?_⟩
  · rw [ha.claim, h.made]
    exact hc
  · rw [ha.previous] at hp
    exact h.taskDone (hprevious previous hp)

theorem Advances.taskOk (h : Advances n s s') {t t' : Isolation}
    (ha : TaskAdvances s s'.poisoned t t')
    (ht : s.TaskOk t) : s'.TaskOk t' where
  claim := by
    rw [h.made, ha.claim, ha.generation]
    exact ht.claim
  done hd := by
    rcases ha.state with hsame | ⟨-, hw, -⟩ | ⟨-, error, hf⟩ | ⟨-, -, hg⟩
    · exact h.gathered ha (ht.done (hsame.symm.trans hd))
    · cases hw.symm.trans hd
    · cases hf.symm.trans hd
    · exact h.gathered ha hg
  poisoned hp hps hstate := by
    rw [ha.poison] at hp
    rw [h.poisons] at hps
    rw [ha.generation]
    rcases ha.state with hsame | ⟨-, -, hg⟩ | ⟨-, error, hf⟩ | ⟨hw, -⟩
    · exact h.poisoned _ (ht.poisoned hp hps (hsame ▸ hstate))
    · exact hg
    · rcases hstate with hs | hs <;> cases hf.symm.trans hs
    · exact h.poisoned _ (ht.poisoned hp hps (.inl hw))
  failed error hf := by
    rw [ha.poison]
    rcases ha.state with hsame | ⟨-, hw, -⟩ | ⟨hp, -⟩ | ⟨-, hd, -⟩
    · exact ht.failed error (hsame.symm.trans hf)
    · cases hw.symm.trans hf
    · exact (ht.poisoning hp).1
    · cases hd.symm.trans hf
  poisoning hp := by
    rw [ha.poison, h.poisons]
    rcases ha.state with hsame | ⟨-, hw, -⟩ | ⟨-, error, hf⟩ | ⟨-, hd, -⟩
    · exact ht.poisoning (hsame.symm.trans hp)
    · cases hw.symm.trans hp
    · cases hf.symm.trans hp
    · cases hd.symm.trans hp

theorem Advances.base (h : Advances n s s') (hs : s.Base m) (hm : m ≤ n') (hn : n < n') :
    s'.Base n' where
  calls := {
    claim := fun call p' hp' => by
      obtain ⟨p, hp, ha⟩ := h.calls_back hp'
      rw [h.made, ha.claim, ha.operation, ha.generation]
      exact hs.calls.claim call p hp
    provider := fun id c call hc hcall => by
      rw [h.made] at hc
      obtain ⟨p, hp, hid⟩ := hs.calls.provider id c call hc hcall
      obtain ⟨p', hp', ha⟩ := h.calls call p hp
      exact ⟨p', hp', ha.claim.trans hid⟩
    started := by rw [h.made]; exact hs.calls.started
    calling := by rw [h.made]; exact hs.calls.calling
    fresh := by rw [h.made]; exact hs.calls.fresh
    isolation := by rw [h.made]; exact hs.calls.isolation
    waits := by rw [h.made]; exact hs.calls.waits
    running := by rw [h.made]; exact hs.calls.running }
  tasks task t' ht' := by
    obtain ⟨t, ht, ha⟩ := h.tasks_back ht'
    exact h.taskOk ha (hs.tasks task t ht)
  slots := {
    isolation := fun newest hnewest => by
      obtain ⟨t, ht, hg, hp⟩ := hs.slots.isolation newest (h.isolation ▸ hnewest)
      obtain ⟨t', ht', ha⟩ := h.tasks _ t ht
      exact ⟨t', ht', ha.generation.trans hg, ha.poison.trans hp⟩
    displaced := fun task id htask => by
      obtain ⟨t, ht, hid, hp⟩ := hs.slots.displaced task id (h.displaced ▸ htask)
      obtain ⟨t', ht', ha⟩ := h.tasks _ t ht
      exact ⟨t', ht', ha.claim.trans hid, ha.poison.trans hp⟩ }
  claims := {
    claims := by rw [h.made, h.claims]; exact hs.claims.claims
    scope := by rw [h.made, h.scope, h.slots]; exact hs.claims.scope
    unique := by rw [h.made]; exact hs.claims.unique }
  timed := {
    made := fun id c hc => by
      rw [h.made] at hc
      exact (hs.timed.made id c hc).trans_le hm
    started := fun call p' hp' => by
      obtain ⟨p, hp, ha⟩ := h.calls_back hp'
      rw [ha.startedAt]
      exact (hs.timed.started call p hp).trans_le hm
    finished := fun call p' callEnd at' hp' hf => by
      obtain ⟨p, hp, ha⟩ := h.calls_back hp'
      rcases ha.finished with hsame | ⟨-, callEnd', hnow⟩
      · exact (hs.timed.finished call p callEnd at' hp (hsame.symm.trans hf)).trans_le hm
      · cases hnow.symm.trans hf
        exact hn }

theorem Advances.held (h : Advances n s s') (hs : s.Held m) (hm : m ≤ n') (hn : n < n') :
    s'.Held n' := by
  refine ⟨h.base hs.base hm hn, fun call p' hp' hon => ?_⟩
  obtain ⟨p, hp, ha⟩ := h.calls_back hp'
  rw [ha.operation] at hon
  rcases hs.guarded call p hp hon with hover | ⟨c, hc, hkey⟩ | ⟨task, htask⟩ |
    ⟨newest, hnewest, hcovers⟩
  · exact .inl (h.over ha hover)
  · refine .inr (.inl ⟨c, ?_, ?_⟩)
    · rw [h.made, ha.claim]
      exact hc
    · rw [h.claims, ha.claim]
      exact hkey
  · exact .inr (.inr (.inl ⟨task, by rw [h.displaced, ha.claim]; exact htask⟩))
  · exact .inr (.inr (.inr ⟨newest, h.isolation.trans hnewest, h.covers ha hcovers⟩))

theorem Advances.clear (h : Advances n s s') {c : Claim} (hc : s.Clear c) : s'.Clear c := by
  intro call p' hp' hon hlt
  obtain ⟨p, hp, ha⟩ := h.calls_back hp'
  rw [ha.operation] at hon
  rw [ha.startedAt] at hlt
  rw [ha.generation]
  refine (hc call p hp hon hlt).imp (h.poisoned _) ?_
  rintro ⟨last, q, callEnd, at', hlast, hq, hfinished, hbefore⟩
  obtain ⟨q', hq', haq⟩ := h.calls last q hq
  exact ⟨last, q', callEnd, at', hlast, hq', ha.finished_eq hfinished, haq.startedAt ▸ hbefore⟩

theorem Advances.failing (h : Advances n s s') {c : Claim} (hc : s.Failing c) : s'.Failing c := by
  obtain ⟨task, hmem, t, ht, herror⟩ := hc
  obtain ⟨t', ht', ha⟩ := h.tasks task t ht
  refine ⟨task, hmem, t', ht', ?_⟩
  cases hstate : t.state with
  | failed error =>
      have hdone : t.Done := by
        rw [Isolation.Done, hstate]
        simp
      rw [Isolation.error, ha.state_eq hdone, hstate]
      rfl
  | poisoning => rw [Isolation.error, hstate] at herror; cases herror
  | waiting => rw [Isolation.error, hstate] at herror; cases herror
  | done => rw [Isolation.error, hstate] at herror; cases herror

theorem Advances.ok (h : Advances n s s') (hs : s.Ok m) (hm : m ≤ n') (hn : n < n') :
    s'.Ok n' := by
  refine ⟨h.held hs.held hm hn, fun id c hc hop => ?_⟩
  rw [h.made] at hc
  have hr := hs.releases id c hc hop
  refine ⟨fun call p' hp' hon hlt => ?_, fun hd => (hr.calling hd).imp h.failing h.clear,
    fun o hd ho => (hr.isolating o hd ho).imp h.failing h.clear, fun hd => h.clear
      (hr.repeating hd),
    fun o ho hacc => h.clear (hr.accepted o ho hacc), hr.settling⟩
  obtain ⟨p, hp, ha⟩ := h.calls_back hp'
  rw [ha.operation] at hon
  rw [ha.startedAt] at hlt
  exact (hr.barred call p hp hon hlt).imp (h.over ha) fun ⟨task, hmem, hcovers⟩ =>
    ⟨task, hmem, h.covers ha hcovers⟩

/-- Ending a call is an advance. -/
theorem callEnds_advances {call : CallId} (hpending : ¬ s.CallDone call) (callEnd : CallEnd) :
    Advances s.moment s { s with calls := s.calls.modify call fun p =>
      { p with finished := some (callEnd, s.moment) } } := by
  refine { Advances.refl s.moment s with
    calls_length := List.length_modify _ _ _, calls := fun i p hp => ?_ }
  rw [List.getElem?_modify, hp]
  refine ⟨if call = i then { p with finished := some (callEnd, s.moment) } else p, rfl, ?_⟩
  by_cases hi : call = i
  · subst hi
    rw [if_pos rfl]
    refine ⟨rfl, rfl, rfl, rfl, .inr ⟨?_, callEnd, rfl⟩⟩
    by_contra hfinished
    exact hpending ⟨p, hp, Option.isSome_iff_ne_none.mpr hfinished⟩
  · rw [if_neg hi]
    exact .refl _ p

/-- A task that goes on within what its state allows is an advance. -/
theorem setTask_advances {task : TaskId} {t : Isolation} (ht : s.tasks[task]? = some t)
    {state : IsolationState} (poisoned : List Int) (hpoisoned : ∀ g ∈ s.poisoned, g ∈ poisoned)
    (hstate : TaskAdvances s poisoned t { t with state := state }) :
    Advances n s { s.setTask task state with poisoned := poisoned } := by
  refine { Advances.refl n s with
    poisoned := hpoisoned
    tasks_length := List.length_modify _ _ _
    tasks := fun i t' ht' => ?_ }
  change ∃ t'', (s.tasks.modify task fun t => { t with state := state })[i]? = some t'' ∧ _
  rw [List.getElem?_modify, ht']
  refine ⟨if task = i then { t' with state := state } else t', rfl, ?_⟩
  by_cases hi : task = i
  · subst hi
    cases ht.symm.trans ht'
    rw [if_pos rfl]
    exact hstate
  · rw [if_neg hi]
    exact .refl s poisoned t'

/-- A displaced task that is done leaves only calls that are over unguarded. -/
theorem Ok.pop (hs : s.Ok n) {task : TaskId} (hdone : s.TaskDone task) :
    Ok { s with displaced := s.displaced.erase task } n := by
  have h : Follows s { s with displaced := s.displaced.erase task } := { Follows.refl s with }
  refine ⟨⟨⟨h.callsOk hs.held.base.calls, fun i t ht => h.taskOk (hs.held.base.tasks i t ht),
    ⟨hs.held.base.slots.isolation, fun i id hi => ?_⟩,
    hs.held.base.claims.follows h rfl rfl fun key id hkey => ⟨hkey, fun c' hc' => ?_⟩,
    h.timedBy hs.held.base.timed⟩, fun call p hp hon => ?_⟩, h.releases hs.releases⟩
  · rw [Dict.get?_erase] at hi
    split at hi
    · cases hi
    · exact hs.held.base.slots.displaced i id hi
  · obtain ⟨c, hc, -, hopen⟩ := hs.held.base.claims.claims key id hkey
    cases hc.symm.trans hc'
    exact hopen
  · rcases hs.held.guarded call p hp hon with hover | hactive | ⟨i, hi⟩ | ⟨newest, hnewest, hcovers⟩
    · exact .inl hover
    · exact .inr (.inl hactive)
    · by_cases htask : i = task
      · -- The task has gathered its provider call.
        obtain ⟨t, ht, hclaim, hpoison⟩ := hs.held.base.slots.displaced i _ hi
        obtain ⟨t', ht', hstate⟩ := hdone
        rw [htask] at ht
        cases ht.symm.trans ht'
        have hok := hs.held.base.tasks task t ht
        have hgathered : s.Gathered t := by
          refine hok.done ?_
          cases hs' : t.state with
          | poisoning => exact absurd hs' hstate.1
          | waiting => exact absurd hs' hstate.2
          | done => rfl
          | failed error => cases hpoison.symm.trans (hok.failed error hs')
        obtain ⟨⟨c, hc, call', hcall, q, hq, hfinished⟩, -⟩ := hgathered
        obtain ⟨c', hc', -, -, -, hprovider⟩ := hs.held.base.calls.claim call p hp
        rw [hclaim] at hc
        cases (Option.mem_def.mp hc).symm.trans hc'
        cases (Option.mem_def.mp hcall).symm.trans (hprovider hon)
        cases (Option.mem_def.mp hq).symm.trans hp
        exact .inl (.inl hfinished)
      · refine .inr (.inr (.inl ⟨i, ?_⟩))
        rw [Dict.get?_erase, if_neg htask]
        exact hi
    · exact .inr (.inr (.inr ⟨newest, hnewest, h.covers hcovers⟩))

/-! ## Every action -/

theorem Ok.driverStarts (hs : s.Ok s.moment) (hlost : s.NoneSwallowed) {id : ClaimId}
    {reading : Reading} (h : s.act (.driverStarts id reading) = some s') :
    s'.Ok (s.moment + 1) := by
  rw [act] at h
  split at h
  · rename_i c hc
    split at h
    · cases h
    · rename_i hd
      rw [not_not] at hd
      split at h
      · cases h
        exact hs.invoke hlost hc (.inl hd) reading
      · split at h
        · cases h
          exact (hs.setOnLane (some id)).invoke hlost hc (.inl hd) reading
        · cases h
          -- The ON waits for the lane.
          refine (hs.modifyClaim (fun c' hc' => ?_) fun c' hc' hop => ?_).mono (Nat.le_succ _)
          · cases hc.symm.trans hc'
            refine ⟨rfl, rfl, rfl, rfl, rfl, fun again hd' => (by cases hd'),
              fun _ => hs.held.base.calls.fresh id c hc (.inl hd),
              hs.held.base.calls.isolation id c hc, fun hw => hw.elim, fun _ _ => ?_, ?_⟩
            · exact hs.held.base.calls.running id c hc (by rw [hd]; simp) (by rw [hd]; simp)
            · exact (hs.held.base.claims.open_or_out hc).imp_left fun hopen =>
                ⟨hopen.1, fun o hfinishing => by cases hfinishing⟩
          · have hr := hs.releases id c' hc' hop
            exact ⟨hr.barred, fun h => (by cases h), fun o h => (by cases h), fun h => (by cases h),
              hr.accepted, fun o h => by cases h⟩
  · cases h

theorem Ok.driverEnters (hs : s.Ok s.moment) (hlost : s.NoneSwallowed) {id : ClaimId}
    {reading : Reading} (h : s.act (.driverEnters id reading) = some s') :
    s'.Ok (s.moment + 1) := by
  rw [act] at h
  split at h
  · rename_i c hc
    split at h
    · rename_i hqueued
      cases h
      exact (hs.setOnLane (some id)).invoke hlost hc (.inr hqueued.1) reading
    · cases h
  · cases h

theorem Ok.callReturns (hs : s.Ok n) {id : ClaimId}
    (h : s.act (.callReturns id) = some s') : s'.Ok n := by
  rw [act] at h
  split at h
  · rename_i c hc
    split at h
    · rename_i callEnd at' hfinished
      refine hs.callOver hc (fun _ call hcall => ?_) h
      rw [Option.mem_def.mp hcall, Option.bind_some] at hfinished
      obtain ⟨p, hp, hf⟩ := Option.bind_eq_some_iff.mp hfinished
      exact ⟨p, hp, by rw [hf]; rfl⟩
    · cases h
  · cases h

theorem Ok.callTimesOut (hs : s.Ok n) {id : ClaimId}
    (h : s.act (.callTimesOut id) = some s') : s'.Ok n := by
  rw [act] at h
  split at h
  · rename_i c hc
    split at h
    · cases h
    · exact hs.callOver hc (fun htimed => by cases htimed) h
  · cases h

theorem Ok.isolationWaited (hs : s.Ok s.moment) (hlost : s.NoneSwallowed) {id : ClaimId}
    {reading : Reading} (h : s.act (.isolationWaited id reading) = some s') :
    s'.Ok (s.moment + 1) := by
  rw [act] at h
  split at h
  · rename_i c hc
    split at h
    · rename_i again o hd
      cases h
      exact hs.afterIsolation hlost hc hd reading
    · cases h
  · cases h

theorem Ok.finishWaited (hs : s.Ok n) {id : ClaimId}
    (h : s.act (.finishWaited id) = some s') : s'.Ok n := by
  rw [act] at h
  split at h
  · rename_i c hc
    split at h
    · rename_i o hd
      cases h
      refine hs.held.setResult hs.releases hc ?_ fun hop => ?_
      · exact (hs.held.base.claims.open_or_out hc).resolve_left fun hopen => hopen.2 o hd
      · exact absurd hd ((hs.releases id c hc hop).settling o)
    · cases h
  · cases h

theorem Ok.poisonReturns (hs : s.Ok s.moment) {task : TaskId}
    (h : s.act (.poisonReturns task) = some s') : s'.Ok (s.moment + 1) := by
  rw [act] at h
  split at h
  · rename_i t ht
    split at h
    · rename_i hstate
      cases h
      refine Advances.ok (n := s.moment) ?_ hs (Nat.le_succ _) (Nat.lt_succ_self _)
      exact setTask_advances ht (t.generation :: s.poisoned) (fun g hg => List.mem_cons_of_mem _ hg)
        ⟨rfl, rfl, rfl, rfl, .inr (.inl ⟨hstate, rfl, List.mem_cons_self⟩)⟩
    · cases h
  · cases h

theorem Ok.poisonRaises (hs : s.Ok s.moment) {task : TaskId} {error : String}
    (h : s.act (.poisonRaises task error) = some s') : s'.Ok (s.moment + 1) := by
  obtain ⟨t, ht, hstate, rfl⟩ := act_poisonRaises h
  refine Advances.ok (n := s.moment) ?_ hs (Nat.le_succ _) (Nat.lt_succ_self _)
  exact setTask_advances ht s.poisoned (fun g hg => hg)
    ⟨rfl, rfl, rfl, rfl, .inr (.inr (.inl ⟨hstate, error, rfl⟩))⟩

theorem Ok.isolationEnds (hs : s.Ok s.moment) {task : TaskId}
    (h : s.act (.isolationEnds task) = some s') : s'.Ok (s.moment + 1) := by
  rw [act] at h
  split at h
  · rename_i t ht
    split at h
    · rename_i hstate
      cases h
      refine Advances.ok (n := s.moment) ?_ hs (Nat.le_succ _) (Nat.lt_succ_self _)
      exact setTask_advances ht s.poisoned (fun g hg => hg)
        ⟨rfl, rfl, rfl, rfl, .inr (.inr (.inr ⟨hstate.1, rfl, hstate.2⟩))⟩
    · cases h
  · cases h

/-- Every action keeps the invariant where no failure was swallowed before it. -/
theorem act_ok (hs : s.Ok s.moment) (hlost : s.NoneSwallowed) {action : Action}
    (h : s.act action = some s') : s'.Ok (s.moment + 1) := by
  have hlater := Nat.le_succ s.moment
  cases action with
  | claim token operation deadline current =>
      cases h
      exact hs.claim token operation deadline current
  | driverStarts id reading => exact hs.driverStarts hlost h
  | driverEnters id reading => exact hs.driverEnters hlost h
  | callReturns id => exact (hs.callReturns h).mono hlater
  | callTimesOut id => exact (hs.callTimesOut h).mono hlater
  | isolationWaited id reading => exact hs.isolationWaited hlost h
  | finishWaited id => exact (hs.finishWaited h).mono hlater
  | driverUnwinds id =>
      obtain ⟨-, -, -, rfl⟩ := act_driverUnwinds h
      exact hs.endDriver.mono hlater
  | cancelWaiter id =>
      cases h
      have hd := displaceLocked_displaces hs.held id "attempt cancelled before dispatch"
        "attempt cancelled after dispatch"
      exact Ok.mono ⟨hd.held, hd.follows.releases hs.releases⟩ hlater
  | callEnds call callEnd =>
      rw [act] at h
      split at h
      · cases h
      · rename_i hpending
        cases h
        rw [not_or] at hpending
        exact (callEnds_advances hpending.1 callEnd).ok hs hlater (Nat.lt_succ_self _)
  | poisonReturns task => exact hs.poisonReturns h
  | poisonRaises task error => exact hs.poisonRaises h
  | isolationEnds task => exact hs.isolationEnds h
  | displacedPops task =>
      rw [act] at h
      split at h
      · rename_i hdone
        cases h
        exact (hs.pop hdone).mono hlater
      · cases h

theorem step_ok (hs : s.Ok s.moment) (hlost : s.NoneSwallowed) {action : Action}
    (h : s.step action = some s') : s'.Ok s'.moment := by
  rw [step] at h
  obtain ⟨m, hm, rfl⟩ := Option.map_eq_some_iff.mp h
  have hadvances : Advances s.moment m { m with moment := s.moment + 1 } :=
    { Advances.refl s.moment m with }
  exact hadvances.ok (act_ok hs hlost hm) le_rfl (Nat.lt_succ_self _)

theorem init_ok (poisons : Bool) : (init poisons).Ok (init poisons).moment where
  held := {
    base := {
      calls := by constructor <;> intros <;> simp_all [init]
      tasks := fun _ _ h => by cases h
      slots := ⟨nofun, nofun⟩
      claims := by constructor <;> intros <;> simp_all [init]
      timed := by constructor <;> intros <;> simp_all [init] }
    guarded := fun _ _ h => by cases h }
  releases := fun _ _ h => by cases h

/-! ## Runs -/

/-- In a run whose states swallow no failure, an accepted release saw every ON that was
started before it end before its own last call started, or in a poisoned generation. -/
theorem release_settles {poisons : Bool} {actions : List Action}
    (hrun : Runs.exec step (init poisons) actions = some s)
    (hlost : Runs.Along step (fun s _ => s.NoneSwallowed) (init poisons) actions)
    {id : ClaimId} {c : Claim} (hc : s.made[id]? = some c) (hop : c.operation = .forceReceive)
    {o : Outcome} (ho : c.result = some o) (hacc : o.result = .accepted) : s.Clear c := by
  have hok : s.Ok s.moment := Runs.exec_invariant_along
    (fun s action s' hs hlost h => step_ok hs hlost h) hrun hlost (init_ok poisons)
  exact (hok.releases id c hc hop).accepted o ho hacc

/-- A displaced ON ignores its cancellation, and the release waits for its isolation task. -/
def displacedOn : List Action :=
  let reading : Reading := ⟨0, 0, true⟩
  [.claim ⟨7, 3, "on"⟩ (.actuation .pttOn) 1 true, .driverStarts 0 reading,
    .claim ⟨7, 4, "off"⟩ .forceReceive 1 true, .driverStarts 1 reading,
    .callEnds 1 (.returned .accepted), .callReturns 1, .callEnds 0 (.returned .accepted),
    .isolationEnds 0, .isolationWaited 1 reading, .callEnds 2 (.returned .accepted),
    .callReturns 1]

/-- What the run of `displacedOn` ends in. -/
theorem release_settles_displacedOn : ∃ s c o,
    Runs.exec step (init true) displacedOn = some s ∧ s.made[1]? = some c ∧
      c.operation = .forceReceive ∧ c.result = some o ∧ o.result = .accepted ∧ s.Clear c := by
  have hrun : ((Runs.exec step (init true) displacedOn).any fun s => (s.made[1]?).any fun c =>
      c.operation = .forceReceive ∧ c.result = some ⟨.accepted, none, false⟩) = true := by decide
  obtain ⟨s, hs, hclaim⟩ := (Option.any_eq_true _ _).mp hrun
  obtain ⟨c, hc, hclaim⟩ := (Option.any_eq_true _ _).mp hclaim
  obtain ⟨hop, ho⟩ := of_decide_eq_true hclaim
  exact ⟨s, c, _, hs, hc, hop, ho, rfl, release_settles hs (by decide) hc hop ho rfl⟩

/-- An ON times out and its `poison_generation` raises.  The isolation task of the next ON is
started behind the failed one, and a release that waits for it alone is accepted. -/
def swallowedFailure : List Action :=
  let reading : Reading := ⟨0, 0, true⟩
  [.claim ⟨7, 3, "on"⟩ (.actuation .pttOn) 1 true, .driverStarts 0 reading, .callTimesOut 0,
    .poisonRaises 0 "isolation failed", .finishWaited 0,
    .claim ⟨7, 4, "next"⟩ (.actuation .pttOn) 1 true, .driverStarts 1 reading,
    .claim ⟨7, 5, "off"⟩ .forceReceive 1 true, .callEnds 1 (.raised "CancelledError"),
    .isolationEnds 1, .driverStarts 2 reading, .callEnds 2 (.returned .accepted), .callReturns 2,
    .isolationWaited 2 reading]

theorem release_misses_failure : ∃ s c o,
    Runs.exec step (init true) swallowedFailure = some s ∧ s.made[2]? = some c ∧
      c.operation = .forceReceive ∧ c.result = some o ∧ o.result = .accepted ∧ ¬ s.Clear c := by
  have hrun : ((Runs.exec step (init true) swallowedFailure).any fun s =>
      (s.made[2]?).any fun c => (s.calls[0]?).any fun p =>
        c.operation = .forceReceive ∧ c.result = some ⟨.accepted, none, false⟩ ∧
          p.operation.IsOn ∧ p.startedAt < c.madeAt ∧ p.generation ∉ s.poisoned ∧
            p.finished = none) = true := by decide
  obtain ⟨s, hs, hclaim⟩ := (Option.any_eq_true _ _).mp hrun
  obtain ⟨c, hc, hclaim⟩ := (Option.any_eq_true _ _).mp hclaim
  obtain ⟨p, hp, hclaim⟩ := (Option.any_eq_true _ _).mp hclaim
  obtain ⟨hop, ho, hon, hlt, hpoisoned, hfinished⟩ := of_decide_eq_true hclaim
  refine ⟨s, c, _, hs, hc, hop, ho, rfl, fun hclear => ?_⟩
  rcases hclear 0 p hp hon hlt with hp' | ⟨last, q, callEnd, at', -, -, hf, -⟩
  · exact hpoisoned hp'
  · cases hfinished.symm.trans hf

end Lane

end Rigplane.ManagedTx
