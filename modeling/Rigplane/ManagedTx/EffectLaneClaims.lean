import Rigplane.ManagedTx.EffectLaneDrivers

/-!
# The claims of the lane

A new claim keeps `Ok` (`Ok.claim`).  An ON is the only one of its scope, since its slot was
free until it came.  A release displaces every ON, so that what guarded a running call is now
among the isolation tasks the release takes (`bindIsolation_barred`).
-/

namespace Rigplane.ManagedTx

namespace Lane

variable {s s' m : Lane} {n : Nat}

/-! ## Scopes and slots -/

theorem raiseScope_spec (hs : s.Held n) (scope : Scope) :
    (s.raiseScope scope).Held n ∧ Follows s (s.raiseScope scope) ∧
      (s.raiseScope scope).scope = max s.scope scope ∧
      ∀ key id, (s.raiseScope scope).claims.get? key = some id → s.claims.get? key = some id := by
  rw [raiseScope]
  split
  · rename_i hle
    exact ⟨hs, .refl s, (max_eq_left hle).symm, fun _ _ h => h⟩
  · rename_i hlt
    rw [not_le] at hlt
    dsimp only
    generalize hraised :
        ({ s with scope := scope, slots := .empty, releaseToken := none } : Lane) = r
    have hfollows : Follows s r := by
      rw [← hraised]
      exact { Follows.refl s with }
    have hunmoved : Unmoved s r := by
      rw [← hraised]
      exact .refl s
    have hheld : r.Held n := by
      refine hs.congr hfollows hunmoved ?_ ?_ ?_ ?_ (.inl ?_) <;> rw [← hraised]
      exact hlt
    have h := displaceEach_displaces
      (r.active fun c => c.token.scope < scope ∧ c.operation ≠ .forceReceive) hheld
    refine ⟨h.held, hfollows.trans h.follows, ?_, fun key id hkey => ?_⟩
    · rw [h.scope, ← hraised]
      exact (max_eq_right hlt.le).symm
    · have hclaims := (h.claims key id hkey).1
      rwa [← hraised] at hclaims

/-- What taking a slot writes. -/
theorem takeSlot_eq (s : Lane) (token : EffectToken) (operation : LaneOperation) (stale : Bool) :
    ∃ slots releaseToken,
      (s.takeSlot token operation stale).2 =
        { s with slots := slots, releaseToken := releaseToken } ∧
      ((s.slots.get? .on).isSome = true → (slots.get? .on).isSome = true) ∧
      ((s.takeSlot token operation stale).1 = true → stale = false → operation.IsOn →
        s.slots.get? .on = none ∧ (slots.get? .on).isSome = true) := by
  rw [takeSlot]
  split
  · rename_i hstale
    exact ⟨_, _, rfl, id, fun _ h => by rw [hstale] at h; cases h⟩
  · split
    · exact ⟨_, _, rfl, id, fun h => by cases h⟩
    · rename_i hfree
      have hbound : ∃ releaseToken,
          (s.bindFamilyLocked token operation).2 = { s with releaseToken := releaseToken } := by
        rw [bindFamilyLocked]
        split
        · exact ⟨_, rfl⟩
        · split
          · exact ⟨_, rfl⟩
          · split
            · exact ⟨_, rfl⟩
            · split <;> exact ⟨_, rfl⟩
      obtain ⟨releaseToken, hr⟩ := hbound
      dsimp only
      split
      · refine ⟨_, releaseToken, by rw [hr], fun hsome => ?_, fun _ _ hon => ?_⟩
        · rw [Dict.get?_set]
          split
          · rfl
          · exact hsome
        · have hslot : slot operation = .on := by
            rcases hon with rfl | rfl <;> rfl
          rw [hslot, Dict.get?_set_self]
          rw [hslot] at hfree
          exact ⟨by simpa using hfree, rfl⟩
      · exact ⟨_, releaseToken, hr, id, fun h => by cases h⟩

/-! ## The new claim -/

/-- The claim a section makes. -/
def newClaim (s : Lane) (token : EffectToken) (operation : LaneOperation) (deadline : Time) :
    Claim where
  token := token
  operation := operation
  deadline := deadline
  madeAt := s.moment

/-- What a lane holds once a claim is added: the claims it had, and the new one. -/
theorem addClaim_made {token : EffectToken} {operation : LaneOperation} {deadline : Time}
    {id : ClaimId} {c : Claim} :
    (s.addClaim token operation deadline).made[id]? = some c ↔
      s.made[id]? = some c ∨ id = s.made.length ∧ c = s.newClaim token operation deadline :=
  getElem?_concat_eq_some

theorem addClaim_old {token : EffectToken} {operation : LaneOperation} {deadline : Time}
    {id : ClaimId} {c : Claim} (h : s.made[id]? = some c) :
    (s.addClaim token operation deadline).made[id]? = some c := addClaim_made.mpr (.inl h)

/-- The scope of an ON is new to the ONs, and its slot is taken. -/
structure Admits (s : Lane) (token : EffectToken) (operation : LaneOperation) : Prop where
  fresh : s.claims.get? (token, operation) = none
  scope : operation.IsOn → token.scope = s.scope ∧ (s.slots.get? .on).isSome = true ∧
    ∀ (id : ClaimId) (c : Claim), s.made[id]? = some c → c.operation.IsOn → c.token.scope < s.scope

theorem Held.addClaim (hs : s.Held s.moment) {token : EffectToken} {operation : LaneOperation}
    (h : s.Admits token operation) (deadline : Time) :
    (s.addClaim token operation deadline).Held (s.moment + 1) where
  base := {
    calls := {
      claim := fun call p hp => by
        obtain ⟨c, hc, hrest⟩ := hs.base.calls.claim call p hp
        exact ⟨c, addClaim_old hc, hrest⟩
      provider := fun id c call hc hcall => by
        rcases addClaim_made.mp hc with hc | ⟨-, rfl⟩
        · exact hs.base.calls.provider id c call hc hcall
        · cases hcall
      started := fun id c hc hstarted => by
        rcases addClaim_made.mp hc with hc | ⟨-, rfl⟩
        · exact hs.base.calls.started id c hc hstarted
        · cases hstarted
      calling := fun id c again hc hd => by
        rcases addClaim_made.mp hc with hc | ⟨-, rfl⟩
        · exact hs.base.calls.calling id c again hc hd
        · cases hd
      fresh := fun id c hc hd => by
        rcases addClaim_made.mp hc with hc | ⟨-, rfl⟩
        · exact hs.base.calls.fresh id c hc hd
        · rfl
      isolation := fun id c hc hne => by
        rcases addClaim_made.mp hc with hc | ⟨-, rfl⟩
        · exact hs.base.calls.isolation id c hc hne
        · exact absurd rfl hne
      waits := fun id c hc hd => by
        rcases addClaim_made.mp hc with hc | ⟨-, rfl⟩
        · exact hs.base.calls.waits id c hc hd
        · exact hd.elim
      running := fun id c hc hd hd' => by
        rcases addClaim_made.mp hc with hc | ⟨-, rfl⟩
        · exact hs.base.calls.running id c hc hd hd'
        · rfl }
    tasks := fun task t ht => by
      have h := hs.base.tasks task t ht
      refine ⟨?_, fun hdone => ?_, h.poisoned, h.failed, h.poisoning⟩
      · obtain ⟨c, call, hc, hrest⟩ := h.claim
        exact ⟨c, call, addClaim_old hc, hrest⟩
      · obtain ⟨⟨c, hc, hcall⟩, hprevious⟩ := h.done hdone
        exact ⟨⟨c, addClaim_old hc, hcall⟩, hprevious⟩
    slots := ⟨hs.base.slots.isolation, hs.base.slots.displaced⟩
    claims := {
      claims := fun key id hkey => by
        change (s.claims.set (token, operation) s.made.length).get? key = some id at hkey
        rw [Dict.get?_set] at hkey
        split at hkey
        · rename_i hk
          cases hkey
          refine ⟨_, addClaim_made.mpr (.inr ⟨rfl, rfl⟩), hk.symm, rfl, fun o ho => ?_⟩
          cases ho
        · obtain ⟨c, hc, hrest⟩ := hs.base.claims.claims key id hkey
          exact ⟨c, addClaim_old hc, hrest⟩
      scope := fun id c hc hon => by
        rcases addClaim_made.mp hc with hc | ⟨-, rfl⟩
        · exact hs.base.claims.scope id c hc hon
        · exact .inr ⟨(h.scope hon).1, (h.scope hon).2.1⟩
      unique := fun id id' c c' hc hc' hon hon' hsame => by
        rcases addClaim_made.mp hc with hc | ⟨rfl, rfl⟩ <;>
          rcases addClaim_made.mp hc' with hc' | ⟨rfl, rfl⟩
        · exact hs.base.claims.unique id id' c c' hc hc' hon hon' hsame
        · obtain ⟨hscope, -, hold⟩ := h.scope hon'
          exact absurd (hsame.trans hscope) (hold id c hc hon).ne
        · obtain ⟨hscope, -, hold⟩ := h.scope hon
          exact absurd (hsame.symm.trans hscope) (hold id' c' hc' hon').ne
        · rfl }
    timed := {
      made := fun id c hc => by
        rcases addClaim_made.mp hc with hc | ⟨-, rfl⟩
        · exact (hs.base.timed.made id c hc).trans (Nat.lt_succ_self _)
        · exact Nat.lt_succ_self _
      started := fun call p hp => (hs.base.timed.started call p hp).trans (Nat.lt_succ_self _)
      finished := fun call p callEnd at' hp hf =>
        (hs.base.timed.finished call p callEnd at' hp hf).trans (Nat.lt_succ_self _) } }
  guarded call p hp hon := by
    rcases hs.guarded call p hp hon with hover | ⟨c, hc, hkey⟩ | hdisplaced |
      ⟨newest, hnewest, hcovers⟩
    · exact .inl hover
    · refine .inr (.inl ⟨c, addClaim_old hc, ?_⟩)
      change (s.claims.set (token, operation) s.made.length).get? c.key = some p.claim
      rw [Dict.get?_set_ne _ _ fun hk => by cases h.fresh.symm.trans (hk ▸ hkey)]
      exact hkey
    · exact .inr (.inr (.inl hdisplaced))
    · refine .inr (.inr (.inr ⟨newest, hnewest, ?_⟩))
      refine Covers.congr ?_ ?_ hcovers <;> rfl

/-- What the earlier releases have seen stays, and the new claim has seen nothing. -/
theorem ReleasesOk.addClaim (hs : s.ReleasesOk) {token : EffectToken} {operation : LaneOperation}
    {deadline : Time} {id : ClaimId} {c : Claim}
    (hc : (s.addClaim token operation deadline).made[id]? = some c)
    (hop : c.operation = .forceReceive) :
    (s.addClaim token operation deadline).ReleaseOk c ∨
      id = s.made.length ∧ c = s.newClaim token operation deadline := by
  rcases addClaim_made.mp hc with hc | hnew
  · exact .inl ((hs id c hc hop).congr rfl rfl rfl rfl)
  · exact .inr hnew

/-! ## The isolation tasks of a release -/

/-- The tasks a release binds. -/
def boundTasks (s : Lane) : List TaskId :=
  let ons := s.active fun c => c.operation.IsOn
  let isolation := s.displaced.keys ++ (displaceEach ons s).1
  match (displaceEach ons s).2.isolation with
  | some newest => if newest.task ∈ isolation then isolation else isolation ++ [newest.task]
  | none => isolation

theorem bindIsolation_eq (s : Lane) (id : ClaimId) :
    s.bindIsolation id = Lane.modifyClaim (displaceEach (s.active fun c => c.operation.IsOn) s).2 id
      fun c => { c with isolation := s.boundTasks } := rfl

theorem mem_boundTasks {task : TaskId} {s' : Lane} {barriers : List TaskId}
    (hr : displaceEach (s.active fun c => c.operation.IsOn) s = (barriers, s'))
    (h : task ∈ s.displaced.keys ∨ task ∈ barriers ∨
      ∃ newest, s'.isolation = some newest ∧ newest.task = task) : task ∈ s.boundTasks := by
  rw [boundTasks, hr]
  dsimp only
  have hold : ∀ tasks : List TaskId, task ∈ tasks → task ∈
      match s'.isolation with
      | some newest => if newest.task ∈ tasks then tasks else tasks ++ [newest.task]
      | none => tasks := by
    intro tasks hmem
    split
    · split
      · exact hmem
      · exact List.mem_append_left _ hmem
    · exact hmem
  rcases h with hdisplaced | hbarrier | ⟨newest, hnewest, rfl⟩
  · exact hold _ (List.mem_append_left _ hdisplaced)
  · exact hold _ (List.mem_append_right _ hbarrier)
  · rw [hnewest]
    dsimp only
    split
    · assumption
    · exact List.mem_append_right _ (List.mem_singleton.mpr rfl)

/-- Once every ON is displaced, what guards a running one is among the tasks. -/
theorem bindIsolation_barred (hs : s.Held n) {call : CallId} {p : ProviderCall}
    (hp : s.calls[call]? = some p) (hon : p.operation.IsOn) :
    Over (displaceEach (s.active fun c => c.operation.IsOn) s).2 p ∨
      ∃ task ∈ s.boundTasks,
        Covers (displaceEach (s.active fun c => c.operation.IsOn) s).2 p task := by
  have h := displaceEach_displaces (s.active fun c => c.operation.IsOn) hs
  generalize hr : displaceEach (s.active fun c => c.operation.IsOn) s = r at *
  obtain ⟨barriers, s₁⟩ := r
  dsimp only at h ⊢
  have hcall : s₁.calls[call]? = some p := by
    rw [h.follows.calls]
    exact hp
  rcases h.held.guarded call p hcall hon with hover | ⟨c', hc', hkey⟩ | ⟨task, htask⟩ |
    ⟨newest, hnewest, hcovers⟩
  · exact .inl hover
  · -- Every ON that was in `_claims` has been displaced.
    obtain ⟨hold, hnot⟩ := h.claims c'.key p.claim hkey
    obtain ⟨c, hc, hop, -⟩ := hs.base.calls.claim call p hp
    refine absurd (List.mem_filter.mpr ⟨Dict.mem_values.mpr ⟨_, hold⟩, ?_⟩) hnot
    rw [hc]
    exact decide_eq_true (hop.symm ▸ hon)
  · obtain ⟨t, ht, hclaim, -⟩ := h.held.base.slots.displaced task _ htask
    refine .inr ⟨task, mem_boundTasks hr ?_, .own ht hclaim⟩
    exact (h.displaced task _ htask).imp (fun hold => Dict.mem_keys.mpr ⟨_, hold⟩) .inl
  · exact .inr ⟨newest.task, mem_boundTasks hr (.inr (.inr ⟨newest, hnewest, rfl⟩)), hcovers⟩

/-- A release takes the isolation tasks that are left, with its claim just added. -/
theorem Held.bindIsolation (hs : s.Held n) {id : ClaimId} {c : Claim} (hc : s.made[id]? = some c)
    (hop : c.operation = .forceReceive) (hd : c.driver = .created) (hnone : c.result = none)
    (hreleases : ∀ (i : ClaimId) (c' : Claim), s.made[i]? = some c' → c'.operation = .forceReceive →
      i ≠ id → s.ReleaseOk c') :
    (s.bindIsolation id).Ok n := by
  have h := displaceEach_displaces (s.active fun c => c.operation.IsOn) hs
  have hbarred := fun (call : CallId) (p : ProviderCall) (hp : s.calls[call]? = some p)
    (hon : p.operation.IsOn) => bindIsolation_barred hs hp hon
  rw [bindIsolation_eq]
  generalize (displaceEach (s.active fun c => c.operation.IsOn) s).2 = s₁ at *
  generalize s.boundTasks = tasks at *
  obtain ⟨c₁, hc₁, hk⟩ := h.follows.made id c hc
  have hdriver : c₁.driver = .created ∨ c₁.driver = .cancelled := by
    rcases hk.driver with ⟨hsame, -⟩ | ⟨hcancelled, -⟩
    · exact .inl (hsame.trans hd)
    · exact .inr hcancelled
  have hheld : (s₁.modifyClaim id fun c => { c with isolation := tasks }).Held n := by
    refine h.held.modifyClaim fun c₂ hc₂ => ?_
    cases hc₁.symm.trans hc₂
    refine ⟨rfl, rfl, rfl, rfl, rfl, fun again => h.held.base.calls.calling id c₁ again hc₁,
      h.held.base.calls.fresh id c₁ hc₁, fun _ => hk.operation.trans hop, fun hw => ?_,
      h.held.base.calls.running id c₁ hc₁,
      (h.held.base.claims.open_or_out hc₁).imp_left fun hopen => hopen.congr rfl rfl⟩
    change c₁.driver.Waits at hw
    rcases hdriver with hdriver | hdriver <;> rw [hdriver] at hw <;> exact hw.elim
  refine ⟨hheld, fun i c' hc' hop' => ?_⟩
  obtain ⟨c₂, hc₂, hc'⟩ := modifyClaim_made hc'
  by_cases hi : id = i
  · subst hi
    cases hc₁.symm.trans hc₂
    rw [if_pos rfl] at hc'
    subst hc'
    refine ReleaseOk.congr (s := s₁) ?_ rfl rfl rfl rfl
    refine ⟨fun call p hp hon hlt => ?_, fun hdr => ?_, fun o hdr => ?_, fun hdr => ?_,
      fun o hr hacc => ?_, fun o hdr => ?_⟩
    · rw [h.follows.calls] at hp
      exact hbarred call p hp hon
    · change c₁.driver = _ at hdr
      rcases hdriver with hd' | hd' <;> cases hd'.symm.trans hdr
    · change c₁.driver = _ at hdr
      rcases hdriver with hd' | hd' <;> cases hd'.symm.trans hdr
    · change c₁.driver = _ at hdr
      rcases hdriver with hd' | hd' <;> cases hd'.symm.trans hdr
    · change c₁.result = some o at hr
      rcases hk.driver with ⟨-, hsame⟩ | ⟨-, o', ho', hne⟩
      · cases (hsame.trans hnone).symm.trans hr
      · cases ho'.symm.trans hr
        exact absurd hacc hne
    · change c₁.driver = _ at hdr
      rcases hdriver with hd' | hd' <;> cases hd'.symm.trans hdr
  · rw [if_neg hi] at hc'
    subst hc'
    obtain ⟨c₃, hc₃, hk₃⟩ := h.follows.made_back hc₂
    have hrelease := hreleases i c₃ hc₃ (hk₃.operation.symm.trans hop') (Ne.symm hi)
    exact (h.follows.releaseOk hk₃ hrelease).congr rfl rfl rfl rfl

/-- `_claim` keeps the invariant. -/
theorem Ok.claim (hs : s.Ok s.moment) (token : EffectToken) (operation : LaneOperation)
    (deadline : Time) (current : Bool) :
    (s.claim token operation deadline current).2.Ok (s.moment + 1) := by
  have hsame := hs.mono (Nat.le_succ s.moment)
  rw [Lane.claim]
  split
  · exact hsame
  · split
    · exact hsame
    · dsimp only
      split
      · exact hsame
      · rename_i hscope
        split
        · exact hsame
        · rename_i hfresh
          obtain ⟨hraised, hfollows, hmax, hclaims⟩ := raiseScope_spec hs.held token.scope
          generalize s.raiseScope token.scope = s₁ at *
          generalize hstale : decide (token.scope < s.scope ∧ operation = .forceReceive) =
            stale at *
          obtain ⟨slots, releaseToken, htake, hslot, hon⟩ := takeSlot_eq s₁ token operation stale
          generalize s₁.takeSlot token operation stale = r at *
          obtain ⟨taken, s₂⟩ := r
          dsimp only at htake hon ⊢
          have hfollows₂ : Follows s₁ s₂ := by
            rw [htake]
            exact { Follows.refl s₁ with }
          have hunmoved₂ : Unmoved s₁ s₂ := by
            rw [htake]
            exact .refl s₁
          have hheld₂ : s₂.Held s.moment := by
            refine hraised.congr hfollows₂ hunmoved₂ ?_ ?_ ?_ ?_ (.inr ⟨?_, ?_⟩) <;> rw [htake]
            exact hslot
          have hreleases₂ := (hfollows.trans hfollows₂).releases hs.releases
          have hmoment := (hfollows.trans hfollows₂).moment
          split
          · exact Ok.mono ⟨hheld₂, hreleases₂⟩ (Nat.le_succ _)
          · rename_i htaken
            have htaken : taken = true := by simpa using htaken
            have hadmits : s₂.Admits token operation := by
              refine ⟨?_, fun hison => ?_⟩
              · rw [htake]
                by_contra hne
                obtain ⟨i, hi⟩ := Option.ne_none_iff_exists'.mp hne
                rw [hclaims _ i hi] at hfresh
                exact hfresh rfl
              · have hnot : operation ≠ .forceReceive := fun hop =>
                  not_isOn_forceReceive (hop ▸ hison)
                have hstale' : stale = false := by
                  rw [← hstale]
                  exact decide_eq_false fun h => hnot h.2
                obtain ⟨hfree, hset⟩ := hon htaken hstale' hison
                have htop : token.scope = s₁.scope := by
                  rw [hmax, eq_comm, max_eq_right_iff]
                  by_contra hlt
                  exact hscope ⟨not_le.mp hlt, by simp [hstale']⟩
                rw [htake]
                refine ⟨htop, hset, fun i c hc hison' => ?_⟩
                refine (hraised.base.claims.scope i c hc hison').resolve_right ?_
                rintro ⟨-, hsome⟩
                rw [hfree] at hsome
                cases hsome
            rw [← hmoment] at hheld₂ ⊢
            have hadded := hheld₂.addClaim hadmits deadline
            split
            · rename_i hop
              refine hadded.bindIsolation (addClaim_made.mpr (.inr ⟨rfl, rfl⟩)) hop rfl rfl
                fun i c' hc' hop' hi => ?_
              exact (hreleases₂.addClaim hc' hop').resolve_right fun h => hi h.1
            · rename_i hop
              refine ⟨hadded, fun i c' hc' hop' => ?_⟩
              refine (hreleases₂.addClaim hc' hop').resolve_right ?_
              rintro ⟨-, rfl⟩
              exact hop hop'

end Lane

end Rigplane.ManagedTx
