import Rigplane.ManagedTx.EffectLaneGuards

/-!
# The drivers of the lane

A driver takes a claim from its first provider call to its result.  Each section of it keeps
`Ok`: a claim that settles has seen its call through or leaves an isolation task behind
(`Ok.finish`), a call that starts is a call of a claim in `_claims` (`Ok.startedCall`), and a
release goes on to its repeated call only when the isolation tasks it waited for are over
(`Ok.afterIsolation`).
-/

namespace Rigplane.ManagedTx

namespace Lane

variable {s s' m : Lane} {n n' : Nat}

/-! ## Frames -/

theorem TimedBy.mono (hs : s.TimedBy n) (h : n ≤ n') : s.TimedBy n' where
  made id c hc := (hs.made id c hc).trans_le h
  started call p hp := (hs.started call p hp).trans_le h
  finished call p callEnd at' hp hf := (hs.finished call p callEnd at' hp hf).trans_le h

theorem Held.mono (hs : s.Held n) (h : n ≤ n') : s.Held n' :=
  ⟨{ hs.base with timed := hs.base.timed.mono h }, hs.guarded⟩

theorem Ok.mono (hs : s.Ok n) (h : n ≤ n') : s.Ok n' := ⟨hs.held.mono h, hs.releases⟩

/-- A lane that differs in nothing the records speak of, or has raised its scope. -/
theorem Held.congr (hs : s.Held n) (h : Follows s s') (hu : Unmoved s s')
    (htasks : s'.tasks = s.tasks) (hclaims : s'.claims = s.claims)
    (hdisplaced : s'.displaced = s.displaced) (hisolation : s'.isolation = s.isolation)
    (hscope : s.scope < s'.scope ∨ s'.scope = s.scope ∧
      ((s.slots.get? .on).isSome = true → (s'.slots.get? .on).isSome = true)) : s'.Held n where
  base := {
    calls := h.callsOk hs.base.calls
    tasks := fun task t ht => h.taskOk (hs.base.tasks task t (htasks ▸ ht))
    slots := by
      refine ⟨fun newest hnewest => ?_, fun task id htask => ?_⟩
      · rw [htasks]
        exact hs.base.slots.isolation newest (hisolation ▸ hnewest)
      · rw [htasks]
        exact hs.base.slots.displaced task id (hdisplaced ▸ htask)
    claims := {
      claims := fun key id hkey => by
        obtain ⟨c, hc, hck, hopen⟩ := hs.base.claims.claims key id (hclaims ▸ hkey)
        obtain ⟨c', hc', -⟩ := h.made id c hc
        obtain ⟨c₀, hc₀, hk, hdriver, hresult⟩ := hu id c' hc'
        cases hc.symm.trans hc₀
        exact ⟨c', hc', hk.key.trans hck, hopen.congr hdriver hresult⟩
      scope := fun id c' hc' hon => by
        obtain ⟨c, hc, hk, -⟩ := hu id c' hc'
        rw [hk.token]
        rcases hs.base.claims.scope id c hc (hk.operation ▸ hon) with hlt | ⟨heq, hslot⟩
        · rcases hscope with hraised | ⟨hsame, -⟩
          · exact .inl (hlt.trans hraised)
          · exact .inl (hsame ▸ hlt)
        · rcases hscope with hraised | ⟨hsame, hslots⟩
          · exact .inl (heq ▸ hraised)
          · exact .inr ⟨heq.trans hsame.symm, hslots hslot⟩
      unique := fun id id' c c' hc hc' hon hon' hsame => by
        obtain ⟨c₀, hc₀, hk, -⟩ := hu id c hc
        obtain ⟨c₀', hc₀', hk', -⟩ := hu id' c' hc'
        rw [hk.token, hk'.token] at hsame
        exact hs.base.claims.unique id id' c₀ c₀' hc₀ hc₀' (hk.operation ▸ hon)
          (hk'.operation ▸ hon') hsame }
    timed := h.timedBy hs.base.timed }
  guarded call p hp hon := by
    rw [h.calls] at hp
    exact h.guarded hclaims hdisplaced hisolation (hs.guarded call p hp hon)

theorem Ok.setOnLane (hs : s.Ok n) (holder : Option ClaimId) :
    Ok { s with onLane := holder } n := by
  have h : Follows s { s with onLane := holder } := { Follows.refl s with }
  exact ⟨hs.held.congr h (.refl s) rfl rfl rfl rfl (.inr ⟨rfl, id⟩), h.releases hs.releases⟩

/-- A claim whose driver, isolation tasks or result are written. -/
structure Alters (s : Lane) (id : ClaimId) (c c' : Claim) : Prop where
  token : c'.token = c.token
  operation : c'.operation = c.operation
  madeAt : c'.madeAt = c.madeAt
  provider : c'.provider = c.provider
  started : c'.started = c.started
  calling : ∀ again, c'.driver = .calling again → c'.started = true
  fresh : c'.driver = .created ∨ c'.driver = .queued → c'.provider = none
  isolation : c'.isolation ≠ [] → c'.operation = .forceReceive
  waits : c'.driver.Waits → c'.isolation ≠ []
  running : c'.driver ≠ .cancelled → c'.driver ≠ .ended → c'.result = none
  result : c'.Open ∨ ∀ key, s.claims.get? key ≠ some id

theorem Alters.key {id : ClaimId} {c c' : Claim} (h : Alters s id c c') : c'.key = c.key := by
  rw [Claim.key, h.token, h.operation]
  rfl

/-- The claim of that number is written, and the others are the same. -/
theorem modifyClaim_made {id : ClaimId} {f : Claim → Claim} {i : ClaimId} {c' : Claim}
    (h : (s.modifyClaim id f).made[i]? = some c') :
    ∃ c, s.made[i]? = some c ∧ c' = if id = i then f c else c := by
  rw [getElem?_modifyClaim] at h
  obtain ⟨c, hc, rfl⟩ := Option.map_eq_some_iff.mp h
  exact ⟨c, hc, rfl⟩

theorem modifyClaim_made_self {id : ClaimId} {f : Claim → Claim} {c : Claim}
    (h : s.made[id]? = some c) : (s.modifyClaim id f).made[id]? = some (f c) := by
  rw [getElem?_modifyClaim, h, Option.map_some, if_pos rfl]

/-- What a claim had that is written in place. -/
theorem alters_back {id : ClaimId} {f : Claim → Claim}
    (hf : ∀ c, s.made[id]? = some c → Alters s id c (f c)) {i : ClaimId} {c' : Claim}
    (h : (s.modifyClaim id f).made[i]? = some c') :
    ∃ c, s.made[i]? = some c ∧ c'.token = c.token ∧ c'.operation = c.operation ∧
      c'.madeAt = c.madeAt ∧ c'.provider = c.provider ∧ c'.started = c.started ∧
      (id = i ∧ Alters s id c c' ∨ id ≠ i ∧ c' = c) := by
  obtain ⟨c, hc, hc'⟩ := modifyClaim_made h
  by_cases hi : id = i
  · subst hi
    rw [if_pos rfl] at hc'
    subst hc'
    have ha := hf c hc
    exact ⟨c, hc, ha.token, ha.operation, ha.madeAt, ha.provider, ha.started, .inl ⟨rfl, ha⟩⟩
  · rw [if_neg hi] at hc'
    exact ⟨c, hc, by rw [hc'], by rw [hc'], by rw [hc'], by rw [hc'], by rw [hc'], .inr ⟨hi, hc'⟩⟩

theorem alters_made {id : ClaimId} {f : Claim → Claim}
    (hf : ∀ c, s.made[id]? = some c → Alters s id c (f c)) {i : ClaimId} {c : Claim}
    (h : s.made[i]? = some c) :
    ∃ c', (s.modifyClaim id f).made[i]? = some c' ∧ c'.token = c.token ∧
      c'.operation = c.operation ∧ c'.provider = c.provider ∧ c'.started = c.started := by
  refine ⟨if id = i then f c else c, by rw [getElem?_modifyClaim, h]; rfl, ?_⟩
  by_cases hi : id = i
  · subst hi
    rw [if_pos rfl]
    exact ⟨(hf c h).token, (hf c h).operation, (hf c h).provider, (hf c h).started⟩
  · rw [if_neg hi]
    exact ⟨rfl, rfl, rfl, rfl⟩

theorem Covers.congr (htasks : s'.tasks = s.tasks) (hpoisons : s'.poisons = s.poisons)
    {p : ProviderCall} {task : TaskId} (h : s.Covers p task) : s'.Covers p task := by
  induction h with
  | own ht claim => exact .own (htasks ▸ ht) claim
  | poison ht poison poisons generation =>
      exact .poison (htasks ▸ ht) poison (hpoisons.trans poisons) generation
  | previous ht hprevious _ ih => exact .previous (htasks ▸ ht) hprevious ih

theorem Held.modifyClaim (hs : s.Held n) {id : ClaimId} {f : Claim → Claim}
    (hf : ∀ c, s.made[id]? = some c → Alters s id c (f c)) : (s.modifyClaim id f).Held n where
  base := {
    calls := {
      claim := fun call p hp => by
        obtain ⟨c, hc, hop, hg, hstarted, hprovider⟩ := hs.base.calls.claim call p hp
        obtain ⟨c', hc', htoken, hop', hprovider', hstarted'⟩ := alters_made hf hc
        exact ⟨c', hc', hop'.trans hop, by rw [htoken, hg], hstarted'.trans hstarted,
          fun hon => hprovider'.trans (hprovider hon)⟩
      provider := fun i c' call hc' hcall => by
        obtain ⟨c, hc, -, -, -, hprovider, -⟩ := alters_back hf hc'
        exact hs.base.calls.provider i c call hc (hprovider ▸ hcall)
      started := fun i c' hc' hstarted => by
        obtain ⟨c, hc, -, -, -, hprovider, hstarted', -⟩ := alters_back hf hc'
        rw [hprovider]
        exact hs.base.calls.started i c hc (hstarted' ▸ hstarted)
      calling := fun i c' again hc' hd => by
        obtain ⟨c, hc, -, -, -, -, -, ⟨-, ha⟩ | ⟨-, rfl⟩⟩ := alters_back hf hc'
        · exact ha.calling again hd
        · exact hs.base.calls.calling i c' again hc hd
      fresh := fun i c' hc' hd => by
        obtain ⟨c, hc, -, -, -, -, -, ⟨-, ha⟩ | ⟨-, rfl⟩⟩ := alters_back hf hc'
        · exact ha.fresh hd
        · exact hs.base.calls.fresh i c' hc hd
      isolation := fun i c' hc' hne => by
        obtain ⟨c, hc, -, -, -, -, -, ⟨-, ha⟩ | ⟨-, rfl⟩⟩ := alters_back hf hc'
        · exact ha.isolation hne
        · exact hs.base.calls.isolation i c' hc hne
      waits := fun i c' hc' hd => by
        obtain ⟨c, hc, -, -, -, -, -, ⟨-, ha⟩ | ⟨-, rfl⟩⟩ := alters_back hf hc'
        · exact ha.waits hd
        · exact hs.base.calls.waits i c' hc hd
      running := fun i c' hc' hd hd' => by
        obtain ⟨c, hc, -, -, -, -, -, ⟨-, ha⟩ | ⟨-, rfl⟩⟩ := alters_back hf hc'
        · exact ha.running hd hd'
        · exact hs.base.calls.running i c' hc hd hd' }
    tasks := fun task t ht => by
      have h := hs.base.tasks task t ht
      refine ⟨?_, fun hdone => ?_, h.poisoned, h.failed, h.poisoning⟩
      · obtain ⟨c, call, hc, hon, hcall, hg⟩ := h.claim
        obtain ⟨c', hc', htoken, hop, hprovider, -⟩ := alters_made hf hc
        exact ⟨c', call, hc', hop ▸ hon, hprovider.trans hcall, by rw [htoken, hg]⟩
      · obtain ⟨⟨c, hc, call, hcall, hd⟩, hprevious⟩ := h.done hdone
        obtain ⟨c', hc', -, -, hprovider, -⟩ := alters_made hf hc
        exact ⟨⟨c', hc', call, hprovider.trans hcall, hd⟩, hprevious⟩
    slots := ⟨hs.base.slots.isolation, hs.base.slots.displaced⟩
    claims := {
      claims := fun key i hkey => by
        obtain ⟨c, hc, hck, hopen⟩ := hs.base.claims.claims key i hkey
        refine ⟨if id = i then f c else c, by rw [getElem?_modifyClaim, hc]; rfl, ?_⟩
        by_cases hi : id = i
        · subst hi
          rw [if_pos rfl]
          have ha := hf c hc
          exact ⟨ha.key.trans hck, ha.result.resolve_right fun hno => hno key hkey⟩
        · rw [if_neg hi]
          exact ⟨hck, hopen⟩
      scope := fun i c' hc' hon => by
        obtain ⟨c, hc, htoken, hop, -⟩ := alters_back hf hc'
        rw [htoken]
        exact hs.base.claims.scope i c hc (hop ▸ hon)
      unique := fun i i' c c' hc hc' hon hon' hsame => by
        obtain ⟨c₀, hc₀, htoken, hop, -⟩ := alters_back hf hc
        obtain ⟨c₀', hc₀', htoken', hop', -⟩ := alters_back hf hc'
        rw [htoken, htoken'] at hsame
        exact hs.base.claims.unique i i' c₀ c₀' hc₀ hc₀' (hop ▸ hon) (hop' ▸ hon') hsame }
    timed := {
      made := fun i c' hc' => by
        obtain ⟨c, hc, -, -, hmade, -⟩ := alters_back hf hc'
        rw [hmade]
        exact hs.base.timed.made i c hc
      started := hs.base.timed.started
      finished := hs.base.timed.finished } }
  guarded call p hp hon := by
    rcases hs.guarded call p hp hon with hover | ⟨c, hc, hkey⟩ | hdisplaced |
      ⟨newest, hnewest, hcovers⟩
    · exact .inl hover
    · obtain ⟨c', hc', htoken, hop, -⟩ := alters_made hf hc
      refine .inr (.inl ⟨c', hc', ?_⟩)
      rw [Claim.key, htoken, hop]
      exact hkey
    · exact .inr (.inr (.inl hdisplaced))
    · have h : (s.modifyClaim id f).Covers p newest.task := by
        refine Covers.congr ?_ ?_ hcovers <;> rfl
      exact .inr (.inr (.inr ⟨newest, hnewest, h⟩))

/-- A release sees the same in a lane with the same calls and tasks. -/
theorem ReleaseOk.congr {c : Claim} (hs : s.ReleaseOk c) (hcalls : s'.calls = s.calls)
    (htasks : s'.tasks = s.tasks) (hpoisons : s'.poisons = s.poisons)
    (hpoisoned : s'.poisoned = s.poisoned) : s'.ReleaseOk c := by
  have hclear : s.Clear c → s'.Clear c := fun h => by
    rw [Clear, hcalls, hpoisoned]
    exact h
  have hfailing : s.Failing c → s'.Failing c := fun h => by
    rw [Failing, htasks]
    exact h
  refine ⟨fun call p hp hon hlt => ?_, fun hd => (hs.calling hd).imp hfailing hclear,
    fun o hd ho => (hs.isolating o hd ho).imp hfailing hclear, fun hd => hclear (hs.repeating hd),
    fun o hr ho => hclear (hs.accepted o hr ho), hs.settling⟩
  rw [hcalls] at hp
  rw [Over, hpoisoned]
  refine (hs.barred call p hp hon hlt).imp_right ?_
  rintro ⟨task, hmem, h⟩
  exact ⟨task, hmem, h.congr htasks hpoisons⟩

/-- Writing a claim keeps the invariant, if a release has seen what it now says. -/
theorem Ok.modifyClaim (hs : s.Ok n) {id : ClaimId} {f : Claim → Claim}
    (hf : ∀ c, s.made[id]? = some c → Alters s id c (f c))
    (hrelease : ∀ c, s.made[id]? = some c → c.operation = .forceReceive → s.ReleaseOk (f c)) :
    (s.modifyClaim id f).Ok n := by
  refine ⟨hs.held.modifyClaim hf, fun i c' hc' hop => ?_⟩
  obtain ⟨c, hc, hc'⟩ := modifyClaim_made hc'
  by_cases hi : id = i
  · subst hi
    rw [if_pos rfl] at hc'
    subst hc'
    exact (hrelease c hc ((hf c hc).operation ▸ hop)).congr rfl rfl rfl rfl
  · rw [if_neg hi] at hc'
    subst hc'
    exact (hs.releases i c' hc hop).congr rfl rfl rfl rfl

/-! ## The end of a claim -/

theorem ClaimsOk.open_or_out (hs : s.ClaimsOk) {id : ClaimId} {c : Claim}
    (hc : s.made[id]? = some c) : c.Open ∨ ∀ key, s.claims.get? key ≠ some id := by
  by_cases h : ∃ key, s.claims.get? key = some id
  · obtain ⟨key, hkey⟩ := h
    obtain ⟨c', hc', -, hopen⟩ := hs.claims key id hkey
    cases hc.symm.trans hc'
    exact .inl hopen
  · exact .inr fun key hkey => h ⟨key, hkey⟩

theorem Ok.endDriver (hs : s.Ok n) {id : ClaimId} : (s.endDriver id).Ok n := by
  have hs' := hs.setOnLane (if s.onLane = some id then none else s.onLane)
  refine hs'.modifyClaim (fun c hc => ?_) fun c hc hop => ?_
  · refine ⟨rfl, rfl, rfl, rfl, rfl, nofun, ?_, hs.held.base.calls.isolation id c hc, ?_, ?_, ?_⟩
    · rintro (h | h) <;> cases h
    · exact fun h => h.elim
    · exact fun _ h => absurd rfl h
    · exact (hs'.held.base.claims.open_or_out hc).imp_left fun hopen => ⟨hopen.1, nofun⟩
  · have h := hs'.releases id c hc hop
    exact ⟨h.barred, nofun, nofun, nofun, h.accepted, nofun⟩

/-- A claim that is out of `_claims` settles. -/
theorem Held.setResult (hs : s.Held n) (hrel : s.ReleasesOk) {id : ClaimId} {c : Claim}
    (hc : s.made[id]? = some c) (hout : ∀ key, s.claims.get? key ≠ some id) {o : Outcome}
    (hacc : c.operation = .forceReceive → o.result = .accepted → s.Clear c) :
    (s.setResult id o).Ok n := by
  have hs' := (Ok.mk hs hrel).setOnLane (if s.onLane = some id then none else s.onLane)
  refine hs'.modifyClaim (fun c' hc' => ?_) fun c' hc' hop => ?_
  · refine ⟨rfl, rfl, rfl, rfl, rfl, nofun, ?_, hs.base.calls.isolation id c' hc', ?_, ?_,
      .inr hout⟩
    · rintro (h | h) <;> cases h
    · exact fun h => h.elim
    · exact fun _ h => absurd rfl h
  · cases hc.symm.trans hc'
    have h := hs'.releases id c hc' hop
    refine ⟨h.barred, nofun, nofun, nofun, fun o' ho' hacc' => ?_, nofun⟩
    cases hr : c.result with
    | some o₀ =>
        change c.result.or (some o) = some o' at ho'
        rw [hr] at ho'
        cases ho'
        exact h.accepted _ hr hacc'
    | none =>
        change c.result.or (some o) = some o' at ho'
        rw [hr] at ho'
        cases ho'
        exact hacc hop hacc'

theorem Base.erase (hs : s.Base n) (key : ClaimKey) :
    Base { s with claims := s.claims.erase key } n := by
  have h : Follows s { s with claims := s.claims.erase key } := { Follows.refl s with }
  refine ⟨h.callsOk hs.calls, fun task t ht => h.taskOk (hs.tasks task t ht),
    ⟨hs.slots.isolation, hs.slots.displaced⟩, ?_, h.timedBy hs.timed⟩
  refine hs.claims.follows h rfl rfl fun key' i hkey => ?_
  rw [Dict.get?_erase] at hkey
  split at hkey
  · cases hkey
  · refine ⟨hkey, fun c' hc' => ?_⟩
    obtain ⟨c₀, hc₀, -, hopen⟩ := hs.claims.claims key' i hkey
    cases hc₀.symm.trans hc'
    exact hopen

/-- A claim leaves `_claims` with its call over. -/
theorem Held.erase (hs : s.Held n) {id : ClaimId} {c : Claim} (hc : s.made[id]? = some c)
    (hover : ∀ (call : CallId) (p : ProviderCall), s.calls[call]? = some p → p.claim = id →
      p.operation.IsOn → s.Over p) :
    Held { s with claims := s.claims.erase c.key } n := by
  refine ⟨hs.base.erase c.key, fun call p hp hon => ?_⟩
  rcases (hs.guarded call p hp hon).erase hs.base.claims hc (hs.base.claim_isOn hp hon) with
    hguarded | hid
  · exact hguarded
  · exact .inl (hover call p hp hid hon)

theorem erase_out (hs : s.ClaimsOk) {id : ClaimId} {c : Claim} (hc : s.made[id]? = some c)
    (key : ClaimKey) : (s.claims.erase c.key).get? key ≠ some id := by
  intro hkey
  rw [Dict.get?_erase] at hkey
  split at hkey
  · cases hkey
  · rename_i hne
    obtain ⟨c', hc', hk, -⟩ := hs.claims key id hkey
    cases hc.symm.trans hc'
    exact hne hk.symm

/-- A timed-out ON gets an isolation task, and its driver waits for it. -/
theorem Ok.finishPoison (hs : s.Ok n) {id : ClaimId} {c : Claim} (hc : s.made[id]? = some c)
    (hnone : c.result = none) (hon : c.operation.IsOn) (hstarted : c.started = true)
    (o : Outcome) :
    (Lane.modifyClaim (Lane.isolateLocked { s with claims := s.claims.erase c.key } id
      c.token.providerGeneration true).2 id fun c => { c with driver := .finishing o }).Ok n := by
  obtain ⟨call, hcall⟩ := hs.held.base.calls.started id c hc hstarted
  have herase : Follows s { s with claims := s.claims.erase c.key } := { Follows.refl s with }
  have hbase := hs.held.base.erase c.key
  have h := isolateLocked_isolates hbase.tasks hbase.slots ⟨c, call, hc, hon, hcall, rfl⟩ true
  have hheld : Held _ n := ⟨h.base hbase, fun call p hp hon' => by
    rw [(herase.trans h.follows).calls] at hp
    rcases (hs.held.guarded call p hp hon').erase hs.held.base.claims hc
      (hs.held.base.claim_isOn hp hon') with hguarded | hid
    · exact h.guarded hbase.slots hguarded
    · obtain ⟨c', hc', -, hg, -⟩ := hs.held.base.calls.claim call p hp
      rw [hid] at hc'
      cases hc.symm.trans hc'
      exact h.guards hid hg.symm⟩
  refine Ok.modifyClaim ⟨hheld, (herase.trans h.follows).releases hs.releases⟩ (fun c' hc' => ?_)
    fun c' hc' hop => ?_
  · obtain ⟨c₀, hc₀, -, -, hresult⟩ := h.unmoved id c' hc'
    cases hc.symm.trans hc₀
    refine ⟨rfl, rfl, rfl, rfl, rfl, nofun, ?_, hheld.base.calls.isolation id c' hc', ?_, ?_, ?_⟩
    · rintro (h | h) <;> cases h
    · exact fun h => h.elim
    · exact fun _ _ => hresult.trans hnone
    · rw [h.claims]
      exact .inr (erase_out hs.held.base.claims hc)
  · obtain ⟨c₀, hc₀, hk, -⟩ := h.unmoved id c' hc'
    cases hc.symm.trans hc₀
    rw [← hk.operation, hop] at hon
    rcases hon with hon | hon <;> cases hon

/-- `_finish`, for a claim whose call has been seen through. -/
theorem Ok.finish (hs : s.Ok n) {id : ClaimId} {c : Claim} (hc : s.made[id]? = some c)
    {o : Outcome} {poison : Bool}
    (hpoison : poison = true → c.operation.IsOn ∧ c.started = true)
    (hover : poison = false → c.operation.IsOn → ∀ (call : CallId) (p : ProviderCall),
      s.calls[call]? = some p → p.claim = id → s.Over p)
    (hacc : c.operation = .forceReceive → o.result = .accepted → s.Clear c) :
    (s.finish id o poison).Ok n := by
  rw [Lane.finish, hc]
  dsimp only
  by_cases hresult : c.result.isSome = true
  · rw [if_pos hresult]
    exact hs.endDriver
  · rw [if_neg hresult]
    have hnone : c.result = none := by simpa using hresult
    cases poison with
    | true => exact hs.finishPoison hc hnone (hpoison rfl).1 (hpoison rfl).2 o
    | false =>
        have herased := hs.held.erase hc fun call p hp hid hon => by
          obtain ⟨c', hc', hop, -⟩ := hs.held.base.calls.claim call p hp
          rw [hid] at hc'
          cases hc.symm.trans hc'
          exact hover rfl (hop ▸ hon) call p hp hid
        have h : Follows s { s with claims := s.claims.erase c.key } := { Follows.refl s with }
        exact herased.setResult (h.releases hs.releases) hc (erase_out hs.held.base.claims hc) hacc

/-! ## The start of a provider call -/

/-- Every ON started before the claim is over. -/
def AllOver (s : Lane) (c : Claim) : Prop :=
  ∀ (call : CallId) (p : ProviderCall), s.calls[call]? = some p → p.operation.IsOn →
    p.startedAt < c.madeAt → s.Over p

/-- A call that starts now is none that an earlier claim waits for. -/
theorem startCall_calls {q : ProviderCall} {c : Claim} (hmade : c.madeAt ≤ q.startedAt)
    {call : CallId} {p : ProviderCall} (hp : (s.calls ++ [q])[call]? = some p)
    (hlt : p.startedAt < c.madeAt) : s.calls[call]? = some p := by
  rcases getElem?_concat_eq_some.mp hp with hp | ⟨-, rfl⟩
  · exact hp
  · omega

theorem Clear.start {q : ProviderCall} {c : Claim} (hmade : c.madeAt ≤ q.startedAt)
    (hcalls : s'.calls = s.calls ++ [q]) (hpoisoned : s'.poisoned = s.poisoned)
    (h : s.Clear c) : s'.Clear c := by
  intro call p hp hon hlt
  rw [hcalls] at hp
  rw [hpoisoned]
  refine (h call p (startCall_calls hmade hp hlt) hon hlt).imp_right ?_
  rintro ⟨last, q', callEnd, at', hlast, hq', hfinished, hbefore⟩
  refine ⟨last, q', callEnd, at', hlast, ?_, hfinished, hbefore⟩
  rw [hcalls]
  exact getElem?_concat_eq_some.mpr (.inl hq')

theorem ReleaseOk.start {q : ProviderCall} {c : Claim} (hs : s.ReleaseOk c)
    (hmade : c.madeAt ≤ q.startedAt) (hcalls : s'.calls = s.calls ++ [q])
    (htasks : s'.tasks = s.tasks) (hpoisons : s'.poisons = s.poisons)
    (hpoisoned : s'.poisoned = s.poisoned) : s'.ReleaseOk c := by
  have hclear : s.Clear c → s'.Clear c := Clear.start hmade hcalls hpoisoned
  have hfailing : s.Failing c → s'.Failing c := fun h => by
    rw [Failing, htasks]
    exact h
  refine ⟨fun call p hp hon hlt => ?_, fun hd => (hs.calling hd).imp hfailing hclear,
    fun o hd ho => (hs.isolating o hd ho).imp hfailing hclear, fun hd => hclear (hs.repeating hd),
    fun o hr ho => hclear (hs.accepted o hr ho), hs.settling⟩
  rw [hcalls] at hp
  rw [Over, hpoisoned]
  refine (hs.barred call p (startCall_calls hmade hp hlt) hon hlt).imp_right ?_
  rintro ⟨task, hmem, h⟩
  exact ⟨task, hmem, h.congr htasks hpoisons⟩

theorem startedCall_back {id : ClaimId} {c : Claim} (hc : s.made[id]? = some c) {d : Driver}
    {i : ClaimId} {c' : Claim} (h : (s.startedCall id c d).made[i]? = some c') :
    i = id ∧ c' = Claim.calling c s.calls.length d ∨ i ≠ id ∧ s.made[i]? = some c' := by
  obtain ⟨c₀, hc₀, hc'⟩ := modifyClaim_made h
  by_cases hi : id = i
  · subst hi
    cases hc.symm.trans hc₀
    rw [if_pos rfl] at hc'
    exact .inl ⟨rfl, hc'⟩
  · rw [if_neg hi] at hc'
    subst hc'
    exact .inr ⟨Ne.symm hi, hc₀⟩

theorem startedCall_self {id : ClaimId} {c : Claim} (hc : s.made[id]? = some c) (d : Driver) :
    (s.startedCall id c d).made[id]? = some (Claim.calling c s.calls.length d) :=
  modifyClaim_made_self (s := { s with calls := s.calls ++ [s.callOf id c] }) hc

theorem startedCall_ne {id i : ClaimId} (hi : i ≠ id) (c : Claim) (d : Driver) :
    (s.startedCall id c d).made[i]? = s.made[i]? := by
  rw [startedCall, getElem?_modifyClaim]
  simp [Ne.symm hi]

theorem startedCall_callDone {id : ClaimId} {c : Claim} {d : Driver} {call : CallId}
    (h : s.CallDone call) : (s.startedCall id c d).CallDone call := by
  obtain ⟨p, hp, hfinished⟩ := h
  exact ⟨p, getElem?_concat_eq_some.mpr (.inl hp), hfinished⟩

theorem CallsOk.startedCall (hs : s.CallsOk) {id : ClaimId} {c : Claim} (hc : s.made[id]? = some c)
    (hnone : c.result = none) {d : Driver} (hfirst : c.operation.IsOn → c.provider = none)
    (hd : ∃ again, d = .calling again ∨ ∃ error, d = .repeating error)
    (hwaits : d.Waits → c.isolation ≠ []) : (s.startedCall id c d).CallsOk where
  claim call p hp := by
    rcases getElem?_concat_eq_some.mp hp with hp | ⟨rfl, rfl⟩
    · obtain ⟨c₀, hc₀, hop, hg, hstarted, hprovider⟩ := hs.claim call p hp
      by_cases hi : p.claim = id
      · rw [hi] at hc₀ ⊢
        cases hc.symm.trans hc₀
        refine ⟨_, startedCall_self hc d, hop, hg, rfl, fun hon => ?_⟩
        cases (hfirst (hop ▸ hon)).symm.trans (hprovider hon)
      · exact ⟨c₀, by rw [startedCall_ne hi]; exact hc₀, hop, hg, hstarted, hprovider⟩
    · exact ⟨_, startedCall_self hc d, rfl, rfl, rfl, fun _ => rfl⟩
  provider i c' call hc' hcall := by
    rcases startedCall_back hc hc' with ⟨rfl, rfl⟩ | ⟨hi, hc'⟩
    · cases hcall
      exact ⟨_, getElem?_concat_eq_some.mpr (.inr ⟨rfl, rfl⟩), rfl⟩
    · obtain ⟨p, hp, hclaim⟩ := hs.provider i c' call hc' hcall
      exact ⟨p, getElem?_concat_eq_some.mpr (.inl hp), hclaim⟩
  started i c' hc' hstarted := by
    rcases startedCall_back hc hc' with ⟨rfl, rfl⟩ | ⟨hi, hc'⟩
    · exact ⟨_, rfl⟩
    · exact hs.started i c' hc' hstarted
  calling i c' again hc' hcalling := by
    rcases startedCall_back hc hc' with ⟨rfl, rfl⟩ | ⟨hi, hc'⟩
    · rfl
    · exact hs.calling i c' again hc' hcalling
  fresh i c' hc' hfresh := by
    rcases startedCall_back hc hc' with ⟨rfl, rfl⟩ | ⟨hi, hc'⟩
    · obtain ⟨again, rfl | ⟨error, rfl⟩⟩ := hd <;> rcases hfresh with h | h <;> cases h
    · exact hs.fresh i c' hc' hfresh
  isolation i c' hc' hne := by
    rcases startedCall_back hc hc' with ⟨rfl, rfl⟩ | ⟨hi, hc'⟩
    · exact hs.isolation i c hc hne
    · exact hs.isolation i c' hc' hne
  waits i c' hc' hw := by
    rcases startedCall_back hc hc' with ⟨rfl, rfl⟩ | ⟨hi, hc'⟩
    · exact hwaits hw
    · exact hs.waits i c' hc' hw
  running i c' hc' hd hd' := by
    rcases startedCall_back hc hc' with ⟨rfl, rfl⟩ | ⟨hi, hc'⟩
    · exact hnone
    · exact hs.running i c' hc' hd hd'

theorem TaskOk.startedCall {t : Isolation} (ht : s.TaskOk t) {id : ClaimId} {c : Claim}
    (hc : s.made[id]? = some c) (hfirst : c.operation.IsOn → c.provider = none) (d : Driver) :
    (s.startedCall id c d).TaskOk t := by
  -- The claim of an isolation task has its call already.
  obtain ⟨c₀, call, hc₀, hon, hcall, hg⟩ := ht.claim
  have hne : t.claim ≠ id := by
    intro hi
    rw [hi] at hc₀
    cases hc.symm.trans hc₀
    cases (hfirst hon).symm.trans hcall
  have hmade : (s.startedCall id c d).made[t.claim]? = some c₀ := by
    rw [startedCall_ne hne]
    exact hc₀
  refine ⟨⟨c₀, call, hmade, hon, hcall, hg⟩, fun hdone => ?_, ht.poisoned, ht.failed, ht.poisoning⟩
  obtain ⟨⟨c₁, hc₁, call', hcall', hd'⟩, hprevious⟩ := ht.done hdone
  cases hc₀.symm.trans hc₁
  exact ⟨⟨c₀, hmade, call', hcall', startedCall_callDone hd'⟩, hprevious⟩

theorem ClaimsOk.startedCall (hs : s.ClaimsOk) {id : ClaimId} {c : Claim}
    (hc : s.made[id]? = some c) {d : Driver}
    (hd : ∃ again, d = .calling again ∨ ∃ error, d = .repeating error) :
    (s.startedCall id c d).ClaimsOk where
  claims key i hkey := by
    obtain ⟨c₀, hc₀, hk, hr⟩ := hs.claims key i hkey
    by_cases hi : i = id
    · subst hi
      cases hc.symm.trans hc₀
      refine ⟨_, startedCall_self hc d, hk, hr.1, fun o ho => ?_⟩
      obtain ⟨again, rfl | ⟨error, rfl⟩⟩ := hd <;> cases ho
    · exact ⟨c₀, by rw [startedCall_ne hi]; exact hc₀, hk, hr⟩
  scope i c' hc' hon := by
    rcases startedCall_back hc hc' with ⟨rfl, rfl⟩ | ⟨hi, hc'⟩
    · exact hs.scope i c hc hon
    · exact hs.scope i c' hc' hon
  unique i i' c₁ c₂ h₁ h₂ hon₁ hon₂ hsame := by
    rcases startedCall_back hc h₁ with ⟨rfl, rfl⟩ | ⟨hi, hold₁⟩ <;>
      rcases startedCall_back hc h₂ with ⟨rfl, rfl⟩ | ⟨hi', hold₂⟩
    · rfl
    · exact hs.unique i i' c c₂ hc hold₂ hon₁ hon₂ hsame
    · exact hs.unique i i' c₁ c hold₁ hc hon₁ hon₂ hsame
    · exact hs.unique i i' c₁ c₂ hold₁ hold₂ hon₁ hon₂ hsame

theorem TimedBy.startedCall (hs : s.TimedBy s.moment) {id : ClaimId} {c : Claim}
    (hc : s.made[id]? = some c) (d : Driver) : (s.startedCall id c d).TimedBy (s.moment + 1) where
  made i c' hc' := by
    rcases startedCall_back hc hc' with ⟨rfl, rfl⟩ | ⟨hi, hc'⟩
    · exact (hs.made i c hc).trans (Nat.lt_succ_self _)
    · exact (hs.made i c' hc').trans (Nat.lt_succ_self _)
  started call p hp := by
    rcases getElem?_concat_eq_some.mp hp with hp | ⟨-, rfl⟩
    · exact (hs.started call p hp).trans (Nat.lt_succ_self _)
    · exact Nat.lt_succ_self _
  finished call p callEnd at' hp hf := by
    rcases getElem?_concat_eq_some.mp hp with hp | ⟨-, rfl⟩
    · exact (hs.finished call p callEnd at' hp hf).trans (Nat.lt_succ_self _)
    · cases hf

/-- A call is guarded after another has started. -/
theorem Guarded.startedCall {p : ProviderCall} (hp : s.Guarded p) {id : ClaimId} {c : Claim}
    (hc : s.made[id]? = some c) (d : Driver) : (s.startedCall id c d).Guarded p := by
  rcases hp with hover | ⟨c₀, hc₀, hkey⟩ | hdisplaced | ⟨newest, hnewest, hcovers⟩
  · exact .inl hover
  · refine .inr (.inl ?_)
    by_cases hi : p.claim = id
    · rw [hi] at hc₀ hkey ⊢
      cases hc.symm.trans hc₀
      exact ⟨_, startedCall_self hc d, hkey⟩
    · exact ⟨c₀, by rw [startedCall_ne hi]; exact hc₀, hkey⟩
  · exact .inr (.inr (.inl hdisplaced))
  · have h : (s.startedCall id c d).Covers p newest.task := by
      refine Covers.congr ?_ ?_ hcovers <;> rfl
    exact .inr (.inr (.inr ⟨newest, hnewest, h⟩))

/-- What a release has seen, once its call has started: all that was over is over before
the call. -/
theorem AllOver.clear (hs : s.TimedBy s.moment) {id : ClaimId} {c : Claim}
    (hc : s.made[id]? = some c) (h : s.AllOver c) (d : Driver) :
    (s.startedCall id c d).Clear (Claim.calling c s.calls.length d) := by
  intro call p hp hon hlt
  have hold := startCall_calls (hs.made id c hc).le hp hlt
  rcases h call p hold hon hlt with hfinished | hpoisoned
  · obtain ⟨⟨callEnd, at'⟩, hfinished⟩ := Option.isSome_iff_exists.mp hfinished
    exact .inr ⟨_, s.callOf id c, callEnd, at', rfl,
      getElem?_concat_eq_some.mpr (.inr ⟨rfl, rfl⟩), hfinished,
      hs.finished call p callEnd at' hold hfinished⟩
  · exact .inl hpoisoned

/-- A provider call starts.  An ON must be in `_claims` and have no call yet; a release must
have seen what its driver now says. -/
theorem Ok.startedCall (hs : s.Ok s.moment) {id : ClaimId} {c : Claim} (hc : s.made[id]? = some c)
    (hnone : c.result = none) {d : Driver}
    (hactive : c.operation.IsOn → s.claims.get? c.key = some id)
    (hfirst : c.operation.IsOn → c.provider = none)
    (hd : ∃ again, d = .calling again ∨ ∃ error, d = .repeating error)
    (hwaits : d.Waits → c.isolation ≠ [])
    (hcalling : c.operation = .forceReceive → d = .calling false → s.Failing c ∨ s.AllOver c)
    (hrepeating : c.operation = .forceReceive → d = .repeating none → s.AllOver c) :
    (s.startedCall id c d).Ok (s.moment + 1) := by
  have hbase := hs.held.base
  refine ⟨⟨⟨hbase.calls.startedCall hc hnone hfirst hd hwaits,
    fun task t ht => (hbase.tasks task t ht).startedCall hc hfirst d,
    ⟨hbase.slots.isolation, hbase.slots.displaced⟩, hbase.claims.startedCall hc hd,
    hbase.timed.startedCall hc d⟩, fun call p hp hon => ?_⟩, fun i c' hc' hop => ?_⟩
  · rcases getElem?_concat_eq_some.mp hp with hp | ⟨-, rfl⟩
    · exact (hs.held.guarded call p hp hon).startedCall hc d
    · exact .inr (.inl ⟨_, startedCall_self hc d, hactive hon⟩)
  · rcases startedCall_back hc hc' with ⟨rfl, rfl⟩ | ⟨hi, hc'⟩
    · have h := hs.releases i c hc hop
      have hmade := (hbase.timed.made i c hc).le
      refine ⟨fun call p hp hon hlt => ?_, fun hcall => ?_, fun o ho => ?_, fun hrepeat => ?_,
        fun o ho => ?_, fun o ho => ?_⟩
      · refine (h.barred call p (startCall_calls hmade hp hlt) hon hlt).imp_right ?_
        rintro ⟨task, hmem, hcovers⟩
        refine ⟨task, hmem, ?_⟩
        refine Covers.congr ?_ ?_ hcovers <;> rfl
      · exact (hcalling hop hcall).imp id fun hall => AllOver.clear hbase.timed hc hall d
      · obtain ⟨again, rfl | ⟨error, rfl⟩⟩ := hd <;> cases ho
      · exact AllOver.clear hbase.timed hc (hrepeating hop hrepeat) d
      · cases hnone.symm.trans ho
      · obtain ⟨again, rfl | ⟨error, rfl⟩⟩ := hd <;> cases ho
    · exact (hs.releases i c' hc' hop).start (q := s.callOf id c)
        (hbase.timed.made i c' hc').le rfl rfl rfl rfl

/-! ## Drivers -/

theorem not_isOn_forceReceive : ¬ LaneOperation.forceReceive.IsOn := by decide

/-- `_invoke`, once the wait for the isolation tasks is behind it. -/
theorem Ok.afterRepeat (hs : s.Ok n) {id : ClaimId} {c : Claim} (hc : s.made[id]? = some c)
    (hop : c.operation = .forceReceive) {error : Option String} {o : Outcome}
    (hacc : error = none → o.result = .accepted → s.Clear c) :
    (s.afterRepeat id error o).Ok n := by
  have hnot : ¬ c.operation.IsOn := hop ▸ not_isOn_forceReceive
  cases error with
  | none => exact hs.finish hc nofun (fun _ hon => absurd hon hnot) fun _ => hacc rfl
  | some text => exact hs.finish hc nofun (fun _ hon => absurd hon hnot) fun _ h => by cases h

/-- `_invoke`, once the first call is behind it. -/
theorem Ok.afterCall (hs : s.Ok n) {id : ClaimId} {c : Claim} (hc : s.made[id]? = some c)
    (hnone : c.result = none) {again : Bool} {o : Outcome}
    (hagain : again = true → c.isolation ≠ [])
    (hstarted : c.operation.IsOn → o.timedOut = true → c.started = true)
    (hover : c.operation.IsOn → o.timedOut = false → ∀ (call : CallId) (p : ProviderCall),
      s.calls[call]? = some p → p.claim = id → s.Over p)
    (hclear : c.operation = .forceReceive → again = false → o.result = .accepted →
      s.Failing c ∨ s.Clear c) :
    (s.afterCall id c again o).Ok n := by
  rw [Lane.afterCall]
  by_cases hempty : c.isolation = []
  · rw [if_pos (by rw [hempty]; rfl)]
    have hfirst : again = false := by
      cases again with
      | false => rfl
      | true => exact absurd hempty (hagain rfl)
    refine hs.finish hc (fun hpoison => ?_) (fun hpoison hon => ?_) fun hop hacc => ?_
    · obtain ⟨hon, htimed⟩ := of_decide_eq_true hpoison
      exact ⟨hon, hstarted hon htimed⟩
    · have htimed : o.timedOut = false := by
        cases h : o.timedOut with
        | false => rfl
        | true => exact absurd ⟨hon, h⟩ (of_decide_eq_false hpoison)
      exact hover hon htimed
    · refine (hclear hop hfirst hacc).resolve_left ?_
      rintro ⟨task, hmem, -⟩
      rw [hempty] at hmem
      cases hmem
  · rw [if_neg (by simpa using hempty)]
    refine hs.modifyClaim (fun c' hc' => ?_) fun c' hc' hop => ?_
    · cases hc.symm.trans hc'
      refine ⟨rfl, rfl, rfl, rfl, rfl, nofun, ?_, hs.held.base.calls.isolation id c hc,
        fun _ => hempty, fun _ _ => hnone, .inl ⟨hnone, nofun⟩⟩
      rintro (h | h) <;> cases h
    · cases hc.symm.trans hc'
      have h := hs.releases id c hc hop
      refine ⟨h.barred, nofun, fun o' ho' hacc => ?_, nofun, h.accepted, nofun⟩
      cases ho'
      exact hclear hop rfl hacc

/-- With every isolation task done a release has seen the calls before it, or a failure. -/
theorem ReleaseOk.allOver (hs : s.Base n) (hlost : s.NoneSwallowed) {c : Claim}
    (hr : s.ReleaseOk c) (hdone : ∀ task ∈ c.isolation, s.TaskDone task) :
    s.Failing c ∨ s.AllOver c := by
  by_cases hfailing : s.Failing c
  · exact .inl hfailing
  · refine .inr fun call p hp hon hlt => ?_
    rcases hr.barred call p hp hon hlt with hover | ⟨task, hmem, hcovers⟩
    · exact hover
    · obtain ⟨t, ht, hstate⟩ := hdone task hmem
      refine hcovers.over hs.calls hs.tasks hlost hp hon ht ?_
      cases h : t.state with
      | poisoning => exact absurd h hstate.1
      | waiting => exact absurd h hstate.2
      | done => rfl
      | failed error =>
          refine absurd ⟨task, hmem, t, ht, ?_⟩ hfailing
          rw [Isolation.error, h]
          rfl

theorem Ok.invoke (hs : s.Ok s.moment) (hlost : s.NoneSwallowed) {id : ClaimId} {c : Claim}
    (hc : s.made[id]? = some c) (hd : c.driver = .created ∨ c.driver = .queued)
    (reading : Reading) : (s.invoke id c reading).Ok (s.moment + 1) := by
  have hnone : c.result = none := by
    refine hs.held.base.calls.running id c hc ?_ ?_ <;>
      rcases hd with h | h <;> rw [h] <;> simp
  have hfirst := hs.held.base.calls.fresh id c hc hd
  have hnot : c.started = true → False := fun hstarted => by
    obtain ⟨call, hcall⟩ := hs.held.base.calls.started id c hc hstarted
    cases hfirst.symm.trans hcall
  have hcalls : ∀ (call : CallId) (p : ProviderCall), s.calls[call]? = some p → p.claim = id →
      s.Over p := fun call p hp hid => by
    obtain ⟨c', hc', -, -, hstarted, -⟩ := hs.held.base.calls.claim call p hp
    rw [hid] at hc'
    cases hc.symm.trans hc'
    exact (hnot hstarted).elim
  have hs' := hs.mono (Nat.le_succ s.moment)
  rw [Lane.invoke, if_neg (by rw [hnone]; simp)]
  split
  · exact hs'.finish hc nofun (fun _ _ => hcalls) fun _ h => by cases h
  · have hagain : decide (∃ task ∈ c.isolation, ¬ s.TaskDone task) = true → c.isolation ≠ [] := by
      intro h hempty
      obtain ⟨task, hmem, -⟩ := of_decide_eq_true h
      rw [hempty] at hmem
      cases hmem
    have hsame : ∀ again, c.operation = .forceReceive →
        decide (∃ task ∈ c.isolation, ¬ s.TaskDone task) = again → again = false →
          s.Failing c ∨ s.AllOver c := fun again hop hagain' hfalse => by
      refine (hs.releases id c hc hop).allOver hs.held.base hlost fun task hmem => ?_
      by_contra hpending
      rw [hfalse] at hagain'
      exact of_decide_eq_false hagain' ⟨task, hmem, hpending⟩
    dsimp only
    split
    · rename_i hcurrent
      rw [Lane.startCall, hc]
      refine hs.startedCall hc hnone (fun hon => ?_) (fun _ => hfirst) ⟨_, .inl rfl⟩ hagain
        (fun hop hcall => ?_) fun _ h => by cases h
      · obtain ⟨c', hc', hcur⟩ := hcurrent
        cases hc.symm.trans hc'
        rw [if_neg (fun hop : c.operation = .forceReceive => not_isOn_forceReceive
          (hop ▸ hon))] at hcur
        exact hcur.1
      · exact hsame _ hop rfl (Driver.calling.inj hcall)
    · refine hs'.afterCall hc hnone hagain (fun _ h => by cases h) (fun _ _ => hcalls)
        fun _ _ h => by cases h

/-- The wait found every task done, and none failed. -/
theorem isolationError_none {tasks : List TaskId} (h : s.isolationError tasks = none) :
    (∀ task ∈ tasks, s.TaskDone task) ∧
      ∀ task ∈ tasks, ∀ t : Isolation, s.tasks[task]? = some t → t.error = none := by
  rw [isolationError] at h
  split at h
  · cases h
  · rename_i hdone
    refine ⟨fun task hmem => ?_, fun task hmem t ht => ?_⟩
    · by_contra hpending
      exact hdone ⟨task, hmem, hpending⟩
    · have herror := List.findSome?_eq_none_iff.mp h task hmem
      rwa [ht] at herror

theorem Follows.allOver (h : Follows s s') {c c' : Claim} (hk : Kept c c') (hc : s.AllOver c) :
    s'.AllOver c' := by
  intro call p hp hon hlt
  rw [h.calls] at hp
  rw [hk.madeAt] at hlt
  exact (h.over p).mpr (hc call p hp hon hlt)

/-- `_invoke`, once the isolation tasks are behind it. -/
theorem Ok.afterIsolation (hs : s.Ok s.moment) (hlost : s.NoneSwallowed) {id : ClaimId} {c : Claim}
    (hc : s.made[id]? = some c) {again : Bool} {o : Outcome} (hd : c.driver = .isolating again o)
    (reading : Reading) : (s.afterIsolation id c again o reading).Ok (s.moment + 1) := by
  have hnone : c.result = none := by
    refine hs.held.base.calls.running id c hc ?_ ?_ <;> rw [hd] <;> simp
  have hne : c.isolation ≠ [] := hs.held.base.calls.waits id c hc (by rw [hd]; trivial)
  have hop := hs.held.base.calls.isolation id c hc hne
  have hr := hs.releases id c hc hop
  rw [Lane.afterIsolation]
  generalize herror : s.isolationError c.isolation = error
  -- After an error the calls that are left are poisoned, which keeps what the release saw.
  have hpoisoned : ∃ s₁, (if error.isSome = true then poisonEach c.isolation s else s) = s₁ ∧
      s₁.Held s.moment ∧ Follows s s₁ ∧ Unmoved s s₁ := by
    refine ⟨_, rfl, ?_⟩
    split
    · exact poisonEach_held c.isolation hs.held
    · exact ⟨hs.held, .refl s, .refl s⟩
  obtain ⟨s₁, hs₁, hheld, hfollows, hunmoved⟩ := hpoisoned
  rw [hs₁]
  obtain ⟨c₁, hc₁, -⟩ := hfollows.made id c hc
  obtain ⟨c₀, hc₀, hk, hd₁, hr₁⟩ := hunmoved id c₁ hc₁
  cases hc.symm.trans hc₀
  have hok : s₁.Ok s.moment := ⟨hheld, hfollows.releases hs.releases⟩
  have hok' := hok.mono (Nat.le_succ s.moment)
  have hop₁ := hk.operation.trans hop
  have hclear : error = none → s.Failing c ∨ s.AllOver c → s₁.AllOver c₁ := by
    intro hnoerror hall
    rw [hnoerror] at herror
    refine hfollows.allOver hk (hall.resolve_left ?_)
    rintro ⟨task, hmem, t, ht, hfailed⟩
    rw [(isolationError_none herror).2 task hmem t ht] at hfailed
    cases hfailed
  split
  · split
    · rw [Lane.startCall, hc₁]
      have hnot : ¬ c₁.operation.IsOn := hop₁ ▸ not_isOn_forceReceive
      rw [← hfollows.moment] at hok ⊢
      refine hok.startedCall hc₁ (hr₁.trans hnone) (fun hon => absurd hon hnot)
        (fun hon => absurd hon hnot) ⟨again, .inr ⟨error, rfl⟩⟩ (fun _ => hk.isolation ▸ hne)
        (fun _ h => by cases h) fun _ h => ?_
      have hnoerror := Driver.repeating.inj h
      refine hclear hnoerror (hr.allOver hs.held.base hlost ?_)
      exact (isolationError_none (hnoerror ▸ herror)).1
    · exact hok'.afterRepeat hc₁ hop₁ fun _ h => by cases h
  · rename_i hagain
    rw [Bool.not_eq_true] at hagain
    refine hok'.afterRepeat hc₁ hop₁ fun hnoerror hacc => ?_
    refine hfollows.clear hk ((hr.isolating o (hagain ▸ hd) hacc).resolve_left ?_)
    rintro ⟨task, hmem, t, ht, hfailed⟩
    rw [hnoerror] at herror
    rw [(isolationError_none herror).2 task hmem t ht] at hfailed
    cases hfailed

/-- The driver's wait for its call is over.  An ON whose wait ended in time has its call over. -/
theorem Ok.callOver (hs : s.Ok n) {id : ClaimId} {c : Claim} (hc : s.made[id]? = some c)
    {o : Outcome} (hover : o.timedOut = false → ∀ call ∈ c.provider, s.CallDone call)
    (h : s.callOver id c o = some s') : s'.Ok n := by
  rw [Lane.callOver] at h
  split at h
  · rename_i again hd
    cases h
    have hnone : c.result = none := by
      refine hs.held.base.calls.running id c hc ?_ ?_ <;> rw [hd] <;> simp
    refine hs.afterCall hc hnone (fun hagain => ?_) (fun hon _ => ?_) (fun hon htimed => ?_)
      fun hop hagain hacc => ?_
    · exact hs.held.base.calls.waits id c hc (by rw [hd]; exact hagain)
    · exact hs.held.base.calls.calling id c again hc hd
    · intro call p hp hid
      obtain ⟨c', hc', hop, -, -, hprovider⟩ := hs.held.base.calls.claim call p hp
      rw [hid] at hc'
      cases hc.symm.trans hc'
      obtain ⟨q, hq, hfinished⟩ := hover htimed call (hprovider (hop ▸ hon))
      cases hp.symm.trans hq
      exact .inl hfinished
    · exact (hs.releases id c hc hop).calling (hagain ▸ hd)
  · rename_i error hd
    cases h
    have hne : c.isolation ≠ [] := hs.held.base.calls.waits id c hc (by rw [hd]; trivial)
    have hop := hs.held.base.calls.isolation id c hc hne
    refine hs.afterRepeat hc hop fun hnoerror _ => ?_
    exact (hs.releases id c hc hop).repeating (hnoerror ▸ hd)
  · cases h

end Lane

end Rigplane.ManagedTx
