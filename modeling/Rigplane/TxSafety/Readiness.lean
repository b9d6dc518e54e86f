import Rigplane.TxSafety.Runs

/-!
# Attempts and the readiness of the provider

An attempt is started where the provider was found ready, or where a settled `WRITE_OFF` is read
back: there the supervisor does not look.  `Gate` is what makes the other places safe.  A lease that
is not being released is held under a ready provider, since its loss begins a release; and while the
`WRITE_OFF` of a lease is active, its release counts an attempt.

`Gives` says of a call what it leaves and what it starts; the results on runs follow from it.
-/

namespace Rigplane.TxSafety

namespace Supervisor

variable {c : Config} {s s' m : Supervisor} {op : Op} {effects : List TxEffect}

/-- The release of an active `WRITE_OFF` counts an attempt. -/
def Tried (s : Supervisor) : Prop :=
  ∀ a, s.active = some a → a.kind = .writeOff → s.lease.isSome →
    ∃ r, s.release = some r ∧ r.attempts ≠ 0

structure Gate (s : Supervisor) : Prop where
  attended : s.lease.isSome → s.release = none → s.ready = true
  tried : s.Tried

theorem Gate.initial : Gate {} where
  attended h := by cases h
  tried _ h := by cases h

/-- A `WRITE_OFF` that is done is settled, if its lease is still held, while
the provider is ready. -/
def ReadBackReady (s : Supervisor) : Op → Prop
  | .settleAttempt id generation true _ =>
      ∀ a ∈ s.active, s.Settles a id generation → a.kind = .writeOff → s.lease.isSome →
        s.ready = true
  | _ => True

instance (s : Supervisor) : (op : Op) → Decidable (s.ReadBackReady op)
  | .settleAttempt _ _ true _ => inferInstanceAs (Decidable (∀ _ ∈ _, _ → _ → _ → _))
  | .settleAttempt _ _ false _ | .replaceProvider .. | .setProviderReady .. | .observePtt _
  | .requestOn _ | .requestOff .. | .releaseOwner .. | .emergencyRelease _ | .forceUnkey .. | .tick
  | .retireDriver => .isTrue trivial

/-! ## Steps inside a call -/

/-- What a step leaves, and when the attempts among its effects may be started. -/
structure Starts (s s' : Supervisor) (effects : List TxEffect) : Prop where
  gate : s'.Gate
  ready : s'.ready = s.ready
  attempts : ∀ a, .attempt a ∈ effects → s.ready = true ∧ s'.generation = some a.providerGeneration

theorem beginRelease_frame {reason : TxReleaseReason} {now : Time} {error : Option String}
    (h : s.beginRelease reason now error = .ok m) : m.ready = s.ready ∧ m.lease = s.lease ∧
      m.active = s.active ∧ (s.lease.isSome → m.release.isSome) := by
  rw [beginRelease] at h
  split at h
  · rename_i hnone
    cases h
    refine ⟨rfl, rfl, rfl, fun hsome => ?_⟩
    rw [Option.isNone_iff_eq_none.mp hnone] at hsome
    cases hsome
  · rw [boundary] at h
    split at h
    · cases h
    · cases h
      exact ⟨rfl, rfl, rfl, fun _ => rfl⟩

/-- A release begins where there was none, so no `WRITE_OFF` of the lease is active. -/
theorem Tried.beginRelease (ht : s.Tried) (hnone : s.release = none) {reason : TxReleaseReason}
    {now : Time} {error : Option String} (h : s.beginRelease reason now error = .ok m) :
    m.Gate := by
  obtain ⟨-, hlease, hactive, hrelease⟩ := beginRelease_frame h
  constructor
  · intro hsome hempty
    rw [hlease] at hsome
    have hbegun := hrelease hsome
    rw [hempty] at hbegun
    cases hbegun
  · intro a ha hkind hsome
    rw [hactive] at ha
    rw [hlease] at hsome
    obtain ⟨r, hr, -⟩ := ht a ha hkind hsome
    rw [hnone] at hr
    cases hr

/-- Only the lane changes, to one that runs no `WRITE_OFF`. -/
theorem Gate.congr (hg : s.Gate) (hlease : s'.lease = s.lease) (hrelease : s'.release = s.release)
    (hready : s'.ready = s.ready)
    (hactive : ∀ a, s'.active = some a → s.active = some a ∨ a.kind ≠ .writeOff) : s'.Gate where
  attended hsome hnone := by
    rw [hlease] at hsome
    rw [hrelease] at hnone
    rw [hready]
    exact hg.attended hsome hnone
  tried a ha hkind hsome := by
    rw [hlease] at hsome
    rw [hrelease]
    rcases hactive a ha with ha | hother
    · exact hg.tried a ha hkind hsome
    · exact absurd hkind hother

theorem start_frame {kind : ProviderAttemptKind} {timeout now : Time} {a : ProviderAttempt}
    (h : s.start c kind timeout now = .ok (a, m)) : a.kind = kind ∧
      s.generation = some a.providerGeneration ∧ s.lease.isSome ∧
      m = { s with active := some a, cancelPending := none, idsMade := s.idsMade + 1 } := by
  rw [start] at h
  split at h
  · rename_i hgeneration hlease
    cases h
    refine ⟨rfl, hgeneration, ?_, rfl⟩
    rw [hlease]
    rfl
  · cases h

theorem serviceReleaseAt_starts_ready (hg : s.Gate) {force : Bool} {instant : Time}
    (h : s.serviceReleaseAt c force instant = .ok (effects, m)) : Starts s m effects := by
  rw [serviceReleaseAt] at h
  split at h
  · cases h
    exact ⟨hg, rfl, fun _ hmem => by cases hmem⟩
  · rename_i release hrelease
    split at h
    · cases h
      exact ⟨hg, rfl, fun _ hmem => by cases hmem⟩
    · rename_i hserviceable
      have hready : s.ready = true := (not_not.mp fun hnot => hserviceable (.inl hnot))
      cases hstart : s.start c .writeOff c.writeTimeout instant with
      | error e =>
          rw [hstart] at h
          cases h
      | ok started =>
          obtain ⟨a, n⟩ := started
          rw [hstart] at h
          cases h
          obtain ⟨-, hgeneration, -, rfl⟩ := start_frame hstart
          refine ⟨⟨fun _ hnone => ?_, fun b _ _ _ => ⟨_, rfl, Nat.succ_ne_zero _⟩⟩, rfl,
            fun b hb => ?_⟩
          · cases hnone
          · cases List.mem_singleton.mp hb
            exact ⟨hready, hgeneration⟩

theorem serviceRelease_starts_ready (hg : s.Gate) {force : Bool} {instant : Option Time}
    (h : s.serviceRelease c force instant = .ok (effects, m)) : Starts s m effects := by
  cases instant with
  | some instant => exact serviceReleaseAt_starts_ready hg h
  | none =>
      have hread : s.clockRead.Gate := hg.congr rfl rfl rfl fun _ ha => .inl ha
      obtain ⟨hgate, hready, hattempts⟩ := serviceReleaseAt_starts_ready hread h
      exact ⟨hgate, hready, hattempts⟩

theorem cancel_starts (hg : s.Gate) (attempt : ProviderAttempt) (now : Time) :
    Starts s (s.cancel c attempt now).2 (s.cancel c attempt now).1 := by
  rw [cancel]
  split
  · exact ⟨hg, rfl, fun _ hmem => by cases hmem⟩
  · refine ⟨hg.congr rfl rfl rfl fun _ ha => .inl ha, rfl, fun a hmem => ?_⟩
    cases List.mem_singleton.mp hmem

/-! ## Calls -/

/-- What a call leaves; it starts an attempt under a ready provider, or carelessly. -/
def Gives (careless : Prop) (r : Except TxSafetyError (TxTransition × Supervisor)) : Prop :=
  ∀ t s', r = .ok (t, s') → s'.Gate ∧ ∀ a, .attempt a ∈ t.effects →
    s'.generation = some a.providerGeneration ∧ (s'.ready = true ∨ careless)

variable {careless : Prop} {outcome : TxOutcome}

theorem Gives.quiet (hg : s.Gate) : Gives careless (.ok (s.result c outcome)) := by
  rintro t s' ⟨⟩
  exact ⟨hg, fun _ hmem => by cases hmem⟩

theorem Starts.gives (h : Starts s m effects) :
    Gives careless (.ok (m.result c outcome effects)) := by
  rintro t s' ⟨⟩
  refine ⟨h.gate, fun a hmem => ?_⟩
  obtain ⟨hready, hgeneration⟩ := h.attempts a hmem
  exact ⟨hgeneration, .inl (h.ready.trans hready)⟩

theorem Gives.service (hg : s.Gate) {force : Bool} {instant : Option Time} :
    Gives careless (do
      let (effects, s') ← s.serviceRelease c force instant
      return s'.result c outcome effects) := by
  cases h : s.serviceRelease c force instant with
  | error e =>
      rintro t s' ⟨⟩
  | ok served =>
      obtain ⟨effects, m⟩ := served
      exact (serviceRelease_starts_ready hg h).gives

theorem Gives.cancel (hg : s.Gate) {attempt : ProviderAttempt} {now : Time} :
    Gives careless (.ok (result c (s.cancel c attempt now).2 outcome (s.cancel c attempt now).1)) :=
  (cancel_starts hg attempt now).gives

/-- An attempt that is not a `WRITE_OFF` is started. -/
theorem Gives.start (hg : s.Gate) {kind : ProviderAttemptKind} (hkind : kind ≠ .writeOff)
    {timeout now : Time} (hready : s.ready = true ∨ careless) :
    Gives careless (do
      let (attempt, s') ← s.start c kind timeout now
      return s'.result c outcome [.attempt attempt]) := by
  cases h : s.start c kind timeout now with
  | error e => rintro t s' ⟨⟩
  | ok started =>
      obtain ⟨a, m⟩ := started
      rintro t s' ⟨⟩
      obtain ⟨hk, hgeneration, -, rfl⟩ := start_frame h
      refine ⟨hg.congr rfl rfl rfl fun b hb => ?_, fun b hmem => ?_⟩
      · cases hb
        rw [hk]
        exact .inr hkind
      · cases List.mem_singleton.mp hmem
        exact ⟨hgeneration, hready⟩

/-- A release begins, and what follows is done in its state. -/
theorem Gives.begin (hg : s.Gate) (hnone : s.release = none) {reason : TxReleaseReason} {now : Time}
    {error : Option String} {f : Supervisor → Except TxSafetyError (TxTransition × Supervisor)}
    (hf : ∀ m : Supervisor, m.Gate → Gives careless (f m)) :
    Gives careless (s.beginRelease reason now error >>= f) := by
  cases h : s.beginRelease reason now error with
  | error e => rintro t s' ⟨⟩
  | ok m => exact hf m (hg.tried.beginRelease hnone h)

theorem releaseCurrent_gives (hg : s.Gate) (reason : TxReleaseReason) :
    Gives careless (s.releaseCurrent c reason) := by
  rw [releaseCurrent]
  split
  · rename_i release hrelease
    refine Gives.quiet ⟨fun _ hnone => ?_, fun a ha hkind hsome => ?_⟩
    · cases hnone
    · obtain ⟨r, hr, hattempts⟩ := hg.tried a ha hkind hsome
      rw [hrelease] at hr
      cases hr
      exact ⟨_, rfl, hattempts⟩
  · rename_i hnone
    have hread : s.clockRead.Gate := hg.congr rfl rfl rfl fun _ ha => .inl ha
    refine Gives.begin hread hnone fun m hm => ?_
    split
    · exact Gives.cancel hm
    · exact Gives.service hm

/-- The control transport is lost: a lease is being released, ready or not. -/
theorem Tried.controlLost (ht : s.Tried) {now : Time} (h : s.controlLost now = .ok m) : m.Gate := by
  rw [Supervisor.controlLost] at h
  split at h
  · rename_i hheld
    exact ht.beginRelease (Option.isNone_iff_eq_none.mp hheld.2) h
  · rename_i hreleased
    cases h
    refine ⟨fun hsome hnone => absurd ⟨hsome, ?_⟩ hreleased, ht⟩
    rw [hnone]
    rfl

theorem replaceProvider_gives (hg : s.Gate) (generation : Int) (ready : Bool) :
    Gives careless (s.replaceProvider c generation ready) := by
  rw [replaceProvider]
  split
  · rintro t s' ⟨⟩
  split
  · exact Gives.quiet hg
  · have htried : (s.clockRead.reprovided generation ready).Tried := fun a ha => by cases ha
    have hbound : ∀ m, (s.clockRead.reprovided generation ready).rebindRelease (s.now c) = .ok m →
        m.Gate := by
      intro m h
      rw [rebindRelease] at h
      split at h
      · rename_i hnone
        cases h
        refine ⟨fun hsome => ?_, htried⟩
        rw [Option.isNone_iff_eq_none.mp hnone] at hsome
        cases hsome
      · cases hlost : (s.clockRead.reprovided generation ready).controlLost (s.now c) with
        | error e =>
            rw [hlost] at h
            cases h
        | ok n =>
            rw [hlost, ok_bind] at h
            have hn : n.Gate := htried.controlLost hlost
            cases hboundary : n.boundary (s.now c) with
            | error e =>
                rw [hboundary] at h
                cases h
            | ok b =>
                rw [hboundary] at h
                cases h
                constructor
                · intro hsome hnone
                  exact hn.attended hsome (Option.map_eq_none_iff.mp hnone)
                · intro a ha hkind hsome
                  obtain ⟨r, hr, hattempts⟩ := hn.tried a ha hkind hsome
                  refine ⟨{ r with boundary := b, retryDue := some (s.now c) }, ?_, hattempts⟩
                  exact congrArg (Option.map _) hr
    cases h : (s.clockRead.reprovided generation ready).rebindRelease (s.now c) with
    | error e => rintro t s' ⟨⟩
    | ok m => exact Gives.service (hbound m h)

theorem setProviderReady_gives (hg : s.Gate) (generation : Int) (ready : Bool) :
    Gives careless (s.setProviderReady c generation ready) := by
  rw [setProviderReady]
  split
  · exact Gives.quiet hg
  split
  · exact Gives.quiet hg
  split
  · have hready : ({ s.clockRead with ready := true } : Supervisor).Gate :=
      ⟨fun _ _ => rfl, hg.tried⟩
    exact Gives.service hready
  · have htried : s.clockRead.unready.Tried := hg.tried
    simp only
    cases h : s.clockRead.unready.controlLost (s.now c) with
    | error e => rintro t s' ⟨⟩
    | ok m =>
        have hm : m.Gate := htried.controlLost h
        simp only [ok_bind]
        split
        · exact Gives.cancel hm
        · exact Gives.quiet hm

theorem observePtt_gives (hg : s.Gate) (o : ProviderPttObservation) :
    Gives careless (s.observePtt c o) := by
  rw [observePtt]
  split
  · exact Gives.quiet hg
  simp only
  split
  · refine Gives.quiet ⟨fun hsome => ?_, fun _ _ _ hsome => ?_⟩
    · cases hsome
    · cases hsome
  · exact Gives.quiet (hg.congr rfl rfl rfl fun _ ha => .inl ha)

theorem requestOn_gives (hg : s.Gate) (owner : TxOwner) : Gives careless (s.requestOn c owner) := by
  rw [requestOn]
  split
  · exact Gives.quiet hg
  split
  · exact Gives.quiet hg
  split
  · exact Gives.quiet hg
  split
  · exact Gives.quiet hg
  split
  · exact Gives.quiet hg
  · rename_i hfree hready _
    have hready : s.ready = true := not_not.mp fun hnot => hready (.inl hnot)
    have hleased : ∀ b, ((s.clockRead.leaseTo c owner).acquired c b (s.now c)).Gate := by
      refine fun b => ⟨fun _ _ => hready, fun a ha => ?_⟩
      exact absurd (Option.isSome_iff_exists.mpr ⟨a, ha⟩) hfree
    simp only
    cases h : (s.clockRead.leaseTo c owner).boundary (s.now c) with
    | error e => rintro t s' ⟨⟩
    | ok b => exact Gives.start (hleased b) (by decide) (.inl hready)

theorem requestOff_gives (hg : s.Gate) (owner : TxOwner) (leaseId : String)
    (reason : TxReleaseReason) :
    Gives careless (s.requestOff c owner leaseId reason) := by
  rw [requestOff]
  split
  · exact Gives.quiet hg
  · exact releaseCurrent_gives hg reason

theorem releaseOwner_gives (hg : s.Gate) (owner : TxOwner) (reason : TxReleaseReason) :
    Gives careless (s.releaseOwner c owner reason) := by
  rw [releaseOwner]
  split
  · exact Gives.quiet hg
  · exact releaseCurrent_gives hg reason

theorem emergencyRelease_gives (hg : s.Gate) (reason : TxReleaseReason) :
    Gives careless (s.emergencyRelease c reason) := by
  rw [emergencyRelease]
  split
  · rintro t s' ⟨⟩
  split
  · exact releaseCurrent_gives hg reason
  · exact Gives.quiet hg

theorem forceUnkey_gives (hg : s.Gate) (owner : TxOwner) (reason : TxReleaseReason) :
    Gives careless (s.forceUnkey c owner reason) := by
  rw [forceUnkey]
  split
  · rintro t s' ⟨⟩
  split
  · exact Gives.quiet hg
  split
  · exact Gives.quiet hg
  split
  · exact Gives.quiet hg
  split
  · exact Gives.quiet hg
  · rename_i hrelease _ hfree hready
    have hleased : (s.clockRead.leaseTo c owner).Gate := by
      refine ⟨fun _ _ => not_not.mp fun hnot => hready (.inl hnot), fun a ha => ?_⟩
      exact absurd (Option.isSome_iff_exists.mpr ⟨a, ha⟩) hfree
    exact Gives.begin hleased (Option.not_isSome_iff_eq_none.mp hrelease) fun m hm =>
      Gives.service hm

theorem scheduleRetry_gate (hg : s.Gate) (error : String) : (s.scheduleRetry c error).Gate := by
  rw [scheduleRetry]
  split
  · exact hg
  · rename_i release hrelease
    refine ⟨fun _ hnone => ?_, fun a ha hkind hsome => ?_⟩
    · cases hnone
    · obtain ⟨r, hr, hattempts⟩ := hg.tried a ha hkind hsome
      rw [hrelease] at hr
      cases hr
      exact ⟨_, rfl, hattempts⟩

/-- The lane is free: what follows the settled attempt is gated but for the
read of a `WRITE_OFF`. -/
theorem settleLeased_gives (hg : s.Gate) (hlease : s.lease.isSome) (attempt : ProviderAttempt)
    (succeeded : Bool) (error : Option String) (now : Time)
    (hcareless : attempt.kind = .writeOff → succeeded = true → s.ready = true ∨ careless) :
    Gives careless (s.settleLeased c attempt succeeded error now) := by
  rw [settleLeased.eq_def]
  split
  · rename_i hkind hnone
    split
    · exact Gives.start hg (by decide) (.inl (hg.attended hlease hnone))
    · exact Gives.begin hg hnone fun m hm => Gives.service hm
  · exact Gives.service hg
  · rename_i hnone _
    split
    · exact Gives.begin hg hnone fun m hm => Gives.service hm
    · exact Gives.quiet hg
  · split
    · exact Gives.service hg
    split
    · rename_i hkind
      split
      · rename_i hdone
        exact Gives.start hg (by decide) (hcareless hkind hdone)
      · exact Gives.quiet (scheduleRetry_gate hg _)
    · exact Gives.quiet (scheduleRetry_gate hg _)

theorem settleAttempt_gives (hg : s.Gate) (attemptId : String) (generation : Int) (succeeded : Bool)
    (error : Option String) :
    Gives (¬ s.ReadBackReady (.settleAttempt attemptId generation succeeded error))
      (s.settleAttempt c attemptId generation succeeded error) := by
  rw [settleAttempt]
  split
  · exact Gives.quiet hg
  · rename_i attempt hactive
    have hfreed : s.clockRead.freed.Gate := hg.congr rfl rfl rfl fun _ ha => by cases ha
    split
    · exact Gives.quiet hg
    split
    · exact Gives.quiet hfreed
    · rename_i hsettles hheld
      have hlease : s.lease.isSome := Option.isSome_iff_ne_none.mpr fun hnone =>
        hheld (Option.isNone_iff_eq_none.mpr hnone)
      refine settleLeased_gives hfreed hlease attempt succeeded error _ fun hkind hdone => ?_
      subst hdone
      by_cases hready : s.ready = true
      · exact .inl hready
      · exact .inr fun hback => hready (hback attempt hactive (not_not.mp hsettles) hkind hlease)

/-- The watchdog cancels at most. -/
theorem watchdog_starts (hg : s.Gate) {now : Time} (h : s.watchdog c now = .ok (effects, m)) :
    Starts s m effects := by
  rw [watchdog] at h
  split at h
  · cases h
    exact ⟨hg, rfl, fun _ hmem => by cases hmem⟩
  · rename_i hdue
    have hnone : s.release = none := Option.isNone_iff_eq_none.mp (not_not.mp hdue).2.1
    cases hbegin : s.beginRelease .backendMaxKeyDown now with
    | error e =>
        rw [hbegin] at h
        cases h
    | ok n =>
        have hn : n.Gate := hg.tried.beginRelease hnone hbegin
        have hready : n.ready = s.ready := (beginRelease_frame hbegin).1
        rw [hbegin, ok_bind] at h
        split at h
        · rename_i attempt _
          have hcancel := cancel_starts (c := c) hn attempt now
          rw [Except.ok.inj h] at hcancel
          obtain ⟨hgate, hsame, hattempts⟩ := hcancel
          refine ⟨hgate, hsame.trans hready, fun a hmem => ?_⟩
          rw [← hready]
          exact hattempts a hmem
        · cases h
          exact ⟨hn, hready, fun _ hmem => by cases hmem⟩

theorem tick_gives (hg : s.Gate) : Gives careless (s.tick c) := by
  have hdriven : ({ s.clockRead with driven := true } : Supervisor).Gate :=
    hg.congr rfl rfl rfl fun _ ha => .inl ha
  rw [tick]
  simp only
  cases h : ({ s.clockRead with driven := true } : Supervisor).watchdog c (s.now c) with
  | error e => rintro t s' ⟨⟩
  | ok watched =>
      obtain ⟨effects, n⟩ := watched
      have hstarts := watchdog_starts hdriven h
      simp only [ok_bind]
      by_cases hnil : effects = []
      · simp only [if_pos hnil]
        cases hserve : n.serviceRelease c false (some (s.now c)) with
        | error e => rintro t s' ⟨⟩
        | ok served =>
            obtain ⟨effects', m⟩ := served
            exact (serviceRelease_starts_ready hstarts.gate hserve).gives
      · simp only [if_neg hnil]
        exact hstarts.gives

/-- Every call keeps the gate, and starts an attempt under a ready provider or carelessly. -/
theorem call_gives (hg : s.Gate) {t : Option TxTransition} (h : call c s op = .ok (t, s')) :
    s'.Gate ∧ ∀ a, .attempt a ∈ effectsOf t →
      s'.generation = some a.providerGeneration ∧ (s'.ready = true ∨ ¬ s.ReadBackReady op) := by
  have hmap : ∀ {r : Except TxSafetyError (TxTransition × Supervisor)},
      Gives (¬ s.ReadBackReady op) r → r.map (Prod.map some id) = .ok (t, s') →
      s'.Gate ∧ ∀ a, .attempt a ∈ effectsOf t →
        s'.generation = some a.providerGeneration ∧ (s'.ready = true ∨ ¬ s.ReadBackReady op) := by
    intro r hr hok
    cases r with
    | error e => cases hok
    | ok p =>
        cases hok
        exact hr p.1 p.2 rfl
  cases op with
  | replaceProvider g ready => exact hmap (replaceProvider_gives hg g ready) h
  | setProviderReady g ready => exact hmap (setProviderReady_gives hg g ready) h
  | observePtt o => exact hmap (observePtt_gives hg o) h
  | requestOn owner => exact hmap (requestOn_gives hg owner) h
  | requestOff owner l reason => exact hmap (requestOff_gives hg owner l reason) h
  | releaseOwner owner reason => exact hmap (releaseOwner_gives hg owner reason) h
  | emergencyRelease reason => exact hmap (emergencyRelease_gives hg reason) h
  | forceUnkey owner reason => exact hmap (forceUnkey_gives hg owner reason) h
  | settleAttempt a g ok error => exact hmap (settleAttempt_gives hg a g ok error) h
  | tick => exact hmap (tick_gives hg) h
  | retireDriver =>
      cases h
      exact ⟨hg.congr rfl rfl rfl fun _ ha => .inl ha, fun _ hmem => by cases hmem⟩

theorem Gate.step (hg : s.Gate) (h : step c s op = some s') : s'.Gate := by
  rw [TxSafety.step] at h
  split at h
  · rename_i hcall
    cases h
    exact (call_gives hg hcall).1
  · cases h
    exact hg
  · cases h

/-- An attempt among the effects of the call runs under the ready provider of the current
generation. -/
def Gated (c : Config) (s : Supervisor) (op : Op) : Prop :=
  ∀ t s' a, call c s op = .ok (some t, s') → .attempt a ∈ t.effects →
    s'.ready = true ∧ s'.generation = some a.providerGeneration

/-- The done `WRITE_OFF` of a lease is read back at once, whether the provider is ready or not. -/
theorem settle_reads_back (hs : s.Ok) (hg : s.Gate) (hcareless : ¬ s.ReadBackReady op) :
    ∃ t s' a, call c s op = .ok (some t, s') ∧ t.effects = [.attempt a] ∧ a.kind = .readPtt ∧
      s'.ready = false := by
  obtain ⟨id, generation, error, rfl⟩ : ∃ id generation error, op =
    .settleAttempt id generation true error := by
    cases op with
    | settleAttempt id generation succeeded error =>
        cases succeeded with
        | true => exact ⟨id, generation, error, rfl⟩
        | false => exact absurd trivial hcareless
    | _ => exact absurd trivial hcareless
  simp only [ReadBackReady, not_forall] at hcareless
  obtain ⟨a, hactive, hsettles, hkind, hlease, hready⟩ := hcareless
  obtain ⟨r, hr, hattempts⟩ := hg.tried a hactive hkind hlease
  have hcore : s.clockRead.freed.Core := hs.toCore.settled rfl rfl rfl fun h => h
  obtain ⟨read, m, hstart, hm⟩ := start_spec (c := c) hcore rfl hlease .readPtt
    (fun h => by cases h)
    c.readTimeout (s.now c)
  obtain ⟨-, -, -, hframe⟩ := start_frame hstart
  have hnot : ¬ s.lease.isNone := fun hnone => by
    rw [Option.isNone_iff_eq_none.mp hnone] at hlease
    cases hlease
  have hsettle : s.settleAttempt c id generation true error =
      .ok (m.result c .applied [.attempt read]) := by
    rw [settleAttempt, hactive]
    simp only [if_neg (not_not.mpr hsettles), if_neg hnot]
    rw [settleLeased.eq_def]
    have hr' : s.clockRead.freed.release = some r := hr
    simp only [hkind, hr', if_neg hattempts, if_true, hstart, ok_bind]
    rfl
  refine ⟨(m.result c .applied [.attempt read]).1, m, read, ?_, rfl, hm.kind, ?_⟩
  · rw [call, hsettle]
    rfl
  · rw [hframe]
    exact Bool.eq_false_of_not_eq_true hready

theorem gated_iff (hs : s.Ok) (hg : s.Gate) : Gated c s op ↔ s.ReadBackReady op := by
  constructor
  · intro hgated
    by_contra hcareless
    obtain ⟨t, s', a, hcall, heffects, -, hready⟩ := settle_reads_back (c := c) hs hg hcareless
    have hyes := (hgated t s' a hcall (by rw [heffects]; exact List.mem_singleton_self _)).1
    rw [hready] at hyes
    cases hyes
  · intro hback t s' a hcall hmem
    obtain ⟨hgeneration, hready | hcareless⟩ := (call_gives hg hcall).2 a hmem
    · exact ⟨hready, hgeneration⟩
    · exact absurd hback hcareless

end Supervisor

open Supervisor

variable {c : Config} {s : Supervisor}

/-- The calls of a run start attempts only under a ready provider. -/
structure RunGated (c : Config) (ops : List Op) : Prop where
  emitted : Runs.Along (step c) (Gated c) {} ops
  /-- From a loss of readiness on, a call that does not bring the readiness back starts nothing. -/
  paused : ∀ before generation between op after m n t n',
    ops = before ++ .setProviderReady generation false :: (between ++ op :: after) →
    Runs.exec (step c) {} (before ++ [.setProviderReady generation false]) = some m →
    Runs.exec (step c) m between = some n → call c n op = .ok (some t, n') → n'.ready = false →
    ∀ a, .attempt a ∉ t.effects

theorem gated_along_iff {ops : List Op} :
    Runs.Along (step c) (Gated c) {} ops ↔ Runs.Along (step c) ReadBackReady {} ops :=
  Runs.Along.congr (I := fun s => s.Ok ∧ s.Gate)
    (fun s op s' hi hstep => by
      obtain ⟨_, hspec⟩ := callSpec_of_step hi.1 hstep
      exact ⟨hspec.ok, hi.2.step hstep⟩)
    (fun s op hi => gated_iff hi.1 hi.2) ⟨Ok.initial, Gate.initial⟩

/-- Attempts wait for the provider exactly where each done `WRITE_OFF` is settled
under a ready one. -/
theorem attempts_gated_iff {ops : List Op} :
    RunGated c ops ↔ Runs.Along (step c) ReadBackReady {} ops := by
  constructor
  · exact fun h => gated_along_iff.mp h.emitted
  · intro h
    refine ⟨gated_along_iff.mpr h, ?_⟩
    rintro before generation between op after m n t n' rfl hm hn hcall hready a hmem
    have hgated := (gated_along_iff (c := c)).mpr h
    rw [List.append_cons] at hgated
    obtain ⟨-, hrest⟩ := hgated.append hm
    obtain ⟨-, hat⟩ := hrest.append hn
    have hyes := (hat.1 t n' a hcall hmem).1
    rw [hready] at hyes
    cases hyes

/-- The provider is lost while the `WRITE_OFF` of a release is active. -/
def offInFlight : List Op :=
  keyDown ++ [.settleAttempt "id" 1 true none, .settleAttempt "id" 1 true none,
    .requestOff .operator "id" .operatorRelease, .setProviderReady 1 false]

theorem read_back_unready : ¬ ∀ (c : Config) (ops : List Op), RunGated c ops := by
  intro h
  have hgated := (h .still (offInFlight ++ [.settleAttempt "id" 1 true none])).emitted
  exact absurd (gated_along_iff.mp hgated) (by decide +kernel)

end Rigplane.TxSafety
