import Rigplane.Lib.Runs
import Rigplane.TxSafety.Supervisor

/-!
# What a run of the transmit-safety supervisor guarantees

`Supervisor.Ok` is the invariant.  Its heart is the pair `unserved` and `served`: a
release that has made no attempt yet still holds the instant it is due, and one that
has made some holds it again as soon as no attempt is active.  So whichever call ends
the active attempt, the release either starts another or is due at a known instant.

`CallSpec` says once what a call can do.  It is assembled from `Internal`, which says
the same of the steps inside a call: they keep the lease, and start at most one attempt,
which is not a `WRITE_ON`.  The results on runs are read off `CallSpec` alone.
-/

namespace Rigplane.TxSafety

namespace Supervisor

/-! ## The invariant -/

/-- The part of the invariant that also holds while a call has settled the active attempt
and not yet decided what follows it. -/
structure Core (s : Supervisor) : Prop where
  /-- A release runs under a lease. -/
  leased : s.release.isSome → s.lease.isSome
  /-- A release without attempts still has its first instant. -/
  unserved : ∀ r, s.release = some r → r.attempts = 0 → r.retryDue.isSome
  /-- While the `WRITE_ON` is active the release has made no attempt. -/
  keying : ∀ a r, s.active = some a → a.kind = .writeOn → s.release = some r → r.attempts = 0
  /-- A lease was taken under a generation. -/
  leaseGeneration : s.lease.isSome → s.generation.isSome
  /-- The active attempt runs under the lease, if there still is one. -/
  activeLease : ∀ a l, s.active = some a → s.lease = some l → a.leaseId = l.id

/-- The invariant between calls. -/
structure Ok (s : Supervisor) : Prop extends Core s where
  /-- A release with no active attempt has an instant at which it is due. -/
  served : ∀ r, s.release = some r → s.active = none → r.retryDue.isSome

variable {s s' : Supervisor}

theorem Ok.initial : Ok {} where
  leased h := by cases h
  unserved _ h := by cases h
  keying _ _ h := by cases h
  leaseGeneration h := by cases h
  activeLease _ _ h := by cases h
  served _ h := by cases h

theorem Core.congr (hs : s.Core) (hl : s'.lease = s.lease) (hr : s'.release = s.release)
    (ha : s'.active = s.active) (hg : s'.generation = s.generation) : s'.Core where
  leased := by rw [hl, hr]; exact hs.leased
  unserved := by rw [hr]; exact hs.unserved
  keying := by rw [ha, hr]; exact hs.keying
  leaseGeneration := by rw [hl, hg]; exact hs.leaseGeneration
  activeLease := by rw [ha, hl]; exact hs.activeLease

theorem Ok.congr (hs : s.Ok) (hl : s'.lease = s.lease) (hr : s'.release = s.release)
    (ha : s'.active = s.active) (hg : s'.generation = s.generation) : s'.Ok where
  toCore := hs.toCore.congr hl hr ha hg
  served := by rw [hr, ha]; exact hs.served

/-- Without a release only the lease has anything to satisfy. -/
theorem Core.of_release_none (hr : s.release = none)
    (hg : s.lease.isSome → s.generation.isSome)
    (ha : ∀ a l, s.active = some a → s.lease = some l → a.leaseId = l.id) : s.Core where
  leased h := by rw [hr] at h; cases h
  unserved r h := by rw [hr] at h; cases h
  keying a r _ _ h := by rw [hr] at h; cases h
  leaseGeneration := hg
  activeLease := ha

theorem Core.ok_of_release_none (hs : s.Core) (hr : s.release = none) : s.Ok where
  toCore := hs
  served r h := by rw [hr] at h; cases h

/-- Ending the active attempt keeps all but `served`. -/
theorem Core.settled (hs : s.Core) (hl : s'.lease = s.lease) (hr : s'.release = s.release)
    (ha : s'.active = none) (hg : s.generation.isSome → s'.generation.isSome) : s'.Core where
  leased := by rw [hl, hr]; exact hs.leased
  unserved := by rw [hr]; exact hs.unserved
  keying a r h := by rw [ha] at h; cases h
  leaseGeneration h := hg (hs.leaseGeneration (by rw [← hl]; exact h))
  activeLease a l h := by rw [ha] at h; cases h

/-- A release that is due at a known instant satisfies everything a release has to. -/
theorem Core.ok_of_due (hs : s.Core) {r : Release} (hr : s.release = some r)
    (hdue : r.retryDue.isSome) : s.Ok where
  toCore := hs
  served r' h _ := by rw [hr] at h; cases h; exact hdue

/-! ## The steps inside a call -/

/-- What a step inside a call leaves behind: the invariant, the same lease, and at most
one effect; an attempt among the effects found the lane free, now occupies it, and is
not a `WRITE_ON`. -/
structure Internal (s s' : Supervisor) (effects : List TxEffect) : Prop where
  ok : s'.Ok
  lease : s'.lease = s.lease
  single : effects.length ≤ 1
  started : ∀ a, .attempt a ∈ effects → a.kind ≠ .writeOn ∧ s.active = none ∧ s'.active = some a
  active : ∀ a, s'.active = some a → s.active = some a ∨ s'.lease.isSome

variable {c : Config} {effects : List TxEffect}

theorem Internal.nil (hs : s.Ok) : Internal s s [] where
  ok := hs
  lease := rfl
  single := Nat.zero_le _
  started a h := by cases h
  active a h := .inl h

/-- An internal step may be preceded by updates of other fields. -/
theorem Internal.after {s₀ : Supervisor} (h : Internal s₀ s' effects) (hl : s₀.lease = s.lease)
    (ha : s₀.active = s.active) : Internal s s' effects where
  ok := h.ok
  lease := h.lease.trans hl
  single := h.single
  started := by rw [← ha]; exact h.started
  active := by rw [← ha]; exact h.active

theorem ok_bind {α β : Type} (a : α) (f : α → Except TxSafetyError β) :
    (Except.ok a >>= f) = f a := rfl

theorem boundary_eq {g : Int} (h : s.generation = some g) (now : Time) :
    s.boundary now = .ok ⟨g,
      (s.observation.map ProviderPttObservation.pttObservationSeq).getD 0, now⟩ := by
  rw [boundary, h]

theorem beginRelease_spec (hs : s.Core) (hl : s.lease.isSome) (reason : TxReleaseReason)
    (now : Time) (error : Option String) :
    ∃ s', s.beginRelease reason now error = .ok s' ∧ s'.Ok ∧ s'.lease = s.lease ∧
      s'.active = s.active ∧ s'.generation = s.generation ∧ s'.release.isSome := by
  obtain ⟨g, hg⟩ := Option.isSome_iff_exists.mp (hs.leaseGeneration hl)
  rw [beginRelease, if_neg (by simpa using Option.isSome_iff_ne_none.mp hl), boundary_eq hg]
  refine ⟨_, rfl, ?_, rfl, rfl, rfl, rfl⟩
  exact {
    leased := fun _ => hl
    unserved := by rintro r ⟨⟩ -; rfl
    keying := by rintro a r - - ⟨⟩; rfl
    leaseGeneration := hs.leaseGeneration
    activeLease := hs.activeLease
    served := by rintro r ⟨⟩ -; rfl }

/-- What `_start` makes of a state: an attempt under its lease, now the active one. -/
structure Started (s : Supervisor) (kind : ProviderAttemptKind) (a : ProviderAttempt)
    (s' : Supervisor) : Prop where
  kind : a.kind = kind
  leaseId : ∀ l, s.lease = some l → a.leaseId = l.id
  active : s'.active = some a
  lease : s'.lease = s.lease
  release : s'.release = s.release
  ok : s'.Ok

theorem start_spec (hs : s.Core) (ha : s.active = none) (hl : s.lease.isSome)
    (kind : ProviderAttemptKind) (hkind : kind = .writeOn → s.release = none)
    (timeout now : Time) :
    ∃ a s', s.start c kind timeout now = .ok (a, s') ∧ Started s kind a s' := by
  obtain ⟨l, hl'⟩ := Option.isSome_iff_exists.mp hl
  obtain ⟨g, hg⟩ := Option.isSome_iff_exists.mp (hs.leaseGeneration hl)
  have heq : s.start c kind timeout now = .ok (⟨c.idFactory s.idsMade, kind, g, l.id, now, timeout⟩,
      { s with
        active := some ⟨c.idFactory s.idsMade, kind, g, l.id, now, timeout⟩
        cancelPending := none
        idsMade := s.idsMade + 1 }) := by
    simp only [start, ha, hg, hl']
  have hid : ∀ l', s.lease = some l' → l.id = l'.id := fun l' h => by
    cases hl'.symm.trans h
    rfl
  refine ⟨_, _, heq, rfl, hid, rfl, rfl, rfl, ?_⟩
  exact {
    leased := hs.leased
    unserved := hs.unserved
    keying := by
      rintro a r ⟨⟩ hk hr
      cases (hkind hk).symm.trans hr
    leaseGeneration := hs.leaseGeneration
    activeLease := by
      rintro a l' ⟨⟩ h
      exact hid l' h
    served := by rintro r _ ⟨⟩ }

/-- An attempt other than the `WRITE_ON` is started on a free lane. -/
theorem Internal.of_start (hok : s'.Ok) (hl : s'.lease = s.lease) (hlease : s.lease.isSome)
    {a : ProviderAttempt} (hkind : a.kind ≠ .writeOn) (hfree : s.active = none)
    (ha : s'.active = some a) : Internal s s' [.attempt a] where
  ok := hok
  lease := hl
  single := le_rfl
  started b hb := by
    cases List.mem_singleton.mp hb
    exact ⟨hkind, hfree, ha⟩
  active b _ := .inr (by rw [hl]; exact hlease)

/-- A release is serviced exactly when the provider is ready, the lane is free, and the
release is forced or due. -/
def Serviceable (s : Supervisor) (release : Release) (force : Bool) (instant : Time) : Prop :=
  s.ready ∧ s.generation.isSome ∧ s.active = none ∧
    (force ∨ ∃ due, release.retryDue = some due ∧ due ≤ instant)

theorem not_serviceable_iff {release : Release} {force : Bool} {instant : Time} :
    (¬ s.ready ∨ s.generation.isNone ∨ s.active.isSome ∨
      (¬ force ∧ ¬ release.retryDue.any (· ≤ instant))) ↔
      ¬ s.Serviceable release force instant := by
  simp only [Serviceable, not_and_or, not_or, not_exists, ← Option.not_isSome,
    Bool.not_eq_true', Bool.not_eq_true, ← Option.isSome_iff_ne_none, Option.any_eq_true,
    decide_eq_true_eq]

theorem serviceReleaseAt_starts (hs : s.Ok) {release : Release} (hr : s.release = some release)
    {force : Bool} {instant : Time} (h : s.Serviceable release force instant) :
    ∃ a s', s.serviceReleaseAt c force instant = .ok ([.attempt a], s') ∧ a.kind = .writeOff ∧
      s'.active = some a ∧ Internal s s' [.attempt a] := by
  have hfree := h.2.2.1
  have hl : s.lease.isSome := hs.leased (by rw [hr]; rfl)
  obtain ⟨a, m, hstart, hm⟩ := start_spec (c := c) hs.toCore hfree hl .writeOff
    (by rintro ⟨⟩) c.writeTimeout instant
  rw [serviceReleaseAt, hr]
  simp only [if_neg (not_serviceable_iff.not.mpr (not_not.mpr h)), hstart, ok_bind]
  have hok : ({ m with release := some { release with
      attempts := release.attempts + 1, retryDue := none, error := none } } : Supervisor).Ok := {
    leased := fun _ => by rw [hm.lease]; exact hl
    unserved := by rintro r ⟨⟩ h; cases h
    keying := by
      rintro b r hb hk -
      cases hm.active.symm.trans hb
      cases hm.kind.symm.trans hk
    leaseGeneration := hm.ok.leaseGeneration
    activeLease := hm.ok.activeLease
    served := by
      rintro r - h
      cases hm.active.symm.trans h }
  exact ⟨a, _, rfl, hm.kind, hm.active,
    .of_start hok hm.lease hl (by rw [hm.kind]; simp) hfree hm.active⟩

theorem serviceReleaseAt_spec (hs : s.Ok) (force : Bool) (instant : Time) :
    ∃ effects s', s.serviceReleaseAt c force instant = .ok (effects, s') ∧
      Internal s s' effects := by
  cases hr : s.release with
  | none => exact ⟨[], s, by rw [serviceReleaseAt, hr], .nil hs⟩
  | some release =>
      by_cases hgo : s.Serviceable release force instant
      · obtain ⟨a, s', heq, -, -, hint⟩ := serviceReleaseAt_starts (c := c) hs hr hgo
        exact ⟨_, s', heq, hint⟩
      · refine ⟨[], s, ?_, .nil hs⟩
        rw [serviceReleaseAt, hr]
        exact if_pos (not_serviceable_iff.mpr hgo)

theorem serviceRelease_spec (hs : s.Ok) (force : Bool) (instant : Option Time) :
    ∃ effects s', s.serviceRelease c force instant = .ok (effects, s') ∧
      Internal s s' effects := by
  cases instant with
  | some t => exact serviceReleaseAt_spec hs force t
  | none =>
      obtain ⟨effects, s', heq, hint⟩ :=
        serviceReleaseAt_spec (c := c) (s := s.clockRead) (hs.congr rfl rfl rfl rfl) force (s.now c)
      exact ⟨effects, s', heq, hint.after rfl rfl⟩

theorem cancel_spec (hs : s.Ok) (attempt : ProviderAttempt) (now : Time) :
    Internal s (s.cancel c attempt now).2 (s.cancel c attempt now).1 := by
  rw [cancel]
  split
  · exact .nil hs
  · exact {
      ok := hs.congr rfl rfl rfl rfl
      lease := rfl
      single := le_rfl
      started := fun a h => by cases List.mem_singleton.mp h
      active := fun a h => .inl h }

theorem scheduleRetry_spec (hs : s.Core) (hr : s.release.isSome) (ha : s.active = none)
    (error : String) : Internal s (s.scheduleRetry c error) [] := by
  obtain ⟨r, hr⟩ := Option.isSome_iff_exists.mp hr
  rw [scheduleRetry, hr]
  exact {
    ok := {
      leased := fun _ => hs.leased (by rw [hr]; rfl)
      unserved := by rintro r' ⟨⟩ -; rfl
      keying := fun a r' h => by
        have hb : s.active = some a := h
        rw [ha] at hb
        cases hb
      leaseGeneration := hs.leaseGeneration
      activeLease := hs.activeLease
      served := by rintro r' ⟨⟩ -; rfl }
    lease := rfl
    single := Nat.zero_le _
    started := fun a h => by cases h
    active := fun a h => .inl h }

/-! ## What a call does -/

/-- The call settles the active attempt, or replaces the provider that runs it. -/
def Ends (s : Supervisor) : Op → Prop
  | .settleAttempt id g _ _ => ∃ a, s.active = some a ∧ s.Settles a id g
  | .replaceProvider g _ => ∀ g', s.generation = some g' → g' < g
  | _ => False

/-- What a call that returned has done. -/
structure CallSpec (s : Supervisor) (op : Op) (effects : List TxEffect) (s' : Supervisor) :
    Prop where
  ok : s'.Ok
  single : effects.length ≤ 1
  /-- A new attempt is the active one, and finds no other. -/
  started : ∀ a, .attempt a ∈ effects → s'.active = some a ∧ (s.active = none ∨ s.Ends op)
  /-- A `WRITE_ON` comes from the request that creates its lease. -/
  writeOn : ∀ a, .attempt a ∈ effects → a.kind = .writeOn → ∃ owner, op = .requestOn owner ∧
    s.lease = none ∧ s'.lease = some ⟨a.leaseId, owner⟩ ∧ s'.release = none
  /-- A lease changes only by an accepted OFF observation, which removes it. -/
  removed : s.lease.isSome → s'.lease ≠ s.lease → ∃ o r, op = .observePtt o ∧
    o.value = .off ∧ s.generation = some o.providerGeneration ∧ s.release = some r ∧
    r.boundary.Accepts o ∧ s'.lease = none ∧ s'.active = s.active
  /-- An attempt becomes active only under a lease. -/
  active : ∀ a, s'.active = some a → s.active = some a ∨ s'.lease.isSome

/-- A call made of internal steps on a state in which the lane is as before, or was
emptied by the call. -/
theorem CallSpec.of_internal {s₀ : Supervisor} {op : Op} (h : Internal s₀ s' effects)
    (hl : s.lease.isSome → s₀.lease = s.lease)
    (ha : s₀.active = s.active ∨ s₀.active = none ∧ s.Ends op) :
    CallSpec s op effects s' where
  ok := h.ok
  single := h.single
  started a hmem := by
    obtain ⟨-, hfree, hact⟩ := h.started a hmem
    refine ⟨hact, ?_⟩
    rcases ha with ha | ⟨-, hends⟩
    · exact .inl (ha.symm.trans hfree)
    · exact .inr hends
  writeOn a hmem hk := absurd hk (h.started a hmem).1
  removed hs hne := absurd (h.lease.trans (hl hs)) hne
  active a hact := by
    rcases h.active a hact with h₀ | hlease
    · rcases ha with ha | ⟨ha, -⟩
      · exact .inl (ha.symm.trans h₀)
      · rw [ha] at h₀
        cases h₀
    · exact .inr hlease

theorem CallSpec.unchanged (hs : s.Ok) (op : Op) : CallSpec s op [] s :=
  .of_internal (.nil hs) (fun _ => rfl) (.inl rfl)

/-- The call returns, and does what a call may. -/
def Returns (s : Supervisor) (op : Op) (r : Except TxSafetyError (TxTransition × Supervisor)) :
    Prop :=
  ∃ t s', r = .ok (t, s') ∧ CallSpec s op t.effects s'

variable {op : Op}

theorem Returns.stay (hs : s.Ok) {outcome : TxOutcome} :
    Returns s op (.ok (s.result c outcome)) :=
  ⟨_, _, rfl, .unchanged hs op⟩

/-! The ways a call ends, where `s₀` is the state it has built until then. -/

variable {s₀ : Supervisor}

theorem Returns.quiet (hs : s₀.Ok) (hl : s.lease.isSome → s₀.lease = s.lease)
    (ha : s₀.active = s.active ∨ s₀.active = none ∧ s.Ends op) {outcome : TxOutcome} :
    Returns s op (.ok (s₀.result c outcome)) :=
  ⟨_, _, rfl, .of_internal (.nil hs) hl ha⟩

theorem Returns.service (hs : s₀.Ok) (hl : s.lease.isSome → s₀.lease = s.lease)
    (ha : s₀.active = s.active ∨ s₀.active = none ∧ s.Ends op) {force : Bool}
    {instant : Option Time} {outcome : TxOutcome} :
    Returns s op (do
      let (effects, s') ← s₀.serviceRelease c force instant
      return s'.result c outcome effects) := by
  obtain ⟨effects, s', heq, hint⟩ := serviceRelease_spec (c := c) hs force instant
  rw [heq]
  exact ⟨_, _, rfl, .of_internal hint hl ha⟩

theorem Returns.cancel (hs : s₀.Ok) (hl : s.lease.isSome → s₀.lease = s.lease)
    (ha : s₀.active = s.active) {attempt : ProviderAttempt} {now : Time} {outcome : TxOutcome} :
    Returns s op (.ok (result c (s₀.cancel c attempt now).2 outcome
      (s₀.cancel c attempt now).1)) :=
  ⟨_, _, rfl, .of_internal (cancel_spec hs attempt now) hl (.inl ha)⟩

theorem Returns.read (hs : s₀.Core) (hfree : s₀.active = none) (hlease : s₀.lease.isSome)
    (hl : s₀.lease = s.lease) (hends : s.Ends op) {timeout now : Time} {outcome : TxOutcome} :
    Returns s op (do
      let (read, s') ← s₀.start c .readPtt timeout now
      return s'.result c outcome [.attempt read]) := by
  obtain ⟨a, s', heq, h⟩ := start_spec (c := c) hs hfree hlease .readPtt (by rintro ⟨⟩) timeout now
  rw [heq]
  have hkind : a.kind ≠ .writeOn := by rw [h.kind]; simp
  exact ⟨_, _, rfl, .of_internal (.of_start h.ok h.lease hlease hkind hfree h.active)
    (fun _ => hl) (.inr ⟨hfree, hends⟩)⟩

theorem releaseCurrent_returns (hs : s.Ok) (hl : s.lease.isSome) (reason : TxReleaseReason) :
    Returns s op (s.releaseCurrent c reason) := by
  cases hr : s.release with
  | some release =>
      rw [releaseCurrent, hr]
      have hok : ({ s with release := some { release with terminalReason := reason } } :
          Supervisor).Ok := {
        leased := fun _ => hl
        unserved := by rintro r ⟨⟩ h; exact hs.unserved release hr h
        keying := by rintro a r ha hk ⟨⟩; exact hs.keying a release ha hk hr
        leaseGeneration := hs.leaseGeneration
        activeLease := hs.activeLease
        served := by rintro r ⟨⟩ h; exact hs.served release hr h }
      exact .quiet (s := s) hok (fun _ => rfl) (.inl rfl)
  | none =>
      obtain ⟨m, heq, hok, hlease, hact, -, -⟩ :=
        beginRelease_spec (s := s.clockRead) (hs.toCore.congr rfl rfl rfl rfl) hl reason (s.now c)
          none
      simp only [releaseCurrent, hr, heq, ok_bind]
      cases ha : m.active with
      | some attempt => exact .cancel (s := s) hok (fun _ => hlease) hact
      | none => exact .service (s := s) hok (fun _ => hlease) (.inl hact)

theorem requestOff_returns (hs : s.Ok) (owner : TxOwner) (leaseId : String)
    (reason : TxReleaseReason) : Returns s op (s.requestOff c owner leaseId reason) := by
  rw [requestOff]
  by_cases h : s.lease = some ⟨leaseId, owner⟩
  · rw [if_neg (not_not.mpr h)]
    exact releaseCurrent_returns hs (by rw [h]; rfl) reason
  · rw [if_pos h]
    exact .stay hs

theorem releaseOwner_returns (hs : s.Ok) (owner : TxOwner) (reason : TxReleaseReason) :
    Returns s op (s.releaseOwner c owner reason) := by
  rw [releaseOwner]
  by_cases h : s.lease.any (·.owner = owner)
  · rw [if_neg (not_not.mpr h)]
    refine releaseCurrent_returns hs ?_ reason
    obtain ⟨l, hl, -⟩ := Option.any_eq_true _ _ |>.mp h
    rw [hl]
    rfl
  · rw [if_pos h]
    exact .stay hs

theorem observePtt_returns (hs : s.Ok) (o : ProviderPttObservation) :
    Returns s (.observePtt o) (s.observePtt c o) := by
  rw [observePtt]
  by_cases hstale : s.StaleObservation o
  · rw [if_pos hstale]
    exact .stay hs
  · rw [if_neg hstale]
    by_cases h : o.value = .off ∧ s.release.any (fun r => r.boundary.Accepts o)
    · dsimp only
      rw [if_pos h]
      obtain ⟨hoff, hacc⟩ := h
      obtain ⟨r, hr, hacc⟩ := Option.any_eq_true _ _ |>.mp hacc
      simp only [StaleObservation, not_or, not_not] at hstale
      refine ⟨_, _, rfl, ?_⟩
      exact {
        ok := Core.ok_of_release_none (.of_release_none rfl (by rintro ⟨⟩) (by rintro a l _ ⟨⟩)) rfl
        single := Nat.zero_le _
        started := fun a h => by cases h
        writeOn := fun a h => by cases h
        removed := fun _ _ =>
          ⟨o, r, rfl, hoff, hstale.1, hr, of_decide_eq_true hacc, rfl, rfl⟩
        active := fun a h => .inl h }
    · dsimp only
      rw [if_neg h]
      have hok : ({ s with observation := some o } : Supervisor).Ok := hs.congr rfl rfl rfl rfl
      exact ⟨_, _, rfl, .of_internal (.nil hok) (fun _ => rfl) (.inl rfl)⟩

/-- The end of an accepted `request_on`. -/
theorem Returns.writeOn (s₀ : Supervisor) {owner : TxOwner} {l : Lease} {g : Int}
    (hlease : s.lease = none) (hfree : s.active = none) (hl : s₀.lease = some l)
    (howner : l.owner = owner) (hrel : s₀.release = none) (ha : s₀.active = none)
    (hg : s₀.generation = some g) {timeout now : Time} {outcome : TxOutcome} :
    Returns s (.requestOn owner) (do
      let (attempt, s') ← s₀.start c .writeOn timeout now
      return s'.result c outcome [.attempt attempt]) := by
  have hcore : s₀.Core := .of_release_none hrel (fun _ => by rw [hg]; rfl)
    (fun a l h => by rw [ha] at h; cases h)
  obtain ⟨a, s', heq, h⟩ := start_spec (c := c) hcore ha (by rw [hl]; rfl) .writeOn
    (fun _ => hrel) timeout now
  rw [heq]
  refine ⟨_, _, rfl, ?_⟩
  exact {
    ok := h.ok
    single := le_rfl
    started := fun b hb => by
      cases List.mem_singleton.mp hb
      exact ⟨h.active, .inl hfree⟩
    writeOn := fun b hb _ => by
      cases List.mem_singleton.mp hb
      refine ⟨owner, rfl, hlease, ?_, h.release.trans hrel⟩
      rw [h.leaseId l hl, ← howner, h.lease, hl]
    removed := fun h => by rw [hlease] at h; cases h
    active := fun _ _ => .inr (by rw [h.lease, hl]; rfl) }

theorem requestOn_returns (hs : s.Ok) (owner : TxOwner) :
    Returns s (.requestOn owner) (s.requestOn c owner) := by
  rw [requestOn]
  by_cases hrel : s.release.isSome
  · rw [if_pos hrel]
    exact .stay hs
  rw [if_neg hrel]
  cases hlease : s.lease with
  | some lease => exact .stay hs
  | none =>
      by_cases hact : s.active.isSome
      · simp only [if_pos hact]
        exact .stay hs
      by_cases hready : ¬ s.ready ∨ s.generation.isNone
      · simp only [if_neg hact, if_pos hready]
        exact .stay hs
      by_cases hoff : ¬ s.observation.any (·.value = .off)
      · simp only [if_neg hact, if_neg hready, if_pos hoff]
        exact .stay hs
      simp only [if_neg hact, if_neg hready, if_neg hoff]
      simp only [not_or, Option.isNone_iff_eq_none, Option.not_isSome_iff_eq_none]
        at hact hrel hready
      obtain ⟨g, hg⟩ := Option.ne_none_iff_exists'.mp hready.2
      rw [boundary_eq (s := s.clockRead.leaseTo c owner) hg, ok_bind]
      exact .writeOn (s := s) ((s.clockRead.leaseTo c owner).acquired c _ _)
        hlease hact rfl rfl hrel hact hg

theorem forceUnkey_returns (hs : s.Ok) (owner : TxOwner) {reason : TxReleaseReason}
    (hreason : reason ∈ forceUnkeyReasons) :
    Returns s (.forceUnkey owner reason) (s.forceUnkey c owner reason) := by
  rw [forceUnkey, if_neg (not_not.mpr hreason)]
  by_cases hrel : s.release.isSome
  · rw [if_pos hrel]
    exact .stay hs
  by_cases hlease : s.lease.isSome
  · rw [if_neg hrel, if_pos hlease]
    exact .stay hs
  by_cases hact : s.active.isSome
  · rw [if_neg hrel, if_neg hlease, if_pos hact]
    exact .stay hs
  by_cases hready : ¬ s.ready ∨ s.generation.isNone
  · rw [if_neg hrel, if_neg hlease, if_neg hact, if_pos hready]
    exact .stay hs
  rw [if_neg hrel, if_neg hlease, if_neg hact, if_neg hready]
  simp only [Option.not_isSome_iff_eq_none] at hrel hlease hact
  simp only [not_or, Option.isNone_iff_eq_none, ← ne_eq, ← Option.isSome_iff_ne_none] at hready
  have hcore : (s.clockRead.leaseTo c owner).Core :=
    .of_release_none hrel (fun _ => hready.2) (fun a l h => by cases hact.symm.trans h)
  obtain ⟨m, heq, hok, -, hfree, -, -⟩ := beginRelease_spec hcore rfl reason (s.now c) none
  simp only [heq, ok_bind]
  exact .service (s := s) hok (fun h => by rw [hlease] at h; cases h) (.inl hfree)

theorem emergencyRelease_returns (hs : s.Ok) {reason : TxReleaseReason}
    (hreason : reason ∈ systemReleaseReasons) :
    Returns s op (s.emergencyRelease c reason) := by
  rw [emergencyRelease, if_neg (not_not.mpr hreason)]
  by_cases hl : s.lease.isSome
  · rw [if_pos hl]
    exact releaseCurrent_returns hs hl reason
  · rw [if_neg hl]
    exact .stay hs

theorem controlLost_spec (hs : s.Core) (now : Time) :
    ∃ s', s.controlLost now = .ok s' ∧ s'.Core ∧ (s.Ok → s'.Ok) ∧ s'.lease = s.lease ∧
      s'.active = s.active ∧ s'.generation = s.generation ∧
        (s.lease.isSome → s'.release.isSome) := by
  rw [controlLost]
  by_cases h : s.lease.isSome ∧ s.release.isNone
  · obtain ⟨m, heq, hok, hl, ha, hg, hr⟩ :=
      beginRelease_spec hs h.1 .controlTransportLost now none
    exact ⟨m, by rw [if_pos h, heq], hok.toCore, fun _ => hok, hl, ha, hg, fun _ => hr⟩
  · refine ⟨s, by rw [if_neg h], hs, id, rfl, rfl, rfl, fun hl => ?_⟩
    simpa [hl, Option.isSome_iff_ne_none] using h

theorem Core.rebound (hs : s.Core) (ha : s.active = none) (b : Boundary) (now : Time) :
    (s.rebound b now).Ok where
  leased h := hs.leased (by simpa [Supervisor.rebound] using h)
  unserved r h _ := by
    obtain ⟨r₀, -, rfl⟩ := Option.map_eq_some_iff.mp h
    rfl
  keying a _ h := by cases ha.symm.trans h
  leaseGeneration := hs.leaseGeneration
  activeLease := hs.activeLease
  served r h _ := by
    obtain ⟨r₀, -, rfl⟩ := Option.map_eq_some_iff.mp h
    rfl

theorem rebindRelease_spec (hs : s.Core) (ha : s.active = none) (hg : s.generation.isSome)
    (now : Time) :
    ∃ s', s.rebindRelease now = .ok s' ∧ s'.Ok ∧ s'.lease = s.lease ∧ s'.active = none := by
  rw [rebindRelease]
  by_cases hl : s.lease.isNone
  · refine ⟨s, by rw [if_pos hl], hs.ok_of_release_none ?_, rfl, ha⟩
    rw [← Option.not_isSome_iff_eq_none]
    exact fun h => Option.not_isSome_iff_eq_none.mpr (Option.isNone_iff_eq_none.mp hl) (hs.leased h)
  · obtain ⟨m, heq, hm, -, hlm, ham, hgm, -⟩ := controlLost_spec hs now
    obtain ⟨g, hg⟩ := Option.isSome_iff_exists.mp hg
    rw [if_neg hl, heq, ok_bind, boundary_eq (hgm.trans hg), ok_bind]
    exact ⟨_, rfl, hm.rebound (ham.trans ha) _ now, hlm, ham.trans ha⟩

theorem replaceProvider_returns (hs : s.Ok) {generation : Int} (hg : 0 ≤ generation)
    (ready : Bool) :
    Returns s (.replaceProvider generation ready) (s.replaceProvider c generation ready) := by
  rw [replaceProvider, if_neg (not_lt.mpr hg)]
  by_cases hstale : s.generation.any (generation ≤ ·)
  · rw [if_pos hstale]
    exact .stay hs
  have hends : s.Ends (.replaceProvider generation ready) := fun g' h => by
    by_contra hle
    exact hstale (by rw [h]; exact decide_eq_true (not_lt.mp hle))
  have hcore : (s.clockRead.reprovided generation ready).Core :=
    hs.toCore.settled rfl rfl rfl (fun _ => rfl)
  obtain ⟨m, heq, hm, hlm, ham⟩ := rebindRelease_spec hcore rfl rfl (s.now c)
  rw [if_neg hstale, heq, ok_bind]
  exact .service (s := s) hm (fun _ => hlm) (.inr ⟨ham, hends⟩)

theorem setProviderReady_returns (hs : s.Ok) (generation : Int) (ready : Bool) :
    Returns s op (s.setProviderReady c generation ready) := by
  rw [setProviderReady]
  by_cases hgen : s.generation = some generation
  · rw [if_neg (not_not.mpr hgen)]
    by_cases hsame : ready = s.ready
    · rw [if_pos hsame]
      exact .stay hs
    rw [if_neg hsame]
    cases ready with
    | true =>
        have hok : ({ s.clockRead with ready := true } : Supervisor).Ok := hs.congr rfl rfl rfl rfl
        exact .service (s := s) hok (fun _ => rfl) (.inl rfl)
    | false =>
        have hok : s.clockRead.unready.Ok := hs.congr rfl rfl rfl rfl
        obtain ⟨m, heq, -, hm, hlm, ham, -, -⟩ := controlLost_spec hok.toCore (s.now c)
        simp only [Bool.false_eq_true, if_false, heq, ok_bind]
        cases m.active with
        | some attempt => exact .cancel (s := s) (hm hok) (fun _ => hlm) ham
        | none => exact .quiet (s := s) (hm hok) (fun _ => hlm) (.inl ham)
  · rw [if_pos hgen]
    exact .stay hs

/-- The lane is free and the lease still held: what follows the settled attempt. -/
theorem settleLeased_returns (hs : s₀.Core) (hlease : s₀.lease.isSome)
    (hfree : s₀.active = none) (hl : s₀.lease = s.lease) (hends : s.Ends op)
    {attempt : ProviderAttempt} (hkey : attempt.kind = .writeOn →
      ∀ r, s₀.release = some r → r.attempts = 0)
    (succeeded : Bool) (error : Option String) (now : Time) :
    Returns s op (s₀.settleLeased c attempt succeeded error now) := by
  have ha : s₀.active = s.active ∨ s₀.active = none ∧ s.Ends op := .inr ⟨hfree, hends⟩
  have hretry : ∀ error, s₀.release.isSome →
      Returns s op (.ok ((s₀.scheduleRetry c error).result c .applied)) := fun error hr =>
    ⟨_, _, rfl, .of_internal (scheduleRetry_spec hs hr hfree error) (fun _ => hl) ha⟩
  have hbegin : ∀ error, Returns s op (do
      let m ← s₀.beginRelease .controlTransportLost now error
      let (effects, m) ← m.serviceRelease c true (some now)
      return m.result c .applied effects) := fun error => by
    obtain ⟨m, heq, hok, hlm, ham, -⟩ :=
      beginRelease_spec hs hlease .controlTransportLost now error
    rw [heq, ok_bind]
    exact .service (s := s) hok (fun _ => hlm.trans hl) (.inr ⟨ham.trans hfree, hends⟩)
  -- A release that has made no attempt still has its first instant.
  have hdue : ∀ r, s₀.release = some r → r.attempts = 0 → s₀.Ok := fun r hr hzero =>
    hs.ok_of_due hr (hs.unserved r hr hzero)
  rw [settleLeased]
  cases hr : s₀.release with
  | none =>
      have hok : s₀.Ok := hs.ok_of_release_none hr
      cases hk : attempt.kind with
      | writeOn =>
          cases succeeded with
          | true => exact .read hs hfree hlease hl hends
          | false => exact hbegin _
      | writeOff => exact .quiet hok (fun _ => hl) ha
      | readPtt =>
          cases succeeded with
          | true => exact .quiet hok (fun _ => hl) ha
          | false => exact hbegin _
  | some release =>
      have hr' : s₀.release.isSome := by rw [hr]; rfl
      cases hk : attempt.kind with
      | writeOn => exact .service (hdue release hr (hkey hk release hr)) (fun _ => hl) ha
      | writeOff =>
          by_cases hzero : release.attempts = 0
          · simp only [if_pos hzero]
            exact .service (hdue release hr hzero) (fun _ => hl) ha
          · simp only [if_neg hzero]
            cases succeeded with
            | true => exact .read hs hfree hlease hl hends
            | false => exact hretry _ hr'
      | readPtt =>
          by_cases hzero : release.attempts = 0
          · simp only [if_pos hzero]
            exact .service (hdue release hr hzero) (fun _ => hl) ha
          · simp only [if_neg hzero]
            exact hretry _ hr'

theorem settleAttempt_returns (hs : s.Ok) (attemptId : String) (generation : Int)
    (succeeded : Bool) (error : Option String) :
    Returns s (.settleAttempt attemptId generation succeeded error)
      (s.settleAttempt c attemptId generation succeeded error) := by
  rw [settleAttempt]
  cases hact : s.active with
  | none => exact .stay hs
  | some attempt =>
      by_cases hset : s.Settles attempt attemptId generation
      · simp only [if_neg (not_not.mpr hset)]
        have hends : s.Ends (.settleAttempt attemptId generation succeeded error) :=
          ⟨attempt, hact, hset⟩
        have hcore : s.clockRead.freed.Core := hs.toCore.settled rfl rfl rfl id
        by_cases hl : s.lease.isNone
        · rw [if_pos hl]
          refine .quiet (s := s) (hcore.ok_of_release_none ?_) (fun _ => rfl) (.inr ⟨rfl, hends⟩)
          rw [← Option.not_isSome_iff_eq_none]
          exact fun h => Option.not_isSome_iff_eq_none.mpr (Option.isNone_iff_eq_none.mp hl)
            (hcore.leased h)
        · rw [if_neg hl]
          have hl' : s.lease.isSome := by simpa [Option.isSome_iff_ne_none] using hl
          exact settleLeased_returns (s := s) hcore hl' rfl rfl hends
            (fun hk r hr => hs.keying attempt r hact hk hr) _ _ _
      · simp only [if_pos hset]
        exact .stay hs

theorem cancel_active (attempt : ProviderAttempt) (now : Time) :
    (s.cancel c attempt now).2.active = s.active := by
  rw [cancel]
  split <;> rfl

/-- The watchdog begins a release at most, and may cancel; the active attempt stays. -/
theorem watchdog_spec (hs : s.Ok) (now : Time) :
    ∃ effects s', s.watchdog c now = .ok (effects, s') ∧ Internal s s' effects ∧
      s'.active = s.active := by
  rw [watchdog]
  by_cases hdue : s.WatchdogDue now
  · obtain ⟨m, heq, hok, hlm, ham, -, -⟩ :=
      beginRelease_spec hs.toCore hdue.1 .backendMaxKeyDown now none
    simp only [if_neg (not_not.mpr hdue), heq, ok_bind]
    cases hact : m.active with
    | some attempt =>
        exact ⟨_, _, rfl, (cancel_spec hok attempt now).after hlm ham,
          (cancel_active attempt now).trans ham⟩
    | none => exact ⟨_, _, rfl, (Internal.nil hok).after hlm ham, ham⟩
  · exact ⟨[], s, if_pos hdue, .nil hs, rfl⟩

theorem tick_returns (hs : s.Ok) : Returns s op (s.tick c) := by
  have hok : ({ s.clockRead with driven := true } : Supervisor).Ok := hs.congr rfl rfl rfl rfl
  obtain ⟨effects, m, heq, hm, ham⟩ := watchdog_spec (c := c) hok (s.now c)
  simp only [tick, heq, ok_bind]
  by_cases hnil : effects = []
  · obtain ⟨effects', s', hserve, hint⟩ := serviceRelease_spec (c := c) hm.ok false (some (s.now c))
    simp only [if_pos hnil, hserve]
    exact ⟨_, _, rfl, .of_internal hint (fun _ => hm.lease) (.inl ham)⟩
  · simp only [if_neg hnil]
    exact ⟨_, _, rfl, .of_internal (hm.after rfl rfl) (fun _ => rfl) (.inl rfl)⟩

/-! ## Every call -/

/-- The effects a call returns. -/
def effectsOf (t : Option TxTransition) : List TxEffect := (t.map TxTransition.effects).getD []

theorem Returns.call {r : Except TxSafetyError (TxTransition × Supervisor)}
    (h : Returns s op r) : ∃ t s', r.map (Prod.map some id) = .ok (t, s') ∧
      CallSpec s op (effectsOf t) s' := by
  obtain ⟨t, s', rfl, hspec⟩ := h
  exact ⟨some t, s', rfl, hspec⟩

/-- A call is refused for its argument, or returns and does what a call may. -/
theorem call_spec (hs : s.Ok) (op : Op) :
    (∃ text, call c s op = .error (.valueError text)) ∨
      ∃ t s', call c s op = .ok (t, s') ∧ CallSpec s op (effectsOf t) s' := by
  cases op with
  | replaceProvider g ready =>
      by_cases hg : g < 0
      · exact .inl ⟨_, by rw [call, replaceProvider, if_pos hg]; rfl⟩
      · exact .inr (replaceProvider_returns hs (not_lt.mp hg) ready).call
  | setProviderReady g ready => exact .inr (setProviderReady_returns hs g ready).call
  | observePtt o => exact .inr (observePtt_returns hs o).call
  | requestOn owner => exact .inr (requestOn_returns hs owner).call
  | requestOff owner l reason => exact .inr (requestOff_returns hs owner l reason).call
  | releaseOwner owner reason => exact .inr (releaseOwner_returns hs owner reason).call
  | emergencyRelease reason =>
      by_cases h : reason ∈ systemReleaseReasons
      · exact .inr (emergencyRelease_returns hs h).call
      · exact .inl ⟨_, by rw [call, emergencyRelease, if_pos h]; rfl⟩
  | forceUnkey owner reason =>
      by_cases h : reason ∈ forceUnkeyReasons
      · exact .inr (forceUnkey_returns hs owner h).call
      · exact .inl ⟨_, by rw [call, forceUnkey, if_pos h]; rfl⟩
  | settleAttempt a g ok error => exact .inr (settleAttempt_returns hs a g ok error).call
  | tick => exact .inr (tick_returns hs).call
  | retireDriver =>
      refine .inr ⟨none, _, rfl, .of_internal (.nil (hs.congr rfl rfl rfl rfl)) (fun _ => rfl)
        (.inl rfl)⟩

theorem callSpec_of_call (hs : s.Ok) {t : Option TxTransition} (h : call c s op = .ok (t, s')) :
    CallSpec s op (effectsOf t) s' := by
  rcases call_spec (c := c) hs op with ⟨text, herr⟩ | ⟨t', m, heq, hspec⟩
  · cases herr.symm.trans h
  · cases heq.symm.trans h
    exact hspec

/-- No call raises the `RuntimeError`, so every step of a run is taken. -/
theorem step_spec (hs : s.Ok) (op : Op) :
    ∃ s' effects, step c s op = some s' ∧ CallSpec s op effects s' := by
  rcases call_spec (c := c) hs op with ⟨text, heq⟩ | ⟨t, s', heq, hspec⟩
  · exact ⟨s, [], by rw [step, heq], .unchanged hs op⟩
  · exact ⟨s', effectsOf t, by rw [step, heq], hspec⟩

theorem callSpec_of_step (hs : s.Ok) (h : step c s op = some s') :
    ∃ effects, CallSpec s op effects s' := by
  obtain ⟨m, effects, heq, hspec⟩ := step_spec (c := c) hs op
  cases heq.symm.trans h
  exact ⟨effects, hspec⟩

theorem Ok.exec {ops : List Op} (h : Runs.exec (step c) s ops = some s') (hs : s.Ok) : s'.Ok :=
  Runs.exec_invariant (fun _ _ _ hi hstep => by
    obtain ⟨_, hspec⟩ := callSpec_of_step hi hstep
    exact hspec.ok) h hs

end Supervisor

end Rigplane.TxSafety
