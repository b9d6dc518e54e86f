import Rigplane.TxSafety.Attempts

/-!
# Runs of the transmit-safety supervisor

What holds in every state a run of calls reaches, whatever the calls and whatever the
clock reads.  Both results follow the lease through the run.  It is created by the one
`request_on` that emits its `WRITE_ON`, or by a `force_unkey`, and only an accepted OFF
observation removes it (`exec_removes`).

A release makes progress: an active attempt ends when it is settled or its provider is
replaced (`Ended`), a release without one is due at a known instant, and the tick at that
instant starts the next `WRITE_OFF`.

The removal does not wait for the attempt lane.  A `WRITE_ON` still in flight when the
OFF of its release is confirmed settles later into a supervisor without a lease.
-/

namespace Rigplane.TxSafety

/-- The transition asks the provider for a `WRITE_ON`. -/
def TxTransition.EmitsWriteOn (t : TxTransition) : Prop :=
  ∃ a, .attempt a ∈ t.effects ∧ a.kind = .writeOn

namespace Supervisor

variable {c : Config} {s s' : Supervisor}

/-- The call is an observation that ends the release, and with it the lease. -/
def RemovesLease (s : Supervisor) (op : Op) : Prop :=
  ∃ o r, op = .observePtt o ∧ o.value = .off ∧ s.generation = some o.providerGeneration ∧
    s.release = some r ∧ r.boundary.Accepts o ∧ s.lease.isSome

/-- The calls from a state on, one of which removes the lease held before it. -/
def Removed (c : Config) (s : Supervisor) (ops : List Op) : Prop :=
  ∃ pre op post m, ops = pre ++ op :: post ∧ Runs.exec (step c) s pre = some m ∧
    m.RemovesLease op

/-- A lease that is gone at the end of a run was removed on the way. -/
theorem exec_removes (hs : s.Ok) {ops : List Op} (h : Runs.exec (step c) s ops = some s')
    (hl : s.lease.isSome) (hl' : s'.lease = none) : Removed c s ops := by
  obtain ⟨pre, op, post, m, m', rfl, hpre, hstep, -, hm, hm'⟩ :=
    Runs.exec_enters (P := fun s => s.lease = none) h (Option.isSome_iff_ne_none.mp hl) hl'
  have hlm : m.lease.isSome := Option.isSome_iff_ne_none.mpr hm
  obtain ⟨effects, hspec⟩ := callSpec_of_step (hs.exec hpre) hstep
  obtain ⟨o, r, hop, hoff, hgen, hrel, hacc, -⟩ :=
    hspec.removed hlm (by rw [hm']; exact Ne.symm hm)
  exact ⟨pre, op, post, m, rfl, hpre, o, r, hop, hoff, hgen, hrel, hacc, hlm⟩

/-- The call returns with the lane free, or with another attempt that it has started. -/
def Ended (c : Config) (s : Supervisor) (op : Op) : Prop :=
  ∃ t s', call c s op = .ok (some t, s') ∧
    (s'.active = none ∨ ∃ b, t.effects = [.attempt b] ∧ s'.active = some b)

/-- What a run guarantees of the state it stands in and of the calls that follow. -/
structure RunSafe (c : Config) (s : Supervisor) : Prop where
  /-- No call raises the `RuntimeError` of `_start` or `_boundary`. -/
  raises : ∀ op text, call c s op ≠ .error (.runtimeError text)
  /-- A release runs under a lease. -/
  leased : s.release.isSome → s.lease.isSome
  /-- A release is being attempted, or is due at a known instant. -/
  owed : ∀ r, s.release = some r → s.active.isSome ∨ r.retryDue.isSome
  /-- With the provider ready and the lane free, a tick at or after that instant attempts it. -/
  progress : ∀ r, s.release = some r → s.ready → s.active = none → ∃ due, r.retryDue = some due ∧
    (due ≤ s.now c → ∃ t s' a, call c s .tick = .ok (some t, s') ∧ t.effects = [.attempt a] ∧
      a.kind = .writeOff ∧ s'.active = some a)
  /-- The settlement of the active attempt ends it. -/
  settled : ∀ a id g succeeded error, s.active = some a → s.Settles a id g →
    s.Ended c (.settleAttempt id g succeeded error)
  /-- A newer provider ends what ran on the one before it. -/
  replaced : ∀ g ready, 0 ≤ g → (∀ g', s.generation = some g' → g' < g) →
    s.Ended c (.replaceProvider g ready)
  /-- A call starts at most one attempt.  It is then the active one, and there was none before
  it, or the call settled it or replaced its provider. -/
  single : ∀ op t s', call c s op = .ok (some t, s') → ∀ a, .attempt a ∈ t.effects →
    t.effects = [.attempt a] ∧ s'.active = some a ∧ (s.active = none ∨ s.Ends op)
  /-- A `WRITE_ON` is emitted by the call that creates its lease, outside any release. -/
  writeOn : ∀ op t s' a, call c s op = .ok (some t, s') → .attempt a ∈ t.effects →
    a.kind = .writeOn → s.lease = none ∧ s.release = none ∧ s'.release = none ∧
      ∃ owner, s'.lease = some ⟨a.leaseId, owner⟩
  /-- Between two of them the lease of the first is removed. -/
  once : ∀ op t s₁ ops s₂ op' t' s', call c s op = .ok (some t, s₁) → t.EmitsWriteOn →
    Runs.exec (step c) s₁ ops = some s₂ → call c s₂ op' = .ok (some t', s') → t'.EmitsWriteOn →
    Removed c s₁ ops
  /-- Once a release has begun, its lease is removed before any `WRITE_ON`. -/
  afterRelease : ∀ ops s₂ op' t' s', s.release.isSome → Runs.exec (step c) s ops = some s₂ →
    call c s₂ op' = .ok (some t', s') → t'.EmitsWriteOn → Removed c s ops
  /-- Only an OFF of the current generation past the release boundary removes a lease. -/
  removed : ∀ op t s', call c s op = .ok (t, s') → s.lease.isSome → s'.lease ≠ s.lease →
    s.RemovesLease op ∧ s'.lease = none

variable {op : Op} {t : TxTransition}

theorem Ok.emits_writeOn (hs : s.Ok) (h : call c s op = .ok (some t, s')) (ht : t.EmitsWriteOn) :
    s.lease = none ∧ s'.lease.isSome := by
  obtain ⟨a, ha, hk⟩ := ht
  obtain ⟨owner, -, hl, hl', -⟩ := (callSpec_of_call hs h).writeOn a ha hk
  exact ⟨hl, by rw [hl']; rfl⟩

/-- The tick that is due starts the `WRITE_OFF`. -/
theorem Ok.progress (hs : s.Ok) {r : Release} (hr : s.release = some r) (hready : s.ready)
    (hfree : s.active = none) : ∃ due, r.retryDue = some due ∧ (due ≤ s.now c →
      ∃ t s' a, call c s .tick = .ok (some t, s') ∧ t.effects = [.attempt a] ∧
        a.kind = .writeOff ∧ s'.active = some a) := by
  obtain ⟨due, hdue⟩ := Option.isSome_iff_exists.mp (hs.served r hr hfree)
  refine ⟨due, hdue, fun hle => ?_⟩
  have hok : ({ s.clockRead with driven := true } : Supervisor).Ok := hs.congr rfl rfl rfl rfl
  -- The watchdog only begins a release, and there is one.
  have hwatch : ({ s.clockRead with driven := true } : Supervisor).watchdog c (s.now c) =
      .ok ([], { s.clockRead with driven := true }) := by
    rw [watchdog, if_pos]
    rintro ⟨-, hnone, -⟩
    rw [show ({ s.clockRead with driven := true } : Supervisor).release = some r from hr] at hnone
    cases hnone
  have hgen : s.generation.isSome := hs.leaseGeneration (hs.leased (by rw [hr]; rfl))
  have hgo : ({ s.clockRead with driven := true } : Supervisor).Serviceable r false (s.now c) :=
    ⟨hready, hgen, hfree, .inr ⟨due, hdue, hle⟩⟩
  obtain ⟨a, s', hserve, hk, hact, -⟩ := serviceReleaseAt_starts (c := c) hok hr hgo
  have htick : s.tick c = .ok (s'.result c .applied [.attempt a]) := by
    simp only [tick, hwatch, ok_bind, if_true, serviceRelease, hserve]
    rfl
  exact ⟨_, s', a, by rw [call, htick]; rfl, rfl, hk, hact⟩

/-- A call that goes on from a free lane ends what was active before it. -/
theorem Tracks.ended {m : Supervisor} {t : TxTransition} (htracks : Tracks c m s' t.effects)
    (hfree : m.active = none) (hcall : call c s op = .ok (some t, s'))
    (hsingle : t.effects.length ≤ 1) : s.Ended c op := by
  refine ⟨t, s', hcall, ?_⟩
  cases hact : s'.active with
  | none => exact .inl rfl
  | some b =>
      rcases htracks.active b hact with hold | hmem
      · cases hfree.symm.trans hold
      · obtain ⟨x, hx⟩ := List.length_eq_one_iff.mp
          (le_antisymm hsingle (List.length_pos_of_mem hmem))
        have hxb : .attempt b = x := List.mem_singleton.mp (hx ▸ hmem)
        exact .inr ⟨b, by rw [hx, hxb], rfl⟩

theorem Ok.settled (hs : s.Ok) {a : ProviderAttempt} {id : String} {g : Int}
    (ha : s.active = some a)
    (hset : s.Settles a id g) (succeeded : Bool) (error : Option String) :
    s.Ended c (.settleAttempt id g succeeded error) := by
  obtain ⟨t, s', heq, hspec⟩ := settleAttempt_returns (c := c) hs id g succeeded error
  have hcall : call c s (.settleAttempt id g succeeded error) = .ok (some t, s') := by
    rw [call, heq]
    rfl
  rw [settleAttempt, ha] at heq
  simp only [if_neg (not_not.mpr hset)] at heq
  have htracks : Tracks c s.clockRead.freed s' t.effects := by
    split at heq
    · cases heq
      exact .quiet rfl (.inl rfl) rfl
    · exact returned_settleLeased heq
  exact htracks.ended rfl hcall hspec.single

theorem Ok.replaced (hs : s.Ok) {g : Int} (hg : 0 ≤ g)
    (hnewer : ∀ g', s.generation = some g' → g' < g) (ready : Bool) :
    s.Ended c (.replaceProvider g ready) := by
  obtain ⟨t, s', heq, hspec⟩ := replaceProvider_returns (c := c) hs hg ready
  have hcall : call c s (.replaceProvider g ready) = .ok (some t, s') := by
    rw [call, heq]
    rfl
  have hfresh : ¬ s.generation.any (g ≤ ·) := by
    rw [Option.any_eq_true]
    rintro ⟨g', hg', hle⟩
    exact not_le.mpr (hnewer g' hg') (of_decide_eq_true hle)
  rw [replaceProvider, if_neg (not_lt.mpr hg), if_neg hfresh] at heq
  obtain ⟨m, hrebind, heq⟩ := bind_ok heq
  have hserve : Returned c (s.clockRead.reprovided g ready) (t, s') :=
    .of_service heq (tracks_rebindRelease hrebind)
  exact Tracks.ended hserve rfl hcall hspec.single

theorem Ok.runSafe (hs : s.Ok) : s.RunSafe c where
  raises op text h := by
    rcases call_spec (c := c) hs op with ⟨text', heq⟩ | ⟨t, s', heq, -⟩
    · cases heq.symm.trans h
    · cases heq.symm.trans h
  leased := hs.leased
  owed r hr := by
    cases ha : s.active with
    | none => exact .inr (hs.served r hr ha)
    | some a => exact .inl rfl
  progress _ hr hready hfree := hs.progress hr hready hfree
  settled _ _ _ succeeded error ha hset := hs.settled ha hset succeeded error
  replaced _ ready hg hnewer := hs.replaced hg hnewer ready
  single op t s' h a ha := by
    have hspec := callSpec_of_call hs h
    obtain ⟨hact, hfree⟩ := hspec.started a ha
    refine ⟨?_, hact, hfree⟩
    obtain ⟨x, hx⟩ := List.length_eq_one_iff.mp
      (le_antisymm hspec.single (List.length_pos_of_mem ha))
    have hx' : t.effects = [x] := hx
    rw [hx'] at ha ⊢
    rw [List.mem_singleton.mp ha]
  writeOn op t s' a h ha hk := by
    obtain ⟨owner, -, hl, hl', hr'⟩ := (callSpec_of_call hs h).writeOn a ha hk
    refine ⟨hl, ?_, hr', owner, hl'⟩
    rw [← Option.not_isSome_iff_eq_none]
    exact fun hr => Option.not_isSome_iff_eq_none.mpr hl (hs.leased hr)
  once op t s₁ ops s₂ op' t' s' h ht hrun h' ht' := by
    have hs₁ := (callSpec_of_call hs h).ok
    exact exec_removes hs₁ hrun (hs.emits_writeOn h ht).2
      ((hs₁.exec hrun).emits_writeOn h' ht').1
  afterRelease ops s₂ op' t' s' hr hrun h' ht' :=
    exec_removes hs hrun (hs.leased hr) ((hs.exec hrun).emits_writeOn h' ht').1
  removed op t s' h hl hne := by
    obtain ⟨o, r, hop, hoff, hgen, hrel, hacc, hl', -⟩ := (callSpec_of_call hs h).removed hl hne
    exact ⟨⟨o, r, hop, hoff, hgen, hrel, hacc, hl⟩, hl'⟩

/-- The lease under which `a` was started is gone, and `a` is still in flight. -/
def Orphaned (a : ProviderAttempt) (s : Supervisor) : Prop := s.active = some a ∧ s.lease = none

/-- While `a` was in flight an accepted OFF observation removed its lease, and nothing has
happened to the lane or to the lease since. -/
def LeaseRemovedInFlight (c : Config) (ops : List Op) (a : ProviderAttempt) : Prop :=
  ∃ pre op post m m', ops = pre ++ op :: post ∧ Runs.exec (step c) {} pre = some m ∧
    m.active = some a ∧ (∃ l, m.lease = some l ∧ l.id = a.leaseId) ∧ m.RemovesLease op ∧
    step c m op = some m' ∧ Runs.Throughout (step c) (Orphaned a) m' post

/-- An attempt without its lease has lost it in flight. -/
theorem exec_orphans {ops : List Op} {a : ProviderAttempt}
    (h : Runs.exec (step c) {} ops = some s) (hs : s.Orphaned a) :
    LeaseRemovedInFlight c ops a := by
  obtain ⟨pre, op, post, m, m', rfl, hpre, hstep, -, hm, hthrough⟩ :=
    Runs.exec_last_enters (P := Orphaned a) h (by rintro ⟨⟨⟩, -⟩) hs
  have hmok : m.Ok := Ok.initial.exec hpre
  obtain ⟨hact', hl'⟩ : m'.Orphaned a := hthrough [] post m' rfl rfl
  obtain ⟨effects, hspec⟩ := callSpec_of_step hmok hstep
  -- An attempt starts under a lease, so `a` was already active.
  have hact : m.active = some a := by
    rcases hspec.active a hact' with hact | hlease
    · exact hact
    · rw [hl'] at hlease
      cases hlease
  have hne : m.lease ≠ none := fun hl => hm ⟨hact, hl⟩
  obtain ⟨l, hl⟩ := Option.ne_none_iff_exists'.mp hne
  have hlm : m.lease.isSome := by rw [hl]; rfl
  obtain ⟨o, r, hop, hoff, hgen, hrel, hacc, -⟩ :=
    hspec.removed hlm (by rw [hl']; exact Ne.symm hne)
  exact ⟨pre, op, post, m, m', rfl, hpre, hact, ⟨l, hl, (hmok.activeLease a l hact hl).symm⟩,
    ⟨o, r, hop, hoff, hgen, hrel, hacc, hlm⟩, hstep, hthrough⟩

end Supervisor

open Supervisor

variable {c : Config} {s s' : Supervisor}

/-- Every state that a run of calls reaches is safe. -/
theorem run_safe {ops : List Op} (h : Runs.exec (step c) {} ops = some s) : s.RunSafe c :=
  (Ok.initial.exec h).runSafe

theorem noWatchdog_pos : ∀ w ∈ (none : Option Time), 0 < w := by simp

/-- A supervisor whose clock stands still. -/
def Config.still : Config where
  clock _ := 0
  idFactory _ := "id"
  watchdogSeconds := none
  writeTimeout := 1
  readTimeout := 1
  cancelTimeout := 1
  retries := [1]
  watchdog_pos := noWatchdog_pos
  timeouts_pos := ⟨one_pos, one_pos, one_pos⟩
  retries_nonempty := by simp
  retries_nonneg := by simp
  retries_sorted := by simp

/-- An OFF observed with the given sequence number. -/
def ProviderPttObservation.offAt (sequence : Nat) (h : 0 < sequence) : ProviderPttObservation where
  value := .off
  providerGeneration := 1
  pttObservationSeq := sequence
  observedAtMonotonic := 0
  decoded := by decide
  generation_nonneg := by decide
  seq_pos := by exact_mod_cast h

def TxOwner.operator : TxOwner := ⟨.sdk, "session", by decide⟩

/-- Calls up to a `WRITE_ON` in flight. -/
def keyDown : List Op :=
  [.replaceProvider 1 true, .observePtt (.offAt 1 Nat.one_pos), .requestOn .operator]

/-- The operator lets go while the `WRITE_ON` is in flight: the release is owed, and the settlement
of the write makes room for it. -/
theorem run_safe_released : ∃ s r, Runs.exec (step .still) {}
      (keyDown ++ [.requestOff .operator "id" .operatorRelease]) = some s ∧ s.release = some r ∧
    (s.active.isSome ∨ r.retryDue.isSome) ∧ s.lease.isSome ∧
    s.Ended .still (.settleAttempt "id" 1 false none) := by
  have h : Runs.exec (step .still) {}
      (keyDown ++ [.requestOff .operator "id" .operatorRelease]) = some _ := rfl
  exact ⟨_, _, h, rfl, (run_safe h).owed _ rfl, (run_safe h).leased rfl,
    (run_safe h).settled _ _ _ false none rfl ⟨rfl, rfl, rfl⟩⟩

/-- A `WRITE_ON` that settles as done leaves its lease held, as a key-down or as a release,
unless the OFF of a release begun meanwhile was confirmed while the write was in flight.  No
settlement takes the lease away, so this holds of every active attempt. -/
theorem settled_writeOn {ops : List Op} {a : ProviderAttempt} {t : TxTransition}
    (id : String) (generation : Int) (error : Option String)
    (h : Runs.exec (step c) {} ops = some s) (ha : s.active = some a)
    (hcall : call c s (.settleAttempt id generation true error) = .ok (some t, s')) :
    (∃ l, s'.lease = some l ∧ l.id = a.leaseId) ∨ LeaseRemovedInFlight c ops a := by
  have hs : s.Ok := Ok.initial.exec h
  have hspec := callSpec_of_call hs hcall
  cases hl : s.lease with
  | none => exact .inr (exec_orphans h ⟨ha, hl⟩)
  | some l =>
      refine .inl ⟨l, ?_, (hs.activeLease a l ha hl).symm⟩
      by_contra hne
      obtain ⟨o, r, hop, -⟩ := hspec.removed (by rw [hl]; rfl) (by rw [hl]; exact hne)
      cases hop

theorem settled_writeOn_key_down : ∃ s a t s', Runs.exec (step .still) {} keyDown = some s ∧
    s.active = some a ∧ call .still s (.settleAttempt "id" 1 true none) = .ok (some t, s') ∧
    ((∃ l, s'.lease = some l ∧ l.id = a.leaseId) ∨ LeaseRemovedInFlight .still keyDown a) := by
  have h : Runs.exec (step .still) {} keyDown = some _ := rfl
  exact ⟨_, _, _, _, h, rfl, rfl, settled_writeOn "id" 1 none h rfl rfl⟩

/-- A release requested in flight is confirmed by the OFF that the radio still shows, and
the write then settles with no lease. -/
theorem settled_writeOn_without_lease : ¬ ∀ c : Config, Monotone c.clock →
    ∀ ops s a t s' id generation error, Runs.exec (step c) {} ops = some s →
      s.active = some a → a.kind = .writeOn → s.Settles a id generation →
      call c s (.settleAttempt id generation true error) = .ok (some t, s') →
      s'.lease.isSome := by
  intro h
  have hlease := h .still monotone_const
    (keyDown ++ [.requestOff .operator "id" .operatorRelease, .observePtt (.offAt 2 Nat.two_pos)])
    _ _ _ _ "id" 1 none rfl rfl rfl ⟨rfl, rfl, rfl⟩ rfl
  cases hlease

end Rigplane.TxSafety
