import Mathlib.Data.Rat.Floor
import Rigplane.Lifecycle.ConnectInvariants

/-!
# Runs of the resident connect loop

`Facts` is what the log says while the loop goes on, by `Paced` and `Passing`, and what it still
says when the last step is added.  With the releases and the hold, which every step accounts for, it
makes up what holds of every state (`resident_of_run`); the number of attempts bounds the run.
-/

namespace Rigplane.Lifecycle

open ConnectLoop

section

variable {policy : ConnectPolicy} {s t : ConnectLoop} {added : List Entry}

/-! ## Releases -/

/-- After each attempt that did not connect comes a release. -/
def Released : List Entry → Prop
  | [] => True
  | .ended e :: log => (e ≠ .outcome .connected → ∃ rest, log = .release :: rest) ∧ Released log
  | _ :: log => Released log

theorem Released.append {xs ys : List Entry} (hxs : Released xs) (hys : Released ys) :
    Released (xs ++ ys) := by
  induction xs with
  | nil => exact hys
  | cons x xs ih =>
      cases x with
      | ended e =>
          refine ⟨fun he => ?_, ih hxs.2⟩
          obtain ⟨rest, hrest⟩ := hxs.1 he
          exact ⟨rest ++ ys, by rw [hrest]; rfl⟩
      | _ => exact ih hxs

theorem Released.of_quiet (h : ∀ x ∈ added, x.quiet = true) : Released added := by
  induction added with
  | nil => trivial
  | cons x added ih =>
      have hrest := ih fun y hy => h y (List.mem_cons_of_mem x hy)
      cases x with
      | ended e => cases h _ List.mem_cons_self
      | _ => exact hrest

theorem Released.step {a : ConnectAction} (h : Released s.log)
    (hstep : step policy s a = some t) : Released t.log := by
  cases step_cases hstep with
  | ends attempting ended log released quiet =>
      rw [log]
      exact h.append ⟨released, .of_quiet quiet⟩
  | @stops e added attempting ended once auth log quiet =>
      have hrest : Released added := .of_quiet quiet
      rw [log]
      exact h.append ⟨fun _ => ⟨_, rfl⟩, hrest⟩
  | cancels sleeping ended log quiet =>
      rw [log]
      exact h.append (.of_quiet quiet)
  | busy attempting once onceStill auth limited log phase now isFirst isDeadline locals live
      early =>
      rw [log]
      exact h.append ⟨fun _ => ⟨_, rfl⟩, trivial⟩
  | silent attempting once onceStill limited log phase now locals retries =>
      rw [log]
      exact h.append ⟨fun _ => ⟨_, rfl⟩, trivial⟩
  | transient attempting onceStill auth log phase nonneg now locals more =>
      rw [log]
      exact h.append ⟨fun _ => ⟨_, rfl⟩, trivial⟩
  | wakes sleeping late onceStill log phase locals =>
      rw [log]
      exact h.append trivial

/-! ## The hold -/

/-- What is recorded between two states accounts for the hold. -/
def Holds (s t : ConnectLoop) : Prop :=
  ∃ added, t.log = s.log ++ added ∧ t.startupBusyHold = added.foldl Entry.hold s.startupBusyHold

theorem Holds.trans {u : ConnectLoop} (h : Holds s t) (h' : Holds t u) : Holds s u := by
  obtain ⟨added, hlog, hhold⟩ := h
  obtain ⟨added', hlog', hhold'⟩ := h'
  refine ⟨added ++ added', by rw [hlog', hlog, List.append_assoc], ?_⟩
  rw [hhold', hhold, List.foldl_append]

theorem Holds.of_eq (hlog : t.log = s.log) (hhold : t.startupBusyHold = s.startupBusyHold) :
    Holds s t := ⟨[], by rw [hlog, List.append_nil], hhold⟩

theorem Holds.single {x : Entry} (hlog : t.log = s.log ++ [x])
    (hhold : t.startupBusyHold = Entry.hold s.startupBusyHold x) : Holds s t := ⟨[x], hlog, hhold⟩

theorem emit_holds (state : LifecycleState) (reason : LifecycleErrorReason)
    (remaining : Option Time) (s : ConnectLoop) : Holds s (s.emit state reason remaining) :=
  .single rfl rfl

theorem exit_holds (fault : Option ConnectFault) (s : ConnectLoop) : Holds s (s.exit fault) :=
  .single rfl rfl

theorem release_holds (s : ConnectLoop) : Holds s s.release := .single rfl rfl

theorem stopConnecting_holds (s : ConnectLoop) : Holds s s.stopConnecting := .of_eq rfl rfl

theorem sleep_holds (kind : WaitKind) (cooldown : Time) (s : ConnectLoop) :
    Holds s (s.sleep kind cooldown) := .single rfl rfl

theorem raise_holds (fault : ConnectFault) (s : ConnectLoop) : Holds s (s.raise fault) := by
  rw [raise]
  split
  · exact exit_holds _ _
  · split
    · exact (stopConnecting_holds s).trans (exit_holds _ _)
    · exact ((stopConnecting_holds s).trans (emit_holds ..)).trans
        ((emit_holds ..).trans (exit_holds _ _))

theorem giveUp_holds (fault : ConnectFault) (s : ConnectLoop) :
    Holds s ((s.stopConnecting.emit .disconnected .none none).raise fault) :=
  ((stopConnecting_holds s).trans (emit_holds ..)).trans (raise_holds fault _)

/-- A stopped pass ends in `DISCONNECTED`, so that it does not hold. -/
theorem pass_giveUp_holds (fault : ConnectFault) (begun : Time) (s : ConnectLoop) :
    Holds s (((s.note (.busyPass begun)).stopConnecting.emit .disconnected .none none).raise
      fault) := by
  refine .trans ⟨[.busyPass begun, .event ⟨s.state, .disconnected, .none, none⟩], ?_, rfl⟩
    (raise_holds fault _)
  simp [emit, stopConnecting, note]

theorem firstConnectBusyPass_holds (budget first : Time) (s : ConnectLoop) :
    Holds s (s.firstConnectBusyPass policy budget first) := by
  rw [firstConnectBusyPass]
  split
  · exact pass_giveUp_holds _ _ s
  · split
    · exact pass_giveUp_holds _ _ s
    · refine ⟨[.busyPass s.attemptStartedAt,
        .event ⟨s.state, .cooldown, .sessionBusyReject, some policy.busyCooldown⟩,
        .wait .busy s.now policy.busyCooldown], ?_, rfl⟩
      simp [sleep, coolDown, emit, stopConnecting, note]

theorem transientPass_holds (cooldown : Time) (reason : LifecycleErrorReason) (s : ConnectLoop) :
    Holds s (s.transientPass policy cooldown reason) := by
  rw [transientPass]
  split
  · exact giveUp_holds _ s
  · exact ((stopConnecting_holds s).trans (.of_eq rfl rfl)).trans
      (((Holds.of_eq rfl rfl).trans (emit_holds ..)).trans (sleep_holds ..))

theorem discoveryPass_holds (s : ConnectLoop) : Holds s (s.discoveryPass policy) := by
  rw [discoveryPass]
  split
  · exact firstConnectBusyPass_holds _ _ s
  · split
    · exact .trans (.of_eq rfl rfl) (sleep_holds ..)
    · exact raise_holds _ s
  · exact raise_holds _ s

theorem attemptWithRelease_holds (e : AttemptEnd) (s : ConnectLoop) :
    Holds s (s.attemptWithRelease e) := by
  rw [attemptWithRelease]
  split
  · exact .single rfl rfl
  · exact .trans (.single rfl rfl) (release_holds _)

theorem afterAttempt_holds (e : AttemptEnd) (s : ConnectLoop) :
    Holds s (s.afterAttempt policy e) := by
  cases e with
  | discoveryTimeout => exact discoveryPass_holds s
  | raises => exact raise_holds _ s
  | cancelled => exact raise_holds _ s
  | outcome o =>
      cases o with
      | connected =>
          exact (Holds.of_eq rfl rfl).trans ((emit_holds ..).trans (exit_holds ..))
      | sessionNotReady => exact transientPass_holds _ _ s
      | sessionBusyReject =>
          rw [afterAttempt]
          split
          · exact .trans (.of_eq rfl rfl) (firstConnectBusyPass_holds _ _ _)
          · exact transientPass_holds _ _ s
      | authCredentials =>
          exact (((stopConnecting_holds s).trans (release_holds _)).trans
            ((emit_holds ..).trans (emit_holds ..))).trans (raise_holds ..)

theorem startAttempt_holds (s : ConnectLoop) : Holds s s.startAttempt :=
  ((Holds.of_eq rfl rfl).trans (emit_holds ..)).trans (.single rfl rfl)

theorem afterSleep_holds (kind : WaitKind) (s : ConnectLoop) : Holds s (s.afterSleep kind) := by
  cases kind <;> exact .of_eq rfl rfl

theorem Holds.step {a : ConnectAction} (hstep : step policy s a = some t) : Holds s t := by
  cases a with
  | ends e duration =>
      obtain ⟨-, heq⟩ := Option.ite_none_right_eq_some.mp hstep
      cases heq
      have hlater : Holds s { s with now := s.now + duration } := .of_eq rfl rfl
      exact hlater.trans ((attemptWithRelease_holds e _).trans (afterAttempt_holds e _))
  | wakes duration =>
      rw [Lifecycle.step] at hstep
      split at hstep
      · obtain ⟨-, heq⟩ := Option.ite_none_right_eq_some.mp hstep
        cases heq
        have hlater : Holds s { s with now := s.now + duration } := .of_eq rfl rfl
        exact hlater.trans ((afterSleep_holds ..).trans (startAttempt_holds _))
      · cases hstep
  | cancels =>
      rw [Lifecycle.step] at hstep
      split at hstep
      · cases hstep
        exact (afterSleep_holds ..).trans (raise_holds ..)
      · cases hstep

/-! ## The end of a run -/

/-- The most busy waits of the start-up. -/
def ConnectPolicy.busyLimit (policy : ConnectPolicy) : Nat :=
  match policy.firstConnectBusyBudget with
  | none => 0
  | some budget => ⌈budget / policy.busyCooldown⌉₊

/-- The most attempts of one connect. -/
def ConnectPolicy.attemptLimit (policy : ConnectPolicy) : Nat :=
  (max 1 policy.maxConnectAttempts).toNat + policy.busyLimit +
    policy.firstConnectDiscoveryRetries.toNat

/-- What the entries of a log say of each other. -/
structure Facts (policy : ConnectPolicy) (lifecycle : RadioSessionLifecycle) (s : ConnectLoop) :
    Prop where
  /-- Nothing is tried after rejected credentials. -/
  rejected : s.log.Pairwise fun x y =>
    x = .ended (.outcome .authCredentials) → y.quiet = true
  /-- A busy wait begins within the budget of the first. -/
  early : ∀ budget, policy.firstConnectBusyBudget = some budget → ∀ begun cooldown begun' cooldown',
    .wait .busy begun cooldown ∈ s.log → .wait .busy begun' cooldown' ∈ s.log →
      begun' < begun + budget
  /-- No attempt follows a busy pass that is late after the first. -/
  held : ∀ first after, policy.firstConnectBusyLiveHolderAfter = some after →
    .busyPass first ∈ s.log → s.log.Pairwise fun x y =>
      ∀ begun, x = .busyPass begun → first + after ≤ begun → y.isAttempt = false
  brief : waits .busy s.log ≤ policy.busyLimit
  firstConnect : ∀ begun, .busyPass begun ∈ s.log → lifecycle.connectedOnce = false

/-- What the log of a connect loop says in every state. -/
structure Resident (policy : ConnectPolicy) (lifecycle : RadioSessionLifecycle) (s : ConnectLoop) :
    Prop extends Facts policy lifecycle s where
  released : Released s.log
  attempts : (Lifecycle.attempts s.log : Int) ≤
    max 1 policy.maxConnectAttempts + waits .busy s.log + waits .silentDiscovery s.log
  ends : Lifecycle.attempts s.log ≤ policy.attemptLimit
  hold : s.startupBusyHold = s.log.foldl Entry.hold lifecycle.startupBusyHold

/-- While the loop goes on. -/
structure Going (policy : ConnectPolicy) (lifecycle : RadioSessionLifecycle) (s : ConnectLoop) :
    Prop extends Paced policy s, Passing policy lifecycle s where
  counted : s.busyAttempts = Lifecycle.waits .busy s.log

section

variable {lifecycle : RadioSessionLifecycle}

theorem Going.brief (h : Going policy lifecycle s) :
    Lifecycle.waits .busy s.log ≤ policy.busyLimit := by
  rcases Nat.eq_zero_or_pos (Lifecycle.waits .busy s.log) with hnone | hsome
  · rw [hnone]
    exact Nat.zero_le _
  · obtain ⟨x, hmem, hwait⟩ := List.countP_pos_iff.mp hsome
    obtain ⟨begun, cooldown, rfl⟩ : ∃ begun cooldown, x = .wait .busy begun cooldown := by
      cases x with
      | wait kind begun cooldown =>
          simp only [Entry.isWait, decide_eq_true_eq] at hwait
          exact ⟨begun, cooldown, by rw [hwait]⟩
      | _ => cases hwait
    obtain ⟨deadline, budget, -, hbudget, -⟩ := h.waits begun cooldown hmem
    rw [ConnectPolicy.busyLimit, hbudget]
    have hbound := (h.bound.resolve_left (by rw [h.counted]; exact hsome.ne')) budget hbudget
    have hlt : (s.busyAttempts - 1 : ℚ) < budget / policy.busyCooldown :=
      (lt_div_iff₀ policy.busyCooldown_pos).mpr hbound
    have hceil : (s.busyAttempts : ℚ) < (⌈budget / policy.busyCooldown⌉₊ : ℚ) + 1 := by
      linarith [Nat.le_ceil (budget / policy.busyCooldown)]
    rw [← h.counted]
    exact Nat.lt_succ_iff.mp (by exact_mod_cast hceil)

theorem Going.early (h : Going policy lifecycle s) {budget begun cooldown begun' cooldown' : Time}
    (hbudget : policy.firstConnectBusyBudget = some budget)
    (hmem : .wait .busy begun cooldown ∈ s.log) (hmem' : .wait .busy begun' cooldown' ∈ s.log) :
    begun' < begun + budget := by
  obtain ⟨deadline, b, hdeadline, hb, -, hleft⟩ := h.waits begun cooldown hmem
  obtain ⟨deadline', _, hdeadline', -, hbegun, -⟩ := h.waits begun' cooldown' hmem'
  rw [hbudget] at hb
  cases hb
  rw [hdeadline] at hdeadline'
  cases hdeadline'
  exact hbegun.trans_le hleft

theorem Going.not_late (h : Going policy lifecycle s) {first after begun : Time}
    (hafter : policy.firstConnectBusyLiveHolderAfter = some after)
    (hfirst : .busyPass first ∈ s.log ∨ first = s.attemptStartedAt)
    (hmem : .busyPass begun ∈ s.log) : begun < first + after := by
  obtain ⟨f, hf, -, hlive⟩ := h.passes begun hmem
  have hle : f ≤ first := by
    rcases hfirst with hfirst | rfl
    · obtain ⟨f', hf', hle, -⟩ := h.passes first hfirst
      rw [hf] at hf'
      cases hf'
      exact hle
    · exact h.first f hf
  linarith [hlive after hafter]

theorem Going.facts (h : Going policy lifecycle s) : Facts policy lifecycle s where
  rejected := List.Pairwise.imp_of_mem (fun hx _ _ heq => absurd (heq ▸ hx) h.auth)
    (List.pairwise_of_forall fun _ _ => trivial)
  early _ hbudget _ _ _ _ hmem hmem' := h.early hbudget hmem hmem'
  held _ _ hafter hfirst := List.Pairwise.imp_of_mem (fun hx _ _ _ heq hlate =>
    absurd (h.not_late hafter (.inl hfirst) (heq ▸ hx)) (not_lt.mpr hlate))
    (List.pairwise_of_forall fun _ _ => trivial)
  brief := h.brief
  firstConnect := h.firstConnect

/-- What the last step records. -/
structure Closing (s : ConnectLoop) (added : List Entry) : Prop where
  attempts : ∀ x ∈ added, x.isAttempt = false
  waits : ∀ x ∈ added, ∀ kind, x.isWait kind = false
  passes : ∀ begun, .busyPass begun ∈ added → begun = s.attemptStartedAt ∧ s.connectedOnce = false
  rejected : added.Pairwise fun x y => x = .ended (.outcome .authCredentials) → y.quiet = true

theorem Closing.of_quiet (h : ∀ x ∈ added, x.quiet = true) : Closing s added where
  attempts x hx := Entry.not_attempt_of_quiet (h x hx)
  waits x hx kind := Entry.not_wait_of_quiet (h x hx) kind
  passes _ hmem := nomatch h _ hmem
  rejected := List.Pairwise.imp_of_mem (fun _ hy _ _ => h _ hy)
    (List.pairwise_of_forall fun _ _ => trivial)

theorem Closing.cons {x : Entry} (h : Closing s added) (hattempt : x.isAttempt = false)
    (hwait : ∀ kind, x.isWait kind = false)
    (hpass : ∀ begun, x = .busyPass begun → begun = s.attemptStartedAt ∧ s.connectedOnce = false)
    (hrejected : x = .ended (.outcome .authCredentials) → ∀ y ∈ added, y.quiet = true) :
    Closing s (x :: added) where
  attempts y hy := by
    rcases List.mem_cons.mp hy with rfl | hy
    · exact hattempt
    · exact h.attempts y hy
  waits y hy kind := by
    rcases List.mem_cons.mp hy with rfl | hy
    · exact hwait kind
    · exact h.waits y hy kind
  passes begun hmem := by
    rcases List.mem_cons.mp hmem with heq | hmem
    · exact hpass begun heq.symm
    · exact h.passes begun hmem
  rejected := List.pairwise_cons.mpr ⟨fun y hy heq => hrejected heq y hy, h.rejected⟩

theorem closing_of_ended {a : ConnectAction} (hstep : step policy s a = some t)
    (hended : t.phase = .ended) : ∃ added, t.log = s.log ++ added ∧ Closing s added := by
  cases step_cases hstep with
  | ends attempting ended log released quiet =>
      exact ⟨_, log, (Closing.of_quiet quiet).cons rfl (fun _ => rfl) nofun fun _ => quiet⟩
  | stops attempting ended once auth log quiet =>
      refine ⟨_, log, Closing.cons (.cons (.cons (.of_quiet quiet) rfl (fun _ => rfl) ?_ nofun) rfl
        (fun _ => rfl) nofun nofun) rfl (fun _ => rfl) nofun ?_⟩
      · rintro begun ⟨⟩
        exact ⟨rfl, once⟩
      · intro heq
        exact absurd (Entry.ended.inj heq) auth
  | cancels sleeping ended log quiet => exact ⟨_, log, .of_quiet quiet⟩
  | busy attempting once onceStill auth limited log phase now isFirst isDeadline locals live
      early =>
      rw [phase] at hended
      cases hended
  | silent attempting once onceStill limited log phase now locals retries =>
      rw [phase] at hended
      cases hended
  | transient attempting onceStill auth log phase nonneg now locals more =>
      rw [phase] at hended
      cases hended
  | wakes sleeping late onceStill log phase locals =>
      rw [phase] at hended
      cases hended

/-- The facts outlast the loop. -/
theorem Going.facts_of_closing (h : Going policy lifecycle s) (hlog : t.log = s.log ++ added)
    (hclosing : Closing s added) : Facts policy lifecycle t := by
  have hwait : ∀ {begun cooldown}, Entry.wait .busy begun cooldown ∈ t.log →
      .wait .busy begun cooldown ∈ s.log := by
    intro begun cooldown hmem
    rw [hlog] at hmem
    refine (List.mem_append.mp hmem).resolve_right fun hadded => ?_
    cases hclosing.waits _ hadded .busy
  have hpass : ∀ {begun}, Entry.busyPass begun ∈ t.log →
      .busyPass begun ∈ s.log ∨ begun = s.attemptStartedAt ∧ s.connectedOnce = false := by
    intro begun hmem
    rw [hlog] at hmem
    exact (List.mem_append.mp hmem).imp_right (hclosing.passes begun)
  refine ⟨?_, fun budget hbudget _ _ _ _ hmem hmem' => ?_, fun first after hafter hfirst => ?_, ?_,
    fun begun hmem => ?_⟩
  · rw [hlog, List.pairwise_append]
    exact ⟨h.facts.rejected, hclosing.rejected, fun x hx _ _ heq => absurd (heq ▸ hx) h.auth⟩
  · exact h.early hbudget (hwait hmem) (hwait hmem')
  · have hlate : ∀ x ∈ s.log, ∀ begun, x = .busyPass begun → ¬ first + after ≤ begun := by
      rintro x hx begun rfl
      exact not_le.mpr (h.not_late hafter ((hpass hfirst).imp_right (·.1)) hx)
    rw [hlog, List.pairwise_append]
    refine ⟨?_, ?_, fun x hx _ _ begun heq hle => absurd hle (hlate x hx begun heq)⟩
    · exact List.Pairwise.imp_of_mem (fun hx _ _ begun heq hle => absurd hle (hlate _ hx begun heq))
        (List.pairwise_of_forall fun _ _ => trivial)
    · exact List.Pairwise.imp_of_mem (fun _ hy _ _ _ _ => hclosing.attempts _ hy)
        (List.pairwise_of_forall fun _ _ => trivial)
  · have hnone : Lifecycle.waits .busy added = 0 :=
      List.countP_eq_zero.mpr fun x hx => by rw [hclosing.waits x hx .busy]; nofun
    rw [hlog, waits_append, hnone]
    exact h.brief
  · exact (hpass hmem).elim (h.firstConnect begun) fun hnow => h.once.symm.trans hnow.2

/-! ## Every run -/

structure Sound (policy : ConnectPolicy) (lifecycle : RadioSessionLifecycle) (s : ConnectLoop) :
    Prop extends Counted policy s, Facts policy lifecycle s where
  released : Released s.log
  hold : s.startupBusyHold = s.log.foldl Entry.hold lifecycle.startupBusyHold
  going : s.phase ≠ .ended → Going policy lifecycle s

theorem goes_before {a : ConnectAction} (hstep : step policy s a = some t) : s.phase ≠ .ended := by
  intro hended
  cases a <;> simp [step, hended] at hstep

theorem Sound.step {a : ConnectAction} (h : Sound policy lifecycle s)
    (hstep : step policy s a = some t) : Sound policy lifecycle t := by
  have hgoing := h.going (goes_before hstep)
  have hcounted : Counted policy t := h.toCounted.step hstep
  have hnext : t.phase ≠ .ended → Going policy lifecycle t := fun hgoes =>
    { hgoing.toPaced.step hstep hgoes, hgoing.toPassing.step hgoing.toPaced hstep hgoes with
      counted := (hcounted.locals hgoes).2.1 }
  have hfacts : Facts policy lifecycle t := by
    by_cases hended : t.phase = .ended
    · obtain ⟨added, hlog, hclosing⟩ := closing_of_ended hstep hended
      exact hgoing.facts_of_closing hlog hclosing
    · exact (hnext hended).facts
  refine { hcounted, hfacts with released := h.released.step hstep, hold := ?_, going := hnext }
  obtain ⟨added, hlog, hhold⟩ := Holds.step hstep
  rw [hhold, hlog, List.foldl_append, h.hold]

theorem Sound.start (lifecycle : RadioSessionLifecycle) (now : Time) :
    Sound policy lifecycle (start lifecycle now) := by
  have hgoing : Going policy lifecycle (Lifecycle.start lifecycle now) :=
    { Paced.start lifecycle now, Passing.start lifecycle now with counted := rfl }
  refine { Counted.start lifecycle now, hgoing.facts with
    released := trivial, hold := ?_, going := fun _ => hgoing }
  rfl

/-- At most `max_connect_attempts` attempts, and at least one, besides the waits of the start-up. -/
theorem Sound.attempts_le (h : Sound policy lifecycle s) :
    (Lifecycle.attempts s.log : Int) ≤ max 1 policy.maxConnectAttempts +
      Lifecycle.waits .busy s.log + Lifecycle.waits .silentDiscovery s.log := by
  have := h.attempts
  rcases h.transient with hnone | hsome
  · omega
  · omega

theorem Sound.resident (h : Sound policy lifecycle s) : Resident policy lifecycle s :=
  { h with
    attempts := h.attempts_le
    ends := by
      have hattempts := h.attempts_le
      have hbrief := h.brief
      have hsilent := h.silent
      rw [ConnectPolicy.attemptLimit]
      omega }

/-! ## The loop ends -/

/-- How far the loop is: an attempt, its sleep, the end. -/
def progress (s : ConnectLoop) : Nat :=
  match s.phase with
  | .attempting => 2 * Lifecycle.attempts s.log
  | .sleeping _ _ => 2 * Lifecycle.attempts s.log + 1
  | .ended => 2 * Lifecycle.attempts s.log + 2

theorem progress_step {a : ConnectAction} (hstep : step policy s a = some t) :
    progress s + 1 ≤ progress t := by
  cases step_cases hstep with
  | ends attempting ended log released quiet =>
      simp [progress, attempting, ended, log, Entry.isAttempt]
      omega
  | stops attempting ended once auth log quiet =>
      simp [progress, attempting, ended, log, Entry.isAttempt]
      omega
  | cancels sleeping ended log quiet =>
      simp [progress, sleeping, ended, log]
  | busy attempting once onceStill auth limited log phase now isFirst isDeadline locals live
      early =>
      simp [progress, attempting, phase, log, Entry.isAttempt]
  | silent attempting once onceStill limited log phase now locals retries =>
      simp [progress, attempting, phase, log, Entry.isAttempt]
  | transient attempting onceStill auth log phase nonneg now locals more =>
      simp [progress, attempting, phase, log, Entry.isAttempt]
  | wakes sleeping late onceStill log phase locals =>
      simp [progress, sleeping, phase, log, Entry.isAttempt]
      omega

theorem progress_run {actions : List ConnectAction}
    (hrun : Runs.exec (step policy) s actions = some t) :
    progress s + actions.length ≤ progress t := by
  induction actions generalizing s with
  | nil =>
      cases hrun
      exact Nat.le_refl _
  | cons a actions ih =>
      obtain ⟨m, hstep, hrest⟩ := Runs.exec_cons_eq_some.mp hrun
      have hone := progress_step hstep
      have hmore := ih hrest
      rw [List.length_cons]
      omega

theorem progress_le (s : ConnectLoop) : progress s ≤ 2 * Lifecycle.attempts s.log + 2 := by
  rw [progress]
  split <;> omega

/-- Every state of every run of the resident connect loop, and how long a run may be. -/
theorem resident_of_run {now : Time} {actions : List ConnectAction}
    (hrun : Runs.exec (step policy) (start lifecycle now) actions = some s) :
    Resident policy lifecycle s ∧ actions.length ≤ 2 * policy.attemptLimit := by
  have hsound : Sound policy lifecycle s :=
    Runs.exec_invariant (fun _ _ _ h hstep => h.step hstep) hrun (Sound.start lifecycle now)
  refine ⟨hsound.resident, ?_⟩
  have hprogress : 2 + actions.length ≤ progress s := progress_run hrun
  have hlast := progress_le s
  have hends := hsound.resident.ends
  omega

/-- The arguments of `CoreRadio`. -/
def corePolicy : ConnectPolicy where
  notReadyCooldown := 0
  rejectCooldown := 0
  maxConnectAttempts := 4
  firstConnectBusyCooldown := some 30
  firstConnectBusyBudget := some 600
  firstConnectBusyLiveHolderAfter := some 90
  firstConnectDiscoveryRetries := 2
  notReadyCooldown_nonneg := le_refl 0
  rejectCooldown_nonneg := le_refl 0
  firstConnectBusyCooldown_pos := by decide

/-- A discovery is not answered, the radio is busy and then does not answer, is not ready, and is
connected. -/
def patiently : List ConnectAction :=
  [.ends .discoveryTimeout 1, .wakes 30, .ends (.outcome .sessionBusyReject) 2, .wakes 30,
    .ends .discoveryTimeout 1, .wakes 31, .ends (.outcome .sessionNotReady) 1, .wakes 0,
    .ends (.outcome .connected) 1]

theorem resident_of_run_connected :
    ∃ s, Runs.exec (step corePolicy) (start {} 0) patiently = some s ∧ s.state = .connected ∧
      Lifecycle.attempts s.log = 5 ∧ Lifecycle.waits .busy s.log = 2 ∧
        Resident corePolicy {} s := by
  have hruns : (Runs.exec (step corePolicy) (start {} 0) patiently).map
      (fun s => (s.state, Lifecycle.attempts s.log, Lifecycle.waits .busy s.log)) =
        some (.connected, 5, 2) := by decide +kernel
  obtain ⟨s, hrun, hs⟩ := Option.map_eq_some_iff.mp hruns
  simp only [Prod.mk.injEq] at hs
  exact ⟨s, hrun, hs.1, hs.2.1, hs.2.2, (resident_of_run hrun).1⟩

/-- The loop makes an attempt where it may make none. -/
theorem attempts_without_any :
    ¬ ∀ (policy : ConnectPolicy) (lifecycle : RadioSessionLifecycle) (now : Time)
        (actions : List ConnectAction) (s : ConnectLoop),
      Runs.exec (step policy) (start lifecycle now) actions = some s →
        (Lifecycle.attempts s.log : Int) ≤ policy.maxConnectAttempts +
          Lifecycle.waits .busy s.log + Lifecycle.waits .silentDiscovery s.log := by
  intro hmost
  have hnone := hmost { corePolicy with maxConnectAttempts := 0 } {} 0 [] _ rfl
  revert hnone
  decide

end

end

end Rigplane.Lifecycle
