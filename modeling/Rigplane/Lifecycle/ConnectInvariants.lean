import Mathlib.Algebra.Order.Field.Rat
import Mathlib.Tactic.Linarith
import Rigplane.Lifecycle.ConnectSteps

/-!
# What the resident connect loop keeps

Three invariants, each with its step lemma.  The counters of the loop are those of its log, and
there is one attempt more than waits (`Counted`).  Busy waits begin before a deadline that is set
once, each a cooldown after the one before (`Paced`).  As long as the loop goes on, no busy pass was
late and no credentials were rejected (`Passing`).
-/

namespace Rigplane.Lifecycle

open ConnectLoop

section

variable {policy : ConnectPolicy} {s t : ConnectLoop} {added : List Entry}

/-! ## Counting attempts -/

def attempts (log : List Entry) : Nat := log.countP (·.isAttempt)

def waits (kind : WaitKind) (log : List Entry) : Nat := log.countP (·.isWait kind)

@[simp]
theorem attempts_append (xs ys : List Entry) : attempts (xs ++ ys) = attempts xs + attempts ys :=
  List.countP_append ..

@[simp]
theorem waits_append (kind : WaitKind) (xs ys : List Entry) :
    waits kind (xs ++ ys) = waits kind xs + waits kind ys :=
  List.countP_append ..

@[simp]
theorem attempts_nil : attempts [] = 0 := rfl

@[simp]
theorem waits_nil (kind : WaitKind) : waits kind [] = 0 := rfl

@[simp]
theorem attempts_cons (x : Entry) (xs : List Entry) :
    attempts (x :: xs) = attempts xs + if x.isAttempt then 1 else 0 := List.countP_cons ..

@[simp]
theorem waits_cons (kind : WaitKind) (x : Entry) (xs : List Entry) :
    waits kind (x :: xs) = waits kind xs + if x.isWait kind then 1 else 0 := List.countP_cons ..

theorem attempts_quiet (h : ∀ x ∈ added, x.quiet = true) : attempts added = 0 :=
  List.countP_eq_zero.mpr fun x hx => by rw [Entry.not_attempt_of_quiet (h x hx)]; nofun

theorem waits_quiet (kind : WaitKind) (h : ∀ x ∈ added, x.quiet = true) : waits kind added = 0 :=
  List.countP_eq_zero.mpr fun x hx => by rw [Entry.not_wait_of_quiet (h x hx)]; nofun

/-- The counters are right, and there is an attempt for each wait and one more. -/
structure Counted (policy : ConnectPolicy) (s : ConnectLoop) : Prop where
  attempts : attempts s.log ≤
    waits .busy s.log + waits .silentDiscovery s.log + waits .transient s.log + 1
  transient : waits .transient s.log = 0 ∨
    (waits .transient s.log : Int) < policy.maxConnectAttempts
  silent : waits .silentDiscovery s.log = 0 ∨
    (waits .silentDiscovery s.log : Int) ≤ policy.firstConnectDiscoveryRetries
  attempting : s.phase = .attempting → Lifecycle.attempts s.log =
    waits .busy s.log + waits .silentDiscovery s.log + waits .transient s.log + 1
  sleeping : ∀ kind cooldown, s.phase = .sleeping kind cooldown → Lifecycle.attempts s.log =
    waits .busy s.log + waits .silentDiscovery s.log + waits .transient s.log
  locals : s.phase ≠ .ended → s.attempt = Lifecycle.attempts s.log ∧
    s.busyAttempts = waits .busy s.log ∧ s.silentDiscoveryAttempts = waits .silentDiscovery s.log

theorem Counted.ended (h : Counted policy s) (hended : t.phase = .ended)
    (hattempts : Lifecycle.attempts t.log = Lifecycle.attempts s.log)
    (hwaits : ∀ kind, waits kind t.log = waits kind s.log) : Counted policy t where
  attempts := by
    rw [hattempts, hwaits, hwaits, hwaits]
    exact h.attempts
  transient := by
    rw [hwaits]
    exact h.transient
  silent := by
    rw [hwaits]
    exact h.silent
  attempting hphase := by rw [hended] at hphase; cases hphase
  sleeping kind cooldown hphase := by rw [hended] at hphase; cases hphase
  locals hphase := absurd hended hphase

/-- An attempt ends in a sleep. -/
theorem Counted.slept {kind : WaitKind} {cooldown : Time} (h : Counted policy s)
    (attempting : s.phase = .attempting) (hphase : t.phase = .sleeping kind cooldown)
    (hattempts : Lifecycle.attempts t.log = Lifecycle.attempts s.log)
    (hwaits : ∀ k, waits k t.log = waits k s.log + if k = kind then 1 else 0)
    (hattempt : t.attempt = s.attempt)
    (hbusy : t.busyAttempts = s.busyAttempts + if kind = .busy then 1 else 0)
    (hsilent : t.silentDiscoveryAttempts =
      s.silentDiscoveryAttempts + if kind = .silentDiscovery then 1 else 0)
    (hmore : kind = .transient →
      (s.attempt : Int) - s.busyAttempts - s.silentDiscoveryAttempts < policy.maxConnectAttempts)
    (hretries : kind = .silentDiscovery →
      (s.silentDiscoveryAttempts + 1 : Int) ≤ policy.firstConnectDiscoveryRetries) :
    Counted policy t := by
  have hlocals := h.locals (by rw [attempting]; nofun)
  have htotal := h.attempting attempting
  have htransient := h.transient
  have hsilents := h.silent
  have hone : waits .busy t.log + waits .silentDiscovery t.log + waits .transient t.log =
      Lifecycle.attempts t.log := by
    rw [hwaits, hwaits, hwaits, hattempts, htotal]
    cases kind <;> simp <;> omega
  refine ⟨hone ▸ Nat.le_succ _, ?_, ?_, ?_, fun _ _ _ => hone.symm, fun _ => ⟨?_, ?_, ?_⟩⟩
  · rw [hwaits]
    cases kind with
    | transient => have := hmore rfl; simp; omega
    | busy => simpa using htransient
    | silentDiscovery => simpa using htransient
  · rw [hwaits]
    cases kind with
    | silentDiscovery => have := hretries rfl; simp; omega
    | busy => simpa using hsilents
    | transient => simpa using hsilents
  · intro hcontra
    rw [hphase] at hcontra
    cases hcontra
  · rw [hattempt, hattempts, hlocals.1]
  · rw [hbusy, hwaits, hlocals.2.1]
    simp only [eq_comm]
  · rw [hsilent, hwaits, hlocals.2.2]
    simp only [eq_comm]

theorem Counted.step {a : ConnectAction} (h : Counted policy s) (hstep : step policy s a = some t) :
    Counted policy t := by
  cases step_cases hstep with
  | ends attempting ended log released quiet =>
      refine h.ended ended ?_ fun kind => ?_
      · simp [log, attempts_quiet quiet, Entry.isAttempt]
      · simp [log, waits_quiet kind quiet, Entry.isWait]
  | stops attempting ended once auth log quiet =>
      refine h.ended ended ?_ fun kind => ?_
      · simp [log, attempts_quiet quiet, Entry.isAttempt]
      · simp [log, waits_quiet kind quiet, Entry.isWait]
  | cancels sleeping ended log quiet =>
      refine h.ended ended ?_ fun kind => ?_
      · simp [log, attempts_quiet quiet]
      · simp [log, waits_quiet kind quiet]
  | busy attempting once onceStill auth limited log phase now isFirst isDeadline locals live
      early =>
      refine h.slept attempting phase ?_ (fun kind => ?_) ?_ ?_ ?_ nofun nofun
      · simp [log, Entry.isAttempt]
      · simp [log, Entry.isWait, eq_comm]
      all_goals simp [locals]
  | silent attempting once onceStill limited log phase now locals retries =>
      refine h.slept attempting phase ?_ (fun kind => ?_) ?_ ?_ ?_ nofun fun _ => retries
      · simp [log, Entry.isAttempt]
      · simp [log, Entry.isWait, eq_comm]
      all_goals simp [locals]
  | transient attempting onceStill auth log phase nonneg now locals more =>
      refine h.slept attempting phase ?_ (fun kind => ?_) ?_ ?_ ?_ (fun _ => more) nofun
      · simp [log, Entry.isAttempt]
      · simp [log, Entry.isWait, eq_comm]
      all_goals simp [locals]
  | wakes sleeping late onceStill log phase locals =>
      have hlocals := h.locals (by rw [sleeping]; nofun)
      have htotal := h.sleeping _ _ sleeping
      have hattempts : Lifecycle.attempts t.log = Lifecycle.attempts s.log + 1 := by
        simp [log, Entry.isAttempt]
      have hwaits : ∀ kind, waits kind t.log = waits kind s.log := by
        intro kind
        simp [log, Entry.isWait]
      have hone : Lifecycle.attempts t.log =
          waits .busy t.log + waits .silentDiscovery t.log + waits .transient t.log + 1 := by
        rw [hwaits, hwaits, hwaits, hattempts, htotal]
      refine ⟨hone.le, ?_, ?_, fun _ => hone, fun kind cooldown hphase => ?_, fun _ => ?_⟩
      · rw [hwaits]
        exact h.transient
      · rw [hwaits]
        exact h.silent
      · rw [phase] at hphase
        cases hphase
      · rw [locals, hattempts, hwaits, hwaits, ← hlocals.1, ← hlocals.2.1, ← hlocals.2.2]
        exact ⟨rfl, rfl, rfl⟩

theorem Counted.start (lifecycle : RadioSessionLifecycle) (now : Time) :
    Counted policy (start lifecycle now) where
  attempts := Nat.le_refl 1
  transient := .inl rfl
  silent := .inl rfl
  attempting _ := rfl
  sleeping _ _ h := by cases h
  locals _ := ⟨rfl, rfl, rfl⟩

/-! ## The clock -/

/-- When the loop goes on at the earliest. -/
def due (s : ConnectLoop) : Time :=
  match s.phase with
  | .sleeping _ cooldown => s.now + cooldown
  | _ => s.now

/-- Each busy wait begins before the deadline, which is a budget after the first of them. -/
structure Paced (policy : ConnectPolicy) (s : ConnectLoop) : Prop where
  started : s.attemptStartedAt ≤ s.now
  nonneg : ∀ kind cooldown, s.phase = .sleeping kind cooldown → 0 ≤ cooldown
  fresh : s.busyDeadline = none → s.busyAttempts = 0
  waits : ∀ begun cooldown, .wait .busy begun cooldown ∈ s.log → ∃ deadline budget,
    s.busyDeadline = some deadline ∧ policy.firstConnectBusyBudget = some budget ∧
      begun < deadline ∧ deadline ≤ begun + budget
  pace : ∀ deadline budget, s.busyDeadline = some deadline →
    policy.firstConnectBusyBudget = some budget →
      deadline - budget + s.busyAttempts * policy.busyCooldown ≤ due s
  bound : s.busyAttempts = 0 ∨ ∀ budget, policy.firstConnectBusyBudget = some budget →
    (s.busyAttempts - 1 : ℚ) * policy.busyCooldown < budget

theorem Paced.le_due (h : Paced policy s) : s.now ≤ due s := by
  rw [due]
  split
  · rename_i hphase
    exact le_add_of_nonneg_right (h.nonneg _ _ hphase)
  · exact le_refl _

/-- A step that leaves the deadline and makes no busy pass. -/
theorem Paced.same (h : Paced policy s) (hstarted : t.attemptStartedAt ≤ t.now)
    (hnonneg : ∀ kind cooldown, t.phase = .sleeping kind cooldown → 0 ≤ cooldown)
    (hdeadline : t.busyDeadline = s.busyDeadline) (hbusy : t.busyAttempts = s.busyAttempts)
    (hdue : due s ≤ due t)
    (hwaits : ∀ begun cooldown, .wait .busy begun cooldown ∈ t.log →
      .wait .busy begun cooldown ∈ s.log) : Paced policy t where
  started := hstarted
  nonneg := hnonneg
  fresh := by rw [hdeadline, hbusy]; exact h.fresh
  waits begun cooldown hmem := by
    rw [hdeadline]
    exact h.waits begun cooldown (hwaits begun cooldown hmem)
  pace deadline budget := by
    rw [hdeadline, hbusy]
    exact fun hd hb => (h.pace deadline budget hd hb).trans hdue
  bound := by rw [hbusy]; exact h.bound

theorem due_attempting (h : s.phase = .attempting) : due s = s.now := by rw [due, h]

theorem due_sleeping {kind : WaitKind} {cooldown : Time} (h : s.phase = .sleeping kind cooldown) :
    due s = s.now + cooldown := by rw [due, h]

theorem Paced.step {a : ConnectAction} (h : Paced policy s) (hstep : step policy s a = some t)
    (hgoes : t.phase ≠ .ended) : Paced policy t := by
  cases step_cases hstep with
  | ends attempting ended log released quiet => exact absurd ended hgoes
  | stops attempting ended once auth log quiet => exact absurd ended hgoes
  | cancels sleeping ended log quiet => exact absurd ended hgoes
  | silent attempting once onceStill limited log phase now locals retries =>
      refine h.same ?_ (fun _ _ hphase => ?_) ?_ ?_ ?_ fun begun cooldown hmem => ?_
      · rw [locals]
        exact h.started.trans now
      · rw [phase] at hphase
        cases hphase
        exact policy.busyCooldown_pos.le
      · rw [locals]
      · rw [locals]
      · rw [due_attempting attempting, due_sleeping phase]
        exact now.trans (le_add_of_nonneg_right policy.busyCooldown_pos.le)
      · simpa [log] using hmem
  | transient attempting onceStill auth log phase nonneg now locals more =>
      refine h.same ?_ (fun _ _ hphase => ?_) ?_ ?_ ?_ fun begun cooldown hmem => ?_
      · rw [locals]
        exact h.started.trans now
      · rw [phase] at hphase
        cases hphase
        exact nonneg
      · rw [locals]
      · rw [locals]
      · rw [due_attempting attempting, due_sleeping phase]
        exact now.trans (le_add_of_nonneg_right nonneg)
      · simpa [log] using hmem
  | wakes sleeping late onceStill log phase locals =>
      refine h.same ?_ (fun _ _ hphase => ?_) ?_ ?_ ?_ fun begun cooldown hmem => ?_
      · rw [locals]
      · rw [phase] at hphase
        cases hphase
      · rw [locals]
      · rw [locals]
      · rw [due_sleeping sleeping, due_attempting phase]
        exact late
      · simpa [log] using hmem
  | @busy e event budget first deadline attempting once onceStill auth limited log phase now isFirst
      isDeadline locals live early =>
      have hdue := due_sleeping phase
      have hpace : deadline - budget + s.busyAttempts * policy.busyCooldown ≤ t.now := by
        cases hd : s.busyDeadline with
        | none =>
            rw [hd] at isDeadline
            rw [isDeadline, h.fresh hd]
            simp
        | some d =>
            rw [hd] at isDeadline
            rw [isDeadline]
            exact ((h.pace d budget hd limited).trans_eq (due_attempting attempting)).trans now
      have hpassed : 0 ≤ s.busyAttempts * policy.busyCooldown :=
        mul_nonneg (Nat.cast_nonneg _) policy.busyCooldown_pos.le
      refine ⟨?_, fun _ _ hphase => ?_, ?_, fun begun cooldown hmem => ?_, ?_, ?_⟩
      · rw [locals]
        exact h.started.trans now
      · rw [phase] at hphase
        cases hphase
        exact policy.busyCooldown_pos.le
      · rw [locals]
        nofun
      · refine ⟨deadline, budget, by rw [locals], limited, ?_⟩
        rw [log] at hmem
        rcases List.mem_append.mp hmem with hmem | hmem
        · obtain ⟨d, b, hd, hb, hbegun, hleft⟩ := h.waits begun cooldown hmem
          rw [hd] at isDeadline
          rw [limited] at hb
          cases hb
          rw [isDeadline]
          exact ⟨hbegun, hleft⟩
        · simp only [List.mem_cons, reduceCtorEq, List.not_mem_nil, or_false, false_or,
            Entry.wait.injEq, true_and] at hmem
          rw [hmem.1]
          exact ⟨early, by linarith⟩
      · intro d b hd hb
        rw [limited] at hb
        cases hb
        rw [locals] at hd ⊢
        cases hd
        rw [hdue]
        push_cast
        linarith
      · refine .inr fun b hb => ?_
        rw [limited] at hb
        cases hb
        rw [locals]
        push_cast
        linarith

theorem Paced.start (lifecycle : RadioSessionLifecycle) (now : Time) :
    Paced policy (start lifecycle now) where
  started := le_refl now
  nonneg _ _ h := by cases h
  fresh _ := rfl
  waits begun cooldown hmem := by simp [Lifecycle.start, startAttempt, emit, note] at hmem
  pace _ _ h := by cases h
  bound := .inl rfl

/-! ## Passes -/

/-- While the loop goes on, no busy pass was late and the credentials were not rejected. -/
structure Passing (policy : ConnectPolicy) (lifecycle : RadioSessionLifecycle) (s : ConnectLoop) :
    Prop where
  once : s.connectedOnce = lifecycle.connectedOnce
  first : ∀ first, s.firstBusyStartedAt = some first → first ≤ s.attemptStartedAt
  passes : ∀ begun, .busyPass begun ∈ s.log → ∃ first, s.firstBusyStartedAt = some first ∧
    first ≤ begun ∧
      ∀ after, policy.firstConnectBusyLiveHolderAfter = some after → begun < first + after
  firstConnect : ∀ begun, .busyPass begun ∈ s.log → lifecycle.connectedOnce = false
  auth : .ended (.outcome .authCredentials) ∉ s.log

theorem Passing.step {lifecycle : RadioSessionLifecycle} {a : ConnectAction}
    (h : Passing policy lifecycle s) (hpaced : Paced policy s) (hstep : step policy s a = some t)
    (hgoes : t.phase ≠ .ended) : Passing policy lifecycle t := by
  cases step_cases hstep with
  | ends attempting ended log released quiet => exact absurd ended hgoes
  | stops attempting ended once auth log quiet => exact absurd ended hgoes
  | cancels sleeping ended log quiet => exact absurd ended hgoes
  | silent attempting once onceStill limited log phase now locals retries =>
      refine ⟨onceStill.trans (once.symm.trans h.once), ?_, fun begun hmem => ?_,
        fun begun _ => h.once.symm.trans once, ?_⟩
      · rw [locals]
        exact h.first
      · rw [locals]
        exact h.passes begun (by simpa [log] using hmem)
      · simpa [log] using h.auth
  | transient attempting onceStill auth log phase nonneg now locals more =>
      refine ⟨onceStill.trans h.once, ?_, fun begun hmem => ?_, fun begun hmem => ?_, ?_⟩
      · rw [locals]
        exact h.first
      · rw [locals]
        exact h.passes begun (by simpa [log] using hmem)
      · exact h.firstConnect begun (by simpa [log] using hmem)
      · simpa [log, auth.symm] using h.auth
  | wakes sleeping late onceStill log phase locals =>
      have hnow : s.attemptStartedAt ≤ t.now := by
        refine (hpaced.started.trans hpaced.le_due).trans ?_
        rw [due_sleeping sleeping]
        exact late
      refine ⟨onceStill.trans h.once, ?_, fun begun hmem => ?_, fun begun hmem => ?_, ?_⟩
      · rw [locals]
        exact fun first hfirst => (h.first first hfirst).trans hnow
      · rw [locals]
        exact h.passes begun (by simpa [log] using hmem)
      · exact h.firstConnect begun (by simpa [log] using hmem)
      · simpa [log] using h.auth
  | @busy e event budget first deadline attempting once onceStill auth limited log phase now isFirst
      isDeadline locals live early =>
      have hearlier : first ≤ s.attemptStartedAt := by
        cases hf : s.firstBusyStartedAt with
        | none =>
            rw [isFirst, hf]
            exact le_refl _
        | some f =>
            rw [isFirst, hf]
            exact h.first f hf
      refine ⟨onceStill.trans (once.symm.trans h.once), ?_, fun begun hmem => ?_,
        fun begun _ => h.once.symm.trans once, ?_⟩
      · rw [locals]
        rintro _ ⟨⟩
        exact hearlier
      · refine ⟨first, by rw [locals], ?_⟩
        rw [log] at hmem
        rcases List.mem_append.mp hmem with hmem | hmem
        · obtain ⟨f, hf, hle, hlive⟩ := h.passes begun hmem
          rw [hf] at isFirst
          rw [isFirst]
          exact ⟨hle, hlive⟩
        · simp only [List.mem_cons, reduceCtorEq, List.not_mem_nil, or_false, false_or,
            Entry.busyPass.injEq] at hmem
          rw [hmem]
          exact ⟨hearlier, live⟩
      · simpa [log, auth.symm] using h.auth

theorem Passing.start (lifecycle : RadioSessionLifecycle) (now : Time) :
    Passing policy lifecycle (start lifecycle now) where
  once := rfl
  first _ h := by cases h
  passes _ hmem := by simp [Lifecycle.start, startAttempt, emit, note] at hmem
  firstConnect _ hmem := by simp [Lifecycle.start, startAttempt, emit, note] at hmem
  auth hmem := by simp [Lifecycle.start, startAttempt, emit, note] at hmem

end

end Rigplane.Lifecycle
