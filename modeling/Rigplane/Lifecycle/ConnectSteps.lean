import Rigplane.Lifecycle.ConnectLoop

/-!
# The steps of the resident connect loop

`step_cases` says what a step of the loop does, in one constructor of `Stepped` for each way on: the
end of an attempt is the end of the loop, or the beginning of one of three kinds of sleep, and a
sleep leads to the next attempt.  Each names what is recorded and which local variables change.
-/

namespace Rigplane.Lifecycle

open ConnectLoop

namespace Entry

/-- The entry is an exit's, and no attempt, wait or pass. -/
def quiet : Entry → Bool
  | .release | .event _ | .exit _ => true
  | _ => false

def isAttempt : Entry → Bool
  | .attempt _ => true
  | _ => false

def isWait (kind : WaitKind) : Entry → Bool
  | .wait k _ _ => k = kind
  | _ => false

theorem not_attempt_of_quiet {x : Entry} (h : x.quiet = true) : x.isAttempt = false := by
  cases x <;> first | rfl | cases h

theorem not_wait_of_quiet {x : Entry} (h : x.quiet = true) (kind : WaitKind) :
    x.isWait kind = false := by
  cases x <;> first | rfl | cases h

/-- `startup_busy_hold_event` after an entry: a first-connect busy pass sets it, and `CONNECTED` and
`DISCONNECTED` clear it. -/
def hold (held : Bool) : Entry → Bool
  | .busyPass _ => true
  | .event e => if e.toState = .connected ∨ e.toState = .disconnected then false else held
  | _ => held

end Entry

/-! ## What a step does -/

inductive Stepped (policy : ConnectPolicy) (s t : ConnectLoop) : Prop where
  | ends {e : AttemptEnd} {added : List Entry} (attempting : s.phase = .attempting)
      (ended : t.phase = .ended) (log : t.log = s.log ++ .ended e :: added)
      (released : e ≠ .outcome .connected → ∃ rest, added = .release :: rest)
      (quiet : ∀ x ∈ added, x.quiet = true)
  | stops {e : AttemptEnd} {added : List Entry} (attempting : s.phase = .attempting)
      (ended : t.phase = .ended) (once : s.connectedOnce = false)
      (auth : e ≠ .outcome .authCredentials)
      (log : t.log = s.log ++ .ended e :: .release :: .busyPass s.attemptStartedAt :: added)
      (quiet : ∀ x ∈ added, x.quiet = true)
  | busy {e : AttemptEnd} {event : LifecycleEvent} {budget first deadline : Time}
      (attempting : s.phase = .attempting) (once : s.connectedOnce = false)
      (onceStill : t.connectedOnce = false) (auth : e ≠ .outcome .authCredentials)
      (limited : policy.firstConnectBusyBudget = some budget)
      (log : t.log = s.log ++ [.ended e, .release, .busyPass s.attemptStartedAt, .event event,
        .wait .busy t.now policy.busyCooldown])
      (phase : t.phase = .sleeping .busy policy.busyCooldown) (now : s.now ≤ t.now)
      (isFirst : first = s.firstBusyStartedAt.getD s.attemptStartedAt)
      (isDeadline : deadline = s.busyDeadline.getD (t.now + budget))
      (locals : t.toConnectLocals = { s.toConnectLocals with
        busyAttempts := s.busyAttempts + 1
        busyDeadline := some deadline
        firstBusyStartedAt := some first })
      (live : ∀ after, policy.firstConnectBusyLiveHolderAfter = some after →
        s.attemptStartedAt < first + after)
      (early : t.now < deadline)
  | silent {budget : Time} (attempting : s.phase = .attempting) (once : s.connectedOnce = false)
      (onceStill : t.connectedOnce = false)
      (limited : policy.firstConnectBusyBudget = some budget)
      (log : t.log = s.log ++ [.ended .discoveryTimeout, .release,
        .wait .silentDiscovery t.now policy.busyCooldown])
      (phase : t.phase = .sleeping .silentDiscovery policy.busyCooldown) (now : s.now ≤ t.now)
      (locals : t.toConnectLocals = { s.toConnectLocals with
        silentDiscoveryAttempts := s.silentDiscoveryAttempts + 1 })
      (retries : (s.silentDiscoveryAttempts + 1 : Int) ≤ policy.firstConnectDiscoveryRetries)
  | transient {e : AttemptEnd} {event : LifecycleEvent} {cooldown : Time}
      (attempting : s.phase = .attempting) (onceStill : t.connectedOnce = s.connectedOnce)
      (auth : e ≠ .outcome .authCredentials)
      (log : t.log = s.log ++ [.ended e, .release, .event event, .wait .transient t.now cooldown])
      (phase : t.phase = .sleeping .transient cooldown) (nonneg : 0 ≤ cooldown)
      (now : s.now ≤ t.now) (locals : t.toConnectLocals = s.toConnectLocals)
      (more : (s.attempt : Int) - s.busyAttempts - s.silentDiscoveryAttempts
        < policy.maxConnectAttempts)
  | wakes {kind : WaitKind} {cooldown : Time} {event : LifecycleEvent}
      (sleeping : s.phase = .sleeping kind cooldown) (late : s.now + cooldown ≤ t.now)
      (onceStill : t.connectedOnce = s.connectedOnce)
      (log : t.log = s.log ++ [.event event, .attempt t.now]) (phase : t.phase = .attempting)
      (locals : t.toConnectLocals = { s.toConnectLocals with
        attempt := s.attempt + 1
        attemptStartedAt := t.now })
  | cancels {kind : WaitKind} {cooldown : Time} {added : List Entry}
      (sleeping : s.phase = .sleeping kind cooldown) (ended : t.phase = .ended)
      (log : t.log = s.log ++ added) (quiet : ∀ x ∈ added, x.quiet = true)

section

variable {policy : ConnectPolicy} {s t u : ConnectLoop}

/-- Nothing but releases, events and the exit is recorded. -/
def Quietly (s t : ConnectLoop) : Prop :=
  ∃ added, t.log = s.log ++ added ∧ ∀ x ∈ added, x.quiet = true

theorem Quietly.of_log_eq (h : t.log = s.log) : Quietly s t :=
  ⟨[], by rw [h, List.append_nil], nofun⟩

theorem Quietly.trans (h : Quietly s t) (h' : Quietly t u) : Quietly s u := by
  obtain ⟨added, hlog, hquiet⟩ := h
  obtain ⟨added', hlog', hquiet'⟩ := h'
  refine ⟨added ++ added', by rw [hlog', hlog, List.append_assoc], fun x hx => ?_⟩
  exact (List.mem_append.mp hx).elim (hquiet x) (hquiet' x)

theorem Quietly.single {x : Entry} (hquiet : x.quiet = true) (hlog : t.log = s.log ++ [x]) :
    Quietly s t :=
  ⟨[x], hlog, fun y hy => by rw [List.mem_singleton.mp hy, hquiet]⟩

theorem emit_quietly (state : LifecycleState) (reason : LifecycleErrorReason)
    (remaining : Option Time) (s : ConnectLoop) : Quietly s (s.emit state reason remaining) :=
  .single rfl rfl

theorem exit_quietly (fault : Option ConnectFault) (s : ConnectLoop) : Quietly s (s.exit fault) :=
  .single rfl rfl

theorem release_quietly (s : ConnectLoop) : Quietly s s.release := .single rfl rfl

theorem stopConnecting_quietly (s : ConnectLoop) : Quietly s s.stopConnecting := .of_log_eq rfl

theorem raise_quietly (fault : ConnectFault) (s : ConnectLoop) : Quietly s (s.raise fault) := by
  rw [raise]
  split
  · exact exit_quietly _ _
  · split
    · exact (stopConnecting_quietly s).trans (exit_quietly _ _)
    · exact ((stopConnecting_quietly s).trans (emit_quietly ..)).trans
        ((emit_quietly ..).trans (exit_quietly _ _))

@[simp]
theorem raise_phase (fault : ConnectFault) (s : ConnectLoop) : (s.raise fault).phase = .ended := by
  rw [raise]
  split
  · rfl
  · split
    · rfl
    · rfl

/-- An end after the last attempt: `DISCONNECTED`, and the fault. -/
theorem giveUp_quietly (fault : ConnectFault) (s : ConnectLoop) :
    Quietly s ((s.stopConnecting.emit .disconnected .none none).raise fault) :=
  ((stopConnecting_quietly s).trans (emit_quietly ..)).trans (raise_quietly fault _)

/-- A start-up busy pass stops the loop, or waits. -/
theorem firstConnectBusyPass_cases (policy : ConnectPolicy) (budget first : Time)
    (s : ConnectLoop) :
    (s.firstConnectBusyPass policy budget first).phase = .ended ∧
        Quietly (s.note (.busyPass s.attemptStartedAt))
          (s.firstConnectBusyPass policy budget first) ∨
      (∀ after, policy.firstConnectBusyLiveHolderAfter = some after →
          s.attemptStartedAt < first + after) ∧
        s.now < s.busyDeadline.getD (s.now + budget) ∧
        ∃ t event, s.firstConnectBusyPass policy budget first = t ∧ t.now = s.now ∧
          t.log = s.log ++ [.busyPass s.attemptStartedAt, .event event,
            .wait .busy s.now policy.busyCooldown] ∧
          t.phase = .sleeping .busy policy.busyCooldown ∧ t.connectedOnce = s.connectedOnce ∧
          t.toConnectLocals = { s.toConnectLocals with
            busyAttempts := s.busyAttempts + 1
            busyDeadline := some (s.busyDeadline.getD (s.now + budget)) } := by
  rw [firstConnectBusyPass]
  split
  · exact .inl ⟨raise_phase _ _, giveUp_quietly _ _⟩
  · rename_i hlive
    split
    · exact .inl ⟨raise_phase _ _, giveUp_quietly _ _⟩
    · rename_i hearly
      refine .inr ⟨fun after hafter => ?_, not_le.mp hearly, _,
        ⟨s.state, .cooldown, .sessionBusyReject, some policy.busyCooldown⟩, rfl, rfl, ?_, rfl, rfl,
        rfl⟩
      · exact not_le.mp fun hpast => hlive ⟨after, hafter, hpast⟩
      · simp [sleep, coolDown, emit, stopConnecting, note]

theorem transientPass_cases (policy : ConnectPolicy) (cooldown : Time)
    (reason : LifecycleErrorReason) (s : ConnectLoop) :
    (s.transientPass policy cooldown reason).phase = .ended ∧
        Quietly s (s.transientPass policy cooldown reason) ∨
      (s.attempt : Int) - s.busyAttempts - s.silentDiscoveryAttempts < policy.maxConnectAttempts ∧
        ∃ t event, s.transientPass policy cooldown reason = t ∧ t.now = s.now ∧
          t.log = s.log ++ [.event event, .wait .transient s.now cooldown] ∧
          t.phase = .sleeping .transient cooldown ∧ t.connectedOnce = s.connectedOnce ∧
          t.toConnectLocals = s.toConnectLocals := by
  rw [transientPass]
  split
  · exact .inl ⟨raise_phase _ _, giveUp_quietly _ _⟩
  · rename_i hmore
    refine .inr ⟨not_le.mp hmore, _, ⟨s.state, .cooldown, reason, some cooldown⟩, rfl, rfl, ?_, rfl,
      rfl, rfl⟩
    simp [sleep, coolDown, emit, stopConnecting]

theorem Stepped.of_quietly {e : AttemptEnd} {r : ConnectLoop} (attempting : s.phase = .attempting)
    (hlog : r.log = s.log ++ [.ended e, .release]) (ended : t.phase = .ended)
    (hquiet : Quietly r t) : Stepped policy s t := by
  obtain ⟨added, htlog, hadded⟩ := hquiet
  have htlog' : t.log = s.log ++ .ended e :: .release :: added := by
    rw [htlog, hlog]
    simp
  refine .ends attempting ended htlog' (fun _ => ⟨added, rfl⟩) fun x hx => ?_
  · rcases List.mem_cons.mp hx with rfl | hx
    · rfl
    · exact hadded x hx

/-- A busy pass after the release. -/
theorem Stepped.of_pass {e : AttemptEnd} {r : ConnectLoop} {budget first : Time}
    (attempting : s.phase = .attempting) (once : s.connectedOnce = false)
    (limited : policy.firstConnectBusyBudget = some budget)
    (hlog : r.log = s.log ++ [.ended e, .release]) (auth : e ≠ .outcome .authCredentials)
    (hnow : s.now ≤ r.now)
    (honce : r.connectedOnce = s.connectedOnce)
    (isFirst : first = s.firstBusyStartedAt.getD s.attemptStartedAt)
    (locals : r.toConnectLocals = { s.toConnectLocals with firstBusyStartedAt := some first }) :
    Stepped policy s (r.firstConnectBusyPass policy budget first) := by
  have hstarted : r.attemptStartedAt = s.attemptStartedAt := by rw [locals]
  have hdeadline : r.busyDeadline = s.busyDeadline := by rw [locals]
  rcases firstConnectBusyPass_cases policy budget first r with
    ⟨hended, added, htlog, hadded⟩ |
      ⟨hlive, hearly, t, event, rfl, htnow, htlog, hphase, htonce, htlocals⟩
  · refine .stops attempting hended once auth ?_ hadded
    rw [htlog, note, hlog, hstarted]
    simp
  · rw [hstarted] at hlive htlog
    rw [hdeadline] at hearly htlocals
    have hlog' : (r.firstConnectBusyPass policy budget first).log = s.log ++ [.ended e, .release,
        .busyPass s.attemptStartedAt, .event event, .wait .busy r.now policy.busyCooldown] := by
      rw [htlog, hlog]
      simp
    rw [← htnow] at hlog'
    refine .busy attempting once (htonce.trans (honce.trans once)) auth limited hlog' hphase ?_
      isFirst rfl ?_ hlive ?_
    · rw [htnow]
      exact hnow
    · simp only [htlocals, locals, htnow]
    · rw [htnow]
      exact hearly

theorem Stepped.of_transient {e : AttemptEnd} {r : ConnectLoop} {cooldown : Time}
    {reason : LifecycleErrorReason} (attempting : s.phase = .attempting)
    (hlog : r.log = s.log ++ [.ended e, .release]) (auth : e ≠ .outcome .authCredentials)
    (nonneg : 0 ≤ cooldown) (hnow : s.now ≤ r.now)
    (honce : r.connectedOnce = s.connectedOnce) (locals : r.toConnectLocals = s.toConnectLocals) :
    Stepped policy s (r.transientPass policy cooldown reason) := by
  rcases transientPass_cases policy cooldown reason r with
    ⟨hended, hquiet⟩ | ⟨hmore, t, event, rfl, htnow, htlog, hphase, htonce, htlocals⟩
  · exact .of_quietly attempting hlog hended hquiet
  · rw [locals] at hmore
    have hlog' : (r.transientPass policy cooldown reason).log =
        s.log ++ [.ended e, .release, .event event, .wait .transient r.now cooldown] := by
      rw [htlog, hlog]
      simp
    rw [← htnow] at hlog'
    refine .transient attempting (htonce.trans honce) auth hlog' hphase nonneg ?_
      (htlocals.trans locals) hmore
    rw [htnow]
    exact hnow

/-- What follows an attempt that did not connect, after its release. -/
theorem stepped_of_failed {e : AttemptEnd} {r : ConnectLoop} (attempting : s.phase = .attempting)
    (he : e ≠ .outcome .connected) (hlog : r.log = s.log ++ [.ended e, .release])
    (hnow : s.now ≤ r.now) (honce : r.connectedOnce = s.connectedOnce)
    (locals : r.toConnectLocals = s.toConnectLocals) :
    Stepped policy s (r.afterAttempt policy e) := by
  cases e with
  | discoveryTimeout =>
      rw [afterAttempt, discoveryPass]
      split
      · rename_i budget first hbudget hronce hfirst
        rw [locals] at hfirst
        refine .of_pass attempting (honce.symm.trans hronce) hbudget hlog nofun hnow honce ?_ ?_
        · exact (congrArg (Option.getD · s.attemptStartedAt) hfirst).symm
        · rw [locals, ← hfirst]
      · rename_i budget hbudget hronce hfirst
        split
        · rename_i hretries
          refine .silent attempting (honce.symm.trans hronce) hronce hbudget ?_ rfl hnow ?_ ?_
          · simp [sleep, hlog]
          · show ({ r.toConnectLocals with
              silentDiscoveryAttempts := r.silentDiscoveryAttempts + 1 } : ConnectLocals) = _
            rw [locals]
          · rw [locals] at hretries
            exact hretries
        · exact .of_quietly attempting hlog (raise_phase ..) (raise_quietly ..)
      · exact .of_quietly attempting hlog (raise_phase ..) (raise_quietly ..)
  | raises => exact .of_quietly attempting hlog (raise_phase ..) (raise_quietly ..)
  | cancelled => exact .of_quietly attempting hlog (raise_phase ..) (raise_quietly ..)
  | outcome o =>
      cases o with
      | connected => exact absurd rfl he
      | authCredentials =>
          refine .of_quietly attempting hlog (raise_phase ..) (.trans ?_ (raise_quietly ..))
          exact ((stopConnecting_quietly r).trans (release_quietly _)).trans
            ((emit_quietly ..).trans (emit_quietly ..))
      | sessionBusyReject =>
          rw [afterAttempt]
          split
          · rename_i budget hbudget hronce
            refine .of_pass attempting (honce.symm.trans hronce) hbudget hlog nofun hnow honce ?_ ?_
            · rw [locals]
            · show ({ r.toConnectLocals with firstBusyStartedAt := _ } : ConnectLocals) = _
              rw [locals]
          · exact .of_transient attempting hlog nofun policy.rejectCooldown_nonneg hnow honce locals
      | sessionNotReady =>
          exact .of_transient attempting hlog nofun policy.notReadyCooldown_nonneg hnow honce locals

theorem stepped_of_ends {e : AttemptEnd} {duration : Time} (attempting : s.phase = .attempting)
    (hduration : 0 ≤ duration) :
    Stepped policy s
      (({ s with now := s.now + duration }.attemptWithRelease e).afterAttempt policy e) := by
  rw [attemptWithRelease]
  split
  · rename_i he
    subst he
    have hquiet : Quietly (s.note (.ended (.outcome .connected)))
        (ConnectLoop.afterAttempt policy (.outcome .connected)
          { { s with now := s.now + duration }.note (.ended (.outcome .connected)) with
            claimed := true }) :=
      .trans (.of_log_eq rfl) ((emit_quietly ..).trans (exit_quietly ..))
    obtain ⟨added, hlog, hadded⟩ := hquiet
    refine .ends attempting rfl ?_ (absurd rfl ·) hadded
    rw [hlog, note, List.append_assoc]
    rfl
  · rename_i he
    refine stepped_of_failed attempting he ?_ (le_add_of_nonneg_right hduration) rfl rfl
    simp [release, note]

theorem afterSleep_log (kind : WaitKind) (s : ConnectLoop) : (s.afterSleep kind).log = s.log := by
  cases kind <;> rfl

theorem afterSleep_once (kind : WaitKind) (s : ConnectLoop) :
    (s.afterSleep kind).connectedOnce = s.connectedOnce := by
  cases kind <;> rfl

theorem afterSleep_now (kind : WaitKind) (s : ConnectLoop) : (s.afterSleep kind).now = s.now := by
  cases kind <;> rfl

theorem afterSleep_locals (kind : WaitKind) (s : ConnectLoop) :
    (s.afterSleep kind).toConnectLocals = s.toConnectLocals := by
  cases kind <;> rfl

/-- The loop goes on, or it ends. -/
theorem step_cases {a : ConnectAction} (h : step policy s a = some t) : Stepped policy s t := by
  cases a with
  | ends e duration =>
      obtain ⟨hif, heq⟩ := Option.ite_none_right_eq_some.mp h
      cases heq
      exact stepped_of_ends hif.1 hif.2
  | wakes duration =>
      rw [step] at h
      split at h
      · rename_i kind cooldown hphase
        obtain ⟨hlate, heq⟩ := Option.ite_none_right_eq_some.mp h
        cases heq
        generalize hr : ({ s with now := s.now + duration } : ConnectLoop).afterSleep kind = r
        have hlog : r.log = s.log := by rw [← hr, afterSleep_log]
        have hnow : r.now = s.now + duration := by rw [← hr, afterSleep_now]
        have honce : r.connectedOnce = s.connectedOnce := by rw [← hr, afterSleep_once]
        have locals : r.toConnectLocals = s.toConnectLocals := by rw [← hr, afterSleep_locals]
        have hlog' : r.startAttempt.log =
            s.log ++ [.event ⟨r.state, .connecting, .none, none⟩, .attempt r.startAttempt.now] := by
          simp [startAttempt, note, emit, hlog]
        refine .wakes hphase ?_ honce hlog' rfl ?_
        · show s.now + cooldown ≤ r.now
          rw [hnow]
          exact add_le_add_right hlate s.now
        · show ({ r.toConnectLocals with
            attempt := r.attempt + 1, attemptStartedAt := r.now } : ConnectLocals) = _
          rw [locals]
          rfl
      · cases h
  | cancels =>
      rw [step] at h
      split at h
      · rename_i kind cooldown hphase
        cases h
        obtain ⟨added, hlog, hadded⟩ := raise_quietly .cancelled (s.afterSleep kind)
        exact .cancels hphase (raise_phase ..) (hlog.trans (by rw [afterSleep_log])) hadded
      · cases h

end

end Rigplane.Lifecycle
