import Rigplane.CommandService.Steps

/-!
# The order of a command's events

A command that is executed once is accepted, queued and sent, may be acknowledged, and may end once;
nothing follows its end.  `_reconcile_observation` does not keep this by itself: it records an end
for every overlay that an observation confirms, and does not ask whether the command has ended.  The
history is in order where every observation confirms the command at most once, and not after its
end.

The emissions that other modules make by `emit_lifecycle`, and the overlays that they record by
`record_pending_overlay`, are not among the calls here (`Action.Direct`).
-/

namespace Rigplane.CommandService

open StatePipeline StateStore PyValue Runs

/-- The states of the events of one command, in order, are those of a command executed once. -/
def WellOrdered (states : List CommandLifecycleState) : Prop :=
  ∃ acks ends, states = [.accepted, .queued, .sent] ++ acks ++ ends ∧
    (acks = [] ∨ acks = [.acknowledged]) ∧
    (ends = [] ∨ ∃ state : CommandLifecycleState, state.dispatchable = false ∧ ends = [state])

namespace Service

variable {V : Type} {s s' : Service V} {key : CommandKey}

/-- The states of the events of a command. -/
def trace (s : Service V) (key : CommandKey) : List CommandLifecycleState :=
  (s.history key).map CommandLifecycleEvent.state

theorem trace_of_lastOf {event : CommandLifecycleEvent} (h : s.lastOf key = some event) :
    ∃ earlier, s.trace key = earlier ++ [event.state] := by
  obtain ⟨events, hevents⟩ := List.getLast?_eq_some_iff.mp h
  refine ⟨events.map CommandLifecycleEvent.state, ?_⟩
  rw [trace, hevents, List.map_append]
  rfl

/-- A history whose last event ends nothing has no end. -/
theorem wellOrdered_of_open {event : CommandLifecycleEvent} (h : WellOrdered (s.trace key))
    (hlast : s.lastOf key = some event) (hdisp : event.state.dispatchable = true) :
    ∃ acks, s.trace key = [.accepted, .queued, .sent] ++ acks ∧
      (acks = [] ∨ acks = [.acknowledged]) := by
  obtain ⟨acks, ends, htrace, hacks, rfl | ⟨state, hend, rfl⟩⟩ := h
  · exact ⟨acks, by rw [htrace, List.append_nil], hacks⟩
  · obtain ⟨earlier, hearlier⟩ := trace_of_lastOf hlast
    have hstate : state = event.state := by
      have happ := htrace.symm.trans hearlier
      exact List.singleton_inj.mp (List.append_inj_right' happ rfl)
    rw [← hstate, hend] at hdisp
    cases hdisp

/-- The end of an open history. -/
theorem wellOrdered_closes {ends : CommandLifecycleState → Prop} (h : WellOrdered (s.trace key))
    (hc : Closes ends key s s') : WellOrdered (s'.trace key) := by
  rcases hc with heq | ⟨event, -, hend, ⟨last, hlast, hdisp⟩, heq⟩
  · rw [trace, heq]
    exact h
  · obtain ⟨acks, htrace, hacks⟩ := wellOrdered_of_open h hlast hdisp
    refine ⟨acks, [event.state], ?_, hacks, .inr ⟨event.state, hend, rfl⟩⟩
    rw [trace, heq, List.map_append, ← htrace]
    rfl

/-- The acknowledgement of a command that was sent. -/
theorem wellOrdered_acknowledge {last event : CommandLifecycleEvent}
    (h : WellOrdered (s.trace key)) (hlast : s.lastOf key = some last) (hsent : last.state = .sent)
    (hack : event.state = .acknowledged)
    (hhistory : s'.history key = s.history key ++ [event]) : WellOrdered (s'.trace key) := by
  obtain ⟨acks, htrace, hacks⟩ := wellOrdered_of_open h hlast (by rw [hsent]; rfl)
  have hnil : acks = [] := by
    rcases hacks with hnil | rfl
    · exact hnil
    · obtain ⟨earlier, hearlier⟩ := trace_of_lastOf hlast
      have happ := htrace.symm.trans hearlier
      have hstate := List.singleton_inj.mp (List.append_inj_right' happ rfl)
      rw [hsent] at hstate
      cases hstate
  subst hnil
  refine ⟨[.acknowledged], [], ?_, .inr rfl, .inl rfl⟩
  rw [trace, hhistory, List.map_append, ← trace, htrace, List.map_singleton, hack]
  rfl

/-- An empty history is not closed. -/
theorem Closes.of_nil {ends : CommandLifecycleState → Prop} (h : s.history key = [])
    (hc : Closes ends key s s') : s'.history key = [] := by
  rcases hc with heq | ⟨event, -, -, ⟨last, hlast, -⟩, -⟩
  · exact heq.trans h
  · rw [lastOf_eq_none h] at hlast
    cases hlast

variable [CommandValue V] [DecidableEq V]

/-- The observation confirms the command at most once, and only if it has not ended. -/
def ConfirmsOnce (key : CommandKey) (s : Service V) (now : Time) (o : CorrelatedObservation V) :
    Prop :=
  ((s.confirmations now o).filter fun overlay => decide (overlay.key = key)).length ≤ 1 ∧
    ∀ overlay ∈ s.confirmations now o, overlay.key = key → s.Open key

instance (key : CommandKey) (s : Service V) (now : Time) (o : CorrelatedObservation V) :
    Decidable (ConfirmsOnce key s now o) :=
  inferInstanceAs (Decidable (_ ∧ ∀ overlay ∈ s.confirmations now o, overlay.key = key →
    s.Open key))

/-- An observation that confirms a command once closes its history. -/
theorem applyObservation_closes {now : Time} {o : CorrelatedObservation V}
    (h : ConfirmsOnce key s now o) :
    Closes (fun _ => True) key s (s.applyObservation now o).2 := by
  obtain ⟨events, hhistory, hlength, hstate⟩ := s.applyObservation_history now o key
  obtain ⟨hle, hopen⟩ := h
  rw [← hlength] at hle
  cases events with
  | nil =>
      rw [List.append_nil] at hhistory
      exact .inl hhistory
  | cons event rest =>
      rw [List.length_cons] at hle hlength
      have hnil : rest = [] := List.length_eq_zero_iff.mp (by omega)
      subst hnil
      have hpos : 0 < ((s.confirmations now o).filter
          fun overlay => decide (overlay.key = key)).length := by omega
      obtain ⟨overlay, hmem⟩ := List.exists_mem_of_length_pos hpos
      obtain ⟨hin, hkey⟩ := List.mem_filter.mp hmem
      refine .inr ⟨event, trivial, ?_, hopen overlay hin (of_decide_eq_true hkey), hhistory⟩
      rw [hstate event List.mem_cons_self]
      rfl

end Service

/-! ## Runs -/

section

variable {V : Type}

/-- The call executes the command. -/
def Action.Executes (key : CommandKey) : Action V → Prop
  | .execute _ intent => intent.key = key
  | _ => False

instance (key : CommandKey) : DecidablePred (Action.Executes (V := V) key)
  | .execute _ intent => inferInstanceAs (Decidable (intent.key = key))
  | .finish .. | .applyObservation .. | .failCommand .. | .terminateActiveCommands ..
  | .emitLifecycle .. | .recordPendingOverlay .. | .retainReadbackExpectations ..
  | .discardReadbackExpectations .. | .expireCommand .. | .read .. | .store .. =>
      inferInstanceAs (Decidable False)

/-- Another module writes to the history, or to the overlays, of a command. -/
def Action.Direct : Action V → Prop
  | .emitLifecycle .. | .recordPendingOverlay .. => True
  | _ => False

end

/-! ## A command with two fields -/

/-- The key of a `set_rit` of a `rigctld` client. -/
def ritKey : CommandKey := ⟨"rigctld", some "client-a", "rigctld-set-rit"⟩

def ritFreq : FieldPath :=
  ⟨.global, .operatorControls, ⟨"rit_freq", by decide⟩, none, none, by decide⟩

def ritOn : FieldPath := ⟨.global, .txState, ⟨"rit_on", by decide⟩, none, none, by decide⟩

/-- `set_rit` to 500 Hz, which is expected to change two fields. -/
def setRit : CommandIntent Scalar where
  key := ritKey
  name := "set_rit"
  params := ((Dict.empty.set "hz" (.int 500)).set "rit_freq" (.int 500)).set "rit_on" (.bool true)
  target := some ritFreq
  timeout := some 2
  pendingPolicy := .scoped
  expectedObservations := [ritFreq, ritOn]
  timeout_nonneg := by
    intro t ht
    cases ht
    decide

/-- A readback that the command caused. -/
def ritReadback (path : FieldPath) (value : Scalar) : CorrelatedObservation Scalar where
  path := path
  value := value
  source := {
    source := "hamlib_response"
    provider := "external_rigctld"
    transport := some "rigctld"
    commandSource := some "rigctld"
    sessionId := some "client-a" }
  timestampMonotonic := 1
  quality := []
  maxAge := none
  providerGeneration := some 0
  clockDomain := none
  maxAge_nonneg := by simp
  clockDomain_nonempty := by simp
  correlationId := some "rigctld-set-rit"

/-- A service over an empty store. -/
def newSystem : System Scalar := System.init (Store.init (fun _ => 0) 8) 2 (by decide)

namespace System

open Service

variable {V : Type} [CommandValue V] [DecidableEq V] {s s' : System V} {key : CommandKey}

/-- The condition holds of every observation that the call applies, in the service that it meets. -/
def EachObservation (P : Service V → Time → CorrelatedObservation V → Prop) (s : System V) :
    Action V → Prop
  | .applyObservation now o => P s.service now o
  | .finish now number (.returned observations) =>
      ∀ execution, s.awaiting.get? number = some execution →
        s.service.active.get? execution.intent.key = some execution.sentEvent →
        EachReturned P now execution.providerGeneration observations
          (s.service.acknowledged now execution)
  | _ => True

instance EachObservation.decide (P : Service V → Time → CorrelatedObservation V → Prop)
    [∀ s now o, Decidable (P s now o)] (s : System V) :
    ∀ a : Action V, Decidable (EachObservation P s a)
  | .applyObservation now o => inferInstanceAs (Decidable (P s.service now o))
  | .finish now number (.returned observations) =>
      match h : s.awaiting.get? number with
      | none => .isTrue fun _ hget => by
          rw [h] at hget
          cases hget
      | some execution =>
          if hactive : s.service.active.get? execution.intent.key = some execution.sentEvent then
            match EachReturned.decide P now execution.providerGeneration observations
              (s.service.acknowledged now execution) with
            | .isTrue hall => .isTrue fun _ hget _ => by
                rw [h] at hget
                cases hget
                exact hall
            | .isFalse hnot => .isFalse fun hall => hnot (hall execution h hactive)
          else .isTrue fun _ hget hactive' => by
            rw [h] at hget
            cases hget
            exact absurd hactive' hactive
  | .finish _ _ .cancelled | .finish _ _ (.timedOut _) | .finish _ _ (.raised _) | .execute ..
  | .failCommand .. | .terminateActiveCommands .. | .emitLifecycle .. | .recordPendingOverlay ..
  | .retainReadbackExpectations .. | .discardReadbackExpectations .. | .expireCommand .. | .read ..
  | .store .. => .isTrue trivial

/-- What a call does to the history of a command that it does not execute: the acknowledgement of a
command that was sent, and then at most an end. -/
theorem step_history (hs : s.Sound) {a : Action V} (hstep : s.step a = some s')
    (hexec : ¬ a.Executes key) (hdirect : ¬ a.Direct)
    (hcond : EachObservation (ConfirmsOnce key) s a) :
    ∃ m : Service V, (m.history key = s.service.history key ∨
        ∃ last event : CommandLifecycleEvent, s.service.lastOf key = some last ∧
          last.state = .sent ∧ event.state = .acknowledged ∧
          m.history key = s.service.history key ++ [event]) ∧
      Closes (fun _ => True) key m s'.service := by
  have hfrom {t : Service V} (h : Closes Failing key s.service t) :
      ∃ m : Service V, (m.history key = s.service.history key ∨
        ∃ last event : CommandLifecycleEvent, s.service.lastOf key = some last ∧
          last.state = .sent ∧ event.state = .acknowledged ∧
          m.history key = s.service.history key ++ [event]) ∧
        Closes (fun _ => True) key m t :=
    ⟨s.service, .inl rfl, h.mono fun _ _ => trivial⟩
  cases a with
  | execute now intent =>
      obtain ⟨m, _, _, hcloses, -, -, -, -, -, -,
        hhistory⟩ := s.service.beginExecute_spec now intent
      refine hfrom ((hcloses key).trans (.inl ?_))
      have hne : ¬ intent.key = key := hexec
      rw [(step_execute hstep).1, hhistory key, if_neg hne]
  | finish now number result =>
      obtain ⟨execution, hget, hservice, -, -, -⟩ := step_finish hstep
      obtain ⟨hsent, hkey⟩ := hs.sent number execution hget
      rw [hservice]
      cases result with
      | cancelled =>
          exact hfrom (failExecution_closes hs.tracked now hsent _ (.inl rfl) rfl)
      | timedOut text =>
          exact hfrom (failExecution_closes hs.tracked now hsent _ (.inr rfl) rfl)
      | raised text =>
          exact hfrom (failExecution_closes hs.tracked now hsent _ (.inl rfl) rfl)
      | returned observations =>
          rcases s.service.finishExecute_returned now execution observations with
            ⟨-, heq⟩ | ⟨hactive, heq, -⟩
          · refine hfrom ?_
            rw [heq]
            exact failCommand_closes _ now _ _ _ _ _
          · obtain ⟨event, hack, hhistory⟩ := acknowledged_history now hsent hactive
            refine ⟨s.service.acknowledged now execution, ?_, ?_⟩
            · have hone := hhistory key
              split at hone
              next heq' =>
                refine .inr ⟨execution.sentEvent, event, ?_, hsent, hack, hone⟩
                exact heq' ▸ hs.tracked.last _ _ hactive
              next => exact .inl hone
            · rw [heq]
              exact (applyReturned_rel (R := Closes (fun _ => True) key) (I := fun _ => True) .refl
                (fun _ _ _ => Closes.trans) (fun _ _ _ hp => ⟨trivial, applyObservation_closes hp⟩)
                trivial (hcond execution hget hactive)).2
  | applyObservation now o =>
      cases hstep
      exact ⟨s.service, .inl rfl, applyObservation_closes hcond⟩
  | failCommand now commandId source sessionId timedOut message =>
      cases hstep
      exact hfrom (failCommand_closes _ now _ _ _ _ _)
  | terminateActiveCommands now reason source sessionId =>
      cases hstep
      exact hfrom (terminateActiveCommands_closes _ now reason source sessionId)
  | emitLifecycle now key target state message => exact absurd trivial hdirect
  | recordPendingOverlay now overlay => exact absurd trivial hdirect
  | retainReadbackExpectations now key =>
      cases hstep
      exact hfrom (retainReadbackExpectations_quiet _ now key).closes
  | discardReadbackExpectations key path =>
      cases hstep
      exact hfrom (.refl s.service)
  | expireCommand commandId source sessionId =>
      cases hstep
      exact hfrom (.refl s.service)
  | read now =>
      cases hstep
      exact hfrom (purgeExpired_quiet _ now).closes
  | store op =>
      cases hstep
      exact hfrom (.refl s.service)

/-- The condition on the calls of a run for a command. -/
def KeepsOrder (key : CommandKey) (s : System V) (a : Action V) : Prop :=
  ¬ a.Direct ∧ EachObservation (ConfirmsOnce key) s a

/-- Nothing is recorded for a command that is not executed. -/
theorem run_silent {actions : List (Action V)} (hs : s.Sound) (hnil : s.service.history key = [])
    (hrun : exec System.step s actions = some s') (hexec : ∀ a ∈ actions, ¬ a.Executes key)
    (hok : Along System.step (KeepsOrder key) s actions) : s'.service.history key = [] := by
  refine (exec_invariant_along (I := fun m => m.Sound ∧ m.service.history key = []) ?_ hrun
    (hok.and (Along.of_forall fun a ha _ => hexec a ha)) ⟨hs, hnil⟩).2
  rintro m a m' ⟨hsound, hempty⟩ ⟨⟨hdirect, hcond⟩, hnot⟩ hstep
  obtain ⟨n, hack, hcloses⟩ := step_history hsound hstep hnot hdirect hcond
  refine ⟨hsound.step hstep, Closes.of_nil ?_ hcloses⟩
  rcases hack with heq | ⟨last, event, hlast, -⟩
  · exact heq.trans hempty
  · rw [lastOf_eq_none hempty] at hlast
    cases hlast

/-- The history of a command stays in order while it is not executed again. -/
theorem run_ordered {actions : List (Action V)} (hs : s.Sound)
    (hordered : WellOrdered (s.service.trace key))
    (hrun : exec System.step s actions = some s') (hexec : ∀ a ∈ actions, ¬ a.Executes key)
    (hok : Along System.step (KeepsOrder key) s actions) : WellOrdered (s'.service.trace key) := by
  refine (exec_invariant_along (I := fun m => m.Sound ∧ WellOrdered (m.service.trace key)) ?_ hrun
    (hok.and (Along.of_forall fun a ha _ => hexec a ha)) ⟨hs, hordered⟩).2
  rintro m a m' ⟨hsound, hm⟩ ⟨⟨hdirect, hcond⟩, hnot⟩ hstep
  obtain ⟨n, hack, hcloses⟩ := step_history hsound hstep hnot hdirect hcond
  refine ⟨hsound.step hstep, wellOrdered_closes ?_ hcloses⟩
  rcases hack with heq | ⟨last, event, hlast, hsent, hstate, heq⟩
  · rw [trace, heq]
    exact hm
  · exact wellOrdered_acknowledge hm hlast hsent hstate heq

/-- A command that is executed with an empty history has been accepted, queued and sent. -/
theorem execute_ordered {now : Time} {intent : CommandIntent V}
    (hstep : s.step (.execute now intent) = some s')
    (hnil : s.service.history intent.key = []) : WellOrdered (s'.service.trace intent.key) := by
  obtain ⟨m, accepted, queued, hcloses, haccepted, hqueued, -, hsent, -, -, hhistory⟩ :=
    s.service.beginExecute_spec now intent
  refine ⟨[], [], ?_, .inl rfl, .inl rfl⟩
  have hkey := hhistory intent.key
  rw [if_pos rfl, Closes.of_nil hnil (hcloses intent.key)] at hkey
  rw [trace, (step_execute hstep).1, hkey, List.nil_append, List.map_cons, List.map_cons,
    List.map_singleton, haccepted, hqueued,
    hsent]
  rfl

/-- A command that is executed once has its events in order, in every run in which each observation
confirms it at most once and not after its end. -/
theorem lifecycle_ordered {store : Store V} {ttl : Time} {h : 0 ≤ ttl} {actions : List (Action V)}
    (hrun : exec System.step (init store ttl h) actions = some s)
    (hone : (actions.filter fun a => decide (a.Executes key)).length = 1)
    (hdirect : ∀ a ∈ actions, ¬ a.Direct)
    (hcond : Along System.step (EachObservation (ConfirmsOnce key)) (init store ttl h) actions) :
    WellOrdered (s.service.trace key) := by
  obtain ⟨a, ha⟩ := List.length_eq_one_iff.mp hone
  obtain ⟨before, after, rfl, hbefore, hexec, hafter⟩ := List.filter_eq_cons_iff.mp ha
  obtain ⟨m, m', hrun₁, hstep, hrun₂⟩ := exec_mid_eq_some.mp hrun
  have hok : Along System.step (KeepsOrder key) (init store ttl h) (before ++ a :: after) :=
    (Along.of_forall fun b hb _ => hdirect b hb).and hcond
  obtain ⟨hok₁, hok₂⟩ := hok.append hrun₁
  have hsound := run_sound hrun₁
  have hnil := run_silent (init_sound store ttl h) rfl hrun₁
    (fun b hb => by simpa using hbefore b hb) hok₁
  have hnot (b : Action V) (hb : b ∈ after) : ¬ b.Executes key := fun hkey =>
    List.not_mem_nil (hafter ▸ List.mem_filter.mpr ⟨hb, decide_eq_true hkey⟩)
  cases a with
  | execute now intent =>
      have hkey : intent.key = key := of_decide_eq_true hexec
      subst hkey
      exact run_ordered (hsound.step hstep) (execute_ordered hstep hnil) hrun₂ hnot
        (hok₂.2 m' hstep)
  | _ => exact (of_decide_eq_true hexec).elim

/-- The command is executed, and the radio reads one of its fields back. -/
theorem lifecycle_ordered_read_back :
    ∃ s, exec System.step newSystem [.execute 0 setRit, .finish 0 0 (.returned []),
        .applyObservation 1 (ritReadback ritFreq (.int 500))] = some s ∧
      WellOrdered (s.service.trace ritKey) := by
  have hsome : (exec System.step newSystem [.execute 0 setRit, .finish 0 0 (.returned []),
      .applyObservation 1 (ritReadback ritFreq (.int 500))]).isSome = true := by decide +kernel
  obtain ⟨s, hs⟩ := Option.isSome_iff_exists.mp hsome
  refine ⟨s, hs, lifecycle_ordered hs (by decide) ?_ (by decide +kernel)⟩
  intro a ha
  simp only [List.mem_cons, List.not_mem_nil, or_false] at ha
  rcases ha with rfl | rfl | rfl <;> exact id

/-- The command is executed once, and the radio reads both of its fields back: it ends twice. -/
theorem reconciled_twice :
    ∃ (actions : List (Action Scalar)) (s : System Scalar),
      exec System.step newSystem actions = some s ∧
      (actions.filter fun a => decide (a.Executes ritKey)).length = 1 ∧
      (∀ a ∈ actions, ¬ a.Direct) ∧ ¬ WellOrdered (s.service.trace ritKey) := by
  have htrace : (exec System.step newSystem [.execute 0 setRit, .finish 0 0 (.returned []),
      .applyObservation 1 (ritReadback ritFreq (.int 500)),
      .applyObservation 1 (ritReadback ritOn (.bool true))]).map (fun s => s.service.trace ritKey) =
        some [.accepted, .queued, .sent, .acknowledged, .reconciled, .reconciled] := by
    decide +kernel
  obtain ⟨s, hs, hstates⟩ := Option.map_eq_some_iff.mp htrace
  refine ⟨_, s, hs, by decide, ?_, ?_⟩
  · intro a ha
    simp only [List.mem_cons, List.not_mem_nil, or_false] at ha
    rcases ha with rfl | rfl | rfl | rfl <;> exact id
  · rw [hstates]
    rintro ⟨acks, ends, heq, rfl | rfl, rfl | ⟨state, -, rfl⟩⟩ <;> simp at heq

end System

end Rigplane.CommandService
