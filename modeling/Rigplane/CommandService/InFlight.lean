import Rigplane.CommandService.LifecycleOrder

/-!
# A command while its executor runs

When its executor returns, `execute` goes on only if the event it sent is still the active one.  By
`Tracked` that is so if nothing has been recorded for the command since.  A command that failed has
such an event, and so has one that an observation has confirmed already: then `execute` raises
`CommandExecutionInvalidatedError` for a command that worked.

Events are numbered in the order in which they are recorded (`Appends`), so that the event that was
sent is told from every later one.
-/

namespace Rigplane.CommandService

open StatePipeline StateStore PyValue Runs

namespace Service

variable {V : Type} {s s' s'' : Service V} {key : CommandKey}

/-! ## The numbers of the events -/

/-- Events are added at the end, and take the next numbers. -/
def Appends (s s' : Service V) : Prop :=
  ∃ more, s'.events = s.events ++ more ∧
    more.map CommandLifecycleEvent.number = List.range' s.events.length more.length

theorem Quiet.appends (h : Quiet s s') : Appends s s' :=
  ⟨[], by rw [h.events, List.append_nil], rfl⟩

theorem Appends.refl (s : Service V) : Appends s s := (Quiet.refl s).appends

theorem Appends.trans (h : Appends s s') (h' : Appends s' s'') : Appends s s'' := by
  obtain ⟨more, hevents, hnumbers⟩ := h
  obtain ⟨more', hevents', hnumbers'⟩ := h'
  refine ⟨more ++ more', by rw [hevents', hevents, List.append_assoc], ?_⟩
  rw [List.map_append, hnumbers, hnumbers', hevents, List.length_append, List.length_append]
  have happ := @List.range'_append s.events.length more.length more'.length 1
  rw [Nat.one_mul] at happ
  exact happ

theorem Appends.history (h : Appends s s') (key : CommandKey) :
    ∃ more, s'.history key = s.history key ++ more := by
  obtain ⟨more, hevents, -⟩ := h
  exact ⟨_, by rw [Service.history, hevents, List.filter_append]; rfl⟩

theorem emitEnd_appends (s : Service V) (now : Time) (key : CommandKey) (target : Option FieldPath)
    (state : CommandLifecycleState) (message : Option String) :
    Appends s (s.emitEnd now key target state message) :=
  ⟨[s.newEvent now key target state message], rfl, rfl⟩

theorem failCommand_appends (s : Service V) (now : Time) (commandId : String)
    (source : Option String) (sessionId : Option (Option String)) (timedOut : Bool)
    (message : Option String) :
    Appends s (s.failCommand now commandId source sessionId timedOut message) := by
  rcases s.failCommand_cases now commandId source sessionId timedOut message with
    ⟨heq, -⟩ | ⟨event, -, -, heq⟩
  · rw [heq]
    exact .refl s
  · rw [heq]
    exact (s.expireCommand_quiet _ _ _).appends.trans (emitEnd_appends _ now _ _ _ _)

theorem failEach_appends (now : Time) (reason : String) (keys : List CommandKey) (s : Service V) :
    Appends s (failEach now reason keys s) := by
  induction keys generalizing s with
  | nil => exact .refl s
  | cons key rest ih => exact (failCommand_appends s now _ _ _ _ _).trans (ih _)

theorem Appends.of_events (h : s'.events = s.events) : Appends s s' :=
  ⟨[], by rw [h, List.append_nil], rfl⟩

theorem makeRoom_appends (now : Time) (key : CommandKey) (fuel : Nat) (s : Service V) :
    Appends s (makeRoom now key fuel s) := by
  induction fuel generalizing s with
  | zero => exact .refl s
  | succ fuel ih =>
      rcases makeRoom_succ now key fuel s with ⟨heq, -⟩ | ⟨oldest, event, -, -, heq⟩ |
        ⟨oldest, event, -, heq⟩
      · rw [heq]
        exact .refl s
      · rw [heq]
        refine Appends.trans ?_ (ih _)
        exact .of_events rfl
      · rw [heq]
        refine Appends.trans ?_ (ih _)
        exact failCommand_appends { s with active := s.active.erase oldest } now _ _ _ _ _

theorem terminateActiveCommands_appends (s : Service V) (now : Time) (reason : String)
    (source : Option String) (sessionId : Option (Option String)) :
    Appends s (s.terminateActiveCommands now reason source sessionId) :=
  (Appends.of_events rfl).trans (failEach_appends now reason (s.terminated source sessionId)
    { s with active := s.active.filter fun key _ => decide (key ∉ s.terminated source sessionId) })

theorem emitLifecycle_appends (s : Service V) (now : Time) (key : CommandKey)
    (target : Option FieldPath) (state : CommandLifecycleState) (message : Option String) :
    Appends s (s.emitLifecycle now key target state message).2 := by
  cases hd : state.dispatchable with
  | false =>
      rw [emitLifecycle, if_neg (by rw [hd]; decide)]
      exact s.emitEnd_appends now key target state message
  | true =>
      obtain ⟨m, q, event, hm, hevent, hq, heq⟩ := s.emitLifecycle_spec now key target message hd
      have hroom : Appends s m := by
        rw [hm]
        exact (s.purgeExpired_quiet now).appends.trans (makeRoom_appends now key _ _)
      have hset : Appends m q := .of_events hq.events
      rw [heq]
      refine (hroom.trans hset).trans ⟨[event], rfl, ?_⟩
      rw [hevent, hq.events]
      rfl

/-- An emission is recorded in the history of its command. -/
theorem emitLifecycle_history_ne (s : Service V) (now : Time) (key : CommandKey)
    (target : Option FieldPath) (state : CommandLifecycleState) (message : Option String) :
    (s.emitLifecycle now key target state message).2.history key ≠ s.history key := by
  intro heq
  cases hd : state.dispatchable with
  | false =>
      rw [emitLifecycle, if_neg (by rw [hd]; decide), emitEnd_history, if_pos rfl] at heq
      exact List.cons_ne_nil _ _ (List.append_right_eq_self.mp heq)
  | true =>
      obtain ⟨m, event, -, -, -, hcloses, -, hhistory⟩ :=
        s.emitLifecycle_history now key target message hd
      rw [hhistory key, if_pos rfl] at heq
      rcases hcloses key with hsame | ⟨last, -, -, -, hmore⟩
      · rw [hsame] at heq
        exact List.cons_ne_nil _ _ (List.append_right_eq_self.mp heq)
      · rw [hmore, List.append_assoc] at heq
        cases List.append_right_eq_self.mp heq

/-- An emission for another command may fail the command to make room. -/
theorem emitLifecycle_closes_other (s : Service V) (now : Time) {key' : CommandKey}
    (hne : key' ≠ key) (target : Option FieldPath) (state : CommandLifecycleState)
    (message : Option String) :
    Closes Failing key s (s.emitLifecycle now key' target state message).2 := by
  cases hd : state.dispatchable with
  | false =>
      rw [emitLifecycle, if_neg (by rw [hd]; decide)]
      refine .inl ?_
      rw [emitEnd_history, if_neg hne]
  | true =>
      obtain ⟨m, event, -, -, -, hcloses, -, hhistory⟩ :=
        s.emitLifecycle_history now key' target message hd
      refine (hcloses key).trans (.inl ?_)
      rw [hhistory key, if_neg hne]

theorem reconcileEach_appends (now : Time) (overlays : List (PendingOverlay V)) (s : Service V) :
    Appends s (reconcileEach now overlays s) := by
  induction overlays generalizing s with
  | nil => exact .refl s
  | cons overlay rest ih =>
      refine Appends.trans ?_ (ih _)
      exact emitEnd_appends (s.removeReadbackExpectation overlay) now _ _ _ _

theorem failExecution_appends (s : Service V) (now : Time) (execution : Execution V)
    (state : CommandLifecycleState) (message : Option String) :
    Appends s (s.failExecution now execution state message) := by
  rw [failExecution]
  split
  · exact (s.expireCommand_quiet _ _ _).appends.trans (emitEnd_appends _ now _ _ _ _)
  · exact .refl s

section

variable [CommandValue V]

theorem beginExecute_appends (s : Service V) (now : Time) (intent : CommandIntent V) :
    Appends s (s.beginExecute now intent).2 :=
  (((emitLifecycle_appends s now intent.key intent.target .accepted none).trans
    (recordIntentOverlay_quiet _ now intent).appends).trans
      (emitLifecycle_appends _ now intent.key intent.target .queued none)).trans
        (emitLifecycle_appends _ now intent.key intent.target .sent none)

variable [DecidableEq V]

theorem applyObservation_appends (s : Service V) (now : Time) (o : CorrelatedObservation V) :
    Appends s (s.applyObservation now o).2 := by
  obtain ⟨q, hq, heq⟩ := s.applyObservation_eq now o
  rw [heq]
  exact hq.appends.trans (reconcileEach_appends now _ q)

theorem applyReturned_appends (now : Time) (generation : Nat)
    (observations : List (CorrelatedObservation V)) (s : Service V) :
    Appends s (applyReturned now generation observations s).2 :=
  (applyReturned_rel (P := fun _ _ _ => True) (I := fun _ => True) Appends.refl
    (fun _ _ _ => Appends.trans) (fun s _ _ _ => ⟨trivial,
    s.applyObservation_appends now _⟩) trivial
    (EachReturned.of_true now generation observations s)).2

theorem finishExecute_appends (s : Service V) (now : Time) (execution : Execution V)
    (result : ExecutorEnd V) : Appends s (s.finishExecute now execution result).2 := by
  cases result with
  | cancelled => exact s.failExecution_appends now execution _ _
  | timedOut text => exact s.failExecution_appends now execution _ _
  | raised text => exact s.failExecution_appends now execution _ _
  | returned observations =>
      rcases s.finishExecute_returned now execution observations with ⟨-, heq⟩ | ⟨-, heq, -⟩
      · rw [heq]
        exact failCommand_appends s now _ _ _ _ _
      · rw [heq]
        exact (emitLifecycle_appends s now _ _ _ _).trans (applyReturned_appends now _ _ _)

/-! ## What an observation confirms -/

/-- The observation confirms nothing of the command. -/
def Spares (key : CommandKey) (s : Service V) (now : Time) (o : CorrelatedObservation V) : Prop :=
  ∀ overlay ∈ s.confirmations now o, overlay.key ≠ key

instance (key : CommandKey) (s : Service V) (now : Time) (o : CorrelatedObservation V) :
    Decidable (Spares key s now o) :=
  inferInstanceAs (Decidable (∀ overlay ∈ s.confirmations now o, overlay.key ≠ key))

/-- An observation is recorded in the history of the commands that it confirms, and of no others. -/
theorem spares_iff (s : Service V) (now : Time) (o : CorrelatedObservation V) (key : CommandKey) :
    Spares key s now o ↔ (s.applyObservation now o).2.history key = s.history key := by
  obtain ⟨events, hhistory, hlength, -⟩ := s.applyObservation_history now o key
  have hnil : events = [] ↔ Spares key s now o := by
    rw [← List.length_eq_zero_iff, hlength, List.length_eq_zero_iff, List.filter_eq_nil_iff]
    simp [Spares]
  rw [hhistory, ← hnil]
  constructor
  · rintro rfl
    exact List.append_nil _
  · intro h
    exact List.append_right_eq_self.mp h

/-- Every observation that an executor returned spares the command if and only if its history is as
it was. -/
theorem eachReturned_spares_iff (now : Time) (generation : Nat)
    (observations : List (CorrelatedObservation V)) (s : Service V) :
    EachReturned (Spares key) now generation observations s ↔
      (applyReturned now generation observations s).2.history key = s.history key := by
  induction observations generalizing s with
  | nil => exact iff_of_true trivial rfl
  | cons o rest ih =>
      have hone := s.spares_iff now (o.bound generation) key
      obtain ⟨events, hevents⟩ := (s.applyObservation_appends now (o.bound generation)).history key
      rw [EachReturned, applyReturned]
      cases happly : s.applyObservation now (o.bound generation) with
      | mk result m =>
          rw [happly] at hone hevents
          cases result with
          | error text => simp [hone]
          | ok changeset =>
              obtain ⟨more, hmore⟩ := (applyReturned_appends now generation rest m).history key
              have hrest := ih m
              dsimp only at hone hevents ⊢
              rw [hmore] at hrest ⊢
              rw [hone, hevents] at *
              constructor
              · rintro ⟨hsame, hall⟩
                have hnil : more = [] := List.append_right_eq_self.mp
                  (hrest.mp (hall changeset rfl))
                rw [hnil, List.append_nil]
                exact hsame
              · intro h
                rw [List.append_assoc] at h
                obtain ⟨rfl, rfl⟩ := List.append_eq_nil_iff.mp (List.append_right_eq_self.mp h)
                exact ⟨List.append_nil _, fun _ _ => hrest.mpr (List.append_nil _)⟩

/-- The state store takes the observation: it raises nothing. -/
def StoreTakes (s : Service V) (now : Time) (o : CorrelatedObservation V) : Prop :=
  ∃ changeset, (s.store.apply (s.normalizeCorrelatedReadback now o).1.toObservation).1 =
    .ok changeset

theorem storeTakes_iff (s : Service V) (now : Time) (o : CorrelatedObservation V) :
    StoreTakes s now o ↔ ∃ changeset, (s.applyObservation now o).1 = .ok changeset := by
  have hstore : (s.normalizeCorrelatedReadback now o).2.store = s.store := by
    rw [normalizeCorrelatedReadback]
    split
    · rfl
    · dsimp only
      split <;> rfl
  rw [StoreTakes, applyObservation, ← hstore]
  generalize s.normalizeCorrelatedReadback now o = normalized
  obtain ⟨o', s'⟩ := normalized
  dsimp only
  generalize s'.store.apply o'.toObservation = applied
  rcases applied with ⟨_ | changeset, store⟩ <;> rfl

/-- The observations of an executor are applied to the end if the store takes each of them. -/
theorem applyReturned_ok_iff (now : Time) (generation : Nat)
    (observations : List (CorrelatedObservation V)) (s : Service V) :
    (∃ changes, (applyReturned now generation observations s).1 = .ok changes) ↔
      EachReturned StoreTakes now generation observations s := by
  induction observations generalizing s with
  | nil => exact iff_of_true ⟨[], rfl⟩ trivial
  | cons o rest ih =>
      rw [EachReturned, applyReturned, storeTakes_iff]
      cases happly : s.applyObservation now (o.bound generation) with
      | mk result m =>
          cases result with
          | error text => simp
          | ok changeset =>
              have hrest := ih m
              dsimp only
              cases happlied : applyReturned now generation rest m with
              | mk applied n =>
                  rw [happlied] at hrest
                  cases applied with
                  | error text =>
                      have hnot : ¬ EachReturned StoreTakes now generation rest m := fun h => by
                        obtain ⟨changes, hchanges⟩ := hrest.mpr h
                        cases hchanges
                      simp [Except.map, hnot]
                  | ok changes =>
                      have hall := hrest.mp ⟨changes, rfl⟩
                      simp [Except.map, hall]

end

end Service

/-! ## The calls between the sent event and the end of the executor -/

namespace System

open Service

variable {V : Type} [CommandValue V] [DecidableEq V] {s s' : System V} {key : CommandKey}

/-- The call confirms nothing of the command, and records no event for it on behalf of another
module. -/
def Undisturbed (key : CommandKey) (s : System V) : Action V → Prop
  | .emitLifecycle _ key' _ _ _ => key' ≠ key
  | a => EachObservation (Spares key) s a

theorem step_appends {a : Action V} (hstep : s.step a = some s') :
    Appends s.service s'.service := by
  cases a with
  | execute now intent =>
      rw [(step_execute hstep).1]
      exact s.service.beginExecute_appends now intent
  | finish now number result =>
      obtain ⟨execution, -, hservice, -⟩ := step_finish hstep
      rw [hservice]
      exact s.service.finishExecute_appends now execution result
  | applyObservation now o =>
      cases hstep
      exact s.service.applyObservation_appends now o
  | failCommand now commandId source sessionId timedOut message =>
      cases hstep
      exact s.service.failCommand_appends now commandId source sessionId timedOut message
  | terminateActiveCommands now reason source sessionId =>
      cases hstep
      exact s.service.terminateActiveCommands_appends now reason source sessionId
  | emitLifecycle now key target state message =>
      cases hstep
      exact s.service.emitLifecycle_appends now key target state message
  | recordPendingOverlay now overlay =>
      cases hstep
      exact (s.service.recordPendingOverlay_quiet now overlay).appends
  | retainReadbackExpectations now key =>
      cases hstep
      exact (s.service.retainReadbackExpectations_quiet now key).appends
  | discardReadbackExpectations key path =>
      cases hstep
      exact .of_events rfl
  | expireCommand commandId source sessionId =>
      cases hstep
      exact .of_events rfl
  | read now =>
      cases hstep
      exact (s.service.purgeExpired_quiet now).appends
  | store op =>
      cases hstep
      exact .of_events rfl

theorem run_appends {actions : List (Action V)} (hrun : exec System.step s actions = some s') :
    Appends s.service s'.service :=
  exec_rel (R := fun a b : System V => Appends a.service b.service) (fun a => .refl a.service)
    (fun _ _ _ => Appends.trans) (fun _ _ _ => step_appends) hrun

/-- What a call adds to the history of a command whose sent event is the last one: failures if the
call leaves the command alone, and something if it does not. -/
theorem step_inFlight {number : Nat} {sent : CommandLifecycleEvent} (hs : s.Sound)
    (hlast : s.service.lastOf key = some sent)
    (hothers : ∀ n execution, s.awaiting.get? n = some execution → execution.intent.key = key →
      n ≠ number → execution.sentEvent ≠ sent)
    {a : Action V} (hstep : s.step a = some s') (hexec : ¬ a.Executes key)
    (hfinish : ∀ now result, a ≠ .finish now number result) :
    ∃ more, s'.service.history key = s.service.history key ++ more ∧
      (Undisturbed key s a → ∀ event ∈ more, Failing event.state) ∧
      (¬ Undisturbed key s a → more ≠ []) := by
  have hcloses {t : Service V} (h : Closes Failing key s.service t)
      (hund : Undisturbed key s a) :
      ∃ more, t.history key = s.service.history key ++ more ∧
        (Undisturbed key s a → ∀ event ∈ more, Failing event.state) ∧
        (¬ Undisturbed key s a → more ≠ []) := by
    rcases h with heq | ⟨event, hfail, -, -, heq⟩
    · refine ⟨[], by rw [heq, List.append_nil], fun _ event he => ?_, fun h => absurd hund h⟩
      cases he
    · refine ⟨[event], heq, fun _ e he => ?_, fun h => absurd hund h⟩
      rw [List.mem_singleton.mp he]
      exact hfail
  have hobserved {t : Service V} (happ : Appends s.service t)
      (hiff : Undisturbed key s a ↔ t.history key = s.service.history key) :
      ∃ more, t.history key = s.service.history key ++ more ∧
        (Undisturbed key s a → ∀ event ∈ more, Failing event.state) ∧
        (¬ Undisturbed key s a → more ≠ []) := by
    obtain ⟨more, hmore⟩ := happ.history key
    rw [hmore, List.append_right_eq_self] at hiff
    refine ⟨more, hmore, fun hund event he => ?_, fun hund hnil => hund (hiff.mpr hnil)⟩
    rw [hiff.mp hund] at he
    cases he
  cases a with
  | execute now intent =>
      obtain ⟨m, _, _, hfail, -, -, -, -, -, -, hhistory⟩ := s.service.beginExecute_spec now intent
      have hne : ¬ intent.key = key := hexec
      rw [(step_execute hstep).1]
      refine hcloses ((hfail key).trans (.inl ?_)) trivial
      rw [hhistory key, if_neg hne]
  | finish now n result =>
      obtain ⟨execution, hget, hservice, -⟩ := step_finish hstep
      obtain ⟨hsent, hkey⟩ := hs.sent n execution hget
      have hn : n ≠ number := fun h => hfinish now result (h ▸ rfl)
      rw [hservice]
      cases result with
      | cancelled =>
          exact hcloses (failExecution_closes hs.tracked now hsent _ (.inl rfl) rfl) trivial
      | timedOut text =>
          exact hcloses (failExecution_closes hs.tracked now hsent _ (.inr rfl) rfl) trivial
      | raised text =>
          exact hcloses (failExecution_closes hs.tracked now hsent _ (.inl rfl) rfl) trivial
      | returned observations =>
          rcases s.service.finishExecute_returned now execution observations with
            ⟨hne, heq⟩ | ⟨hactive, heq, -⟩
          · rw [heq]
            refine hcloses (failCommand_closes _ now _ _ _ _ _) ?_
            intro execution' hget' hactive
            rw [hget] at hget'
            cases hget'
            exact absurd hactive hne
          · -- the execution is that of another command, since its sent event is the active one
            have hother : execution.intent.key ≠ key := by
              intro heq'
              refine hothers n execution hget heq' hn ?_
              have hlast' := hs.tracked.last _ _ hactive
              rw [heq', hlast] at hlast'
              exact (Option.some.inj hlast').symm
            obtain ⟨event, -, hhistory⟩ := acknowledged_history now hsent hactive
            have hsame := hhistory key
            rw [if_neg hother] at hsame
            rw [heq]
            refine hobserved ((emitLifecycle_appends _ now _ _ _ _).trans
              (applyReturned_appends now _ _ _)) ?_
            rw [← hsame]
            rw [← eachReturned_spares_iff]
            constructor
            · intro hund
              exact hund execution hget hactive
            · intro hall execution' hget' _
              rw [hget] at hget'
              cases hget'
              exact hall
  | applyObservation now o =>
      cases hstep
      exact hobserved (s.service.applyObservation_appends now o) (s.service.spares_iff now o key)
  | failCommand now commandId source sessionId timedOut message =>
      cases hstep
      exact hcloses (failCommand_closes _ now _ _ _ _ _) trivial
  | terminateActiveCommands now reason source sessionId =>
      cases hstep
      exact hcloses (terminateActiveCommands_closes _ now reason source sessionId) trivial
  | emitLifecycle now key' target state message =>
      cases hstep
      rcases eq_or_ne key' key with rfl | hne
      · -- whatever the state, an event is recorded for the command
        obtain ⟨more, hmore⟩ :=
          (s.service.emitLifecycle_appends now key' target state message).history key'
        refine ⟨more, hmore, fun hund => absurd rfl hund, fun _ hnil => ?_⟩
        rw [hnil, List.append_nil] at hmore
        exact s.service.emitLifecycle_history_ne now key' target state message hmore
      · refine hcloses ?_ hne
        exact s.service.emitLifecycle_closes_other now hne target state message
  | recordPendingOverlay now overlay =>
      cases hstep
      exact hcloses (recordPendingOverlay_quiet _ now overlay).closes trivial
  | retainReadbackExpectations now key =>
      cases hstep
      exact hcloses (retainReadbackExpectations_quiet _ now key).closes trivial
  | discardReadbackExpectations key path =>
      cases hstep
      exact hcloses (.refl s.service) trivial
  | expireCommand commandId source sessionId =>
      cases hstep
      exact hcloses (.refl s.service) trivial
  | read now =>
      cases hstep
      exact hcloses (purgeExpired_quiet _ now).closes trivial
  | store op =>
      cases hstep
      exact hcloses (.refl s.service) trivial

/-! ## Runs -/

/-- What a call does to the awaits: one that it begins has the next number. -/
theorem step_awaiting {a : Action V} (hstep : s.step a = some s') :
    s.started ≤ s'.started ∧ ∀ n execution, s'.awaiting.get? n = some execution →
      s.awaiting.get? n = some execution ∨
        (n = s.started ∧ n < s'.started ∧ ∃ now, a = .execute now execution.intent ∧
          execution = (s.service.beginExecute now execution.intent).1) := by
  cases a with
  | execute now intent =>
      obtain ⟨-, hstarted, hawaiting, -⟩ := step_execute hstep
      refine ⟨by omega, fun n execution hget => ?_⟩
      rw [hawaiting, Dict.get?_set] at hget
      split at hget
      next hn =>
        obtain ⟨-, -, -, -, -, -, hintent, -⟩ := s.service.beginExecute_spec now intent
        have hexecution := Option.some.inj hget
        rw [hexecution] at hintent
        refine .inr ⟨hn, by omega, now, by rw [hintent], ?_⟩
        rw [hintent]
        exact hexecution.symm
      next => exact .inl hget
  | finish now number result =>
      obtain ⟨execution, -, -, hstarted, hawaiting, -⟩ := step_finish hstep
      refine ⟨by omega, fun n x hget => ?_⟩
      rw [hawaiting, Dict.get?_erase] at hget
      split at hget
      · cases hget
      · exact .inl hget
  | _ =>
      cases hstep
      exact ⟨Nat.le_refl _, fun _ _ hget => .inl hget⟩

/-- An await that was begun is that of its `execute`, for as long as it lasts. -/
theorem run_awaiting {actions : List (Action V)} (hrun : exec System.step s actions = some s')
    {number : Nat} (hnumber : number < s.started) :
    number < s'.started ∧ ∀ execution, s'.awaiting.get? number = some execution →
      s.awaiting.get? number = some execution := by
  refine exec_invariant (I := fun m : System V => number < m.started ∧
    ∀ execution, m.awaiting.get? number = some execution →
      s.awaiting.get? number = some execution) ?_ hrun ⟨hnumber, fun _ h => h⟩
  rintro m a m' ⟨hlt, hfrom⟩ hstep
  obtain ⟨hle, hawaiting⟩ := step_awaiting hstep
  refine ⟨by omega, fun execution hget => ?_⟩
  rcases hawaiting number execution hget with hold | ⟨hn, -⟩
  · exact hfrom execution hold
  · omega

/-- An await that ends once does not end before. -/
theorem not_finish {actions : List (Action V)} (hrun : exec System.step s actions = some s')
    {number : Nat} (hnumber : number < s.started) {execution : Execution V}
    (hget : s'.awaiting.get? number = some execution) :
    ∀ a ∈ actions, ∀ now result, a ≠ .finish now number result := by
  rintro a ha now result rfl
  obtain ⟨before, after, rfl⟩ := List.append_of_mem ha
  obtain ⟨m, m', hbefore, hstep, hafter⟩ := exec_mid_eq_some.mp hrun
  have hlt := (run_awaiting hbefore hnumber).1
  obtain ⟨-, -, -, hstarted, hawaiting, -⟩ := step_finish hstep
  have hold := (run_awaiting hafter (by omega)).2 execution hget
  rw [hawaiting, Dict.get?_erase, if_pos rfl] at hold
  cases hold

/-- The events of a reachable state have different numbers. -/
theorem run_nodup {store : Store V} {ttl : Time} {h : 0 ≤ ttl} {actions : List (Action V)}
    (hrun : exec System.step (init store ttl h) actions = some s) : s.service.events.Nodup := by
  obtain ⟨more, hevents, hnumbers⟩ := run_appends hrun
  have hmore : s.service.events = more := hevents
  refine List.Nodup.of_map CommandLifecycleEvent.number ?_
  rw [hmore, hnumbers]
  exact List.nodup_range'

/-- The sent event of every await has been recorded. -/
theorem run_recorded {store : Store V} {ttl : Time} {h : 0 ≤ ttl} {actions : List (Action V)}
    (hrun : exec System.step (init store ttl h) actions = some s) :
    ∀ n execution, s.awaiting.get? n = some execution →
      execution.sentEvent ∈ s.service.history execution.intent.key := by
  refine exec_invariant (I := fun m : System V => ∀ n execution,
    m.awaiting.get? n = some execution →
      execution.sentEvent ∈ m.service.history execution.intent.key) ?_ hrun ?_
  · intro m a m' hrecorded hstep n execution hget
    obtain ⟨more, hmore⟩ := (step_appends hstep).history execution.intent.key
    rcases (step_awaiting hstep).2 n execution hget with hold | ⟨-, -, now, rfl, hexecution⟩
    · rw [hmore]
      exact List.mem_append_left _ (hrecorded n execution hold)
    · obtain ⟨_, _, _, -, -, -, -, -, -, -, hhistory⟩ :=
        m.service.beginExecute_spec now execution.intent
      rw [(step_execute hstep).1, hhistory, if_pos rfl, ← hexecution]
      simp
  · intro n execution hget
    cases hget

/-- The last event of the command is the one that an `execute` awaiting its executor has sent. -/
structure InFlight (key : CommandKey) (number : Nat) (sent : CommandLifecycleEvent)
    (s : System V) : Prop where
  sound : s.Sound
  last : s.service.lastOf key = some sent
  others : ∀ n execution, s.awaiting.get? n = some execution → execution.intent.key = key →
    n ≠ number → execution.sentEvent ≠ sent

theorem InFlight.step {number : Nat} {sent : CommandLifecycleEvent} (h : InFlight key number sent s)
    {a : Action V} (hstep : s.step a = some s') (hexec : ¬ a.Executes key)
    (hsame : s'.service.history key = s.service.history key) : InFlight key number sent s' where
  sound := h.sound.step hstep
  last := (lastOf_congr hsame).trans h.last
  others n execution hget hkey hn := by
    rcases (step_awaiting hstep).2 n execution hget with hold | ⟨-, -, now, rfl, -⟩
    · exact h.others n execution hold hkey hn
    · exact absurd hkey hexec

/-- Nothing is recorded for a command that does not fail if and only if every
call leaves it alone. -/
theorem run_undisturbed_iff {number : Nat} {sent : CommandLifecycleEvent}
    {actions : List (Action V)} (h : InFlight key number sent s)
    (hrun : exec System.step s actions = some s') (hexec : ∀ a ∈ actions, ¬ a.Executes key)
    (hfinish : ∀ a ∈ actions, ∀ now result, a ≠ .finish now number result)
    (hkept : ∀ event ∈ (s'.service.history key).drop (s.service.history key).length,
      ¬ Failing event.state) :
    Along System.step (Undisturbed key) s actions ↔
      s'.service.history key = s.service.history key := by
  induction actions generalizing s with
  | nil =>
      cases hrun
      exact iff_of_true trivial rfl
  | cons a rest ih =>
      obtain ⟨m, hstep, hrest⟩ := exec_cons_eq_some.mp hrun
      obtain ⟨more, hmore, hund, hnot⟩ := step_inFlight h.sound h.last
        (fun n x hget hkey hn => h.others n x hget hkey hn) hstep (hexec a List.mem_cons_self)
        (hfinish a List.mem_cons_self)
      obtain ⟨later, hlater⟩ := (run_appends hrest).history key
      rw [hmore, List.append_assoc] at hlater
      rw [hlater, List.drop_left] at hkept
      have hafter (hnil : more = []) : Along System.step (Undisturbed key) m rest ↔
          s'.service.history key = m.service.history key := by
        rw [hnil, List.append_nil] at hmore
        refine ih (h.step hstep (hexec a List.mem_cons_self) hmore) hrest
          (fun b hb => hexec b (List.mem_cons_of_mem a hb))
          (fun b hb => hfinish b (List.mem_cons_of_mem a hb)) ?_
        rw [hmore, hlater, List.drop_left]
        exact hkept
      constructor
      · intro hall
        obtain ⟨ha, hrest'⟩ := hall.cons hstep
        have hnil : more = [] := List.eq_nil_iff_forall_not_mem.mpr fun event he =>
          hkept event (List.mem_append_left _ he) (hund ha event he)
        rw [(hafter hnil).mp hrest', hmore, hnil, List.append_nil]
      · intro hsame
        rw [hlater] at hsame
        obtain ⟨hnil, hnil'⟩ := List.append_eq_nil_iff.mp (List.append_right_eq_self.mp hsame)
        refine ⟨not_not.mp fun ha => hnot ha hnil, fun m' hstep' => ?_⟩
        rw [hstep] at hstep'
        cases hstep'
        refine (hafter hnil).mpr ?_
        rw [hlater, hmore, hnil, hnil']
        simp

/-- An `execute` that has just begun is in flight. -/
theorem execute_inFlight {store : Store V} {ttl : Time} {h : 0 ≤ ttl} {before : List (Action V)}
    (hbefore : exec System.step (init store ttl h) before = some s) {now : Time}
    {intent : CommandIntent V} (hstep : s.step (.execute now intent) = some s') :
    InFlight intent.key s.started (s.service.beginExecute now intent).1.sentEvent s' := by
  have hrun := exec_snoc hbefore hstep
  obtain ⟨m, accepted, queued, hcloses, -, -, -, -, hkey, hactive, hhistory⟩ :=
    s.service.beginExecute_spec now intent
  have hservice := (step_execute hstep).1
  refine ⟨run_sound hrun, ?_, ?_⟩
  · rw [hservice]
    exact ((run_sound hbefore).tracked.beginExecute now intent).last _ _ hactive
  · intro n execution hget hsame hn heq
    have hold : s.awaiting.get? n = some execution := by
      rcases (step_awaiting hstep).2 n execution hget with hold | ⟨hn', -⟩
      · exact hold
      · exact absurd hn' hn
    have hrecorded := run_recorded hbefore n execution hold
    rw [hsame, heq] at hrecorded
    have hnodup : (s'.service.history intent.key).Nodup := (run_nodup hrun).filter _
    rw [hservice, hhistory, if_pos rfl] at hnodup
    have hin : (s.service.beginExecute now intent).1.sentEvent ∈ m.history intent.key := by
      rcases hcloses intent.key with hsame | ⟨event, -, -, -, hmore⟩
      · rw [hsame]
        exact hrecorded
      · rw [hmore]
        exact List.mem_append_left _ hrecorded
    exact (List.nodup_append.mp hnodup).2.2 _ hin _ (by simp) rfl

/-- An `execute` whose executor returned, and whose command has not failed and was not executed
again, returns a result if and only if nothing confirmed the command or spoke for it while the
executor ran, and the store takes the observations of the executor. -/
theorem returns_result_iff {store : Store V} {ttl : Time} {h : 0 ≤ ttl}
    {before during : List (Action V)} {s₀ s₁ s₂ s₃ : System V} {now now' : Time}
    {intent : CommandIntent V} {observations : List (CorrelatedObservation V)}
    (hbefore : exec System.step (init store ttl h) before = some s₀)
    (hstep : s₀.step (.execute now intent) = some s₁)
    (hduring : exec System.step s₁ during = some s₂)
    (hfinish : s₂.step (.finish now' s₀.started (.returned observations)) = some s₃)
    (honce : ∀ a ∈ during, ¬ a.Executes intent.key)
    (hkept : ∀ event ∈ (s₂.service.history intent.key).drop
      (s₁.service.history intent.key).length, ¬ Failing event.state) :
    (∃ result, s₃.outcomes.get? s₀.started = some (.returned result)) ↔
      Along System.step (Undisturbed intent.key) s₁ during ∧
        EachReturned StoreTakes now' (s₀.service.beginExecute now intent).1.providerGeneration
          observations (s₂.service.acknowledged now' (s₀.service.beginExecute now intent).1) := by
  have hflight := execute_inFlight hbefore hstep
  obtain ⟨hservice, hstarted, hawaiting, -⟩ := step_execute hstep
  obtain ⟨-, -, -, -, -, -, hintent, hsent, -, -, -⟩ := s₀.service.beginExecute_spec now intent
  obtain ⟨execution, hget, -, -, -, houtcomes⟩ := step_finish hfinish
  have hlt : s₀.started < s₁.started := by omega
  have hexecution : (s₀.service.beginExecute now intent).1 = execution := by
    have hold := (run_awaiting hduring hlt).2 execution hget
    rw [hawaiting, Dict.get?_set_self] at hold
    exact Option.some.inj hold
  rw [hexecution] at hflight hintent hsent ⊢
  have hrun : exec System.step (init store ttl h) (before ++ .execute now intent :: during) =
      some s₂ := exec_mid_eq_some.mpr ⟨s₀, s₁, hbefore, hstep, hduring⟩
  have hsound := run_sound hrun
  obtain ⟨more, hmore⟩ := (run_appends hduring).history intent.key
  -- the sent event is active again only if nothing was recorded after it
  have hactive : s₂.service.active.get? intent.key = some execution.sentEvent ↔
      s₂.service.history intent.key = s₁.service.history intent.key := by
    constructor
    · intro hactive
      have hlast := hsound.tracked.last _ _ hactive
      rw [hmore]
      rcases List.eq_nil_or_concat more with rfl | ⟨events, event, rfl⟩
      · exact List.append_nil _
      · have hnodup : (s₂.service.history intent.key).Nodup := (run_nodup hrun).filter _
        rw [hmore] at hnodup
        rw [lastOf, hmore, List.concat_eq_append, ← List.append_assoc,
          List.getLast?_concat] at hlast
        have hne := (List.nodup_append.mp hnodup).2.2 _ (mem_history_of_lastOf hflight.last) event
          (by simp)
        exact absurd (Option.some.inj hlast).symm hne
    · intro hsame
      refine hsound.tracked.inFlight _ _ List.not_mem_nil ?_ (by rw [hsent]; rfl)
        (by rw [hsent]; decide)
      exact (lastOf_congr hsame).trans hflight.last
  rw [houtcomes, Dict.get?_set_self,
    run_undisturbed_iff hflight hduring honce (not_finish hduring hlt hget) hkept, ← hactive,
    ← applyReturned_ok_iff]
  rw [← hintent]
  rcases s₂.service.finishExecute_returned now' execution observations with
    ⟨hne, heq⟩ | ⟨hsame, -, hiff⟩
  · rw [heq]
    simp [hne]
  · simp only [hsame, true_and, Option.some.injEq]
    exact hiff

/-- The command is executed, the tables are read, and its executor returns. -/
theorem returns_result_read :
    ∃ s result, exec System.step newSystem
        [.execute 0 setRit, .read 1, .finish 1 0 (.returned [])] = some s ∧
      s.outcomes.get? 0 = some (.returned result) := by
  have hsome : (exec System.step newSystem
      [.execute 0 setRit, .read 1, .finish 1 0 (.returned [])]).isSome = true := by decide +kernel
  obtain ⟨s₃, hs₃⟩ := Option.isSome_iff_exists.mp hsome
  obtain ⟨s₁, hstep, hrest⟩ := exec_cons_eq_some.mp hs₃
  obtain ⟨s₂, hread, hrest₂⟩ := exec_cons_eq_some.mp hrest
  obtain ⟨s₃', hfinish, hnil⟩ := exec_cons_eq_some.mp hrest₂
  cases hnil
  have hduring : exec System.step s₁ [.read 1] = some s₂ := exec_cons_eq_some.mpr ⟨s₂, hread, rfl⟩
  have hsame : s₂.service.history ritKey = s₁.service.history ritKey := by
    cases hread
    rfl
  have hbefore : exec System.step newSystem [] = some newSystem := rfl
  obtain ⟨result, hresult⟩ := (returns_result_iff hbefore hstep hduring hfinish
    (by
      intro a ha
      rw [List.mem_singleton.mp ha]
      exact id)
    (by
      intro event he
      change event ∈ (s₂.service.history ritKey).drop (s₁.service.history ritKey).length at he
      rw [hsame, List.drop_length] at he
      cases he)).mpr ⟨⟨trivial, fun _ _ => trivial⟩, trivial⟩
  exact ⟨s₃, result, hs₃, hresult⟩

/-- An observation confirms the command while its executor runs: it has not failed, the provider
generation is the same, and `execute` raises. -/
theorem invalidated_by_confirmation :
    ∃ s₁ s₂ s₃ : System Scalar, newSystem.step (.execute 0 setRit) = some s₁ ∧
      s₁.step (.applyObservation 1 (ritReadback ritFreq (.int 500))) = some s₂ ∧
      s₂.step (.finish 1 0 (.returned [])) = some s₃ ∧
      s₂.service.trace ritKey = [.accepted, .queued, .sent, .reconciled] ∧
      s₂.service.store.providerGeneration = s₁.service.store.providerGeneration ∧
      s₃.outcomes.get? 0 = some (.invalidated "command invalidated during execution") := by
  have hsent : (newSystem.step (.execute 0 setRit)).map
      (fun s => s.service.store.providerGeneration) = some 0 := by decide +kernel
  have hconfirmed : (exec System.step newSystem [.execute 0 setRit,
      .applyObservation 1 (ritReadback ritFreq (.int 500))]).map
        (fun s => (s.service.trace ritKey, s.service.store.providerGeneration)) =
          some ([.accepted, .queued, .sent, .reconciled], 0) := by decide +kernel
  have hended : (exec System.step newSystem [.execute 0 setRit,
      .applyObservation 1 (ritReadback ritFreq (.int 500)), .finish 1 0 (.returned [])]).bind
        (fun s => (s.outcomes.get? 0).bind Outcome.invalidation) =
          some "command invalidated during execution" := by decide +kernel
  obtain ⟨s₃, hrun, houtcome⟩ := Option.bind_eq_some_iff.mp hended
  obtain ⟨outcome, hget, hinvalid⟩ := Option.bind_eq_some_iff.mp houtcome
  obtain ⟨s₁, hstep, hrest⟩ := exec_cons_eq_some.mp hrun
  obtain ⟨s₂, hobserve, hrest₂⟩ := exec_cons_eq_some.mp hrest
  obtain ⟨s₃', hfinish, hnil⟩ := exec_cons_eq_some.mp hrest₂
  cases hnil
  rw [hstep, Option.map_some] at hsent
  rw [exec_cons_eq_some.mpr ⟨s₁, hstep, exec_cons_eq_some.mpr ⟨s₂, hobserve, rfl⟩⟩,
    Option.map_some, Option.some.injEq, Prod.mk.injEq] at hconfirmed
  refine ⟨s₁, s₂, s₃, hstep, hobserve, hfinish, hconfirmed.1, ?_, ?_⟩
  · rw [hconfirmed.2, Option.some.inj hsent]
  · rw [hget]
    cases outcome with
    | invalidated message => rw [Option.some.inj hinvalid]
    | _ => cases hinvalid

end System

end Rigplane.CommandService
