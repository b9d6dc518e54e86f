import Rigplane.CommandService.Tracking

/-!
# Observations and executions

`confirmations` says which overlays and expectations an observation confirms, before it is applied.
The rest follows the history of a command through `execute`: the three events up to its await, and
the end of its executor.
-/

namespace Rigplane.CommandService

open StatePipeline StateStore PyValue

namespace Service

variable {V : Type} {s s' : Service V} {pending : List CommandKey} {key : CommandKey}

/-! ## Reconciliation -/

theorem Tracked.emitReconciled (h : Tracked pending s) (now : Time) (overlay : PendingOverlay V) :
    Tracked pending (s.emitReconciled now overlay) := by
  have hq : Quiet s (s.removeReadbackExpectation overlay) := .of_eq rfl rfl
  exact ((h.quiet hq).weaken (List.subset_cons_self overlay.key _)).emitEnd now _ _ rfl

theorem Tracked.reconcileEach (now : Time) (overlays : List (PendingOverlay V))
    (h : Tracked pending s) : Tracked pending (reconcileEach now overlays s) := by
  induction overlays generalizing s with
  | nil => exact h
  | cons overlay rest ih => exact ih (h.emitReconciled now overlay)

theorem emitReconciled_history (s : Service V) (now : Time) (overlay : PendingOverlay V)
    (key : CommandKey) :
    ∃ event : CommandLifecycleEvent, event.state = .reconciled ∧
      (s.emitReconciled now overlay).history key =
        if overlay.key = key then s.history key ++ [event] else s.history key :=
  ⟨_, rfl, (s.removeReadbackExpectation overlay).emitEnd_history now overlay.key
    (some overlay.path) .reconciled (some "confirmed by matching observation") key⟩

/-- Every overlay that is reconciled adds one event to the history of its command. -/
theorem reconcileEach_history (now : Time) (overlays : List (PendingOverlay V)) (s : Service V)
    (key : CommandKey) :
    ∃ events : List CommandLifecycleEvent,
      (reconcileEach now overlays s).history key = s.history key ++ events ∧
      events.length = (overlays.filter fun overlay => decide (overlay.key = key)).length ∧
      ∀ event ∈ events, event.state = .reconciled := by
  induction overlays generalizing s with
  | nil => exact ⟨[], (List.append_nil _).symm, rfl, fun event h => by cases h⟩
  | cons overlay rest ih =>
      obtain ⟨events, hevents, hlength, hstate⟩ := ih (s.emitReconciled now overlay)
      obtain ⟨event, hreconciled, hone⟩ := s.emitReconciled_history now overlay key
      rw [hone] at hevents
      split at hevents
      next hkey =>
        refine ⟨event :: events, ?_, ?_, ?_⟩
        · rw [reconcileEach, hevents, List.append_assoc, List.singleton_append]
        · rw [List.filter_cons, if_pos (decide_eq_true hkey), List.length_cons, List.length_cons,
            hlength]
        · intro e he
          rcases List.mem_cons.mp he with rfl | he
          · exact hreconciled
          · exact hstate e he
      next hkey =>
        refine ⟨events, hevents, ?_, hstate⟩
        rw [List.filter_cons, if_neg (by simpa using hkey), hlength]

variable [CommandValue V]

/-- What `_reconcile_observation` confirms: the overlays that match, or else an expectation. -/
def reconcilable (s : Service V) (now : Time) (o : CorrelatedObservation V) :
    List (PendingOverlay V) :=
  let s := s.purgeExpired now
  let reconciled := s.overlays.filter (observationReconcilesOverlay o)
  if reconciled ≠ [] then reconciled else (s.confirmedExpectation o).toList

/-- The service once the overlays that match are taken out. -/
def withoutMatching (s : Service V) (now : Time) (o : CorrelatedObservation V) : Service V :=
  let s := s.purgeExpired now
  { s with overlays := s.overlays.filter fun item => !observationReconcilesOverlay o item }

theorem reconcileObservation_eq (s : Service V) (now : Time) (o : CorrelatedObservation V) :
    s.reconcileObservation now o =
      reconcileEach now (s.reconcilable now o) (s.withoutMatching now o) := by
  rw [reconcileObservation, reconcilable]
  split
  next h => rfl
  next h =>
    have hsame : confirmedExpectation { s.purgeExpired now with
        overlays := (s.purgeExpired now).overlays.filter fun item =>
          !observationReconcilesOverlay o item } o =
            (s.purgeExpired now).confirmedExpectation o := rfl
    rw [hsame]
    cases (s.purgeExpired now).confirmedExpectation o with
    | none => rfl
    | some expectation => rfl

theorem withoutMatching_quiet (s : Service V) (now : Time) (o : CorrelatedObservation V) :
    Quiet s (s.withoutMatching now o) := (s.purgeExpired_quiet now).trans (.of_eq rfl rfl)

theorem normalizeCorrelatedReadback_quiet (s : Service V) (now : Time)
    (o : CorrelatedObservation V) : Quiet s (s.normalizeCorrelatedReadback now o).2 := by
  rw [normalizeCorrelatedReadback]
  split
  · exact .refl s
  · dsimp only
    split <;> exact s.purgeExpired_quiet now

variable [DecidableEq V]

/-- The overlays and expectations that an observation confirms when it is applied: none, if the
store refuses it or it is not of the current provider generation. -/
def confirmations (s : Service V) (now : Time) (o : CorrelatedObservation V) :
    List (PendingOverlay V) :=
  let (o, s) := s.normalizeCorrelatedReadback now o
  match s.store.apply o.toObservation with
  | (.error _, _) => []
  | (.ok changeset, store) =>
      if changeset.observedPaths ≠ [] ∧ o.providerGeneration = some store.providerGeneration then
        { s with store := store }.reconcilable now o
      else []

/-- Applying an observation is silent but for the events of what it confirms. -/
theorem applyObservation_eq (s : Service V) (now : Time) (o : CorrelatedObservation V) :
    ∃ q, Quiet s q ∧
      (s.applyObservation now o).2 = reconcileEach now (s.confirmations now o) q := by
  have hn := s.normalizeCorrelatedReadback_quiet now o
  rw [applyObservation, confirmations]
  generalize s.normalizeCorrelatedReadback now o = normalized at hn
  obtain ⟨o', s'⟩ := normalized
  dsimp only at hn ⊢
  generalize s'.store.apply o'.toObservation = applied
  rcases applied with ⟨_ | changeset, store⟩
  · refine ⟨_, ?_, rfl⟩
    exact hn.trans (.of_eq rfl rfl)
  · have hstore : Quiet s { s' with store := store } := hn.trans (.of_eq rfl rfl)
    dsimp only
    split
    · refine ⟨_, ?_, reconcileObservation_eq _ now o'⟩
      exact hstore.trans (withoutMatching_quiet _ now o')
    · exact ⟨_, hstore, rfl⟩

theorem Tracked.applyObservation (h : Tracked pending s) (now : Time)
    (o : CorrelatedObservation V) : Tracked pending (s.applyObservation now o).2 := by
  obtain ⟨q, hq, heq⟩ := s.applyObservation_eq now o
  rw [heq]
  exact (h.quiet hq).reconcileEach now _

theorem applyObservation_history (s : Service V) (now : Time) (o : CorrelatedObservation V)
    (key : CommandKey) :
    ∃ events : List CommandLifecycleEvent,
      (s.applyObservation now o).2.history key = s.history key ++ events ∧
      events.length =
        ((s.confirmations now o).filter fun overlay => decide (overlay.key = key)).length ∧
      ∀ event ∈ events, event.state = .reconciled := by
  obtain ⟨q, hq, heq⟩ := s.applyObservation_eq now o
  rw [heq, ← history_congr hq.events key]
  exact reconcileEach_history now _ q key

/-! ## The observations of an executor -/

/-- Every observation that an executor returned is applied where the condition allows it. -/
def EachReturned (P : Service V → Time → CorrelatedObservation V → Prop) (now : Time)
    (generation : Nat) : List (CorrelatedObservation V) → Service V → Prop
  | [], _ => True
  | o :: rest, s =>
      P s now (o.bound generation) ∧
        ∀ changeset, (s.applyObservation now (o.bound generation)).1 = .ok changeset →
          EachReturned P now generation rest (s.applyObservation now (o.bound generation)).2

instance EachReturned.decide (P : Service V → Time → CorrelatedObservation V → Prop)
    [∀ s now o, Decidable (P s now o)] (now : Time) (generation : Nat) :
    ∀ observations s, Decidable (EachReturned P now generation observations s)
  | [], _ => .isTrue trivial
  | o :: rest, s =>
      have : Decidable (∀ changeset, (s.applyObservation now (o.bound generation)).1 =
        .ok changeset →
          EachReturned P now generation rest (s.applyObservation now (o.bound generation)).2) :=
        match h : (s.applyObservation now (o.bound generation)).1 with
        | .error _ => .isTrue fun _ hc => by cases hc
        | .ok changeset =>
            match EachReturned.decide P now generation rest
              (s.applyObservation now (o.bound generation)).2 with
            | .isTrue hrest => .isTrue fun _ _ => hrest
            | .isFalse hrest => .isFalse fun hall => hrest (hall changeset rfl)
      instDecidableAnd

/-- What an observation keeps where the condition holds, all of them keep. -/
theorem applyReturned_rel {P : Service V → Time → CorrelatedObservation V → Prop}
    {I : Service V → Prop} {R : Service V → Service V → Prop} (hrefl : ∀ s, R s s)
    (htrans : ∀ a b c, R a b → R b c → R a c) {now : Time} {generation : Nat}
    (hstep : ∀ s o, I s → P s now o → I (s.applyObservation now o).2 ∧
      R s (s.applyObservation now o).2)
    {observations : List (CorrelatedObservation V)} (hi : I s)
    (h : EachReturned P now generation observations s) :
    I (applyReturned now generation observations s).2 ∧
      R s (applyReturned now generation observations s).2 := by
  induction observations generalizing s with
  | nil => exact ⟨hi, hrefl s⟩
  | cons o rest ih =>
      obtain ⟨hp, hrest⟩ := h
      obtain ⟨hi', hr⟩ := hstep s (o.bound generation) hi hp
      rw [applyReturned]
      cases happly : s.applyObservation now (o.bound generation) with
      | mk result m =>
          rw [happly] at hi' hr hrest
          cases result with
          | error text => exact ⟨hi', hr⟩
          | ok changeset =>
              obtain ⟨hi'', hr'⟩ := ih hi' (hrest changeset rfl)
              exact ⟨hi'', htrans _ _ _ hr hr'⟩

theorem EachReturned.of_true (now : Time) (generation : Nat)
    (observations : List (CorrelatedObservation V)) (s : Service V) :
    EachReturned (fun _ _ _ => True) now generation observations s := by
  induction observations generalizing s with
  | nil => trivial
  | cons o rest ih => exact ⟨trivial, fun _ _ => ih _⟩

theorem Tracked.applyReturned (now : Time) (generation : Nat)
    (observations : List (CorrelatedObservation V)) (h : Tracked pending s) :
    Tracked pending (applyReturned now generation observations s).2 :=
  (applyReturned_rel (R := fun _ _ => True) (fun _ => trivial) (fun _ _ _ _ _ => trivial)
    (fun _ o ht _ => ⟨ht.applyObservation now o, trivial⟩) h
    (EachReturned.of_true now generation observations s)).1

/-! ## Executing a command -/

omit [DecidableEq V] in
theorem recordPaths_quiet (intent : CommandIntent V) (now timeout : Time) (paths : List FieldPath)
    (s : Service V) : Quiet s (recordPaths intent now timeout paths s) := by
  induction paths generalizing s with
  | nil => exact .refl s
  | cons path rest ih =>
      rw [recordPaths]
      refine Quiet.trans ?_ (ih _)
      split
      · split
        · exact s.recordReadbackExpectation_quiet now _
        · exact .refl s
      · exact (s.recordPendingOverlay_quiet now _).trans (recordReadbackExpectation_quiet _ now _)

omit [DecidableEq V] in
theorem recordIntentOverlay_quiet (s : Service V) (now : Time) (intent : CommandIntent V) :
    Quiet s (s.recordIntentOverlay now intent) := by
  rw [recordIntentOverlay]
  split
  · exact .refl s
  · exact recordPaths_quiet intent now _ _ s

omit [CommandValue V] [DecidableEq V] in
/-- A command that is active and not acknowledged outlives a purge. -/
theorem mem_purgeExpired {event : CommandLifecycleEvent} (h : s.active.get? key = some event)
    (hack : event.state ≠ .acknowledged) (now : Time) : key ∈ (s.purgeExpired now).active.keys :=
  Dict.mem_keys.mpr ⟨event, (s.purgeExpired_quiet now).dropped key event h hack⟩

omit [CommandValue V] [DecidableEq V] in
/-- The next event of a command that is active leaves the other histories alone. -/
theorem emitLifecycle_next {event : CommandLifecycleEvent} (h : s.active.get? key = some event)
    (hack : event.state ≠ .acknowledged) (now : Time) (target : Option FieldPath)
    {state : CommandLifecycleState} (message : Option String) (hd : state.dispatchable = true) :
    (s.emitLifecycle now key target state message).1.state = state ∧
      (s.emitLifecycle now key target state message).1.key = key ∧
      ∀ k, (s.emitLifecycle now key target state message).2.history k =
        if key = k then s.history k ++ [(s.emitLifecycle now key target state message).1]
        else s.history k := by
  obtain ⟨m, next, hnext, hkey, hstate, -, hsame, hhistory⟩ :=
    s.emitLifecycle_history now key target message hd
  have hm := hsame (mem_purgeExpired h hack now)
  refine ⟨hnext ▸ hstate, hnext ▸ hkey, fun k => ?_⟩
  rw [hhistory k, hm k, hnext]

omit [DecidableEq V] in
/-- Up to its await, `execute` may fail other commands to make room, and records three events. -/
theorem beginExecute_spec (s : Service V) (now : Time) (intent : CommandIntent V) :
    ∃ m accepted queued, (∀ k, Closes Failing k s m) ∧
      accepted.state = .accepted ∧ queued.state = .queued ∧
      (s.beginExecute now intent).1.intent = intent ∧
      (s.beginExecute now intent).1.sentEvent.state = .sent ∧
      (s.beginExecute now intent).1.sentEvent.key = intent.key ∧
      (s.beginExecute now intent).2.active.get? intent.key =
        some (s.beginExecute now intent).1.sentEvent ∧
      ∀ k, (s.beginExecute now intent).2.history k =
        if intent.key = k then
          m.history k ++ [accepted, queued, (s.beginExecute now intent).1.sentEvent]
        else m.history k := by
  obtain ⟨m, accepted, haccepted, -, hstate, hcloses, -, hhistory⟩ :=
    s.emitLifecycle_history now intent.key intent.target none
      (rfl : CommandLifecycleState.accepted.dispatchable = true)
  have hactive := s.emitLifecycle_active now intent.key intent.target none
    (rfl : CommandLifecycleState.accepted.dispatchable = true) (by decide)
  rw [haccepted] at hactive
  obtain ⟨s₁, hs₁⟩ : ∃ s₁, s₁ = (s.emitLifecycle now intent.key intent.target .accepted none).2 :=
    ⟨_, rfl⟩
  rw [← hs₁] at hactive hhistory
  have hq := s₁.recordIntentOverlay_quiet now intent
  have hactive₂ := hq.dropped _ _ hactive (by rw [hstate]; decide)
  obtain ⟨s₂, hs₂⟩ : ∃ s₂, s₂ = s₁.recordIntentOverlay now intent := ⟨_, rfl⟩
  rw [← hs₂] at hq hactive₂
  obtain ⟨hqueued, -, hhistory₃⟩ := emitLifecycle_next hactive₂ (by rw [hstate]; decide) now
    intent.target none (rfl : CommandLifecycleState.queued.dispatchable = true)
  have hactive₃ := s₂.emitLifecycle_active now intent.key intent.target none
    (rfl : CommandLifecycleState.queued.dispatchable = true) (by decide)
  obtain ⟨hsent, hkey, hhistory₄⟩ := emitLifecycle_next hactive₃ (by rw [hqueued]; decide) now
    intent.target none (rfl : CommandLifecycleState.sent.dispatchable = true)
  have hactive₄ := emitLifecycle_active
    (s₂.emitLifecycle now intent.key intent.target .queued none).2 now intent.key intent.target none
    (rfl : CommandLifecycleState.sent.dispatchable = true) (by decide)
  subst hs₂ hs₁
  refine ⟨m, accepted, _, hcloses, hstate, hqueued, rfl, hsent, hkey, hactive₄, fun k => ?_⟩
  refine (hhistory₄ k).trans ?_
  rw [hhistory₃ k, history_congr hq.events k, hhistory k]
  split
  · rw [List.append_assoc, List.append_assoc]
    rfl
  · rfl

omit [DecidableEq V] in
theorem Tracked.beginExecute (h : Tracked [] s) (now : Time) (intent : CommandIntent V) :
    Tracked [] (s.beginExecute now intent).2 :=
  (((h.emitLifecycle now intent.key intent.target .accepted none).quiet
    (recordIntentOverlay_quiet _ now intent)).emitLifecycle now intent.key intent.target .queued
      none).emitLifecycle now intent.key intent.target .sent none

omit [CommandValue V] [DecidableEq V] in
theorem Tracked.failExecution (h : Tracked [] s) (now : Time) (execution : Execution V)
    {state : CommandLifecycleState} (message : Option String)
    (hend : state.dispatchable = false) :
    Tracked [] (s.failExecution now execution state message) := by
  rw [Service.failExecution]
  split
  · exact ((h.quiet (s.expireCommand_quiet _ _ _)).weaken (List.nil_subset _)).emitEnd now _ _ hend
  · exact h

omit [CommandValue V] [DecidableEq V] in
/-- An `except` branch fails the command if it is still the one that was sent. -/
theorem failExecution_closes (h : Tracked [] s) (now : Time) {execution : Execution V}
    (hsent : execution.sentEvent.state = .sent) {state : CommandLifecycleState}
    (message : Option String) (hfail : Failing state) (hend : state.dispatchable = false) :
    Closes Failing key s (s.failExecution now execution state message) := by
  rw [Service.failExecution]
  split
  next hactive =>
    have hopen : s.Open execution.intent.key :=
      ⟨_, h.last _ _ hactive, by rw [hsent]; rfl⟩
    exact (s.expireCommand_quiet _ _ _).closes.trans (emitEnd_closes now _ message hfail hend hopen)
  next => exact .refl s

theorem Tracked.finishExecute (h : Tracked [] s) (now : Time) (execution : Execution V)
    (result : ExecutorEnd V) : Tracked [] (s.finishExecute now execution result).2 := by
  cases result with
  | cancelled => exact h.failExecution now execution _ rfl
  | timedOut text => exact h.failExecution now execution _ rfl
  | raised text => exact h.failExecution now execution _ rfl
  | returned observations =>
      rw [Service.finishExecute]
      dsimp only
      split
      · exact (h.weaken (List.nil_subset _)).failKey now _
      · have happlied := (h.emitLifecycle now execution.intent.key execution.intent.target
          .acknowledged none).applyReturned now execution.providerGeneration observations
        split
        next heq => rw [heq] at happlied; exact happlied
        next heq => rw [heq] at happlied; exact happlied

/-- The service in which an `execute` applies the observations of its executor. -/
def acknowledged (s : Service V) (now : Time) (execution : Execution V) : Service V :=
  (s.emitLifecycle now execution.intent.key execution.intent.target .acknowledged none).2

omit [CommandValue V] [DecidableEq V] in
/-- The acknowledgement is one event of the command. -/
theorem acknowledged_history {execution : Execution V} (now : Time)
    (hsent : execution.sentEvent.state = .sent)
    (hactive : s.active.get? execution.intent.key = some execution.sentEvent) :
    ∃ event : CommandLifecycleEvent, event.state = .acknowledged ∧
      ∀ k, (s.acknowledged now execution).history k =
        if execution.intent.key = k then s.history k ++ [event] else s.history k := by
  obtain ⟨hstate, -, hhistory⟩ := emitLifecycle_next hactive (by rw [hsent]; decide) now
    execution.intent.target none (rfl : CommandLifecycleState.acknowledged.dispatchable = true)
  exact ⟨_, hstate, hhistory⟩

/-- `execute` after its executor returned: the command is failed unless it is still the one that was
sent; otherwise it is acknowledged and the observations are applied. -/
theorem finishExecute_returned (s : Service V) (now : Time) (execution : Execution V)
    (observations : List (CorrelatedObservation V)) :
    (s.active.get? execution.intent.key ≠ some execution.sentEvent ∧
        s.finishExecute now execution (.returned observations) =
          (.invalidated (s.invalidatedMessage execution),
            s.failKey now execution.intent.key (some (s.invalidatedMessage execution)))) ∨
      (s.active.get? execution.intent.key = some execution.sentEvent ∧
        (s.finishExecute now execution (.returned observations)).2 =
          (applyReturned now execution.providerGeneration observations
            (s.acknowledged now execution)).2 ∧
        ((∃ result, (s.finishExecute now execution (.returned observations)).1 = .returned result) ↔
          ∃ changes, (applyReturned now execution.providerGeneration observations
            (s.acknowledged now execution)).1 = .ok changes)) := by
  rw [Service.finishExecute]
  dsimp only
  split
  next hne => exact .inl ⟨hne, rfl⟩
  next heq =>
    refine .inr ⟨not_not.mp heq, ?_⟩
    rw [acknowledged]
    generalize applyReturned now execution.providerGeneration observations _ = applied
    rcases applied with ⟨_ | changes, m⟩
    · exact ⟨rfl, by simp⟩
    · exact ⟨rfl, by simp⟩

end Service

/-! ## The system -/

namespace System

open Service

variable {V : Type} [CommandValue V] [DecidableEq V] {s s' : System V}

/-- The active commands agree with the histories, and every await belongs to a sent event. -/
structure Sound (s : System V) : Prop where
  tracked : Tracked [] s.service
  sent : ∀ number execution, s.awaiting.get? number = some execution →
    execution.sentEvent.state = .sent ∧ execution.sentEvent.key = execution.intent.key

theorem step_execute {now : Time} {intent : CommandIntent V}
    (h : s.step (.execute now intent) = some s') :
    s'.service = (s.service.beginExecute now intent).2 ∧ s'.started = s.started + 1 ∧
      s'.awaiting = s.awaiting.set s.started (s.service.beginExecute now intent).1 ∧
      s'.outcomes = s.outcomes := by
  cases h
  exact ⟨rfl, rfl, rfl, rfl⟩

theorem step_finish {now : Time} {number : Nat} {result : ExecutorEnd V}
    (h : s.step (.finish now number result) = some s') :
    ∃ execution, s.awaiting.get? number = some execution ∧
      s'.service = (s.service.finishExecute now execution result).2 ∧ s'.started = s.started ∧
      s'.awaiting = s.awaiting.erase number ∧
      s'.outcomes =
        s.outcomes.set number (s.service.finishExecute now execution result).1 := by
  obtain ⟨execution, hget, rfl⟩ := Option.map_eq_some_iff.mp h
  exact ⟨execution, hget, rfl, rfl, rfl, rfl⟩

omit [CommandValue V] [DecidableEq V] in
theorem Sound.onService (h : s.Sound) {f : Service V → Service V} (hf : Tracked [] (f s.service)) :
    (s.onService f).Sound := ⟨hf, h.sent⟩

theorem Sound.step {a : Action V} (h : s.Sound) (hs : s.step a = some s') : s'.Sound := by
  cases a with
  | execute now intent =>
      obtain ⟨hservice, -, hawaiting, -⟩ := step_execute hs
      refine ⟨hservice ▸ h.tracked.beginExecute now intent, fun number execution hget => ?_⟩
      obtain ⟨-, -, -, -, -, -, hintent, hsent, hkey, -,
        -⟩ := s.service.beginExecute_spec now intent
      rw [hawaiting, Dict.get?_set] at hget
      split at hget
      · cases hget
        exact ⟨hsent, by rw [hkey, hintent]⟩
      · exact h.sent number execution hget
  | finish now number result =>
      obtain ⟨execution, -, hservice, -, hawaiting, -⟩ := step_finish hs
      refine ⟨hservice ▸ h.tracked.finishExecute now execution result, fun n x hx => ?_⟩
      rw [hawaiting, Dict.get?_erase] at hx
      split at hx
      · cases hx
      · exact h.sent n x hx
  | applyObservation now o =>
      cases hs
      exact h.onService (h.tracked.applyObservation now o)
  | failCommand now commandId source sessionId timedOut message =>
      cases hs
      exact h.onService (h.tracked.failCommand now commandId source sessionId timedOut message)
  | terminateActiveCommands now reason source sessionId =>
      cases hs
      exact h.onService (h.tracked.terminate now reason source sessionId)
  | emitLifecycle now key target state message =>
      cases hs
      exact h.onService (h.tracked.emitLifecycle now key target state message)
  | recordPendingOverlay now overlay =>
      cases hs
      exact h.onService (h.tracked.quiet (recordPendingOverlay_quiet _ now overlay))
  | retainReadbackExpectations now key =>
      cases hs
      exact h.onService (h.tracked.quiet (retainReadbackExpectations_quiet _ now key))
  | discardReadbackExpectations key path =>
      cases hs
      exact h.onService (h.tracked.quiet (.of_eq rfl rfl))
  | expireCommand commandId source sessionId =>
      cases hs
      exact h.onService (h.tracked.quiet (.of_eq rfl rfl))
  | read now =>
      cases hs
      exact h.onService (h.tracked.quiet (purgeExpired_quiet _ now))
  | store op =>
      cases hs
      exact h.onService (h.tracked.quiet (.of_eq rfl rfl))

omit [CommandValue V] [DecidableEq V] in
theorem init_sound (store : Store V) (ttl : Time) (h : 0 ≤ ttl) : (init store ttl h).Sound where
  tracked :=
    { last := fun _ _ he => by cases he
      inFlight := fun _ _ _ hlast => by cases hlast }
  sent := fun _ _ hget => by cases hget

theorem run_sound {store : Store V} {ttl : Time} {h : 0 ≤ ttl} {actions : List (Action V)}
    (hrun : Runs.exec System.step (init store ttl h) actions = some s) : s.Sound :=
  Runs.exec_invariant (fun _ _ _ hi hs => hi.step hs) hrun (init_sound store ttl h)

end System

end Rigplane.CommandService
