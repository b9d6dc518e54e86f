import Rigplane.Commands.CommanderOrder

/-!
# Interference scopes

A scope stops being current in exactly two ways: a step hands the executor a frame of another task,
on a lane that is not only for reads, or lets such a frame past the queue, and the scope is left
(`Disturbs`).  A step disturbs every scope or none of an owner, so the statement is about one scope
among any number of them.
-/

namespace Rigplane.Commands

namespace IcomCommander

variable {χ ρ ε : Type} {s s' : IcomCommander χ ρ ε}

/-- The item that a step hands to the executor. -/
def handed (s s' : IcomCommander χ ρ ε) : Option (QueueItem χ) :=
  match s.running with
  | some _ => none
  | none => s'.running

/-- A step that ends the currency of a scope with the given owner. -/
def Disturbs (scope owner : Nat) (s : IcomCommander χ ρ ε) (event : Event χ ρ ε)
    (s' : IcomCommander χ ρ ε) : Prop :=
  event = .exitScope scope ∨
    (∃ item, s.handed s' = some item ∧ item.priority ∉ readLanes ∧ item.enqueuedBy ≠ owner) ∨
    ∃ enqueuedBy priority, event = .foreignDispatch enqueuedBy priority ∧ priority ∉ readLanes ∧
      enqueuedBy ≠ some owner

/-- The scope with the number is of the owner. -/
def HasScope (scope owner : Nat) (s : IcomCommander χ ρ ε) : Prop :=
  ∃ state, s.interferenceScopes[scope]? = some state ∧ state.owner = owner

/-- The scope with the number is not current. -/
def ScopeEnded (scope : Nat) (s : IcomCommander χ ρ ε) : Prop :=
  ∃ state, s.interferenceScopes[scope]? = some state ∧ state.isCurrent = false

/-! ## What leaves the scopes alone -/

@[simp] theorem settle_scopes (s : IcomCommander χ ρ ε) (future : Nat) (value : Future ρ ε) :
    (s.settle future value).interferenceScopes = s.interferenceScopes := by
  rw [settle]
  split
  · rfl
  · rfl

@[simp] theorem failItem_scopes (s : IcomCommander χ ρ ε) (item : QueueItem χ)
    (failure : Failure ε) :
    (s.failItem item failure).interferenceScopes = s.interferenceScopes :=
  settle_scopes s item.future _

@[simp] theorem forgetKey_scopes (s : IcomCommander χ ρ ε) (key : Option String) (future : Nat) :
    (s.forgetKey key future).interferenceScopes = s.interferenceScopes := by
  cases key with
  | none => rfl
  | some key =>
      rw [forgetKey]
      split
      · rfl
      · rfl

@[simp] theorem leaveItem_scopes (s : IcomCommander χ ρ ε) (item : QueueItem χ) :
    (s.leaveItem item).interferenceScopes = s.interferenceScopes :=
  forgetKey_scopes _ item.key item.future

@[simp] theorem addCall_scopes (s : IcomCommander χ ρ ε) (call : Nat) (state : Call ρ ε) :
    (s.addCall call state).interferenceScopes = s.interferenceScopes := rfl

@[simp] theorem setPhase_scopes (s : IcomCommander χ ρ ε) (worker : Worker χ ρ ε)
    (phase : Phase χ ρ ε) :
    (s.setPhase worker phase).interferenceScopes = s.interferenceScopes := rfl

@[simp] theorem callerGone_scopes (s : IcomCommander χ ρ ε) (request : Request)
    (outcome : Outcome ρ ε) :
    (s.callerGone request outcome).interferenceScopes = s.interferenceScopes := by
  cases outcome with
  | cancelled | lost =>
      rw [callerGone]
      split
      · rfl
      · rw [forgetKey_scopes, settle_scopes]
  | notStarted | dropped | enqueued | returned | timedOut | raised => rfl

@[simp] theorem drain_scopes (items : List (QueueItem χ)) (s : IcomCommander χ ρ ε) :
    (items.foldl drainItem s).interferenceScopes = s.interferenceScopes := by
  induction items generalizing s with
  | nil => rfl
  | cons item rest ih => rw [List.foldl_cons, ih, drainItem, failItem_scopes, leaveItem_scopes]

theorem start_scopes (s : IcomCommander χ ρ ε) :
    s.start.interferenceScopes = s.interferenceScopes := by
  rw [IcomCommander.start]
  split
  · rfl
  · split
    · rfl
    · rfl

theorem stop_scopes (s : IcomCommander χ ρ ε) :
    s.stop.interferenceScopes = s.interferenceScopes := by
  rw [stop_eq, drained]
  split
  · rfl
  · rename_i items _
    exact drain_scopes items _

theorem stopLeaves_scopes {stopper : Nat} (hs' : s.stopLeaves stopper = some s') :
    s'.interferenceScopes = s.interferenceScopes := by
  rw [IcomCommander.stopLeaves] at hs'
  split at hs'
  · cases hs'
  · dsimp only at hs'
    split at hs'
    · cases hs'
      rfl
    · cases hs'
      rfl

theorem send_scopes (s : IcomCommander χ ρ ε) (call task : Nat) (args : SendArgs χ) :
    (s.send call task args).interferenceScopes = s.interferenceScopes := by
  rw [IcomCommander.send]
  split
  · rfl
  split
  · rfl
  · dsimp only
    split
    · rfl
    · rfl

theorem ask_scopes {call : Nat} {asked : Asked} (hs' : s.ask call asked = some s') :
    s'.interferenceScopes = s.interferenceScopes := by
  rw [IcomCommander.ask] at hs'
  split at hs'
  · split at hs'
    · cases hs'
    · cases hs'
      rw [settle_scopes, addCall_scopes]
  · cases hs'

theorem wake_scopes {call : Nat} (hs' : s.wake call = some s') :
    s'.interferenceScopes = s.interferenceScopes := by
  rw [IcomCommander.wake] at hs'
  split at hs'
  · obtain ⟨outcome, -, rfl⟩ := Option.map_eq_some_iff.mp hs'
    rw [callerGone_scopes, addCall_scopes]
  · cases hs'

theorem workerWakes_scopes (hs' : s.workerWakes = some s') :
    s'.interferenceScopes = s.interferenceScopes := by
  obtain ⟨worker, -, ⟨-, -, rfl⟩ | ⟨item, execution, -, settled, next, hsettled, -, -, -, rfl⟩⟩ :=
    workerWakes_cases hs'
  · rfl
  · rw [setPhase_scopes, leaveItem_scopes]
    rcases hsettled with rfl | ⟨value, -, rfl⟩
    · rfl
    · exact settle_scopes s item.future value

/-! ## What a step does to a scope -/

variable {scope owner : Nat}

/-- What a step keeps: the scope, and how it ends. -/
def ScopeStep (scope owner : Nat) (s : IcomCommander χ ρ ε) (event : Event χ ρ ε)
    (s' : IcomCommander χ ρ ε) : Prop :=
  HasScope scope owner s' ∧ (ScopeEnded scope s' ↔ ScopeEnded scope s ∨
    Disturbs scope owner s event s')

/-- A frame is only handed over in a `take`. -/
theorem handed_of_running (hrunning : s'.running = s.running) : s.handed s' = none := by
  rw [handed, hrunning]
  cases s.running <;> rfl

theorem scopeStep_of_same (h : HasScope scope owner s) {event : Event χ ρ ε}
    (hscopes : s'.interferenceScopes = s.interferenceScopes) (hhanded : s.handed s' = none)
    (hexit : event ≠ .exitScope scope)
    (hforeign : ∀ enqueuedBy priority, event ≠ .foreignDispatch enqueuedBy priority) :
    ScopeStep scope owner s event s' := by
  refine ⟨?_, ?_⟩
  · rw [HasScope, hscopes]
    exact h
  · rw [ScopeEnded, hscopes]
    refine (or_iff_left ?_).symm
    rintro (hevent | ⟨item, hitem, -⟩ | ⟨enqueuedBy, priority, hevent, -⟩)
    · exact hexit hevent
    · rw [hhanded] at hitem
      cases hitem
    · exact hforeign enqueuedBy priority hevent

/-- A dispatch marks the scopes of the other tasks, unless it is on a read lane. -/
theorem noteForeignDispatch_scope {state : InterferenceScope}
    (hstate : s.interferenceScopes[scope]? = some state) (enqueuedBy : Option Nat)
    (priority : Int) :
    ∃ state', (s.noteForeignDispatch enqueuedBy priority).interferenceScopes[scope]? = some state' ∧
      state'.owner = state.owner ∧
      (state'.isCurrent = false ↔
        state.isCurrent = false ∨ priority ∉ readLanes ∧ enqueuedBy ≠ some state.owner) := by
  rw [noteForeignDispatch]
  by_cases hlane : priority ∈ readLanes
  · rw [if_pos hlane]
    exact ⟨state, hstate, rfl, (or_iff_left fun hmarks => hmarks.1 hlane).symm⟩
  · rw [if_neg hlane]
    refine ⟨_, by rw [List.getElem?_map, hstate]; rfl, ?_, ?_⟩
    · dsimp only
      split
      · rfl
      · rfl
    · dsimp only
      split
      · rename_i hmarked
        refine ⟨fun _ => .inr ⟨hlane, fun heq => hmarked.2 heq.symm⟩, fun _ => ?_⟩
        rw [InterferenceScope.isCurrent]
        rfl
      · rename_i hunmarked
        refine ⟨.inl, ?_⟩
        rintro (hended | ⟨-, hother⟩)
        · exact hended
        · have hclosed : state.closed = true := by
            by_contra hopen
            exact hunmarked ⟨Bool.not_eq_true _ ▸ hopen, fun heq => hother heq.symm⟩
          rw [InterferenceScope.isCurrent, hclosed, Bool.not_true, Bool.and_false]

theorem scopeEnded_iff {state : InterferenceScope} (h : s.interferenceScopes[scope]? = some state) :
    ScopeEnded scope s ↔ state.isCurrent = false := by
  constructor
  · rintro ⟨state', hstate, hended⟩
    rw [h] at hstate
    cases hstate
    exact hended
  · exact fun hended => ⟨state, h, hended⟩

theorem foreignDispatch_scopeStep (h : HasScope scope owner s) (enqueuedBy : Option Nat)
    (priority : Int) : ScopeStep scope owner s (.foreignDispatch enqueuedBy priority)
      (s.noteForeignDispatch enqueuedBy priority) := by
  obtain ⟨state, hstate, rfl⟩ := h
  obtain ⟨state', hstate', howner, hiff⟩ := noteForeignDispatch_scope hstate enqueuedBy priority
  have hhanded : s.handed (s.noteForeignDispatch enqueuedBy priority) = none :=
    handed_of_running
      (running_of_worker (noteForeignDispatch_sameQueue s enqueuedBy priority).worker)
  refine ⟨⟨state', hstate', howner⟩, ?_⟩
  rw [scopeEnded_iff hstate', scopeEnded_iff hstate, hiff]
  refine or_congr_right ⟨fun hmarks => .inr (.inr ⟨enqueuedBy, priority, rfl, hmarks⟩), ?_⟩
  rintro (hevent | ⟨item, hitem, -⟩ | ⟨enqueuedBy', priority', hevent, hmarks⟩)
  · cases hevent
  · rw [hhanded] at hitem
    cases hitem
  · cases hevent
    exact hmarks

theorem take_scopeStep (h : HasScope scope owner s) (hs' : s.take = some s') :
    ScopeStep scope owner s .take s' := by
  obtain ⟨worker, item, rest, hworker, -, hphase, -, hcases⟩ := take_cases hs'
  have hidle : s.running = none := by
    refine running_of_idle hworker fun other heq => ?_
    rw [hphase] at heq
    cases heq
  rcases hcases with ⟨-, rfl⟩ | ⟨-, rfl⟩
  · have hsame := leaveItem_sameQueue ({ s with queue := some rest } : IcomCommander χ ρ ε) item
    refine scopeStep_of_same h (leaveItem_scopes _ item) (handed_of_running ?_)
      (fun heq => by cases heq) (fun _ _ heq => by cases heq)
    exact running_of_worker hsame.worker
  · obtain ⟨state, hstate, rfl⟩ := h
    obtain ⟨state', hstate', howner, hiff⟩ := noteForeignDispatch_scope
      (s := { s with queue := some rest }) hstate (some item.enqueuedBy) item.priority
    refine ⟨⟨state', hstate', howner⟩, ?_⟩
    rw [scopeEnded_iff (s := setPhase _ _ _) hstate', scopeEnded_iff hstate, hiff]
    -- The frame that is handed over is the one that has marked the scopes
    have hhanded : s.handed ((({ s with queue := some rest } :
      IcomCommander χ ρ ε).noteForeignDispatch
        (some item.enqueuedBy) item.priority).setPhase worker (.executing item none)) =
          some item := by
      rw [handed, hidle]
      rfl
    refine or_congr_right ⟨?_, ?_⟩
    · rintro ⟨hlane, hother⟩
      exact .inr (.inl ⟨item, hhanded, hlane, fun heq => hother (congrArg some heq)⟩)
    · rintro (hevent | ⟨other, hitem, hlane, hother⟩ | ⟨enqueuedBy, priority, hevent, -⟩)
      · cases hevent
      · rw [hhanded] at hitem
        cases hitem
        exact ⟨hlane, fun heq => hother (Option.some.inj heq)⟩
      · cases hevent

theorem exitScope_scopeStep (h : HasScope scope owner s) (exited : Nat) :
    ScopeStep scope owner s (.exitScope exited) (s.exitScope exited) := by
  obtain ⟨state, hstate, rfl⟩ := h
  have hhanded : s.handed (s.exitScope exited) = none := handed_of_running rfl
  have hnow : (s.exitScope exited).interferenceScopes[scope]? =
      some (if exited = scope then { state with closed := true } else state) := by
    rw [IcomCommander.exitScope]
    dsimp only
    rw [List.getElem?_modify, hstate]
    split
    · rfl
    · rfl
  refine ⟨⟨_, hnow, by split <;> rfl⟩, ?_⟩
  rw [scopeEnded_iff hnow, scopeEnded_iff hstate]
  split
  · rename_i heq
    subst heq
    refine ⟨fun _ => .inr (.inl rfl), fun _ => ?_⟩
    rw [InterferenceScope.isCurrent, Bool.not_true, Bool.and_false]
  · rename_i hne
    refine (or_iff_left ?_).symm
    rintro (hevent | ⟨item, hitem, -⟩ | ⟨enqueuedBy, priority, hevent, -⟩)
    · cases hevent
      exact hne rfl
    · rw [hhanded] at hitem
      cases hitem
    · cases hevent

theorem enterScope_scopeStep (h : HasScope scope owner s) (task : Nat) :
    ScopeStep scope owner s (.enterScope task) (s.enterScope task) := by
  obtain ⟨state, hstate, rfl⟩ := h
  have hnow : (s.enterScope task).interferenceScopes[scope]? = some state := by
    rw [IcomCommander.enterScope]
    dsimp only
    rw [List.getElem?_append_left (List.getElem?_eq_some_iff.mp hstate).1]
    exact hstate
  have hhanded : s.handed (s.enterScope task) = none := handed_of_running rfl
  refine ⟨⟨state, hnow, rfl⟩, ?_⟩
  rw [scopeEnded_iff hnow, scopeEnded_iff hstate]
  refine (or_iff_left ?_).symm
  rintro (hevent | ⟨item, hitem, -⟩ | ⟨enqueuedBy, priority, hevent, -⟩)
  · cases hevent
  · rw [hhanded] at hitem
    cases hitem
  · cases hevent

theorem executeEnds_handed {future : Nat} {execution : Execution ρ ε}
    (hs' : s.executeEnds future execution = some s') : s.handed s' = none := by
  obtain ⟨worker, item, hworker, hphase, -, -⟩ := executeEnds_cases hs'
  rw [handed, running_of_phase hworker hphase]

theorem executeEnds_scopes {future : Nat} {execution : Execution ρ ε}
    (hs' : s.executeEnds future execution = some s') :
    s'.interferenceScopes = s.interferenceScopes := by
  obtain ⟨worker, item, -, -, -, rfl⟩ := executeEnds_cases hs'
  rfl

/-- A scope stays, and it stops being current only where a step disturbs it. -/
theorem scopeStep (h : HasScope scope owner s) {event : Event χ ρ ε}
    (hs' : s.step event = some s') :
    ScopeStep scope owner s event s' := by
  cases event with
  | start =>
      cases hs'
      exact scopeStep_of_same h (start_scopes s) (handed_of_running (start_running s))
        (fun heq => by cases heq) (fun _ _ heq => by cases heq)
  | stop =>
      cases hs'
      exact scopeStep_of_same h (stop_scopes s) (handed_of_running (stop_running s))
        (fun heq => by cases heq) (fun _ _ heq => by cases heq)
  | stopLeaves stopper =>
      exact scopeStep_of_same h (stopLeaves_scopes hs') (handed_of_running (stopLeaves_running hs'))
        (fun heq => by cases heq) (fun _ _ heq => by cases heq)
  | send call task args =>
      rw [IcomCommander.step] at hs'
      split at hs'
      · cases hs'
      · cases hs'
        exact scopeStep_of_same h (send_scopes s call task args)
          (handed_of_running (send_running s call task args))
          (fun heq => by cases heq) (fun _ _ heq => by cases heq)
  | timesOut call =>
      exact scopeStep_of_same h (ask_scopes hs')
        (handed_of_running (running_of_worker (ask_sameQueue hs').worker))
        (fun heq => by cases heq) (fun _ _ heq => by cases heq)
  | cancel call =>
      exact scopeStep_of_same h (ask_scopes hs')
        (handed_of_running (running_of_worker (ask_sameQueue hs').worker))
        (fun heq => by cases heq) (fun _ _ heq => by cases heq)
  | wake call =>
      exact scopeStep_of_same h (wake_scopes hs')
        (handed_of_running (running_of_worker (wake_sameQueue hs').worker))
        (fun heq => by cases heq) (fun _ _ heq => by cases heq)
  | take => exact take_scopeStep h hs'
  | executeEnds future execution =>
      exact scopeStep_of_same h (executeEnds_scopes hs') (executeEnds_handed hs')
        (fun heq => by cases heq) (fun _ _ heq => by cases heq)
  | workerWakes =>
      exact scopeStep_of_same h (workerWakes_scopes hs')
        (handed_of_running (workerWakes_running hs'))
        (fun heq => by cases heq) (fun _ _ heq => by cases heq)
  | enterScope task =>
      cases hs'
      exact enterScope_scopeStep h task
  | exitScope exited =>
      cases hs'
      exact exitScope_scopeStep h exited
  | foreignDispatch enqueuedBy priority =>
      cases hs'
      exact foreignDispatch_scopeStep h enqueuedBy priority

end IcomCommander

open IcomCommander

variable {χ ρ ε : Type} {before s : IcomCommander χ ρ ε}

/-- A scope is current until the commander hands its executor, or lets past its queue, a frame of
another task on a lane that is not only for reads, or until it is left: nothing else ends that, and
nothing undoes it. -/
theorem current_until_disturbed {events : List (Event χ ρ ε)} {task : Nat}
    (hs : Runs.exec IcomCommander.step before (.enterScope task :: events) = some s) :
    ∃ state, s.interferenceScopes[before.interferenceScopes.length]? = some state ∧
      state.owner = task ∧ (state.isCurrent = false ↔ Runs.Happens IcomCommander.step
        (Disturbs before.interferenceScopes.length task) (before.enterScope task) events) := by
  obtain ⟨m, hm, hrest⟩ := Runs.exec_cons_eq_some.mp hs
  cases hm
  have hnow : (before.enterScope task).interferenceScopes[before.interferenceScopes.length]? =
      some { owner := task } := List.getElem?_concat_length
  have hinitial : HasScope before.interferenceScopes.length task (before.enterScope task) :=
    ⟨_, hnow, rfl⟩
  have hlatch : ∀ (m : IcomCommander χ ρ ε) event m',
      HasScope before.interferenceScopes.length task m → m.step event = some m' →
        ScopeStep before.interferenceScopes.length task m event m' :=
    fun m event m' hm hstep => scopeStep hm hstep
  obtain ⟨state, hstate, howner⟩ :=
    Runs.exec_invariant (fun m event m' hm hstep => (hlatch m event m' hm hstep).1) hrest hinitial
  refine ⟨state, hstate, howner, ?_⟩
  have hiff := Runs.exec_latch hlatch hrest hinitial
  rw [scopeEnded_iff hstate, scopeEnded_iff hnow] at hiff
  rw [hiff]
  exact or_iff_right fun hended => by cases hended

/-- The owner of a scope and a poll of another task send a frame each, and then
a third task does. -/
def setInterrupted : List (Event Unit Nat Unit) :=
  [.send 0 7 { payload := [0] }, .take, .executeEnds 1 (.returned 0), .workerWakes,
    .send 1 8 { payload := [1], priority := .background, waitDispatch := false },
    .take, .executeEnds 2 (.returned 1), .workerWakes, .send 2 9 { payload := [2] }, .take]

theorem current_until_disturbed_setInterrupted :
    ∃ s, Runs.exec IcomCommander.step (IcomCommander.start {}) (.enterScope 7 :: setInterrupted) =
      some s ∧ ∃ state, s.interferenceScopes[0]? = some state ∧ state.owner = 7 ∧
        (state.isCurrent = false ↔ Runs.Happens IcomCommander.step (Disturbs 0 7)
          ((IcomCommander.start {}).enterScope 7) setInterrupted) := by
  have hs := Option.some_get (show (Runs.exec IcomCommander.step (IcomCommander.start {})
    (.enterScope 7 :: setInterrupted)).isSome = true from rfl)
  exact ⟨_, hs.symm, current_until_disturbed hs.symm⟩

end Rigplane.Commands
