import Rigplane.CommandService.Service

/-!
# What the operations do to the history of a command

The history of a key is the events recorded for it.  An operation is silent (`Quiet`), or closes
histories that are open (`Closes`), or is one of the few that say more: the emission of a
dispatchable state, and the reconciliation of an observation.

`Tracked` ties the active commands to the histories: the event that is active is the last one of its
key, and a command that is accepted, queued or sent is active.  The keys of `pending` are exempt
from the second part, which is how the loops that take a command out before they fail it are
described.
-/

namespace Rigplane.CommandService

open StatePipeline StateStore PyValue

namespace Service

variable {V : Type} {s s' s'' : Service V}

/-! ## Histories -/

/-- The events of a command. -/
def history (s : Service V) (key : CommandKey) : List CommandLifecycleEvent :=
  s.events.filter fun event => decide (event.key = key)

/-- The last event of a command. -/
def lastOf (s : Service V) (key : CommandKey) : Option CommandLifecycleEvent :=
  (s.history key).getLast?

/-- The command has a history, and its last event ends nothing. -/
def Open (s : Service V) (key : CommandKey) : Prop :=
  ∃ event ∈ s.lastOf key, event.state.dispatchable = true

instance (s : Service V) (key : CommandKey) : Decidable (s.Open key) :=
  inferInstanceAs (Decidable (∃ event ∈ s.lastOf key, event.state.dispatchable = true))

theorem history_congr (h : s'.events = s.events) (key : CommandKey) :
    s'.history key = s.history key := by
  rw [history, history, h]

theorem lastOf_congr (h : s'.history key = s.history key) : s'.lastOf key = s.lastOf key := by
  rw [lastOf, lastOf, h]

theorem selects_key (key key' : CommandKey) :
    Selects key.commandId (some key.source) (some key.sessionId) key' = decide (key' = key) := by
  obtain ⟨source, sessionId, commandId⟩ := key
  obtain ⟨source', sessionId', commandId'⟩ := key'
  refine Bool.eq_iff_iff.mpr ?_
  simp only [Selects, Bool.and_eq_true, Bool.or_eq_true, beq_iff_eq, decide_eq_true_eq,
    CommandKey.mk.injEq, reduceCtorEq, false_or, Option.some.injEq]
  constructor
  · rintro ⟨⟨hc, hs⟩, hi⟩
    exact ⟨hs.symm, hi.symm, hc⟩
  · rintro ⟨hs, hi, hc⟩
    exact ⟨⟨hc, hs.symm⟩, hi.symm⟩

theorem lastEvent_key (s : Service V) (key : CommandKey) :
    s.lastEvent key.commandId (some key.source) (some key.sessionId) = s.lastOf key := by
  rw [lastEvent, lastOf, history, List.getLast?_filter]
  congr 1
  funext event
  exact selects_key key event.key

/-- What `_last_event` finds is the last event of its own key. -/
theorem lastOf_of_lastEvent {commandId : String} {source : Option String}
    {sessionId : Option (Option String)} {event : CommandLifecycleEvent}
    (h : s.lastEvent commandId source sessionId = some event) :
    s.lastOf event.key = some event ∧ Selects commandId source sessionId event.key = true := by
  rw [lastEvent, List.find?_eq_some_iff_append] at h
  obtain ⟨hsel, later, earlier, hevents, hlater⟩ := h
  refine ⟨?_, hsel⟩
  rw [lastOf, history, List.getLast?_filter, List.find?_eq_some_iff_append]
  refine ⟨decide_eq_true rfl, later, earlier, hevents, fun e he => ?_⟩
  have hne : e.key ≠ event.key := by
    intro heq
    have hnot := hlater e he
    rw [heq, hsel] at hnot
    cases hnot
  simpa using hne

/-- A selected key is the one that `fail_command` puts together. -/
theorem key_of_selects {commandId : String} {source : Option String}
    {sessionId : Option (Option String)} {key : CommandKey}
    (h : Selects commandId source sessionId key = true) :
    (⟨source.getD key.source, sessionId.getD key.sessionId, commandId⟩ : CommandKey) = key := by
  obtain ⟨source', sessionId', commandId'⟩ := key
  rw [Selects, Bool.and_eq_true, Bool.and_eq_true] at h
  obtain ⟨⟨hid, hsource⟩, hsession⟩ := h
  have hid' : commandId' = commandId := by simpa using hid
  have hsource' : source.getD source' = source' := by
    cases source with
    | none => rfl
    | some x => simpa using hsource
  have hsession' : sessionId.getD sessionId' = sessionId' := by
    cases sessionId with
    | none => rfl
    | some x => simpa using hsession
  subst hid'
  exact CommandKey.mk.injEq .. ▸ ⟨hsource', hsession', rfl⟩

/-! ## Silent operations -/

/-- Nothing is recorded, and of the active commands only acknowledged ones are dropped. -/
structure Quiet (s s' : Service V) : Prop where
  events : s'.events = s.events
  kept : ∀ key event, s'.active.get? key = some event → s.active.get? key = some event
  dropped : ∀ key event, s.active.get? key = some event → event.state ≠ .acknowledged →
    s'.active.get? key = some event

theorem Quiet.of_eq (hevents : s'.events = s.events) (hactive : s'.active = s.active) :
    Quiet s s' where
  events := hevents
  kept _ _ h := hactive ▸ h
  dropped _ _ h _ := hactive ▸ h

theorem Quiet.refl (s : Service V) : Quiet s s := .of_eq rfl rfl

theorem Quiet.trans (h : Quiet s s') (h' : Quiet s' s'') : Quiet s s'' where
  events := h'.events.trans h.events
  kept key event he := h.kept key event (h'.kept key event he)
  dropped key event he hne := h'.dropped key event (h.dropped key event he hne) hne

theorem purgeExpired_quiet (s : Service V) (now : Time) : Quiet s (s.purgeExpired now) where
  events := rfl
  kept key event h := (Dict.get?_filter.mp h).1
  dropped key event h hne := by
    refine Dict.get?_filter.mpr ⟨h, ?_⟩
    simp [hne]

theorem expireCommand_quiet (s : Service V) (commandId : String) (source : Option String)
    (sessionId : Option (Option String)) : Quiet s (s.expireCommand commandId source sessionId) :=
  .of_eq rfl rfl

theorem recordPendingOverlay_quiet (s : Service V) (now : Time) (overlay : PendingOverlay V) :
    Quiet s (s.recordPendingOverlay now overlay) :=
  (s.purgeExpired_quiet now).trans (.of_eq rfl rfl)

theorem recordReadbackExpectation_quiet (s : Service V) (now : Time) (overlay : PendingOverlay V) :
    Quiet s (s.recordReadbackExpectation now overlay) :=
  (s.purgeExpired_quiet now).trans (.of_eq rfl rfl)

theorem retainReadbackExpectations_quiet (s : Service V) (now : Time) (key : CommandKey) :
    Quiet s (s.retainReadbackExpectationsForDispatch now key).2 := by
  rw [retainReadbackExpectationsForDispatch]
  split
  · exact .refl s
  · split
    · exact .refl s
    · exact (s.purgeExpired_quiet now).trans (.of_eq rfl rfl)

/-! ## Recording an event -/

/-- `history` of a service with one more event. -/
theorem history_append {event : CommandLifecycleEvent} (h : s'.events = s.events ++ [event])
    (key : CommandKey) :
    s'.history key = if event.key = key then s.history key ++ [event] else s.history key := by
  rw [history, h, List.filter_append, List.filter_singleton]
  split
  next heq =>
    rw [decide_eq_true heq]
    rfl
  next hne =>
    rw [decide_eq_false hne, cond_false, List.append_nil]
    rfl

theorem lastOf_append {event : CommandLifecycleEvent} (h : s'.events = s.events ++ [event])
    (key : CommandKey) :
    s'.lastOf key = if event.key = key then some event else s.lastOf key := by
  rw [lastOf, history_append h]
  split
  · exact List.getLast?_concat
  · rfl

/-- A command of which nothing is recorded has no last event. -/
theorem lastOf_eq_none {key : CommandKey} (h : s.history key = []) : s.lastOf key = none := by
  rw [lastOf, h]
  rfl

theorem mem_history_of_lastOf {key : CommandKey} {event : CommandLifecycleEvent}
    (h : s.lastOf key = some event) : event ∈ s.history key := List.mem_of_getLast? h

theorem key_of_lastOf {key : CommandKey} {event : CommandLifecycleEvent}
    (h : s.lastOf key = some event) : event.key = key :=
  of_decide_eq_true (List.mem_filter.mp (mem_history_of_lastOf h)).2

theorem emitEnd_events (s : Service V) (now : Time) (key : CommandKey) (target : Option FieldPath)
    (state : CommandLifecycleState) (message : Option String) :
    (s.emitEnd now key target state message).events =
      s.events ++ [s.newEvent now key target state message] := rfl

theorem emitEnd_history (s : Service V) (now : Time) (key : CommandKey) (target : Option FieldPath)
    (state : CommandLifecycleState) (message : Option String) (k : CommandKey) :
    (s.emitEnd now key target state message).history k =
      if key = k then s.history k ++ [s.newEvent now key target state message] else s.history k :=
  history_append (s.emitEnd_events now key target state message) k

/-! ## Closing histories -/

/-- The history of the key is as it was, or it was open and one event of an
allowed state ended it. -/
def Closes (ends : CommandLifecycleState → Prop) (key : CommandKey) (s s' : Service V) : Prop :=
  s'.history key = s.history key ∨
    ∃ event, ends event.state ∧ event.state.dispatchable = false ∧ s.Open key ∧
      s'.history key = s.history key ++ [event]

/-- The two states of a failed command. -/
def Failing (state : CommandLifecycleState) : Prop := state = .failed ∨ state = .timedOut

instance : DecidablePred Failing := fun state =>
  inferInstanceAs (Decidable (state = .failed ∨ state = .timedOut))

variable {ends : CommandLifecycleState → Prop} {key : CommandKey}

theorem Closes.refl (s : Service V) : Closes ends key s s := .inl rfl

theorem Quiet.closes (h : Quiet s s') : Closes ends key s s' := .inl (history_congr h.events key)

theorem Open.congr (h : s'.history key = s.history key) : s'.Open key ↔ s.Open key := by
  rw [Open, Open, lastOf_congr h]

/-- An end is not followed by another one. -/
theorem Closes.trans (h : Closes ends key s s') (h' : Closes ends key s' s'') :
    Closes ends key s s'' := by
  rcases h with heq | ⟨event, hends, hend, hopen, heq⟩
  · rcases h' with heq' | ⟨event, hends, hend, hopen, heq'⟩
    · exact .inl (heq'.trans heq)
    · exact .inr ⟨event, hends, hend, (Open.congr heq).mp hopen, by rw [heq', heq]⟩
  · rcases h' with heq' | ⟨event', -, -, ⟨last, hlast, hdisp⟩, -⟩
    · exact .inr ⟨event, hends, hend, hopen, heq'.trans heq⟩
    · rw [lastOf, heq, List.getLast?_concat] at hlast
      cases hlast
      rw [hend] at hdisp
      cases hdisp

theorem Closes.mono {ends' : CommandLifecycleState → Prop}
    (himp : ∀ state, ends state → ends' state)
    (h : Closes ends key s s') : Closes ends' key s s' := by
  rcases h with heq | ⟨event, hends, hrest⟩
  · exact .inl heq
  · exact .inr ⟨event, himp _ hends, hrest⟩

/-- The end of an open command, or of another key, closes. -/
theorem emitEnd_closes (now : Time) {key' : CommandKey} (target : Option FieldPath)
    {state : CommandLifecycleState} (message : Option String) (hends : ends state)
    (hend : state.dispatchable = false) (hopen : s.Open key') :
    Closes ends key s (s.emitEnd now key' target state message) := by
  have hhistory := s.emitEnd_history now key' target state message key
  split at hhistory
  next heq => exact .inr ⟨_, hends, hend, heq ▸ hopen, hhistory⟩
  next => exact .inl hhistory

/-- What `fail_command` does: nothing, or it ends the command whose last event it found. -/
theorem failCommand_cases (s : Service V) (now : Time) (commandId : String)
    (source : Option String) (sessionId : Option (Option String)) (timedOut : Bool)
    (message : Option String) :
    (s.failCommand now commandId source sessionId timedOut message = s ∧
        ∀ event ∈ s.lastEvent commandId source sessionId, event.state.dispatchable = false) ∨
      ∃ event, s.lastEvent commandId source sessionId = some event ∧
        event.state.dispatchable = true ∧
        s.failCommand now commandId source sessionId timedOut message =
          (s.expireCommand event.key.commandId (some event.key.source)
            (some event.key.sessionId)).emitEnd now event.key event.target
              (if timedOut then .timedOut else .failed) message := by
  cases hlast : s.lastEvent commandId source sessionId with
  | none => exact .inl ⟨by rw [failCommand, hlast], fun event h => by cases h⟩
  | some event =>
      rw [failCommand, hlast]
      cases hdisp : event.state.dispatchable with
      | false => exact .inl ⟨by simp [hdisp], fun e h => by cases h; exact hdisp⟩
      | true =>
          refine .inr ⟨event, rfl, hdisp, ?_⟩
          have hkey := key_of_selects (lastOf_of_lastEvent hlast).2
          have hsource := congrArg CommandKey.source hkey
          have hsession := congrArg CommandKey.sessionId hkey
          have hid : commandId = event.key.commandId := congrArg CommandKey.commandId hkey
          subst hid
          dsimp only at hsource hsession ⊢
          rw [hdisp, hsource, hsession]
          rfl

theorem failing_of_flag (timedOut : Bool) :
    Failing (if timedOut then .timedOut else .failed) ∧
      (if timedOut then CommandLifecycleState.timedOut else .failed).dispatchable = false := by
  cases timedOut <;> exact ⟨by decide, rfl⟩

theorem failCommand_closes (s : Service V) (now : Time) (commandId : String)
    (source : Option String) (sessionId : Option (Option String)) (timedOut : Bool)
    (message : Option String) :
    Closes Failing key s (s.failCommand now commandId source sessionId timedOut message) := by
  rcases s.failCommand_cases now commandId source sessionId timedOut message with
    ⟨heq, -⟩ | ⟨event, hlast, hdisp, heq⟩
  · rw [heq]
    exact .refl s
  · rw [heq]
    have hopen : (s.expireCommand event.key.commandId (some event.key.source)
        (some event.key.sessionId)).Open event.key :=
      ⟨event, (lastOf_of_lastEvent hlast).1, hdisp⟩
    exact (s.expireCommand_quiet _ _ _).closes.trans
      (emitEnd_closes now _ message (failing_of_flag timedOut).1 (failing_of_flag timedOut).2 hopen)

theorem failEach_closes (now : Time) (reason : String) (keys : List CommandKey) (s : Service V) :
    Closes Failing key s (failEach now reason keys s) := by
  induction keys generalizing s with
  | nil => exact .refl s
  | cons key' rest ih => exact (failCommand_closes s now _ _ _ _ _).trans (ih _)

/-- Taking a command out records nothing. -/
theorem erase_closes (s : Service V) (key' : CommandKey) :
    Closes ends key s { s with active := s.active.erase key' } := .inl rfl

theorem makeRoom_closes (now : Time) (key' : CommandKey) (fuel : Nat) (s : Service V) :
    Closes Failing key s (makeRoom now key' fuel s) := by
  induction fuel generalizing s with
  | zero => exact .refl s
  | succ fuel ih =>
      rw [makeRoom]
      split
      · exact .refl s
      · split
        · exact (erase_closes s _).trans (ih _)
        · split
          · exact .refl s
          · exact ((erase_closes s _).trans (failCommand_closes _ now _ _ _ _ _)).trans (ih _)

/-- `terminate_active_commands` closes the histories of the commands it ends. -/
theorem terminateActiveCommands_closes (s : Service V) (now : Time) (reason : String)
    (source : Option String) (sessionId : Option (Option String)) :
    Closes Failing key s (s.terminateActiveCommands now reason source sessionId) :=
  (Closes.refl s).trans (failEach_closes now reason _
    { s with active := s.active.filter fun k _ => decide (k ∉ s.terminated source sessionId) })

end Service

end Rigplane.CommandService
