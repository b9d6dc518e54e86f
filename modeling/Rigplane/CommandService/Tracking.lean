import Rigplane.CommandService.Lifecycle

/-!
# The active commands and the histories

`Tracked` is kept by every operation, one lemma for each, and `run_tracked` carries it through a
run.
-/

namespace Rigplane.CommandService

open StatePipeline StateStore PyValue

namespace Service

variable {V : Type} {s s' : Service V} {pending : List CommandKey} {key : CommandKey}

/-- The active commands agree with the histories, but for the keys of `pending`. -/
structure Tracked (pending : List CommandKey) (s : Service V) : Prop where
  last : ∀ key event, s.active.get? key = some event → s.lastOf key = some event
  inFlight : ∀ key event, key ∉ pending → s.lastOf key = some event →
    event.state.dispatchable = true → event.state ≠ .acknowledged →
    s.active.get? key = some event

theorem Tracked.quiet (h : Tracked pending s) (hq : Quiet s s') : Tracked pending s' where
  last key event he := by
    rw [lastOf_congr (history_congr hq.events key)]
    exact h.last key event (hq.kept key event he)
  inFlight key event hkey hlast hdisp hack := by
    rw [lastOf_congr (history_congr hq.events key)] at hlast
    exact hq.dropped key event (h.inFlight key event hkey hlast hdisp hack) hack

theorem Tracked.weaken {pending' : List CommandKey} (h : Tracked pending s)
    (hsub : pending ⊆ pending') : Tracked pending' s where
  last := h.last
  inFlight key event hkey := h.inFlight key event fun hmem => hkey (hsub hmem)

/-- A command that is taken out is left to be failed. -/
theorem Tracked.erase (h : Tracked pending s) (key : CommandKey) :
    Tracked (key :: pending) { s with active := s.active.erase key } where
  last k event he := by
    rw [Dict.get?_erase] at he
    split at he
    · cases he
    · exact h.last k event he
  inFlight k event hk hlast hdisp hack := by
    rw [List.mem_cons, not_or] at hk
    rw [Dict.get?_erase, if_neg hk.1]
    exact h.inFlight k event hk.2 hlast hdisp hack

/-- An end takes the command out of the active ones. -/
theorem Tracked.emitEnd (h : Tracked (key :: pending) s) (now : Time) (target : Option FieldPath)
    {state : CommandLifecycleState} (message : Option String)
    (hend : state.dispatchable = false) :
    Tracked pending (s.emitEnd now key target state message) := by
  have hp := h.quiet (s.purgeExpired_quiet now)
  have hlastOf (k : CommandKey) : (s.emitEnd now key target state message).lastOf k =
      if key = k then some (s.newEvent now key target state message) else s.lastOf k :=
    lastOf_append (s.emitEnd_events now key target state message) k
  have hactive (k : CommandKey) : (s.emitEnd now key target state message).active.get? k =
      if k = key then none else (s.purgeExpired now).active.get? k := Dict.get?_erase _ _ _
  constructor
  · intro k event he
    rw [hactive] at he
    split at he
    · cases he
    next hne =>
      rw [hlastOf, if_neg (Ne.symm hne)]
      exact hp.last k event he
  · intro k event hk hlast hdisp hack
    rw [hlastOf] at hlast
    split at hlast
    next heq =>
      cases hlast
      have hdisp' : state.dispatchable = true := hdisp
      rw [hend] at hdisp'
      cases hdisp'
    next hne =>
      have hne' : k ≠ key := fun heq => hne heq.symm
      rw [hactive, if_neg hne']
      refine hp.inFlight k event ?_ hlast hdisp hack
      rw [List.mem_cons, not_or]
      exact ⟨hne', hk⟩

theorem Tracked.failCommand (h : Tracked pending s) (now : Time) (commandId : String)
    (source : Option String) (sessionId : Option (Option String)) (timedOut : Bool)
    (message : Option String) :
    Tracked pending (s.failCommand now commandId source sessionId timedOut message) := by
  rcases s.failCommand_cases now commandId source sessionId timedOut message with
    ⟨heq, -⟩ | ⟨event, -, -, heq⟩
  · rw [heq]
    exact h
  · rw [heq]
    exact ((h.quiet (s.expireCommand_quiet _ _ _)).weaken
      (List.subset_cons_self _ _)).emitEnd now _ _
      (failing_of_flag timedOut).2

/-- A command that was taken out is in order once `fail_command` has seen it. -/
theorem Tracked.failKey (h : Tracked (key :: pending) s) (now : Time) (message : Option String) :
    Tracked pending (s.failKey now key message) := by
  rcases s.failCommand_cases now key.commandId (some key.source) (some key.sessionId) false message
    with ⟨heq, hnot⟩ | ⟨event, hlast, -, heq⟩
  · rw [Service.failKey, heq]
    refine ⟨h.last, fun k event hk hlast hdisp hack => ?_⟩
    rcases eq_or_ne k key with rfl | hne
    · rw [← lastEvent_key] at hlast
      rw [hnot event hlast] at hdisp
      cases hdisp
    · refine h.inFlight k event ?_ hlast hdisp hack
      rw [List.mem_cons, not_or]
      exact ⟨hne, hk⟩
  · rw [Service.failKey, heq]
    have hkey : event.key = key := key_of_lastOf ((s.lastEvent_key key) ▸ hlast)
    rw [hkey]
    exact (h.quiet (s.expireCommand_quiet _ _ _)).emitEnd now _ _ rfl

theorem Tracked.failEach (now : Time) (reason : String) (keys : List CommandKey)
    (h : Tracked (keys ++ pending) s) : Tracked pending (failEach now reason keys s) := by
  induction keys generalizing s with
  | nil => exact h
  | cons key rest ih => exact ih (h.failKey now _)

theorem Tracked.terminate (h : Tracked [] s) (now : Time) (reason : String)
    (source : Option String) (sessionId : Option (Option String)) :
    Tracked [] (s.terminateActiveCommands now reason source sessionId) := by
  refine Tracked.failEach now reason _ ?_
  constructor
  · intro k event he
    exact h.last k event (Dict.get?_filter.mp he).1
  · intro k event hk hlast hdisp hack
    rw [List.append_nil] at hk
    exact Dict.get?_filter.mpr
      ⟨h.inFlight k event List.not_mem_nil hlast hdisp hack, decide_eq_true hk⟩

/-- Taking an acknowledged command out is silent. -/
theorem erase_quiet {oldest : CommandKey} {event : CommandLifecycleEvent}
    (h : s.active.get? oldest = some event) (hack : event.state = .acknowledged) :
    Quiet s { s with active := s.active.erase oldest } where
  events := rfl
  kept k e he := by
    rw [Dict.get?_erase] at he
    split at he
    · cases he
    · exact he
  dropped k e he hne := by
    rw [Dict.get?_erase]
    split
    next heq =>
      subst heq
      rw [h] at he
      cases he
      exact absurd hack hne
    next => exact he

/-- What the loop that makes room does with the command it takes out. -/
theorem makeRoom_succ (now : Time) (key : CommandKey) (fuel : Nat) (s : Service V) :
    (makeRoom now key (fuel + 1) s = s ∧
        (key ∈ s.active.keys ∨ s.active.items.length < maxActiveCommands)) ∨
      (∃ oldest event, s.active.get? oldest = some event ∧ event.state = .acknowledged ∧
        makeRoom now key (fuel + 1) s =
          makeRoom now key fuel { s with active := s.active.erase oldest }) ∨
      ∃ oldest event, s.active.get? oldest = some event ∧
        makeRoom now key (fuel + 1) s =
          makeRoom now key fuel ({ s with active := s.active.erase oldest }.failKey now oldest
            (some "active command capacity exceeded")) := by
  rw [makeRoom]
  split
  next hroom => exact .inl ⟨rfl, hroom⟩
  next hroom =>
    split
    next oldest event hfind =>
      have hack : event.state = .acknowledged := by simpa using List.find?_some hfind
      exact .inr (.inl ⟨oldest, event, Dict.mem_items.mp (List.mem_of_find?_eq_some hfind),
        hack, rfl⟩)
    next =>
      split
      next hnil =>
        refine absurd (.inr ?_) hroom
        rw [hnil]
        decide
      next oldest event rest hitems =>
        refine .inr (.inr ⟨oldest, event, Dict.mem_items.mp ?_, rfl⟩)
        rw [hitems]
        exact List.mem_cons_self

theorem Tracked.makeRoom (now : Time) (key : CommandKey) (fuel : Nat) (h : Tracked pending s) :
    Tracked pending (makeRoom now key fuel s) := by
  induction fuel generalizing s with
  | zero => exact h
  | succ fuel ih =>
      rcases makeRoom_succ now key fuel s with ⟨heq, -⟩ | ⟨oldest, event, he, hack, heq⟩ |
        ⟨oldest, event, -, heq⟩
      · rw [heq]
        exact h
      · rw [heq]
        exact ih (h.quiet (erase_quiet he hack))
      · rw [heq]
        exact ih ((h.erase oldest).failKey now _)

/-! ## Emission of a dispatchable state -/

/-- `emit_lifecycle` of a dispatchable state: room is made, the event becomes the active one, and it
is recorded, for an acknowledgement after another purge. -/
theorem emitLifecycle_eq (s : Service V) (now : Time) (key : CommandKey)
    (target : Option FieldPath) {state : CommandLifecycleState} (message : Option String)
    (hd : state.dispatchable = true) :
    ∃ m p q event, m = makeRoom now key (s.purgeExpired now).active.items.length
      (s.purgeExpired now) ∧
      event = m.newEvent now key target state message ∧
      p = { m with active := m.active.set key event } ∧ (q = p ∨ q = p.purgeExpired now) ∧
      s.emitLifecycle now key target state message =
        (event, { q with events := q.events ++ [event] }) := by
  obtain ⟨m, hm⟩ : ∃ m, m = makeRoom now key (s.purgeExpired now).active.items.length
      (s.purgeExpired now) := ⟨_, rfl⟩
  obtain ⟨p, hp⟩ : ∃ p : Service V, p = { m with
      active := m.active.set key (m.newEvent now key target state message) } := ⟨_, rfl⟩
  refine ⟨m, p, if state = .acknowledged then p.purgeExpired now else p, _, hm, rfl, hp, ?_, ?_⟩
  · split
    · exact .inr rfl
    · exact .inl rfl
  · rw [emitLifecycle, if_pos hd, hp, hm]

theorem emitLifecycle_spec (s : Service V) (now : Time) (key : CommandKey)
    (target : Option FieldPath) {state : CommandLifecycleState} (message : Option String)
    (hd : state.dispatchable = true) :
    ∃ m q event, m = makeRoom now key (s.purgeExpired now).active.items.length
      (s.purgeExpired now) ∧
      event = m.newEvent now key target state message ∧
      Quiet { m with active := m.active.set key event } q ∧
      s.emitLifecycle now key target state message =
        (event, { q with events := q.events ++ [event] }) := by
  obtain ⟨m, p, q, event, hm, hevent, rfl, hq, heq⟩ := s.emitLifecycle_eq now key target message hd
  refine ⟨m, q, event, hm, hevent, ?_, heq⟩
  rcases hq with rfl | rfl
  · exact .refl _
  · exact purgeExpired_quiet _ now

theorem Tracked.emitLifecycle (h : Tracked [] s) (now : Time) (key : CommandKey)
    (target : Option FieldPath) (state : CommandLifecycleState) (message : Option String) :
    Tracked [] (s.emitLifecycle now key target state message).2 := by
  cases hd : state.dispatchable with
  | false =>
      rw [Service.emitLifecycle, if_neg (by rw [hd]; decide)]
      exact (h.weaken (List.nil_subset _)).emitEnd now target message hd
  | true =>
      obtain ⟨m, q, event, hm, hevent, hq, heq⟩ := s.emitLifecycle_spec now key target message hd
      have htracked : Tracked [] m := by
        rw [hm]
        exact (h.quiet (s.purgeExpired_quiet now)).makeRoom now key _
      have hkey : event.key = key := by rw [hevent]; rfl
      rw [heq]
      have hlastOf (k : CommandKey) :
          ({ q with events := q.events ++ [event] } : Service V).lastOf k =
            if event.key = k then some event else m.lastOf k := by
        rw [lastOf_append rfl, lastOf_congr (history_congr hq.events k)]
        rfl
      constructor
      · intro k e he
        have hset := hq.kept k e he
        rw [hlastOf, hkey]
        rw [Dict.get?_set] at hset
        split at hset
        next hk =>
          rw [if_pos hk.symm]
          exact hset
        next hk =>
          rw [if_neg (Ne.symm hk)]
          exact htracked.last k e hset
      · intro k e hk hlast hdisp hack
        rw [hlastOf, hkey] at hlast
        refine hq.dropped k e ?_ hack
        rw [Dict.get?_set]
        split at hlast
        next heq' =>
          rw [if_pos heq'.symm]
          exact hlast
        next hne =>
          rw [if_neg (Ne.symm hne)]
          exact htracked.inFlight k e hk hlast hdisp hack

/-- No room is made for a command that is active. -/
theorem makeRoom_of_mem (now : Time) {key : CommandKey} (fuel : Nat) (h : key ∈ s.active.keys) :
    makeRoom now key fuel s = s := by
  cases fuel with
  | zero => rfl
  | succ fuel => rw [makeRoom, if_pos (.inl h)]

/-- The emission for a key may fail other commands to make room, and records one event. -/
theorem emitLifecycle_history (s : Service V) (now : Time) (key : CommandKey)
    (target : Option FieldPath) {state : CommandLifecycleState} (message : Option String)
    (hd : state.dispatchable = true) :
    ∃ m event, (s.emitLifecycle now key target state message).1 = event ∧
      event.key = key ∧ event.state = state ∧
      (∀ k, Closes Failing k s m) ∧
      (key ∈ (s.purgeExpired now).active.keys → ∀ k, m.history k = s.history k) ∧
      ∀ k, (s.emitLifecycle now key target state message).2.history k =
        if key = k then m.history k ++ [event] else m.history k := by
  obtain ⟨m, q, event, hm, hevent, hq, heq⟩ := s.emitLifecycle_spec now key target message hd
  have hkey : event.key = key := by rw [hevent]; rfl
  refine ⟨m, event, by rw [heq], hkey, by rw [hevent]; rfl, fun k => ?_, fun hmem k => ?_,
    fun k => ?_⟩
  · rw [hm]
    exact (s.purgeExpired_quiet now).closes.trans (makeRoom_closes now key _ _)
  · rw [hm, makeRoom_of_mem now _ hmem]
    rfl
  · rw [heq, history_append rfl, history_congr hq.events k, hkey]
    rfl

/-- The event of a command that is not acknowledged becomes the active one. -/
theorem emitLifecycle_active (s : Service V) (now : Time) (key : CommandKey)
    (target : Option FieldPath) {state : CommandLifecycleState} (message : Option String)
    (hd : state.dispatchable = true) (hack : state ≠ .acknowledged) :
    (s.emitLifecycle now key target state message).2.active.get? key =
      some (s.emitLifecycle now key target state message).1 := by
  obtain ⟨m, q, event, hm, hevent, hq, heq⟩ := s.emitLifecycle_spec now key target message hd
  rw [heq]
  refine hq.dropped key event (Dict.get?_set_self _ _ _) ?_
  rw [hevent]
  exact hack

end Service

end Rigplane.CommandService
