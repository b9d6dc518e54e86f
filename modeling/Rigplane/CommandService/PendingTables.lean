import Rigplane.CommandService.LifecycleOrder

/-!
# The tables of the command service

The active commands and the readback expectations are bounded.  A command that failed or timed out
leaves no overlay and no expectation behind, since `fail_command` and the `except` branches of
`execute` expire them before they record the failure; only a caller of `record_pending_overlay` can
add one afterwards.  An observation removes what it matches and what has expired, and an overlay is
projected to the source and session it was recorded under.
-/

namespace Rigplane.CommandService

open StatePipeline StateStore PyValue Runs

namespace Service

variable {V : Type} {s s' s'' : Service V} {key : CommandKey}

/-! ## Operations that add nothing -/

/-- No table grows. -/
structure Narrows (s s' : Service V) : Prop where
  active : s'.active.items.length ≤ s.active.items.length
  expectations : s'.readbackExpectations.length ≤ s.readbackExpectations.length
  overlays : ∀ overlay ∈ s'.overlays, overlay ∈ s.overlays
  keys : ∀ overlay ∈ s'.readbackExpectations, ∃ item ∈ s.readbackExpectations, item.key =
    overlay.key

theorem Narrows.refl (s : Service V) : Narrows s s :=
  ⟨Nat.le_refl _, Nat.le_refl _, fun _ h => h, fun overlay h => ⟨overlay, h, rfl⟩⟩

theorem Narrows.trans (h : Narrows s s') (h' : Narrows s' s'') : Narrows s s'' where
  active := Nat.le_trans h'.active h.active
  expectations := Nat.le_trans h'.expectations h.expectations
  overlays overlay hmem := h.overlays overlay (h'.overlays overlay hmem)
  keys overlay hmem := by
    obtain ⟨item, hitem, hkey⟩ := h'.keys overlay hmem
    obtain ⟨item', hitem', hkey'⟩ := h.keys item hitem
    exact ⟨item', hitem', hkey'.trans hkey⟩

/-- Tables that are filtered do not grow. -/
theorem Narrows.of_filter {keepActive : CommandKey → CommandLifecycleEvent → Bool}
    {keepOverlay keepExpectation : PendingOverlay V → Bool}
    (hactive : s'.active.items.length ≤ (s.active.filter keepActive).items.length)
    (hoverlays : s'.overlays = s.overlays.filter keepOverlay)
    (hexpectations : s'.readbackExpectations = s.readbackExpectations.filter keepExpectation) :
    Narrows s s' where
  active := Nat.le_trans hactive (Dict.length_items_filter_le _ _)
  expectations := by
    rw [hexpectations]
    exact List.length_filter_le _ _
  overlays overlay h := by
    rw [hoverlays] at h
    exact List.mem_of_mem_filter h
  keys overlay h := by
    rw [hexpectations] at h
    exact ⟨overlay, List.mem_of_mem_filter h, rfl⟩

theorem purgeExpired_narrows (s : Service V) (now : Time) : Narrows s (s.purgeExpired now) :=
  .of_filter (Nat.le_refl _) rfl rfl

/-- Only the tables of overlays and expectations are filtered. -/
theorem Narrows.of_filter_eq {keepOverlay keepExpectation : PendingOverlay V → Bool}
    (hactive : s'.active = s.active) (hoverlays : s'.overlays = s.overlays.filter keepOverlay)
    (hexpectations : s'.readbackExpectations = s.readbackExpectations.filter keepExpectation) :
    Narrows s s' where
  active := by rw [hactive]
  expectations := by
    rw [hexpectations]
    exact List.length_filter_le _ _
  overlays overlay h := by
    rw [hoverlays] at h
    exact List.mem_of_mem_filter h
  keys overlay h := by
    rw [hexpectations] at h
    exact ⟨overlay, List.mem_of_mem_filter h, rfl⟩

theorem expireCommand_narrows (s : Service V) (commandId : String) (source : Option String)
    (sessionId : Option (Option String)) : Narrows s (s.expireCommand commandId source sessionId) :=
  .of_filter_eq rfl rfl rfl

/-- The tables of overlays and expectations are as they were. -/
theorem Narrows.of_active (hactive : s'.active.items.length ≤ s.active.items.length)
    (hoverlays : s'.overlays = s.overlays)
    (hexpectations : s'.readbackExpectations = s.readbackExpectations) : Narrows s s' where
  active := hactive
  expectations := by rw [hexpectations]
  overlays overlay h := hoverlays ▸ h
  keys overlay h := ⟨overlay, hexpectations ▸ h, rfl⟩

theorem emitEnd_narrows (s : Service V) (now : Time) (key : CommandKey) (target : Option FieldPath)
    (state : CommandLifecycleState) (message : Option String) :
    Narrows s (s.emitEnd now key target state message) :=
  (s.purgeExpired_narrows now).trans (.of_active (Dict.length_items_erase_le _ _) rfl rfl)

theorem failCommand_narrows (s : Service V) (now : Time) (commandId : String)
    (source : Option String) (sessionId : Option (Option String)) (timedOut : Bool)
    (message : Option String) :
    Narrows s (s.failCommand now commandId source sessionId timedOut message) := by
  rcases s.failCommand_cases now commandId source sessionId timedOut message with
    ⟨heq, -⟩ | ⟨event, -, -, heq⟩
  · rw [heq]
    exact .refl s
  · rw [heq]
    exact (s.expireCommand_narrows _ _ _).trans (emitEnd_narrows _ now _ _ _ _)

theorem failEach_narrows (now : Time) (reason : String) (keys : List CommandKey) (s : Service V) :
    Narrows s (failEach now reason keys s) := by
  induction keys generalizing s with
  | nil => exact .refl s
  | cons key rest ih => exact (failCommand_narrows s now _ _ _ _ _).trans (ih _)

theorem erase_narrows (s : Service V) (key : CommandKey) :
    Narrows s { s with active := s.active.erase key } :=
  .of_active (Dict.length_items_erase_le _ _) rfl rfl

theorem makeRoom_narrows (now : Time) (key : CommandKey) (fuel : Nat) (s : Service V) :
    Narrows s (makeRoom now key fuel s) := by
  induction fuel generalizing s with
  | zero => exact .refl s
  | succ fuel ih =>
      rcases makeRoom_succ now key fuel s with ⟨heq, -⟩ | ⟨oldest, event, -, -, heq⟩ |
        ⟨oldest, event, -, heq⟩
      · rw [heq]
        exact .refl s
      · rw [heq]
        exact (s.erase_narrows oldest).trans (ih _)
      · rw [heq]
        exact ((s.erase_narrows oldest).trans (failCommand_narrows _ now _ _ _ _ _)).trans (ih _)

theorem terminateActiveCommands_narrows (s : Service V) (now : Time) (reason : String)
    (source : Option String) (sessionId : Option (Option String)) :
    Narrows s (s.terminateActiveCommands now reason source sessionId) := by
  refine Narrows.trans ?_ (failEach_narrows now reason (s.terminated source sessionId) _)
  exact .of_active (Dict.length_items_filter_le _ _) rfl rfl

theorem retainReadbackExpectations_narrows (s : Service V) (now : Time) (key : CommandKey) :
    Narrows s (s.retainReadbackExpectationsForDispatch now key).2 := by
  rw [retainReadbackExpectationsForDispatch]
  split
  · exact .refl s
  · split
    · exact .refl s
    · refine (s.purgeExpired_narrows now).trans
        ⟨Nat.le_refl _, ?_, fun _ h => h, fun overlay h => ?_⟩
      · dsimp only
        rw [List.length_append, List.length_map]
        have hsplit := List.length_eq_length_filter_add
          (l := (s.purgeExpired now).readbackExpectations) fun item => decide (item.key = key)
        simp only [decide_not] at hsplit ⊢
        omega
      · rcases List.mem_append.mp h with hmem | hmem
        · exact ⟨overlay, List.mem_of_mem_filter hmem, rfl⟩
        · obtain ⟨item, hitem, rfl⟩ := List.mem_map.mp hmem
          exact ⟨item, List.mem_of_mem_filter hitem, rfl⟩

theorem emitReconciled_narrows (s : Service V) (now : Time) (overlay : PendingOverlay V) :
    Narrows s (s.emitReconciled now overlay) := by
  refine Narrows.trans ?_ (emitEnd_narrows (s.removeReadbackExpectation overlay) now _ _ _ _)
  exact ⟨Nat.le_refl _, List.length_filter_le _ _, fun _ h => h,
    fun item h => ⟨item, List.mem_of_mem_filter h, rfl⟩⟩

theorem reconcileEach_narrows (now : Time) (overlays : List (PendingOverlay V)) (s : Service V) :
    Narrows s (reconcileEach now overlays s) := by
  induction overlays generalizing s with
  | nil => exact .refl s
  | cons overlay rest ih => exact (s.emitReconciled_narrows now overlay).trans (ih _)

theorem failExecution_narrows (s : Service V) (now : Time) (execution : Execution V)
    (state : CommandLifecycleState) (message : Option String) :
    Narrows s (s.failExecution now execution state message) := by
  rw [failExecution]
  split
  · exact (s.expireCommand_narrows _ _ _).trans (emitEnd_narrows _ now _ _ _ _)
  · exact .refl s

section

variable [CommandValue V]

theorem normalizeCorrelatedReadback_narrows (s : Service V) (now : Time)
    (o : CorrelatedObservation V) : Narrows s (s.normalizeCorrelatedReadback now o).2 := by
  rw [normalizeCorrelatedReadback]
  split
  · exact .refl s
  · dsimp only
    split <;> exact s.purgeExpired_narrows now

theorem withoutMatching_narrows (s : Service V) (now : Time) (o : CorrelatedObservation V) :
    Narrows s (s.withoutMatching now o) :=
  (s.purgeExpired_narrows now).trans
    ⟨Nat.le_refl _, Nat.le_refl _, fun _ h => List.mem_of_mem_filter h,
      fun item h => ⟨item, h, rfl⟩⟩

variable [DecidableEq V]

theorem applyObservation_narrows (s : Service V) (now : Time) (o : CorrelatedObservation V) :
    Narrows s (s.applyObservation now o).2 := by
  have hn := s.normalizeCorrelatedReadback_narrows now o
  rw [applyObservation]
  generalize s.normalizeCorrelatedReadback now o = normalized at hn
  obtain ⟨o', s'⟩ := normalized
  dsimp only at hn ⊢
  generalize s'.store.apply o'.toObservation = applied
  rcases applied with ⟨_ | changeset, store⟩
  · exact hn.trans (.of_active (Nat.le_refl _) rfl rfl)
  · have hstore : Narrows s { s' with store := store } :=
      hn.trans (.of_active (Nat.le_refl _) rfl rfl)
    dsimp only
    split
    · rw [reconcileObservation_eq]
      exact (hstore.trans (withoutMatching_narrows _ now o')).trans (reconcileEach_narrows now _ _)
    · exact hstore

end

/-! ## The bounds -/

/-- The bounds of the two tables. -/
structure Bounded (s : Service V) : Prop where
  active : s.active.items.length ≤ maxActiveCommands
  expectations : s.readbackExpectations.length ≤ maxReadbackExpectations

theorem Bounded.narrows (h : Bounded s) (hn : Narrows s s') : Bounded s' :=
  ⟨Nat.le_trans hn.active h.active, Nat.le_trans hn.expectations h.expectations⟩

/-- The loop ends with room for the command. -/
theorem makeRoom_room (now : Time) (key : CommandKey) (fuel : Nat) (s : Service V)
    (h : s.active.items.length ≤ fuel) :
    key ∈ (makeRoom now key fuel s).active.keys ∨
      (makeRoom now key fuel s).active.items.length < maxActiveCommands := by
  induction fuel generalizing s with
  | zero =>
      rw [makeRoom]
      exact .inr (Nat.lt_of_le_of_lt h (by decide))
  | succ fuel ih =>
      rcases makeRoom_succ now key fuel s with ⟨heq, hroom⟩ | ⟨oldest, event, hget, -, heq⟩ |
        ⟨oldest, event, hget, heq⟩
      · rw [heq]
        exact hroom
      · have hlength := Dict.length_items_erase hget
        rw [heq]
        exact ih _ (by dsimp only; omega)
      · have hlength := Dict.length_items_erase hget
        have hle := (failCommand_narrows { s with active := s.active.erase oldest } now
          oldest.commandId (some oldest.source) (some oldest.sessionId) false
          (some "active command capacity exceeded")).active
        dsimp only at hle
        rw [heq]
        exact ih _ (by rw [failKey]; omega)

theorem length_items_set_le {d : Dict CommandKey CommandLifecycleEvent} {key : CommandKey}
    {event : CommandLifecycleEvent} {bound : Nat} (hd : d.items.length ≤ bound)
    (hroom : key ∈ d.keys ∨ d.items.length < bound) : (d.set key event).items.length ≤ bound := by
  have hlength : (d.set key event).items.length =
      if key ∈ d.keys then d.items.length else d.items.length + 1 :=
    Dict.length_items_assign key event d.items
  rw [hlength]
  split
  next => exact hd
  next hnot =>
    rcases hroom with hmem | hlt
    · exact absurd hmem hnot
    · exact hlt

theorem Bounded.emitLifecycle (h : Bounded s) (now : Time) (key : CommandKey)
    (target : Option FieldPath) (state : CommandLifecycleState) (message : Option String) :
    Bounded (s.emitLifecycle now key target state message).2 := by
  cases hd : state.dispatchable with
  | false =>
      rw [Service.emitLifecycle, if_neg (by rw [hd]; decide)]
      exact h.narrows (s.emitEnd_narrows now key target state message)
  | true =>
      obtain ⟨m, p, q, event, hm, -, hp, hq, heq⟩ := s.emitLifecycle_eq now key target message hd
      have hroom := makeRoom_room now key _ (s.purgeExpired now) (Nat.le_refl _)
      have hbound := (h.narrows (s.purgeExpired_narrows now)).narrows
        (makeRoom_narrows now key (s.purgeExpired now).active.items.length (s.purgeExpired now))
      rw [← hm] at hroom hbound
      have hset : Bounded p := by
        rw [hp]
        exact ⟨length_items_set_le hbound.active hroom, hbound.expectations⟩
      have hlast : Bounded q := by
        rcases hq with rfl | rfl
        · exact hset
        · exact hset.narrows (p.purgeExpired_narrows now)
      rw [heq]
      exact ⟨hlast.active, hlast.expectations⟩

theorem Bounded.recordPendingOverlay (h : Bounded s) (now : Time) (overlay : PendingOverlay V) :
    Bounded (s.recordPendingOverlay now overlay) := by
  have hp := h.narrows (s.purgeExpired_narrows now)
  exact ⟨hp.active, hp.expectations⟩

/-- The oldest expectations go where there are too many. -/
theorem Bounded.recordReadbackExpectation (h : Bounded s) (now : Time)
    (overlay : PendingOverlay V) : Bounded (s.recordReadbackExpectation now overlay) := by
  have hp := h.narrows (s.purgeExpired_narrows now)
  refine ⟨hp.active, ?_⟩
  rw [Service.recordReadbackExpectation]
  dsimp only
  rw [List.length_drop]
  omega

section

variable [CommandValue V]

theorem Bounded.recordPaths (intent : CommandIntent V) (now timeout : Time)
    (paths : List FieldPath) (h : Bounded s) :
    Bounded (recordPaths intent now timeout paths s) := by
  induction paths generalizing s with
  | nil => exact h
  | cons path rest ih =>
      rw [Service.recordPaths]
      refine ih ?_
      split
      · split
        · exact h.recordReadbackExpectation now _
        · exact h
      · exact (h.recordPendingOverlay now _).recordReadbackExpectation now _

theorem Bounded.beginExecute (h : Bounded s) (now : Time) (intent : CommandIntent V) :
    Bounded (s.beginExecute now intent).2 := by
  have hrecord {t : Service V} (ht : Bounded t) : Bounded (t.recordIntentOverlay now intent) := by
    rw [recordIntentOverlay]
    split
    · exact ht
    · exact ht.recordPaths intent now _ _
  exact ((hrecord (h.emitLifecycle now intent.key intent.target .accepted none)).emitLifecycle now
    intent.key intent.target .queued none).emitLifecycle now intent.key intent.target .sent none

variable [DecidableEq V]

theorem applyReturned_narrows (now : Time) (generation : Nat)
    (observations : List (CorrelatedObservation V)) (s : Service V) :
    Narrows s (applyReturned now generation observations s).2 :=
  (applyReturned_rel (P := fun _ _ _ => True) (I := fun _ => True) Narrows.refl
    (fun _ _ _ => Narrows.trans) (fun s _ _ _ => ⟨trivial,
    s.applyObservation_narrows now _⟩) trivial
    (EachReturned.of_true now generation observations s)).2

theorem Bounded.finishExecute (h : Bounded s) (now : Time) (execution : Execution V)
    (result : ExecutorEnd V) : Bounded (s.finishExecute now execution result).2 := by
  cases result with
  | cancelled => exact h.narrows (s.failExecution_narrows now execution _ _)
  | timedOut text => exact h.narrows (s.failExecution_narrows now execution _ _)
  | raised text => exact h.narrows (s.failExecution_narrows now execution _ _)
  | returned observations =>
      rcases s.finishExecute_returned now execution observations with ⟨-, heq⟩ | ⟨-, heq, -⟩
      · rw [heq]
        exact h.narrows (failCommand_narrows s now _ _ _ _ _)
      · rw [heq]
        exact (h.emitLifecycle now _ _ _ _).narrows (applyReturned_narrows now _ _ _)

end

/-! ## Failed commands -/

/-- The last event of the command is a failure. -/
def Failed (s : Service V) (key : CommandKey) : Prop :=
  ∃ event ∈ s.lastOf key, Failing event.state

instance (s : Service V) (key : CommandKey) : Decidable (s.Failed key) :=
  inferInstanceAs (Decidable (∃ event ∈ s.lastOf key, Failing event.state))

/-- The command has no overlay and no expectation. -/
structure Clear (s : Service V) (key : CommandKey) : Prop where
  overlays : ∀ overlay ∈ s.overlays, overlay.key ≠ key
  expectations : ∀ overlay ∈ s.readbackExpectations, overlay.key ≠ key

/-- A command that failed leaves nothing behind. -/
def Clean (s : Service V) : Prop := ∀ key, s.Failed key → s.Clear key

theorem Clear.narrows (h : s.Clear key) (hn : Narrows s s') : s'.Clear key where
  overlays overlay hmem := h.overlays overlay (hn.overlays overlay hmem)
  expectations overlay hmem hkey := by
    obtain ⟨item, hitem, hsame⟩ := hn.keys overlay hmem
    exact h.expectations item hitem (hsame.trans hkey)

theorem Failed.congr (h : s'.events = s.events) : s'.Failed key ↔ s.Failed key := by
  rw [Failed, Failed, lastOf_congr (history_congr h key)]

theorem Clean.narrows (h : Clean s) (hn : Narrows s s') (hevents : s'.events = s.events) :
    Clean s' := fun key hfailed => (h key ((Failed.congr hevents).mp hfailed)).narrows hn

theorem Clean.congr (h : Clean s) (hevents : s'.events = s.events)
    (hoverlays : s'.overlays = s.overlays)
    (hexpectations : s'.readbackExpectations = s.readbackExpectations) : Clean s' := by
  intro key hfailed
  have hclear := h key ((Failed.congr hevents).mp hfailed)
  exact ⟨hoverlays ▸ hclear.overlays, hexpectations ▸ hclear.expectations⟩

theorem expireCommand_clear (s : Service V) (key : CommandKey) :
    (s.expireCommand key.commandId (some key.source) (some key.sessionId)).Clear key where
  overlays overlay hmem hkey := by
    have hkeep := (List.mem_filter.mp hmem).2
    rw [selects_key, hkey] at hkeep
    simp at hkeep
  expectations overlay hmem hkey := by
    have hkeep := (List.mem_filter.mp hmem).2
    rw [selects_key, hkey] at hkeep
    simp at hkeep

/-- An end keeps the tables clean, if a failure finds nothing of its command. -/
theorem Clean.emitEnd (h : Clean s) (now : Time) (key : CommandKey) (target : Option FieldPath)
    {state : CommandLifecycleState} (message : Option String)
    (hclear : Failing state → s.Clear key) : Clean (s.emitEnd now key target state message) := by
  rintro k ⟨event, hlast, hfail⟩
  rw [lastOf_append (s.emitEnd_events now key target state message)] at hlast
  split at hlast
  next heq =>
    cases hlast
    have hk : key = k := heq
    subst hk
    exact (hclear hfail).narrows (s.emitEnd_narrows now key target state message)
  next => exact (h k ⟨event, hlast, hfail⟩).narrows (s.emitEnd_narrows now key target state message)

/-- A failure that is recorded once the command is expired. -/
theorem Clean.fail (h : Clean s) (now : Time) (key : CommandKey) (target : Option FieldPath)
    (state : CommandLifecycleState) (message : Option String) :
    Clean ((s.expireCommand key.commandId (some key.source) (some key.sessionId)).emitEnd now key
      target state message) := by
  have hexpired : Clean (s.expireCommand key.commandId (some key.source) (some key.sessionId)) :=
    h.narrows (s.expireCommand_narrows _ _ _) rfl
  exact hexpired.emitEnd now key target message fun _ => s.expireCommand_clear key

theorem Clean.failCommand (h : Clean s) (now : Time) (commandId : String)
    (source : Option String) (sessionId : Option (Option String)) (timedOut : Bool)
    (message : Option String) :
    Clean (s.failCommand now commandId source sessionId timedOut message) := by
  rcases s.failCommand_cases now commandId source sessionId timedOut message with
    ⟨heq, -⟩ | ⟨event, -, -, heq⟩
  · rw [heq]
    exact h
  · rw [heq]
    exact h.fail now _ _ _ _

theorem Clean.failEach (now : Time) (reason : String) (keys : List CommandKey) (h : Clean s) :
    Clean (failEach now reason keys s) := by
  induction keys generalizing s with
  | nil => exact h
  | cons key rest ih => exact ih (h.failCommand now _ _ _ _ _)

theorem Clean.makeRoom (now : Time) (key : CommandKey) (fuel : Nat) (h : Clean s) :
    Clean (makeRoom now key fuel s) := by
  induction fuel generalizing s with
  | zero => exact h
  | succ fuel ih =>
      rcases makeRoom_succ now key fuel s with ⟨heq, -⟩ | ⟨oldest, event, -, -, heq⟩ |
        ⟨oldest, event, -, heq⟩
      · rw [heq]
        exact h
      · have herase : Clean { s with active := s.active.erase oldest } := h.congr rfl rfl rfl
        rw [heq]
        exact ih herase
      · have herase : Clean { s with active := s.active.erase oldest } := h.congr rfl rfl rfl
        rw [heq]
        exact ih (herase.failCommand now _ _ _ _ _)

theorem Clean.emitLifecycle (h : Clean s) (now : Time) (key : CommandKey)
    (target : Option FieldPath) (state : CommandLifecycleState) (message : Option String)
    (hclear : Failing state → s.Clear key) :
    Clean (s.emitLifecycle now key target state message).2 := by
  cases hd : state.dispatchable with
  | false =>
      rw [Service.emitLifecycle, if_neg (by rw [hd]; decide)]
      exact h.emitEnd now key target message hclear
  | true =>
      obtain ⟨m, p, q, event, hm, hevent, hp, hq, heq⟩ :=
        s.emitLifecycle_eq now key target message hd
      have hroom : Clean m := by
        have hpurged : Clean (s.purgeExpired now) := h.narrows (s.purgeExpired_narrows now) rfl
        rw [hm]
        exact hpurged.makeRoom now key _
      have hset : Clean p := by
        rw [hp]
        exact hroom.congr rfl rfl rfl
      have hkept : Clean q := by
        rcases hq with rfl | rfl
        · exact hset
        · exact hset.narrows (p.purgeExpired_narrows now) rfl
      rw [heq]
      rintro k ⟨last, hlast, hfail⟩
      rw [lastOf_append rfl] at hlast
      split at hlast
      · -- the last event of the command is no failure
        cases hlast
        have hstate : event.state = state := by rw [hevent]; rfl
        rw [hstate] at hfail
        rcases hfail with rfl | rfl <;> cases hd
      · exact ⟨(hkept k ⟨last, hlast, hfail⟩).overlays, (hkept k ⟨last, hlast, hfail⟩).expectations⟩

/-- An overlay of a command that has not failed may be recorded. -/
theorem Clean.recordPendingOverlay (h : Clean s) (now : Time) (overlay : PendingOverlay V)
    (hnot : ¬ s.Failed overlay.key) : Clean (s.recordPendingOverlay now overlay) := by
  intro key hfailed
  have hfailed' : s.Failed key := hfailed
  have hclear := (h key hfailed').narrows (s.purgeExpired_narrows now)
  refine ⟨fun item hitem => ?_, hclear.expectations⟩
  have hold (hmem : item ∈ withoutOverlay (s.purgeExpired now).overlays overlay) : item.key ≠ key :=
    hclear.overlays item (List.mem_of_mem_filter hmem)
  rw [Service.recordPendingOverlay] at hitem
  dsimp only at hitem
  split at hitem
  · exact hold hitem
  · rcases List.mem_append.mp hitem with hmem | hmem
    · exact hold hmem
    · rw [List.mem_singleton.mp hmem]
      rintro rfl
      exact hnot hfailed'

theorem Clean.recordReadbackExpectation (h : Clean s) (now : Time) (overlay : PendingOverlay V)
    (hnot : ¬ s.Failed overlay.key) : Clean (s.recordReadbackExpectation now overlay) := by
  intro key hfailed
  have hfailed' : s.Failed key := hfailed
  have hclear := (h key hfailed').narrows (s.purgeExpired_narrows now)
  refine ⟨hclear.overlays, fun item hitem => ?_⟩
  rw [Service.recordReadbackExpectation] at hitem
  have hin : item ∈ withoutOverlay (s.purgeExpired now).readbackExpectations overlay ++
    [overlay] := by
    dsimp only at hitem
    exact List.mem_of_mem_drop hitem
  rcases List.mem_append.mp hin with hmem | hmem
  · exact hclear.expectations item (List.mem_of_mem_filter hmem)
  · rw [List.mem_singleton.mp hmem]
    rintro rfl
    exact hnot hfailed'

section

variable [CommandValue V]

theorem Clean.recordPaths (intent : CommandIntent V) (now timeout : Time) (paths : List FieldPath)
    (h : Clean s) (hnot : ¬ s.Failed intent.key) :
    Clean (recordPaths intent now timeout paths s) := by
  induction paths generalizing s with
  | nil => exact h
  | cons path rest ih =>
      have hstill {t : Service V} (hq : Quiet s t) : ¬ t.Failed intent.key := fun hfailed =>
        hnot ((Failed.congr hq.events).mp hfailed)
      rw [Service.recordPaths]
      split
      · split
        · exact ih (h.recordReadbackExpectation now _ hnot)
            (hstill (s.recordReadbackExpectation_quiet now _))
        · exact ih h hnot
      · have hoverlay := s.recordPendingOverlay_quiet now
        exact ih ((h.recordPendingOverlay now _ hnot).recordReadbackExpectation now _
          (hstill (hoverlay _))) (hstill ((hoverlay _).trans
            (recordReadbackExpectation_quiet _ now _)))

theorem Clean.beginExecute (h : Clean s) (now : Time) (intent : CommandIntent V) :
    Clean (s.beginExecute now intent).2 := by
  have hstart (state : CommandLifecycleState) (hd : state.dispatchable = true) :
    ¬ Failing state := by
    rintro (rfl | rfl) <;> cases hd
  have haccepted : Clean (s.emitLifecycle now intent.key intent.target .accepted none).2 :=
    h.emitLifecycle now _ _ _ _ fun hf => absurd hf (hstart _ rfl)
  have hnot : ¬ (s.emitLifecycle now intent.key intent.target .accepted none).2.Failed
      intent.key := by
    obtain ⟨m, event, -, -, hstate, -, -, hhistory⟩ := s.emitLifecycle_history now intent.key
      intent.target none (rfl : CommandLifecycleState.accepted.dispatchable = true)
    rintro ⟨last, hlast, hfail⟩
    rw [lastOf, hhistory, if_pos rfl, List.getLast?_concat] at hlast
    cases hlast
    rw [hstate] at hfail
    exact hstart _ rfl hfail
  have hrecorded : Clean ((s.emitLifecycle now intent.key intent.target .accepted none).2
      |>.recordIntentOverlay now intent) := by
    rw [recordIntentOverlay]
    split
    · exact haccepted
    · exact haccepted.recordPaths intent now _ _ hnot
  have hqueued : Clean (((s.emitLifecycle now intent.key intent.target .accepted none).2
      |>.recordIntentOverlay now intent).emitLifecycle now intent.key intent.target .queued
          none).2 :=
    hrecorded.emitLifecycle now _ _ _ _ fun hf => absurd hf (hstart _ rfl)
  exact hqueued.emitLifecycle now _ _ .sent _ fun hf => absurd hf (hstart _ rfl)

omit [CommandValue V] in
theorem Clean.reconcileEach (now : Time) (overlays : List (PendingOverlay V)) (h : Clean s) :
    Clean (reconcileEach now overlays s) := by
  induction overlays generalizing s with
  | nil => exact h
  | cons overlay rest ih =>
      have hremoved : Clean (s.removeReadbackExpectation overlay) :=
        h.narrows ⟨Nat.le_refl _, List.length_filter_le _ _, fun _ hm => hm,
          fun item hm => ⟨item, List.mem_of_mem_filter hm, rfl⟩⟩ rfl
      exact ih (hremoved.emitEnd now _ _ _ fun hf => by rcases hf with hf | hf <;> cases hf)

variable [DecidableEq V]

theorem Clean.applyObservation (h : Clean s) (now : Time) (o : CorrelatedObservation V) :
    Clean (s.applyObservation now o).2 := by
  have hn := s.normalizeCorrelatedReadback_narrows now o
  have hq := s.normalizeCorrelatedReadback_quiet now o
  rw [Service.applyObservation]
  generalize s.normalizeCorrelatedReadback now o = normalized at hn hq
  obtain ⟨o', s'⟩ := normalized
  dsimp only at hn hq ⊢
  have hs' : Clean s' := h.narrows hn hq.events
  generalize s'.store.apply o'.toObservation = applied
  rcases applied with ⟨_ | changeset, store⟩
  · exact hs'.congr rfl rfl rfl
  · have hstore : Clean { s' with store := store } := hs'.congr rfl rfl rfl
    dsimp only
    split
    · rw [reconcileObservation_eq]
      exact (hstore.narrows (withoutMatching_narrows _ now o') rfl).reconcileEach now _
    · exact hstore

theorem Clean.applyReturned (now : Time) (generation : Nat)
    (observations : List (CorrelatedObservation V)) (h : Clean s) :
    Clean (applyReturned now generation observations s).2 :=
  (applyReturned_rel (R := fun _ _ => True) (fun _ => trivial) (fun _ _ _ _ _ => trivial)
    (fun _ o ht _ => ⟨ht.applyObservation now o, trivial⟩) h
    (EachReturned.of_true now generation observations s)).1

omit [CommandValue V] [DecidableEq V] in
theorem Clean.failExecution (h : Clean s) (now : Time) (execution : Execution V)
    (state : CommandLifecycleState) (message : Option String) :
    Clean (s.failExecution now execution state message) := by
  rw [Service.failExecution]
  split
  · exact h.fail now _ _ _ _
  · exact h

theorem Clean.finishExecute (h : Clean s) (now : Time) (execution : Execution V)
    (result : ExecutorEnd V) : Clean (s.finishExecute now execution result).2 := by
  cases result with
  | cancelled => exact h.failExecution now execution _ _
  | timedOut text => exact h.failExecution now execution _ _
  | raised text => exact h.failExecution now execution _ _
  | returned observations =>
      rcases s.finishExecute_returned now execution observations with ⟨-, heq⟩ | ⟨-, heq, -⟩
      · rw [heq]
        exact h.failCommand now _ _ _ _ _
      · have hack : Clean (s.acknowledged now execution) :=
          h.emitLifecycle now _ _ _ _ fun hf => by rcases hf with hf | hf <;> cases hf
        rw [heq]
        exact hack.applyReturned now _ _

end

/-! ## What an observation removes -/

/-- The observation is of the overlay's source, session, command and path; an observation without a
source is of every one. -/
def IsOf (o : CorrelatedObservation V) (overlay : PendingOverlay V) : Prop :=
  (o.source.commandSource = none ∨ o.source.commandSource = some overlay.key.source) ∧
    o.source.sessionId = overlay.key.sessionId ∧ o.correlationId = some overlay.key.commandId ∧
    pathsReconcile o overlay.path = true

/-- Of the overlays and expectations, only those go that have expired or that match. -/
structure Removes (now : Time) (o : CorrelatedObservation V) (s s' : Service V) : Prop where
  overlays : ∀ overlay ∈ s.overlays, overlay ∉ s'.overlays →
    overlay.isExpired now = true ∨ IsOf o overlay
  expectations : ∀ overlay ∈ s.readbackExpectations, overlay ∉ s'.readbackExpectations →
    overlay.isExpired now = true ∨ IsOf o overlay

variable {now : Time} {o : CorrelatedObservation V}

theorem Removes.of_eq (hoverlays : s'.overlays = s.overlays)
    (hexpectations : s'.readbackExpectations = s.readbackExpectations) : Removes now o s s' where
  overlays _ hmem hnot := absurd (hoverlays ▸ hmem) hnot
  expectations _ hmem hnot := absurd (hexpectations ▸ hmem) hnot

theorem Removes.refl (s : Service V) : Removes now o s s := .of_eq rfl rfl

theorem Removes.trans (h : Removes now o s s') (h' : Removes now o s' s'') :
    Removes now o s s'' where
  overlays overlay hmem hnot := by
    by_cases hmid : overlay ∈ s'.overlays
    · exact h'.overlays overlay hmid hnot
    · exact h.overlays overlay hmem hmid
  expectations overlay hmem hnot := by
    by_cases hmid : overlay ∈ s'.readbackExpectations
    · exact h'.expectations overlay hmid hnot
    · exact h.expectations overlay hmem hmid

theorem Removes.mono {o' : CorrelatedObservation V} (h : Removes now o' s s')
    (himp : ∀ overlay, IsOf o' overlay → IsOf o overlay) : Removes now o s s' where
  overlays overlay hmem hnot := (h.overlays overlay hmem hnot).imp_right (himp overlay)
  expectations overlay hmem hnot := (h.expectations overlay hmem hnot).imp_right (himp overlay)

theorem purgeExpired_removes (s : Service V) : Removes now o s (s.purgeExpired now) where
  overlays overlay hmem hnot := by
    refine .inl (not_not.mp fun hlive => hnot (List.mem_filter.mpr ⟨hmem, ?_⟩))
    simpa using hlive
  expectations overlay hmem hnot := by
    refine .inl (not_not.mp fun hlive => hnot (List.mem_filter.mpr ⟨hmem, ?_⟩))
    simpa using hlive

theorem emitEnd_removes (s : Service V) (key : CommandKey) (target : Option FieldPath)
    (state : CommandLifecycleState) (message : Option String) :
    Removes now o s (s.emitEnd now key target state message) :=
  s.purgeExpired_removes.trans (.of_eq rfl rfl)

/-- The expectations that go with a confirmed overlay have its key and its path. -/
theorem removeReadbackExpectation_removes (s : Service V) {overlay : PendingOverlay V}
    (h : IsOf o overlay) : Removes now o s (s.removeReadbackExpectation overlay) where
  overlays item hmem hnot := absurd hmem hnot
  expectations item hmem hnot := by
    refine .inr ?_
    have hsame : item.key = overlay.key ∧ item.path = overlay.path := by
      by_contra hne
      refine hnot (List.mem_filter.mpr ⟨hmem, ?_⟩)
      simpa using not_and_or.mp hne
    obtain ⟨hsource, hsession, hcommand, hpath⟩ := h
    rw [IsOf, hsame.1, hsame.2]
    exact ⟨hsource, hsession, hcommand, hpath⟩

theorem reconcileEach_removes (overlays : List (PendingOverlay V))
    (h : ∀ overlay ∈ overlays, IsOf o overlay) (s : Service V) :
    Removes now o s (reconcileEach now overlays s) := by
  induction overlays generalizing s with
  | nil => exact .refl s
  | cons overlay rest ih =>
      have hremoved : Removes now o s (s.removeReadbackExpectation overlay) :=
        s.removeReadbackExpectation_removes (h overlay List.mem_cons_self)
      exact (hremoved.trans (emitEnd_removes _ _ _ _ _)).trans
        (ih (fun item hitem => h item (List.mem_cons_of_mem overlay hitem)) _)

section

variable [CommandValue V]

theorem isOf_of_reconciles {overlay : PendingOverlay V}
    (h : observationReconcilesOverlay o overlay = true) : IsOf o overlay := by
  simp only [observationReconcilesOverlay, Bool.and_eq_true, Bool.or_eq_true, beq_iff_eq] at h
  obtain ⟨⟨⟨⟨hsource, hsession⟩, hcommand⟩, hpath⟩, -⟩ := h
  exact ⟨hsource, hsession, hcommand, hpath⟩

theorem withoutMatching_removes (s : Service V) : Removes now o s (s.withoutMatching now o) := by
  refine s.purgeExpired_removes.trans ⟨fun overlay hmem hnot => .inr ?_, fun _ hmem hnot => ?_⟩
  · refine isOf_of_reconciles (not_not.mp fun hne => hnot (List.mem_filter.mpr ⟨hmem, ?_⟩))
    simpa using hne
  · exact absurd hmem hnot

theorem confirmedExpectation_isOf {overlay : PendingOverlay V}
    (h : s.confirmedExpectation o = some overlay) : IsOf o overlay := by
  rw [confirmedExpectation] at h
  split at h
  · cases h
  · split at h
    · cases h
    next expectation hfind =>
      split at h
      · cases h
      · split at h
        · cases h
          exact isOf_of_reconciles (List.find?_some hfind)
        · cases h

theorem reconcilable_isOf {overlay : PendingOverlay V} (h : overlay ∈ s.reconcilable now o) :
    IsOf o overlay := by
  rw [reconcilable] at h
  split at h
  · exact isOf_of_reconciles (List.mem_filter.mp h).2
  · exact confirmedExpectation_isOf (Option.mem_toList.mp h)

/-- Normalising an observation changes its value alone. -/
theorem normalizeCorrelatedReadback_removes (s : Service V) (now : Time)
    (o : CorrelatedObservation V) :
    Removes now o s (s.normalizeCorrelatedReadback now o).2 ∧
      ∀ overlay, IsOf (s.normalizeCorrelatedReadback now o).1 overlay → IsOf o overlay := by
  rw [normalizeCorrelatedReadback]
  split
  · exact ⟨.refl s, fun _ h => h⟩
  · dsimp only
    split
    · exact ⟨s.purgeExpired_removes, fun _ h => h⟩
    · exact ⟨s.purgeExpired_removes, fun _ h => h⟩

variable [DecidableEq V]

/-- An observation removes the overlays and expectations that it matches, beside expired ones. -/
theorem applyObservation_removes (s : Service V) (now : Time) (o : CorrelatedObservation V) :
    Removes now o s (s.applyObservation now o).2 := by
  obtain ⟨hn, himp⟩ := s.normalizeCorrelatedReadback_removes now o
  rw [applyObservation]
  generalize s.normalizeCorrelatedReadback now o = normalized at hn himp
  obtain ⟨o', s'⟩ := normalized
  dsimp only at hn himp ⊢
  generalize s'.store.apply o'.toObservation = applied
  rcases applied with ⟨_ | changeset, store⟩
  · exact hn.trans (.of_eq rfl rfl)
  · have hstore : Removes now o s { s' with store := store } := hn.trans (.of_eq rfl rfl)
    dsimp only
    split
    · rw [reconcileObservation_eq]
      refine hstore.trans (Removes.mono ?_ himp)
      exact (withoutMatching_removes _).trans
        (reconcileEach_removes _ (fun overlay hmem => reconcilable_isOf hmem) _)
    · exact hstore

end

/-! ## What is projected -/

theorem projectEach_mem (wanted : List FieldPath) (overlays : List (PendingOverlay V))
    (projected : Dict FieldPath V) {path : FieldPath} {value : V}
    (h : (projectEach wanted overlays projected).get? path = some value) :
    projected.get? path = some value ∨
      ∃ overlay ∈ overlays, overlay.path = path ∧ overlay.value = value := by
  induction overlays generalizing projected with
  | nil => exact .inl h
  | cons overlay rest ih =>
      rw [projectEach] at h
      rcases ih _ h with hold | ⟨item, hitem, hpath⟩
      · split at hold
        · rw [Dict.get?_set] at hold
          split at hold
          next heq =>
            cases hold
            exact .inr ⟨overlay, List.mem_cons_self, heq.symm, rfl⟩
          next => exact .inl hold
        · exact .inl hold
      · exact .inr ⟨item, List.mem_cons_of_mem overlay hitem, hpath⟩

/-- A projected value is that of an overlay of the same source and session. -/
theorem projectPendingValues_mem (s : Service V) {now : Time} {source : String}
    {sessionId : Option String} {paths : List FieldPath} {path : FieldPath} {value : V}
    (h : (s.projectPendingValues now source sessionId paths).get? path = some value) :
    ∃ overlay ∈ s.overlays, overlay.key.source = source ∧ overlay.key.sessionId = sessionId ∧
      overlay.path = path ∧ overlay.value = value := by
  rcases projectEach_mem _ _ _ h with hnone | ⟨overlay, hmem, hpath, hvalue⟩
  · cases hnone
  · obtain ⟨hin, hscope⟩ := List.mem_filter.mp hmem
    simp only [Bool.and_eq_true, beq_iff_eq] at hscope
    exact ⟨overlay, (s.purgeExpired_narrows now).overlays overlay hin, hscope.1, hscope.2, hpath,
      hvalue⟩

/-- The overlays of an emission are those it found. -/
theorem emitLifecycle_overlays (s : Service V) (now : Time) (key : CommandKey)
    (target : Option FieldPath) (state : CommandLifecycleState) (message : Option String) :
    ∀ overlay ∈ (s.emitLifecycle now key target state message).2.overlays,
      overlay ∈ s.overlays := by
  cases hd : state.dispatchable with
  | false =>
      rw [emitLifecycle, if_neg (by rw [hd]; decide)]
      exact (s.emitEnd_narrows now key target state message).overlays
  | true =>
      obtain ⟨m, p, q, event, hm, -, hp, hq, heq⟩ := s.emitLifecycle_eq now key target message hd
      have hroom := ((s.purgeExpired_narrows now).trans
        (makeRoom_narrows now key (s.purgeExpired now).active.items.length _)).overlays
      rw [← hm] at hroom
      rw [heq]
      intro overlay hmem
      refine hroom overlay ?_
      have hset : p.overlays = m.overlays := by rw [hp]
      rw [← hset]
      rcases hq with rfl | rfl
      · exact hmem
      · exact (p.purgeExpired_narrows now).overlays overlay hmem

end Service

/-! ## Runs -/

/-- The call records the overlay: for the command that it executes, or as it is given. -/
def Action.Records {V : Type} [CommandValue V] (overlay : PendingOverlay V) : Action V → Prop
  | .execute _ intent =>
      overlay.key = intent.key ∧ overlay.path ∈ observablePathsForIntent intent ∧
        expectedValueForPath intent overlay.path = some overlay.value
  | .recordPendingOverlay _ given => given = overlay
  | _ => False

namespace Service

variable {V : Type} [CommandValue V]

theorem recordPaths_overlays (intent : CommandIntent V) (now timeout : Time)
    (paths : List FieldPath) (s : Service V) :
    ∀ overlay ∈ (recordPaths intent now timeout paths s).overlays, overlay ∈ s.overlays ∨
      (overlay.key = intent.key ∧ overlay.path ∈ paths ∧
        expectedValueForPath intent overlay.path = some overlay.value) := by
  induction paths generalizing s with
  | nil => exact fun _ hmem => .inl hmem
  | cons path rest ih =>
      intro overlay hmem
      rw [recordPaths] at hmem
      rcases ih _ overlay hmem with hold | ⟨hkey, hpath, hvalue⟩
      · split at hold
        · split at hold
          · exact .inl ((s.purgeExpired_narrows now).overlays overlay hold)
          · exact .inl hold
        next value hvalue =>
          -- recording the expectation purges the overlays once more
          have hrecorded := (purgeExpired_narrows _ now).overlays overlay hold
          rw [recordPendingOverlay] at hrecorded
          have hfound (h : overlay ∈ withoutOverlay (s.purgeExpired now).overlays {
              key := intent.key, path := path, value := value, expiresAt := now + timeout }) :
              overlay ∈ s.overlays :=
            (s.purgeExpired_narrows now).overlays overlay (List.mem_of_mem_filter h)
          dsimp only at hrecorded
          split at hrecorded
          · exact .inl (hfound hrecorded)
          · rcases List.mem_append.mp hrecorded with hin | hin
            · exact .inl (hfound hin)
            · rw [List.mem_singleton.mp hin]
              exact .inr ⟨rfl, List.mem_cons_self, hvalue⟩
      · exact .inr ⟨hkey, List.mem_cons_of_mem path hpath, hvalue⟩

theorem beginExecute_overlays (s : Service V) (now : Time) (intent : CommandIntent V) :
    ∀ overlay ∈ (s.beginExecute now intent).2.overlays, overlay ∈ s.overlays ∨
      (Action.execute now intent).Records overlay := by
  intro overlay hmem
  have hqueued := emitLifecycle_overlays
    (((s.emitLifecycle now intent.key intent.target .accepted none).2
      |>.recordIntentOverlay now intent).emitLifecycle now intent.key intent.target .queued none).2
    now intent.key intent.target .sent none overlay hmem
  have hrecorded := emitLifecycle_overlays
    ((s.emitLifecycle now intent.key intent.target .accepted none).2.recordIntentOverlay now intent)
    now intent.key intent.target .queued none overlay hqueued
  rw [recordIntentOverlay] at hrecorded
  split at hrecorded
  · exact .inl (s.emitLifecycle_overlays now _ _ _ _ overlay hrecorded)
  · rcases recordPaths_overlays _ _ _ _ _ overlay hrecorded with hold | hnew
    · exact .inl (s.emitLifecycle_overlays now _ _ _ _ overlay hold)
    · exact .inr hnew

end Service

namespace System

open Service

variable {V : Type} [CommandValue V] [DecidableEq V] {s s' : System V}

theorem step_bounded {a : Action V} (h : Bounded s.service) (hstep : s.step a = some s') :
    Bounded s'.service := by
  cases a with
  | execute now intent =>
      rw [(step_execute hstep).1]
      exact h.beginExecute now intent
  | finish now number result =>
      obtain ⟨execution, -, hservice, -⟩ := step_finish hstep
      rw [hservice]
      exact h.finishExecute now execution result
  | applyObservation now o =>
      cases hstep
      exact h.narrows (applyObservation_narrows _ now o)
  | failCommand now commandId source sessionId timedOut message =>
      cases hstep
      exact h.narrows (failCommand_narrows _ now _ _ _ _ _)
  | terminateActiveCommands now reason source sessionId =>
      cases hstep
      exact h.narrows (terminateActiveCommands_narrows _ now reason source sessionId)
  | emitLifecycle now key target state message =>
      cases hstep
      exact h.emitLifecycle now key target state message
  | recordPendingOverlay now overlay =>
      cases hstep
      exact h.recordPendingOverlay now overlay
  | retainReadbackExpectations now key =>
      cases hstep
      exact h.narrows (retainReadbackExpectations_narrows _ now key)
  | discardReadbackExpectations key path =>
      cases hstep
      exact ⟨h.active, Nat.le_trans (List.length_filter_le _ _) h.expectations⟩
  | expireCommand commandId source sessionId =>
      cases hstep
      exact h.narrows (expireCommand_narrows _ _ _ _)
  | read now =>
      cases hstep
      exact h.narrows (purgeExpired_narrows _ now)
  | store op =>
      cases hstep
      exact ⟨h.active, h.expectations⟩

/-- Another module records an overlay only of a command that has not failed, and records a failure
itself only of a command that has nothing pending. -/
def Proper (s : System V) : Action V → Prop
  | .emitLifecycle _ key _ state _ => Failing state → s.service.Clear key
  | .recordPendingOverlay _ overlay => ¬ s.service.Failed overlay.key
  | _ => True

theorem step_clean {a : Action V} (h : Clean s.service) (hok : Proper s a)
    (hstep : s.step a = some s') : Clean s'.service := by
  cases a with
  | execute now intent =>
      rw [(step_execute hstep).1]
      exact h.beginExecute now intent
  | finish now number result =>
      obtain ⟨execution, -, hservice, -⟩ := step_finish hstep
      rw [hservice]
      exact h.finishExecute now execution result
  | applyObservation now o =>
      cases hstep
      exact h.applyObservation now o
  | failCommand now commandId source sessionId timedOut message =>
      cases hstep
      exact h.failCommand now _ _ _ _ _
  | terminateActiveCommands now reason source sessionId =>
      cases hstep
      refine Clean.failEach now reason _ ?_
      exact h.congr rfl rfl rfl
  | emitLifecycle now key target state message =>
      cases hstep
      exact h.emitLifecycle now key target state message hok
  | recordPendingOverlay now overlay =>
      cases hstep
      exact h.recordPendingOverlay now overlay hok
  | retainReadbackExpectations now key =>
      cases hstep
      exact h.narrows (retainReadbackExpectations_narrows _ now key)
        (retainReadbackExpectations_quiet _ now key).events
  | discardReadbackExpectations key path =>
      cases hstep
      exact h.narrows ⟨Nat.le_refl _, List.length_filter_le _ _, fun _ hm => hm,
        fun item hm => ⟨item, List.mem_of_mem_filter hm, rfl⟩⟩ rfl
  | expireCommand commandId source sessionId =>
      cases hstep
      exact h.narrows (expireCommand_narrows _ _ _ _) rfl
  | read now =>
      cases hstep
      exact h.narrows (purgeExpired_narrows _ now) rfl
  | store op =>
      cases hstep
      exact h.congr rfl rfl rfl

/-- An overlay that a call leaves in the table was there, or the call records it. -/
theorem step_overlays {a : Action V} (hstep : s.step a = some s') :
    ∀ overlay ∈ s'.service.overlays, overlay ∈ s.service.overlays ∨ a.Records overlay := by
  cases a with
  | execute now intent =>
      rw [(step_execute hstep).1]
      exact s.service.beginExecute_overlays now intent
  | finish now number result =>
      obtain ⟨execution, -, hservice, -⟩ := step_finish hstep
      rw [hservice]
      intro overlay hmem
      refine .inl ?_
      cases result with
      | cancelled => exact (failExecution_narrows _ now execution _ _).overlays overlay hmem
      | timedOut text => exact (failExecution_narrows _ now execution _ _).overlays overlay hmem
      | raised text => exact (failExecution_narrows _ now execution _ _).overlays overlay hmem
      | returned observations =>
          rcases s.service.finishExecute_returned now execution observations with
            ⟨-, heq⟩ | ⟨-, heq, -⟩
          · rw [heq] at hmem
            exact (failCommand_narrows _ now _ _ _ _ _).overlays overlay hmem
          · rw [heq] at hmem
            exact emitLifecycle_overlays _ now _ _ _ _ overlay
              ((applyReturned_narrows now _ _ _).overlays overlay hmem)
  | applyObservation now o =>
      cases hstep
      exact fun overlay hmem => .inl ((applyObservation_narrows _ now o).overlays overlay hmem)
  | failCommand now commandId source sessionId timedOut message =>
      cases hstep
      exact fun overlay hmem => .inl ((failCommand_narrows _ now _ _ _ _ _).overlays overlay hmem)
  | terminateActiveCommands now reason source sessionId =>
      cases hstep
      exact fun overlay hmem =>
        .inl ((terminateActiveCommands_narrows _ now _ _ _).overlays overlay hmem)
  | emitLifecycle now key target state message =>
      cases hstep
      exact fun overlay hmem => .inl (emitLifecycle_overlays _ now _ _ _ _ overlay hmem)
  | recordPendingOverlay now given =>
      cases hstep
      intro overlay hmem
      have hfound (h : overlay ∈ withoutOverlay (s.service.purgeExpired now).overlays given) :
          overlay ∈ s.service.overlays :=
        (s.service.purgeExpired_narrows now).overlays overlay (List.mem_of_mem_filter h)
      change overlay ∈ (s.service.recordPendingOverlay now given).overlays at hmem
      rw [Service.recordPendingOverlay] at hmem
      dsimp only at hmem
      split at hmem
      · exact .inl (hfound hmem)
      · rcases List.mem_append.mp hmem with hin | hin
        · exact .inl (hfound hin)
        · exact .inr (List.mem_singleton.mp hin).symm
  | retainReadbackExpectations now key =>
      cases hstep
      exact fun overlay hmem =>
        .inl ((retainReadbackExpectations_narrows _ now key).overlays overlay hmem)
  | discardReadbackExpectations key path =>
      cases hstep
      exact fun overlay hmem => .inl hmem
  | expireCommand commandId source sessionId =>
      cases hstep
      exact fun overlay hmem => .inl ((expireCommand_narrows _ _ _ _).overlays overlay hmem)
  | read now =>
      cases hstep
      exact fun overlay hmem => .inl ((purgeExpired_narrows _ now).overlays overlay hmem)
  | store op =>
      cases hstep
      exact fun overlay hmem => .inl hmem

theorem run_overlays {actions : List (Action V)} (hrun : exec System.step s actions = some s') :
    ∀ overlay ∈ s'.service.overlays, overlay ∈ s.service.overlays ∨
      ∃ a ∈ actions, a.Records overlay := by
  induction actions generalizing s with
  | nil =>
      cases hrun
      exact fun _ hmem => .inl hmem
  | cons a rest ih =>
      obtain ⟨m, hstep, hrest⟩ := exec_cons_eq_some.mp hrun
      intro overlay hmem
      rcases ih hrest overlay hmem with hold | ⟨b, hb, hrecords⟩
      · rcases step_overlays hstep overlay hold with hold' | hrecords
        · exact .inl hold'
        · exact .inr ⟨a, List.mem_cons_self, hrecords⟩
      · exact .inr ⟨b, List.mem_cons_of_mem a hb, hrecords⟩

/-- In every reachable state the tables are bounded; a command whose last event is a failure has
nothing pending, unless another module records an overlay for it or fails it by itself; an
observation removes what it matches and what has expired; and what is projected to a source and
session was recorded under them. -/
theorem tables_safe {store : Store V} {ttl : Time} {h : 0 ≤ ttl} {actions : List (Action V)}
    (hrun : exec System.step (init store ttl h) actions = some s) :
    (s.service.active.items.length ≤ 128 ∧ s.service.readbackExpectations.length ≤ 128) ∧
      (Along System.step Proper (init store ttl h) actions →
        ∀ key, s.service.Failed key → s.service.Clear key) ∧
      (∀ now o, Removes now o s.service (s.service.applyObservation now o).2) ∧
      ∀ now source sessionId paths path value,
        (s.service.projectPendingValues now source sessionId paths).get? path = some value →
          ∃ overlay : PendingOverlay V, (∃ a ∈ actions, a.Records overlay) ∧
            overlay.key.source = source ∧ overlay.key.sessionId = sessionId ∧
            overlay.path = path ∧ overlay.value = value := by
  refine ⟨?_, fun hok => ?_, fun now o => s.service.applyObservation_removes now o, ?_⟩
  · have hbound : Bounded s.service :=
      exec_invariant (I := fun m : System V => Bounded m.service)
        (fun _ _ _ hm hstep => step_bounded hm hstep) hrun ⟨Nat.zero_le _, Nat.zero_le _⟩
    exact ⟨hbound.active, hbound.expectations⟩
  · refine exec_invariant_along (I := fun m : System V => Clean m.service)
      (fun _ _ _ hm hp hstep => step_clean hm hp hstep) hrun hok ?_
    rintro key ⟨event, hlast, -⟩
    cases hlast
  · intro now source sessionId paths path value hvalue
    obtain ⟨overlay, hmem, hsource, hsession, hpath, hequal⟩ :=
      s.service.projectPendingValues_mem hvalue
    rcases run_overlays hrun overlay hmem with hnone | hrecords
    · cases hnone
    · exact ⟨overlay, hrecords, hsource, hsession, hpath, hequal⟩

/-- The overlay that a client records for its command. -/
def ritOverlay : PendingOverlay Scalar where
  key := ritKey
  path := ritFreq
  value := .int 500
  expiresAt := 3

/-- A command is executed and fails: the tables are bounded and nothing of it is pending. -/
theorem tables_safe_failed :
    ∃ s, exec System.step newSystem
        [.execute 0 setRit, .finish 0 0 (.raised "refused")] = some s ∧
      s.service.active.items.length ≤ 128 ∧
      (s.service.Failed ritKey → s.service.Clear ritKey) := by
  have hsome : (exec System.step newSystem
      [.execute 0 setRit, .finish 0 0 (.raised "refused")]).isSome = true := by decide +kernel
  obtain ⟨s, hs⟩ := Option.isSome_iff_exists.mp hsome
  obtain ⟨⟨hactive, -⟩, hclean, -⟩ := tables_safe hs
  exact ⟨s, hs, hactive, hclean ⟨trivial, fun _ _ => ⟨trivial, fun _ _ => trivial⟩⟩ ritKey⟩

/-- An overlay that is recorded for a command after it failed stays. -/
theorem overlay_of_failed :
    ∃ s, exec System.step newSystem [.execute 0 setRit, .finish 0 0 (.raised "refused"),
        .recordPendingOverlay 1 ritOverlay] = some s ∧
      s.service.Failed ritKey ∧ ¬ s.service.Clear ritKey := by
  have hboth : (exec System.step newSystem [.execute 0 setRit, .finish 0 0 (.raised "refused"),
      .recordPendingOverlay 1 ritOverlay]).map
        (fun s => (decide (s.service.Failed ritKey), s.service.overlays.map PendingOverlay.key)) =
          some (true, [ritKey]) := by decide +kernel
  obtain ⟨s, hs, heq⟩ := Option.map_eq_some_iff.mp hboth
  obtain ⟨hfailed, hkeys⟩ := Prod.mk.inj heq
  refine ⟨s, hs, of_decide_eq_true hfailed, fun hclear => ?_⟩
  have hmem : ritKey ∈ s.service.overlays.map PendingOverlay.key := by
    rw [hkeys]
    exact List.mem_singleton_self _
  obtain ⟨overlay, hoverlay, hkey⟩ := List.mem_map.mp hmem
  exact hclear.overlays overlay hoverlay hkey

end System

end Rigplane.CommandService
