import Rigplane.Civ.RequestTracker

/-!
# What an event completes

Each event completes one future at most and each future once, with a frame of the generation of
its waiter.  An ACK or a NAK goes to the oldest live waiter, and on ordered ingress no sink stays
behind an answered one.  A response goes to the oldest waiter of its key whether or not that one is
live, so that it is lost where a finished waiter stands before a live one.
-/

namespace Rigplane.Civ

namespace CivRequestTracker

variable {t t' : CivRequestTracker}

/-! ## What the steps owe -/

/-- A waiter whose future, if it has one, is not done. -/
def Live (t : CivRequestTracker) (waiter : AckWaiter) : Prop :=
  waiter.generation = t.generation ∧ ∀ future, waiter.future = some future →
    (t.futures future).done = false

/-- Whether the waiter is for an answer of the kind. -/
def Takes (nak : Bool) (waiter : AckWaiter) : Prop := waiter.nakOnly = true → nak = true

/-- The futures when the waiter has taken the frame. -/
def taken (t : CivRequestTracker) (waiter : AckWaiter) (frame : CivFrame) : Nat → Future :=
  match waiter.future with
  | some future => Function.update t.futures future (.result frame)
  | none => t.futures

/-- The frame goes to the oldest live waiter that accepts it, and to no other. -/
structure AckGoes (t t' : CivRequestTracker) (nak : Bool) (frame : CivFrame) : Prop where
  oldest : ∀ waiter ∈ t.ackWaiters, t.Live waiter → Takes nak waiter →
    (∀ other ∈ t.ackWaiters, t.Live other → Takes nak other → waiter.token ≤ other.token) →
    waiter ∉ t'.ackWaiters ∧ t'.futures = t.taken waiter frame ∧
      ∀ other ∈ t.ackWaiters, other ≠ waiter → t.Live other → other ∈ t'.ackWaiters
  none : (∀ waiter ∈ t.ackWaiters, t.Live waiter → ¬ Takes nak waiter) → t'.futures = t.futures

/-- The frame completes no future of another key, and takes no finished waiter where a live one
of its key is pending. -/
structure ResponseGoes (t t' : CivRequestTracker) (frame : CivFrame) : Prop where
  matching : ∀ future, t'.futures future ≠ t.futures future →
    ∃ pending ∈ t.responseWaiters, pending.future = future ∧ pending.key.accepts frame = true ∧
      t'.futures future = .result frame
  live : (∃ pending ∈ t.responseWaiters, pending.key.accepts frame = true ∧
      (t.futures pending.future).done = false) →
    ∀ finished ∈ t.responseWaiters, (t.futures finished.future).done = true →
      finished ∈ t'.responseWaiters

/-- No sink that is older than a retired one remains. -/
def SinksGo (t t' : CivRequestTracker) : Prop :=
  ∀ sink ∈ t.ackWaiters, sink.future = none → sink ∉ t'.ackWaiters →
    ∀ older ∈ t'.ackWaiters, older.future = none → sink.token ≤ older.token

/-- The events with a frame of the present generation go where they should. -/
def Proper (t : CivRequestTracker) : Action → Prop
  | .resolve event generation orderedIngress now =>
      ∀ frame, event.frame = some frame → generation.getD t.generation = t.generation →
        (event.type = .ack →
          t.AckGoes (t.resolve event generation orderedIngress now) false frame) ∧
        (event.type = .nak →
          t.AckGoes (t.resolve event generation orderedIngress now) true frame) ∧
        (event.type = .response →
          t.ResponseGoes (t.resolve event generation orderedIngress now) frame ∧
            (orderedIngress = true →
              t.SinksGo (t.resolve event generation orderedIngress now)))
  | _ => True

/-- A finished waiter is the oldest one of the frame's key only where none of its key is live. -/
def OldestLive (t : CivRequestTracker) (frame : CivFrame) : Prop :=
  ∀ oldest, t.responseWaiters.find? (·.key.accepts frame) = some oldest →
    (t.futures oldest.future).done = true →
      ∀ pending ∈ t.responseWaiters, pending.key.accepts frame = true →
        (t.futures pending.future).done = true

/-- The responses find the tracker so. -/
def Clear (t : CivRequestTracker) : Action → Prop
  | .resolve event generation _ _ =>
      ∀ frame, event.frame = some frame → generation.getD t.generation = t.generation →
        event.type = .response → t.OldestLive frame
  | _ => True

/-- Each event has completed one future at most and each future is completed once, never with a
frame of another generation than that of its waiter. -/
structure Accounted (t : CivRequestTracker) : Prop where
  events : (t.completions.map (·.event)).Nodup
  futures : (t.completions.map (·.future)).Nodup
  generations : ∀ c ∈ t.completions, c.frameGeneration = c.generation
  results : ∀ future frame, t.futures future = .result frame ↔
    ∃ c ∈ t.completions, c.future = future ∧ c.frame = frame

/-! ## The invariant -/

structure Ok (t : CivRequestTracker) : Prop where
  ackGeneration : ∀ w ∈ t.ackWaiters, w.generation = t.generation
  tokens : t.ackWaiters.Pairwise (·.token < ·.token)
  newToken : ∀ w ∈ t.ackWaiters, w.token < t.nextAckToken
  keyed : ∀ w ∈ t.ackWaiters, w.responseKey.isSome = true → w.future = none
  ackMade : ∀ w ∈ t.ackWaiters, ∀ future, w.future = some future → future < t.made
  responseGeneration : ∀ p ∈ t.responseWaiters, p.generation = t.generation
  responseMade : ∀ p ∈ t.responseWaiters, p.future < t.made
  responseOnce : (t.responseWaiters.map (·.future)).Nodup
  backlogGeneration : ∀ e ∈ t.ackBacklog,
    e.generation = t.generation ∧ e.frameGeneration = t.generation
  parked : ∀ e ∈ t.ackBacklog, e.event < t.events
  arrived : ∀ c ∈ t.completions, c.event < t.events
  eventOnce : (t.ackBacklog.map (·.event) ++ t.completions.map (·.event)).Nodup
  completedMade : ∀ c ∈ t.completions, c.future < t.made
  accounted : t.Accounted

theorem Ok.init (staleTtl : Time) (ackBacklogSize : Nat) (ackBacklogTtl : Time) :
    Ok (init staleTtl ackBacklogSize ackBacklogTtl) := by
  constructor <;> simp [CivRequestTracker.init]
  constructor <;> simp

/-- Waiters and entries go, and futures fail or are cancelled; nothing is completed. -/
structure Shrinks (t t' : CivRequestTracker) : Prop where
  ackWaiters : t'.ackWaiters.Sublist t.ackWaiters
  responseWaiters : t'.responseWaiters.Sublist t.responseWaiters
  ackBacklog : t'.ackBacklog.Sublist t.ackBacklog
  generation : t'.generation = t.generation
  nextAckToken : t.nextAckToken ≤ t'.nextAckToken
  made : t'.made = t.made
  events : t.events ≤ t'.events
  completions : t'.completions = t.completions
  futures : ∀ future frame, t'.futures future = .result frame ↔ t.futures future = .result frame

theorem Shrinks.trans {t'' : CivRequestTracker} (h : Shrinks t t') (h' : Shrinks t' t'') :
    Shrinks t t'' where
  ackWaiters := h'.ackWaiters.trans h.ackWaiters
  responseWaiters := h'.responseWaiters.trans h.responseWaiters
  ackBacklog := h'.ackBacklog.trans h.ackBacklog
  generation := h'.generation.trans h.generation
  nextAckToken := Nat.le_trans h.nextAckToken h'.nextAckToken
  made := h'.made.trans h.made
  events := Nat.le_trans h.events h'.events
  completions := h'.completions.trans h.completions
  futures := fun future frame => (h'.futures future frame).trans (h.futures future frame)

theorem Accounted.of_shrinks (h : t.Accounted) (hs : Shrinks t t') : t'.Accounted where
  events := by rw [hs.completions]; exact h.events
  futures := by rw [hs.completions]; exact h.futures
  generations := by rw [hs.completions]; exact h.generations
  results := by
    intro future frame
    rw [hs.completions, hs.futures]
    exact h.results future frame

theorem Ok.of_shrinks (h : Ok t) (hs : Shrinks t t') : Ok t' where
  ackGeneration := by
    intro w hw
    rw [hs.generation]
    exact h.ackGeneration w (hs.ackWaiters.subset hw)
  tokens := h.tokens.sublist hs.ackWaiters
  newToken := fun w hw =>
    Nat.lt_of_lt_of_le (h.newToken w (hs.ackWaiters.subset hw)) hs.nextAckToken
  keyed := fun w hw => h.keyed w (hs.ackWaiters.subset hw)
  ackMade := by
    intro w hw
    rw [hs.made]
    exact h.ackMade w (hs.ackWaiters.subset hw)
  responseGeneration := by
    intro p hp
    rw [hs.generation]
    exact h.responseGeneration p (hs.responseWaiters.subset hp)
  responseMade := by
    intro p hp
    rw [hs.made]
    exact h.responseMade p (hs.responseWaiters.subset hp)
  responseOnce := h.responseOnce.sublist (hs.responseWaiters.map _)
  backlogGeneration := by
    intro e he
    rw [hs.generation]
    exact h.backlogGeneration e (hs.ackBacklog.subset he)
  parked := fun e he => Nat.lt_of_lt_of_le (h.parked e (hs.ackBacklog.subset he)) hs.events
  arrived := by
    rw [hs.completions]
    exact fun c hc => Nat.lt_of_lt_of_le (h.arrived c hc) hs.events
  eventOnce := by
    rw [hs.completions]
    exact h.eventOnce.sublist ((hs.ackBacklog.map _).append (List.Sublist.refl _))
  completedMade := by
    rw [hs.completions, hs.made]
    exact h.completedMade
  accounted := h.accounted.of_shrinks hs

/-! ## What shrinks -/

theorem failFutures_result (futures : Nat → Future) (failure : Failure) (list : List Nat)
    (future : Nat) (frame : CivFrame) :
    failFutures futures failure list future = .result frame ↔ futures future = .result frame := by
  induction list generalizing futures with
  | nil => rfl
  | cons f rest ih =>
      rw [failFutures, ih]
      split
      · rfl
      · next hd =>
          rw [Function.update_apply]
          split
          · next he =>
              subst he
              constructor
              · intro hr
                cases hr
              · intro hr
                simp [hr, Future.done] at hd
          · rfl

theorem pruneEntries_sublist (generation : Nat) (ttl cutoff : Time)
    (entries : List AckBacklogEntry) :
    (pruneEntries generation ttl cutoff entries).1.Sublist entries := by
  induction entries with
  | nil => exact List.Sublist.refl _
  | cons head rest ih =>
      rw [pruneEntries]
      split
      · exact ih.cons _
      · split
        · exact List.Sublist.refl _
        · exact ih.cons _

/-- What leaves every future as it is and takes no waiter or entry in. -/
theorem Shrinks.refl (t : CivRequestTracker) : Shrinks t t :=
  ⟨.refl _, .refl _, .refl _, rfl, Nat.le_refl _, rfl, Nat.le_refl _, rfl, fun _ _ => Iff.rfl⟩

theorem shrinks_prune (t : CivRequestTracker) (now : Time) : Shrinks t (t.pruneAckBacklog now) :=
  { Shrinks.refl t with ackBacklog := pruneEntries_sublist _ _ _ _ }

theorem shrinks_unregister (t : CivRequestTracker) (future : Nat) :
    Shrinks t (t.unregister future) :=
  { Shrinks.refl t with
    ackWaiters := List.filter_sublist
    responseWaiters := List.filter_sublist }

theorem shrinks_unregisterAckSink (t : CivRequestTracker) (token : Nat) :
    Shrinks t (t.unregisterAckSink token) :=
  { Shrinks.refl t with ackWaiters := List.eraseP_sublist }

theorem shrinks_noteAckUnclaimed (t : CivRequestTracker) (now : Time) :
    Shrinks t (t.noteAckUnclaimed now) :=
  { Shrinks.refl t with }

theorem shrinks_ackWaiters (t : CivRequestTracker) {waiters : List AckWaiter}
    (h : waiters.Sublist t.ackWaiters) : Shrinks t { t with ackWaiters := waiters } :=
  { Shrinks.refl t with ackWaiters := h }

theorem shrinks_dropAckSinks (t : CivRequestTracker) (now : Time) :
    Shrinks t (t.dropAckSinks now) := by
  unfold dropAckSinks
  dsimp only
  split
  · exact (shrinks_noteAckUnclaimed t now).trans (shrinks_ackWaiters _ List.filter_sublist)
  · exact shrinks_ackWaiters _ List.filter_sublist

theorem shrinks_dropAckBacklog (t : CivRequestTracker) : Shrinks t t.dropAckBacklog :=
  { Shrinks.refl t with ackBacklog := List.nil_sublist _ }

theorem shrinks_cleanupStale (t : CivRequestTracker) (now : Time) :
    Shrinks t (t.cleanupStale now) :=
  { Shrinks.refl t with
    ackWaiters := List.filter_sublist
    responseWaiters := List.filter_sublist
    futures := fun future frame =>
      (failFutures_result _ _ _ future frame).trans (failFutures_result _ _ _ future frame) }

theorem shrinks_failAll (t : CivRequestTracker) (text : String) : Shrinks t (t.failAll text) :=
  { Shrinks.refl t with
    ackWaiters := List.nil_sublist _
    responseWaiters := List.nil_sublist _
    ackBacklog := List.nil_sublist _
    futures := fun future frame =>
      (failFutures_result _ _ _ future frame).trans (failFutures_result _ _ _ future frame) }

theorem shrinks_cancel (t : CivRequestTracker) {future : Nat}
    (hd : (t.futures future).done = false) :
    Shrinks t { t with futures := Function.update t.futures future .cancelled } where
  __ := Shrinks.refl t
  futures := by
    intro f frame
    simp only [Function.update_apply]
    split
    · next he =>
        subst he
        constructor
        · intro hr
          cases hr
        · intro hr
          simp [hr, Future.done] at hd
    · rfl

theorem shrinks_event (t : CivRequestTracker) : Shrinks t { t with events := t.events + 1 } :=
  { Shrinks.refl t with events := Nat.le_succ _ }

theorem takeAck_sublist (generation : Nat) (nak : Bool) (futures : Nat → Future)
    (waiters : List AckWaiter) :
    (takeAck generation nak futures waiters).2.Sublist waiters := by
  induction waiters with
  | nil => exact List.Sublist.refl _
  | cons waiter rest ih =>
      rw [takeAck]
      split
      · exact ih.cons _
      · split
        · exact ih.cons_cons _
        · split
          · split
            · exact ih.cons _
            · exact List.sublist_cons_self _ _
          · exact List.sublist_cons_self _ _

theorem takeResponse_sublist (generation : Nat) (frame : CivFrame)
    (waiters : List PendingRequest) :
    (takeResponse generation frame waiters).2.Sublist waiters := by
  induction waiters with
  | nil => exact List.Sublist.refl _
  | cons waiter rest ih =>
      rw [takeResponse]
      split
      · exact ih.cons _
      · split
        · exact List.sublist_cons_self _ _
        · exact ih.cons_cons _

theorem take_drop_sublist (waiters : List AckWaiter) (index : Nat) :
    (waiters.take index ++ waiters.drop (index + 1)).Sublist waiters := by
  conv_rhs => rw [← List.take_append_drop index waiters]
  exact (List.Sublist.refl _).append (List.drop_sublist_drop_left _ (Nat.le_succ _))

theorem shrinks_retireSink (t : CivRequestTracker) (frame : CivFrame) (orderedIngress : Bool)
    (now : Time) : Shrinks t (t.retireSink frame orderedIngress now) := by
  unfold retireSink
  split
  · exact Shrinks.refl t
  · split
    · exact Shrinks.refl t
    · next index _ =>
        have hsub := take_drop_sublist t.ackWaiters index
        have hkept : ((t.ackWaiters.take index).filter (·.future.isSome) ++
            t.ackWaiters.drop (index + 1)).Sublist t.ackWaiters :=
          (List.filter_sublist.append (List.Sublist.refl _)).trans hsub
        split
        · unfold retirePassedBy
          dsimp only
          split
          · exact (shrinks_noteAckUnclaimed t now).trans (shrinks_ackWaiters _ hkept)
          · exact shrinks_ackWaiters _ hkept
        · exact shrinks_ackWaiters _ hsub

/-! ## What grows -/

/-- The number of an event that has completed nothing and is not parked. -/
structure Fresh (t : CivRequestTracker) (event : Nat) : Prop where
  arrived : event < t.events
  parked : event ∉ t.ackBacklog.map (·.event)
  unused : event ∉ t.completions.map (·.event)

theorem Fresh.of_shrinks {event : Nat} (h : t.Fresh event) (hs : Shrinks t t') :
    t'.Fresh event where
  arrived := Nat.lt_of_lt_of_le h.arrived hs.events
  parked := fun hm => h.parked ((hs.ackBacklog.map _).subset hm)
  unused := by
    rw [hs.completions]
    exact h.unused

/-- A pending future takes the frame of an event. -/
theorem Ok.setResult (h : Ok t) {future event : Nat} (hf : t.Fresh event)
    (hd : (t.futures future).done = false) (hm : future < t.made) (frame : CivFrame) :
    Ok (t.setResult future frame event t.generation t.generation) := by
  have hother : ∀ c ∈ t.completions, c.future ≠ future := by
    rintro c hc rfl
    rw [(h.accounted.results c.future c.frame).mpr ⟨c, hc, rfl, rfl⟩] at hd
    cases hd
  have haccounted : (t.setResult future frame event t.generation t.generation).Accounted := by
    refine ⟨?_, ?_, ?_, ?_⟩
    · simp only [CivRequestTracker.setResult, List.map_append, List.map_cons, List.map_nil]
      refine List.nodup_append.mpr ⟨h.accounted.events, by simp, ?_⟩
      rintro e he e' he' rfl
      rw [List.mem_singleton.mp he'] at he
      exact hf.unused he
    · simp only [CivRequestTracker.setResult, List.map_append, List.map_cons, List.map_nil]
      refine List.nodup_append.mpr ⟨h.accounted.futures, by simp, ?_⟩
      rintro f hf f' hf' rfl
      rw [List.mem_singleton.mp hf'] at hf
      obtain ⟨c, hc, he⟩ := List.mem_map.mp hf
      exact hother c hc he
    · intro c hc
      rcases List.mem_append.mp hc with hc | hc
      · exact h.accounted.generations c hc
      · rw [List.mem_singleton.mp hc]
    · intro f frame'
      simp only [CivRequestTracker.setResult, Function.update_apply, List.mem_append,
        List.mem_singleton]
      split
      · next he =>
          subst he
          constructor
          · intro hr
            cases hr
            exact ⟨_, .inr rfl, rfl, rfl⟩
          · rintro ⟨c, hc | rfl, hcf, hframe⟩
            · exact absurd hcf (hother c hc)
            · exact congrArg _ hframe
      · next he =>
          rw [h.accounted.results]
          constructor
          · rintro ⟨c, hc, hcf⟩
            exact ⟨c, .inl hc, hcf⟩
          · rintro ⟨c, hc | rfl, hcf, hframe⟩
            · exact ⟨c, hc, hcf, hframe⟩
            · exact absurd hcf.symm he
  refine { h with arrived := ?_, eventOnce := ?_, completedMade := ?_, accounted := haccounted }
  · intro c hc
    rcases List.mem_append.mp hc with hc | hc
    · exact h.arrived c hc
    · rw [List.mem_singleton.mp hc]
      exact hf.arrived
  · simp only [CivRequestTracker.setResult, List.map_append, List.map_cons, List.map_nil]
    rw [← List.append_assoc]
    refine List.nodup_append.mpr ⟨h.eventOnce, by simp, ?_⟩
    rintro e he e' he' rfl
    rw [List.mem_singleton.mp he'] at he
    rcases List.mem_append.mp he with he | he
    · exact hf.parked he
    · exact hf.unused he
  · intro c hc
    rcases List.mem_append.mp hc with hc | hc
    · exact h.completedMade c hc
    · rw [List.mem_singleton.mp hc]
      exact hm

/-- A future is made; nothing waits for it yet. -/
theorem Ok.make (h : Ok t) :
    Ok { t with made := t.made + 1, futures := Function.update t.futures t.made .pending } := by
  have hresults : ∀ future frame, Function.update t.futures t.made .pending future =
      .result frame ↔ ∃ c ∈ t.completions, c.future = future ∧ c.frame = frame := by
    intro future frame
    rw [Function.update_apply]
    split
    · next he =>
        subst he
        constructor
        · intro hr
          cases hr
        · rintro ⟨c, hc, he, _⟩
          exact absurd he (Nat.ne_of_lt (h.completedMade c hc))
    · exact h.accounted.results future frame
  exact { h with
    ackMade := fun w hw f hf => Nat.lt_succ_of_lt (h.ackMade w hw f hf)
    responseMade := fun p hp => Nat.lt_succ_of_lt (h.responseMade p hp)
    completedMade := fun c hc => Nat.lt_succ_of_lt (h.completedMade c hc)
    accounted := { h.accounted with results := hresults } }

/-- A waiter goes behind the others, with a token that was not given before. -/
theorem Ok.appendAck (h : Ok t) {waiter : AckWaiter} (hg : waiter.generation = t.generation)
    (htoken : waiter.token < t.nextAckToken)
    (hnew : ∀ w ∈ t.ackWaiters, w.token < waiter.token)
    (hkeyed : waiter.responseKey.isSome = true → waiter.future = none)
    (hmade : ∀ future, waiter.future = some future → future < t.made) :
    Ok { t with ackWaiters := t.ackWaiters ++ [waiter] } := by
  have hall : ∀ {P : AckWaiter → Prop}, (∀ w ∈ t.ackWaiters, P w) → P waiter →
      ∀ w ∈ t.ackWaiters ++ [waiter], P w := by
    intro P hold hw w hm
    rcases List.mem_append.mp hm with hm | hm
    · exact hold w hm
    · rw [List.mem_singleton.mp hm]
      exact hw
  refine { h with
    ackGeneration := hall h.ackGeneration hg
    tokens := ?_
    newToken := hall h.newToken htoken
    keyed := hall h.keyed hkeyed
    ackMade := hall h.ackMade hmade
    accounted := { h.accounted with } }
  refine List.pairwise_append.mpr ⟨h.tokens, by simp, ?_⟩
  intro w hw w' hw'
  rw [List.mem_singleton.mp hw']
  exact hnew w hw

theorem Ok.appendResponse (h : Ok t) {pending : PendingRequest}
    (hg : pending.generation = t.generation) (hmade : pending.future < t.made)
    (hnew : ∀ p ∈ t.responseWaiters, p.future ≠ pending.future) :
    Ok { t with responseWaiters := t.responseWaiters ++ [pending] } := by
  refine { h with
    responseGeneration := ?_, responseMade := ?_, responseOnce := ?_,
      accounted := { h.accounted with } }
  · intro p hp
    rcases List.mem_append.mp hp with hp | hp
    · exact h.responseGeneration p hp
    · rw [List.mem_singleton.mp hp]
      exact hg
  · intro p hp
    rcases List.mem_append.mp hp with hp | hp
    · exact h.responseMade p hp
    · rw [List.mem_singleton.mp hp]
      exact hmade
  · simp only [List.map_append, List.map_cons, List.map_nil]
    refine List.nodup_append.mpr ⟨h.responseOnce, by simp, ?_⟩
    rintro f hf f' hf' rfl
    rw [List.mem_singleton.mp hf'] at hf
    obtain ⟨p, hp, he⟩ := List.mem_map.mp hf
    exact hnew p hp he

/-- A frame is parked in the backlog. -/
theorem Ok.park (h : Ok t) {entry : AckBacklogEntry} (hf : t.Fresh entry.event)
    (hg : entry.generation = t.generation ∧ entry.frameGeneration = t.generation) :
    Ok { t with ackBacklog := t.ackBacklog ++ [entry] } := by
  refine { h with
    backlogGeneration := ?_, parked := ?_, eventOnce := ?_, accounted := { h.accounted with } }
  · intro e he
    rcases List.mem_append.mp he with he | he
    · exact h.backlogGeneration e he
    · rw [List.mem_singleton.mp he]
      exact hg
  · intro e he
    rcases List.mem_append.mp he with he | he
    · exact h.parked e he
    · rw [List.mem_singleton.mp he]
      exact hf.arrived
  · simp only [List.map_append, List.map_cons, List.map_nil]
    have hperm : (t.ackBacklog.map (·.event) ++ [entry.event] ++
        t.completions.map (·.event)).Perm
        (entry.event :: (t.ackBacklog.map (·.event) ++ t.completions.map (·.event))) := by
      rw [List.append_assoc]
      exact List.perm_middle
    rw [hperm.nodup_iff, List.nodup_cons, List.mem_append]
    exact ⟨fun hm => hm.elim hf.parked hf.unused, h.eventOnce⟩

/-! ## The loops of `resolve` -/

/-- The waiter that takes an ACK is the first live one that accepts it; the live ones before it
stay. -/
structure TookAck (t : CivRequestTracker) (nak : Bool) (waiters : List AckWaiter)
    (waiter : AckWaiter) (left : List AckWaiter) : Prop where
  live : t.Live waiter
  takes : Takes nak waiter
  split : ∃ before after kept, waiters = before ++ waiter :: after ∧ left = kept ++ after ∧
    kept.Sublist before ∧ ∀ other ∈ before, t.Live other → ¬ Takes nak other ∧ other ∈ kept

theorem TookAck.skip {nak : Bool} {waiters left : List AckWaiter} {waiter first : AckWaiter}
    (h : t.TookAck nak waiters waiter left) (hfirst : ¬ t.Live first) :
    t.TookAck nak (first :: waiters) waiter left := by
  obtain ⟨before, after, kept, rfl, rfl, hsub, hall⟩ := h.split
  refine ⟨h.live, h.takes, first :: before, after, kept, rfl, rfl, hsub.cons _, ?_⟩
  intro other ho hl
  rcases List.mem_cons.mp ho with rfl | ho
  · exact absurd hl hfirst
  · exact hall other ho hl

theorem TookAck.keep {nak : Bool} {waiters left : List AckWaiter} {waiter first : AckWaiter}
    (h : t.TookAck nak waiters waiter left) (hfirst : ¬ Takes nak first) :
    t.TookAck nak (first :: waiters) waiter (first :: left) := by
  obtain ⟨before, after, kept, rfl, rfl, hsub, hall⟩ := h.split
  refine ⟨h.live, h.takes, first :: before, after, first :: kept, rfl, rfl, hsub.cons_cons _, ?_⟩
  intro other ho hl
  rcases List.mem_cons.mp ho with rfl | ho
  · exact ⟨hfirst, List.mem_cons_self⟩
  · exact ⟨(hall other ho hl).1, List.mem_cons_of_mem _ (hall other ho hl).2⟩

/-- What comes of the loop over the ACK waiters. -/
def AckTaken (t : CivRequestTracker) (nak : Bool) (waiters : List AckWaiter) :
    Option AckWaiter × List AckWaiter → Prop
  | (some waiter, left) => t.TookAck nak waiters waiter left
  | (none, _) => ∀ waiter ∈ waiters, t.Live waiter → ¬ Takes nak waiter

theorem AckTaken.skip {nak : Bool} {waiters : List AckWaiter} {first : AckWaiter}
    {r : Option AckWaiter × List AckWaiter} (h : t.AckTaken nak waiters r)
    (hfirst : ¬ t.Live first) : t.AckTaken nak (first :: waiters) r := by
  rcases r with ⟨_ | waiter, left⟩
  · exact List.forall_mem_cons.mpr ⟨fun hl => absurd hl hfirst, h⟩
  · exact TookAck.skip h hfirst

theorem AckTaken.keep {nak : Bool} {waiters : List AckWaiter} {first : AckWaiter}
    {r : Option AckWaiter × List AckWaiter} (h : t.AckTaken nak waiters r)
    (hfirst : ¬ Takes nak first) : t.AckTaken nak (first :: waiters) (r.1, first :: r.2) := by
  rcases r with ⟨_ | waiter, left⟩
  · exact List.forall_mem_cons.mpr ⟨fun _ => hfirst, h⟩
  · exact TookAck.keep h hfirst

theorem takeAck_spec (t : CivRequestTracker) (nak : Bool) (waiters : List AckWaiter) :
    t.AckTaken nak waiters (takeAck t.generation nak t.futures waiters) := by
  induction waiters with
  | nil => simp [takeAck, AckTaken]
  | cons first rest ih =>
      have hhere : t.Live first → Takes nak first →
          t.AckTaken nak (first :: rest) (some first, rest) :=
        fun hl ht => ⟨hl, ht, [], rest, [], rfl, rfl, .refl _, by simp⟩
      rw [takeAck]
      split
      · next hg => exact ih.skip fun hl => hg hl.1
      · next hg =>
          rw [not_not] at hg
          split
          · next hn => exact ih.keep fun ht => hn.2 (ht hn.1)
          · next hn =>
              have ht : Takes nak first := by
                intro hnak
                by_contra hne
                exact hn ⟨hnak, hne⟩
              split
              · next future hfuture =>
                  split
                  · next hd =>
                      refine ih.skip fun hl => ?_
                      rw [hl.2 future hfuture] at hd
                      cases hd
                  · next hd =>
                      refine hhere ⟨hg, fun f hf => ?_⟩ ht
                      rw [hfuture] at hf
                      cases hf
                      simpa using hd
              · next hfuture =>
                  refine hhere ⟨hg, fun f hf => ?_⟩ ht
                  rw [hfuture] at hf
                  cases hf

/-- What comes of the loop over the response waiters: the first waiter of the key is taken. -/
def ResponseTaken (frame : CivFrame) (waiters : List PendingRequest) :
    Option PendingRequest × List PendingRequest → Prop
  | (some pending, left) => waiters.find? (·.key.accepts frame) = some pending ∧
      ∃ before after, waiters = before ++ pending :: after ∧ left = before ++ after
  | (none, left) => waiters.find? (·.key.accepts frame) = none ∧ left = waiters

theorem takeResponse_spec {generation : Nat} (frame : CivFrame) {waiters : List PendingRequest}
    (hg : ∀ p ∈ waiters, p.generation = generation) :
    ResponseTaken frame waiters (takeResponse generation frame waiters) := by
  induction waiters with
  | nil => simp [takeResponse, ResponseTaken]
  | cons first rest ih =>
      obtain ⟨hfirst, hrest⟩ := List.forall_mem_cons.mp hg
      have ih := ih hrest
      rw [takeResponse, if_neg (not_not.mpr hfirst)]
      split
      · next ha => exact ⟨List.find?_cons_of_pos ha, [], rest, rfl, rfl⟩
      · next ha =>
          have hfind : (first :: rest).find? (·.key.accepts frame) =
              rest.find? (·.key.accepts frame) := List.find?_cons_of_neg ha
          generalize takeResponse generation frame rest = r at ih
          rcases r with ⟨_ | pending, left⟩
          · exact ⟨hfind.trans ih.1, congrArg _ ih.2⟩
          · obtain ⟨hf, before, after, hsplit, hleft⟩ := ih
            refine ⟨hfind.trans hf, first :: before, after, ?_, ?_⟩
            · rw [hsplit, List.cons_append]
            · rw [List.cons_append, ← hleft]

theorem popMatching_spec {nakOnly : Bool} {entries left : List AckBacklogEntry}
    {entry : AckBacklogEntry} (h : popMatching nakOnly entries = some (entry, left)) :
    ∃ before after, entries = before ++ entry :: after ∧ left = before ++ after := by
  induction entries generalizing left with
  | nil => cases h
  | cons first rest ih =>
      rw [popMatching] at h
      split at h
      · obtain ⟨⟨found, rest'⟩, hp, he⟩ := Option.map_eq_some_iff.mp h
        cases he
        obtain ⟨before, after, rfl, rfl⟩ := ih hp
        exact ⟨first :: before, after, rfl, rfl⟩
      · cases h
        exact ⟨[], _, rfl, rfl⟩

/-! ## Steps keep the invariant -/

/-- A parked frame goes to a future that is made for it. -/
theorem Ok.takeParked (h : Ok t) {nakOnly : Bool} {entry : AckBacklogEntry}
    {left : List AckBacklogEntry} (hpop : popMatching nakOnly t.ackBacklog = some (entry, left))
    {future : Nat} (hd : (t.futures future).done = false) (hm : future < t.made) :
    Ok ({ t with ackBacklog := left, ackBacklogHits := t.ackBacklogHits + 1 }.setResult future
      entry.frame entry.event entry.frameGeneration t.generation) := by
  obtain ⟨before, after, hsplit, rfl⟩ := popMatching_spec hpop
  have hentry : entry ∈ t.ackBacklog := by simp [hsplit]
  have hsub : (before ++ after).Sublist t.ackBacklog := by
    rw [hsplit]
    exact (List.Sublist.refl _).append (List.sublist_cons_self _ _)
  have hs : Shrinks t { t with
      ackBacklog := before ++ after, ackBacklogHits := t.ackBacklogHits + 1 } :=
    { Shrinks.refl t with ackBacklog := hsub }
  have honce := h.eventOnce
  rw [hsplit] at honce
  simp only [List.map_append, List.map_cons, List.append_assoc, List.cons_append] at honce
  have hnot := List.perm_middle.nodup_iff.mp honce
  rw [List.nodup_cons] at hnot
  have hfresh : Fresh { t with
      ackBacklog := before ++ after, ackBacklogHits := t.ackBacklogHits + 1 } entry.event := by
    refine ⟨h.parked entry hentry, fun hm => hnot.1 ?_, fun hm => hnot.1 ?_⟩
    · rw [← List.append_assoc, ← List.map_append]
      exact List.mem_append_left _ hm
    · exact List.mem_append_right _ (List.mem_append_right _ hm)
  rw [(h.backlogGeneration entry hentry).2]
  exact (h.of_shrinks hs).setResult hfresh hd hm entry.frame

theorem Ok.registerAck (h : Ok t) (args : AckArgs) (now : Time) : Ok (t.registerAck args now) := by
  have htoken : Shrinks t { t with nextAckToken := t.nextAckToken + 1 } :=
    { Shrinks.refl t with nextAckToken := Nat.le_succ _ }
  have hp := h.of_shrinks (htoken.trans (shrinks_prune _ now))
  unfold CivRequestTracker.registerAck
  dsimp only
  split
  · split
    · next cached left hpop =>
        split at hpop
        · exact hp.make.takeParked hpop (by simp [Future.done]) (Nat.lt_succ_self _)
        · cases hpop
    · refine hp.make.appendAck rfl (Nat.lt_succ_self _) h.newToken (by simp) ?_
      intro future hf
      cases hf
      exact Nat.lt_succ_self _
  · exact hp.appendAck rfl (Nat.lt_succ_self _) h.newToken (fun _ => rfl) (by simp)

theorem Ok.registerResponse (h : Ok t) (key : CivRequestKey) (now : Time) :
    Ok (t.registerResponse key now) :=
  h.make.appendResponse rfl (Nat.lt_succ_self _) fun p hp => Nat.ne_of_lt (h.responseMade p hp)

theorem Ok.advanceGeneration (h : Ok t) (exc : Option String) : Ok (t.advanceGeneration exc) := by
  have hf := h.of_shrinks (shrinks_failAll t (exc.getD "CI-V tracker generation advanced"))
  exact { hf with
    ackGeneration := by simp [CivRequestTracker.advanceGeneration, failAll]
    responseGeneration := by simp [CivRequestTracker.advanceGeneration, failAll]
    backlogGeneration := by simp [CivRequestTracker.advanceGeneration, failAll]
    accounted := { hf.accounted with } }

theorem Ok.parkAck (h : Ok t) {event : Nat} (hf : t.Fresh event) (frame : CivFrame) (now : Time) :
    Ok (t.parkAck frame event t.generation now) := by
  unfold CivRequestTracker.parkAck
  dsimp only
  split
  · exact h.of_shrinks { Shrinks.refl t with }
  · split
    · have hs : Shrinks t { t with
          ackBacklog := t.ackBacklog.drop 1
          ackBacklogDrops := t.ackBacklogDrops + 1
          ackOrphans := t.ackOrphans + 1 } :=
        { Shrinks.refl t with ackBacklog := List.drop_sublist _ _ }
      exact (h.of_shrinks hs).park (hf.of_shrinks hs) ⟨rfl, rfl⟩
    · have hs : Shrinks t { t with ackOrphans := t.ackOrphans + 1 } := { Shrinks.refl t with }
      exact (h.of_shrinks hs).park (hf.of_shrinks hs) ⟨rfl, rfl⟩

theorem Ok.resolveAck (h : Ok t) {event : Nat} (hf : t.Fresh event) (nak : Bool)
    (frame : CivFrame) (now : Time) : Ok (t.resolveAck nak frame event t.generation now) := by
  unfold CivRequestTracker.resolveAck
  have hp := shrinks_prune t now
  have hspec := takeAck_spec (t.pruneAckBacklog now) nak (t.pruneAckBacklog now).ackWaiters
  have hsub := takeAck_sublist (t.pruneAckBacklog now).generation nak
    (t.pruneAckBacklog now).futures (t.pruneAckBacklog now).ackWaiters
  dsimp only
  generalize takeAck (t.pruneAckBacklog now).generation nak (t.pruneAckBacklog now).futures
    (t.pruneAckBacklog now).ackWaiters = r at hspec hsub
  have hs := hp.trans (shrinks_ackWaiters _ hsub)
  rcases r with ⟨_ | waiter, left⟩
  · exact (h.of_shrinks hs).parkAck (hf.of_shrinks hs) frame now
  · obtain ⟨hlive, _, before, after, kept, hsplit, _⟩ := hspec
    have hmem : waiter ∈ t.ackWaiters := by
      have : waiter ∈ (t.pruneAckBacklog now).ackWaiters := by simp [hsplit]
      exact this
    dsimp only
    split
    · next future hfuture =>
        rw [h.ackGeneration waiter hmem]
        exact (h.of_shrinks hs).setResult (hf.of_shrinks hs) (hlive.2 future hfuture)
          (h.ackMade waiter hmem future hfuture) frame
    · split
      · exact (h.of_shrinks hs).of_shrinks { Shrinks.refl _ with }
      · exact h.of_shrinks hs

theorem Ok.resolveResponse (h : Ok t) {event : Nat} (hf : t.Fresh event) (frame : CivFrame)
    (orderedIngress : Bool) (now : Time) :
    Ok (t.resolveResponse frame event t.generation orderedIngress now) := by
  unfold CivRequestTracker.resolveResponse
  have hspec := takeResponse_spec frame h.responseGeneration
  have hsub := takeResponse_sublist t.generation frame t.responseWaiters
  dsimp only
  generalize takeResponse t.generation frame t.responseWaiters = r at hspec hsub
  have hs : Shrinks t { t with responseWaiters := r.2 } :=
    { Shrinks.refl t with responseWaiters := hsub }
  rcases r with ⟨_ | pending, left⟩
  · exact h.of_shrinks (hs.trans (shrinks_retireSink _ frame orderedIngress now))
  · have hmem : pending ∈ t.responseWaiters := by
      obtain ⟨_, before, after, hsplit, _⟩ := hspec
      simp [hsplit]
    dsimp only
    split
    · exact h.of_shrinks hs
    · next hd =>
        rw [h.responseGeneration pending hmem]
        exact (h.of_shrinks hs).setResult (hf.of_shrinks hs) (by simpa using hd)
          (h.responseMade pending hmem) frame

/-- The number of the next event is fresh once the event is counted. -/
theorem Ok.fresh (h : Ok t) : Fresh { t with events := t.events + 1 } t.events where
  arrived := Nat.lt_succ_self _
  parked := by
    intro hm
    obtain ⟨e, he, heq⟩ := List.mem_map.mp hm
    exact absurd heq (Nat.ne_of_lt (h.parked e he))
  unused := by
    intro hm
    obtain ⟨c, hc, heq⟩ := List.mem_map.mp hm
    exact absurd heq (Nat.ne_of_lt (h.arrived c hc))

theorem Ok.resolve (h : Ok t) (event : CivEvent) (generation : Option Nat)
    (orderedIngress : Bool) (now : Time) :
    Ok (t.resolve event generation orderedIngress now) := by
  have hc := h.of_shrinks (shrinks_event t)
  unfold CivRequestTracker.resolve
  dsimp only
  split
  · exact hc
  · next hg =>
      rw [not_not] at hg
      rw [hg]
      split
      · exact hc
      · next frame _ =>
          unfold resolveFrame
          split
          · exact hc.resolveAck h.fresh false frame now
          · exact hc.resolveAck h.fresh true frame now
          · exact hc.resolveResponse h.fresh frame orderedIngress now
          · exact hc

theorem Ok.step (h : Ok t) {action : Action} (hs : t.step action = some t') : Ok t' := by
  cases action with
  | registerAck args now => cases hs; exact h.registerAck args now
  | registerResponse key now => cases hs; exact h.registerResponse key now
  | unregister future => cases hs; exact h.of_shrinks (shrinks_unregister t future)
  | unregisterAckSink token => cases hs; exact h.of_shrinks (shrinks_unregisterAckSink t token)
  | dropAckSinks now => cases hs; exact h.of_shrinks (shrinks_dropAckSinks t now)
  | dropAckBacklog => cases hs; exact h.of_shrinks (shrinks_dropAckBacklog t)
  | cleanupStale now => cases hs; exact h.of_shrinks (shrinks_cleanupStale t now)
  | failAll text => cases hs; exact h.of_shrinks (shrinks_failAll t text)
  | advanceGeneration exc => cases hs; exact h.advanceGeneration exc
  | resolve event generation orderedIngress now =>
      cases hs
      exact h.resolve event generation orderedIngress now
  | takeRefusedReads => cases hs; exact h.of_shrinks { Shrinks.refl t with }
  | noteTimeout => cases hs; exact h.of_shrinks { Shrinks.refl t with }
  | noteAckUnclaimed now => cases hs; exact h.of_shrinks (shrinks_noteAckUnclaimed t now)
  | cancel future =>
      simp only [CivRequestTracker.step] at hs
      split at hs
      · next hd =>
          cases hs
          exact h.of_shrinks (shrinks_cancel t hd.2)
      · cases hs

/-! ## Steps are proper -/

theorem Ok.ackGoes (h : Ok t) (nak : Bool) (frame : CivFrame) (event frameGeneration : Nat)
    (now : Time) :
    t.AckGoes (t.resolveAck nak frame event frameGeneration now) nak frame := by
  unfold CivRequestTracker.resolveAck
  have hspec := takeAck_spec t nak t.ackWaiters
  dsimp only
  have hrun : takeAck (t.pruneAckBacklog now).generation nak (t.pruneAckBacklog now).futures
      (t.pruneAckBacklog now).ackWaiters = takeAck t.generation nak t.futures t.ackWaiters := rfl
  rw [hrun]
  generalize takeAck t.generation nak t.futures t.ackWaiters = r at hspec
  rcases r with ⟨_ | taker, left⟩
  · have hsame : ({ t.pruneAckBacklog now with ackWaiters := left }.parkAck frame event
        frameGeneration now).futures = t.futures := by
      unfold CivRequestTracker.parkAck
      dsimp only
      split
      · rfl
      · split <;> rfl
    exact ⟨fun waiter hw hl ht _ => absurd ht (hspec waiter hw hl), fun _ => hsame⟩
  · obtain ⟨hlive, htakes, before, after, kept, hsplit, rfl, hsub, hall⟩ := hspec
    have htaker : taker ∈ t.ackWaiters := by simp [hsplit]
    refine ⟨?_, fun hnone => absurd htakes (hnone taker htaker hlive)⟩
    intro waiter hw hl ht hmin
    have htokens := h.tokens
    rw [hsplit] at htokens
    obtain ⟨_, hafter, hcross⟩ := List.pairwise_append.mp htokens
    obtain ⟨hafter, _⟩ := List.pairwise_cons.mp hafter
    -- The oldest is the first that is live and accepts.
    have he : waiter = taker := by
      rw [hsplit, List.mem_append, List.mem_cons] at hw
      rcases hw with hb | he | ha
      · exact absurd ht (hall waiter hb hl).1
      · exact he
      · exact absurd (hafter waiter ha) (Nat.not_lt.mpr (hmin taker htaker hlive htakes))
    subst he
    have hout : waiter ∉ kept ++ after := by
      intro hm
      rcases List.mem_append.mp hm with hk | ha
      · exact absurd (hcross waiter (hsub.subset hk) waiter List.mem_cons_self)
          (Nat.lt_irrefl _)
      · exact absurd (hafter waiter ha) (Nat.lt_irrefl _)
    have hstay : ∀ other ∈ t.ackWaiters, other ≠ waiter → t.Live other →
        other ∈ kept ++ after := by
      intro other ho hne hlo
      rw [hsplit, List.mem_append, List.mem_cons] at ho
      rcases ho with hb | he | ha
      · exact List.mem_append_left _ (hall other hb hlo).2
      · exact absurd he hne
      · exact List.mem_append_right _ ha
    dsimp only [taken]
    rcases waiter.future with _ | future
    · dsimp only
      split
      · exact ⟨hout, rfl, hstay⟩
      · exact ⟨hout, rfl, hstay⟩
    · exact ⟨hout, rfl, hstay⟩

theorem retireSink_futures (t : CivRequestTracker) (frame : CivFrame) (orderedIngress : Bool)
    (now : Time) : (t.retireSink frame orderedIngress now).futures = t.futures := by
  unfold retireSink
  split
  · rfl
  · split
    · rfl
    · split
      · unfold retirePassedBy
        dsimp only
        split <;> rfl
      · rfl

theorem retireSink_responseWaiters (t : CivRequestTracker) (frame : CivFrame)
    (orderedIngress : Bool) (now : Time) :
    (t.retireSink frame orderedIngress now).responseWaiters = t.responseWaiters := by
  unfold retireSink
  split
  · rfl
  · split
    · rfl
    · split
      · unfold retirePassedBy
        dsimp only
        split <;> rfl
      · rfl

/-- A response goes as it should exactly where the oldest waiter of its key is live or none is. -/
theorem Ok.responseGoes (h : Ok t) (frame : CivFrame) (event frameGeneration : Nat)
    (orderedIngress : Bool) (now : Time) :
    t.ResponseGoes (t.resolveResponse frame event frameGeneration orderedIngress now) frame ↔
      t.OldestLive frame := by
  unfold CivRequestTracker.resolveResponse
  have hspec := takeResponse_spec frame h.responseGeneration
  dsimp only
  generalize takeResponse t.generation frame t.responseWaiters = r at hspec
  rcases r with ⟨_ | taker, left⟩
  · obtain ⟨hnone, rfl⟩ := hspec
    refine ⟨fun _ oldest ho => ?_, fun _ => ⟨fun future hne => ?_, fun _ finished hf _ => ?_⟩⟩
    · rw [hnone] at ho
      cases ho
    · exact absurd (congrFun (retireSink_futures _ frame orderedIngress now) future) hne
    · rw [retireSink_responseWaiters]
      exact hf
  · obtain ⟨hfind, before, after, hsplit, rfl⟩ := hspec
    have htaker : taker ∈ t.responseWaiters := by simp [hsplit]
    have haccepts : taker.key.accepts frame = true :=
      List.find?_some (p := fun p : PendingRequest => p.key.accepts frame) hfind
    have honce := h.responseOnce
    rw [hsplit] at honce
    simp only [List.map_append, List.map_cons] at honce
    have hout : taker ∉ before ++ after := by
      intro hm
      refine (List.nodup_cons.mp (List.perm_middle.nodup_iff.mp honce)).1 ?_
      rw [← List.map_append]
      exact List.mem_map_of_mem hm
    have hstay : ∀ other ∈ t.responseWaiters, other ≠ taker → other ∈ before ++ after := by
      intro other ho hne
      rw [hsplit, List.mem_append, List.mem_cons] at ho
      rcases ho with hb | he | ha
      · exact List.mem_append_left _ hb
      · exact absurd he hne
      · exact List.mem_append_right _ ha
    dsimp only
    split
    · next hd =>
        constructor
        · intro hgoes oldest ho _ pending hp ha
          rw [hfind] at ho
          cases ho
          cases hpd : (t.futures pending.future).done with
          | true => rfl
          | false => exact absurd (hgoes.live ⟨pending, hp, ha, hpd⟩ taker htaker hd) hout
        · intro hclear
          refine ⟨fun future hne => absurd rfl hne, ?_⟩
          rintro ⟨pending, hp, ha, hpd⟩
          rw [hclear taker hfind hd pending hp ha] at hpd
          cases hpd
    · next hd =>
        refine ⟨fun _ oldest ho hod => ?_, fun _ => ⟨fun future hne => ?_, ?_⟩⟩
        · rw [hfind] at ho
          cases ho
          exact absurd hod hd
        · have he : future = taker.future := by
            by_contra hf
            exact hne (Function.update_of_ne hf _ _)
          subst he
          exact ⟨taker, htaker, rfl, haccepts, Function.update_self ..⟩
        · intro _ finished hf hfd
          refine hstay finished hf ?_
          rintro rfl
          exact hd hfd

/-- Where sinks go, they go up to the answered one. -/
theorem Ok.sinksGo (h : Ok t) (frame : CivFrame) (event frameGeneration : Nat) (now : Time) :
    t.SinksGo (t.resolveResponse frame event frameGeneration true now) := by
  have hsame : ∀ {waiters : List AckWaiter}, waiters = t.ackWaiters →
      ∀ sink ∈ t.ackWaiters, sink.future = none → sink ∉ waiters →
        ∀ older ∈ waiters, older.future = none → sink.token ≤ older.token := by
    rintro _ rfl sink hs _ hout
    exact absurd hs hout
  unfold CivRequestTracker.resolveResponse
  dsimp only
  rcases takeResponse t.generation frame t.responseWaiters with ⟨_ | taker, left⟩
  · unfold retireSink
    dsimp only
    split
    · exact hsame rfl
    · split
      · exact hsame rfl
      · next index _ =>
        have hwaiters : (({ t with responseWaiters := left } : CivRequestTracker).retirePassedBy
            (t.ackWaiters.take index) (t.ackWaiters.drop (index + 1)) now).ackWaiters =
            (t.ackWaiters.take index).filter (·.future.isSome) ++ t.ackWaiters.drop
              (index + 1) := by
          unfold retirePassedBy
          dsimp only
        intro sink hs hnone hout older ho honone
        rw [if_pos rfl, hwaiters] at hout ho
        rw [List.mem_append, not_or] at hout
        have hafter : older ∈ t.ackWaiters.drop (index + 1) := by
          rcases List.mem_append.mp ho with hk | ha
          · have := (List.mem_filter.mp hk).2
            rw [honone] at this
            cases this
          · exact ha
        -- A sink that is gone stood at the answered place or before it.
        have hsplit : t.ackWaiters.take (index + 1) ++ t.ackWaiters.drop (index + 1) =
            t.ackWaiters := List.take_append_drop _ _
        have hbefore : sink ∈ t.ackWaiters.take (index + 1) := by
          rw [← hsplit] at hs
          exact (List.mem_append.mp hs).resolve_right hout.2
        have htokens := h.tokens
        rw [← hsplit] at htokens
        exact Nat.le_of_lt ((List.pairwise_append.mp htokens).2.2 sink hbefore older hafter)
  · dsimp only
    split
    · exact hsame rfl
    · exact hsame rfl

/-- An event with a frame of the present generation. -/
theorem resolve_eq {event : CivEvent} {generation : Option Nat} {frame : CivFrame}
    (hframe : event.frame = some frame) (hg : generation.getD t.generation = t.generation)
    (orderedIngress : Bool) (now : Time) :
    t.resolve event generation orderedIngress now =
      { t with events := t.events + 1 }.resolveFrame event.type frame t.events t.generation
        orderedIngress now := by
  unfold CivRequestTracker.resolve
  simp only [hg, ne_eq, not_true_eq_false, if_false, hframe]

theorem Ok.proper_iff (h : Ok t) (action : Action) : t.Proper action ↔ t.Clear action := by
  cases action with
  | resolve event generation orderedIngress now =>
      have hc := h.of_shrinks (shrinks_event t)
      constructor
      · intro hp frame hframe hg htype
        have hresponse := ((hp frame hframe hg).2.2 htype).1
        rw [resolve_eq hframe hg, htype] at hresponse
        exact (hc.responseGoes frame t.events t.generation orderedIngress now).mp
          ⟨hresponse.matching, hresponse.live⟩
      · intro hclear frame hframe hg
        rw [resolve_eq hframe hg]
        refine ⟨fun htype => ?_, fun htype => ?_, fun htype => ⟨?_, fun ho => ?_⟩⟩
        · rw [htype]
          have hgoes := hc.ackGoes false frame t.events t.generation now
          exact ⟨hgoes.oldest, hgoes.none⟩
        · rw [htype]
          have hgoes := hc.ackGoes true frame t.events t.generation now
          exact ⟨hgoes.oldest, hgoes.none⟩
        · rw [htype]
          have hgoes := (hc.responseGoes frame t.events t.generation orderedIngress now).mpr
            (hclear frame hframe hg htype)
          exact ⟨hgoes.matching, hgoes.live⟩
        · rw [htype, ho]
          exact hc.sinksGo frame t.events t.generation now
  | _ => exact Iff.rfl

/-! ## Runs -/

/-- In every run each event completes one future at most and each future is completed once, by a
frame of the generation in which its waiter was registered.  The other promises hold of the whole
run exactly where every response in it finds the oldest waiter of its key live, or none of its key
live. -/
theorem resolves_properly_iff (staleTtl : Time) (ackBacklogSize : Nat) (ackBacklogTtl : Time)
    {actions : List Action}
    (h : Runs.exec step (init staleTtl ackBacklogSize ackBacklogTtl) actions = some t) :
    t.Accounted ∧
      (Runs.Along step Proper (init staleTtl ackBacklogSize ackBacklogTtl) actions ↔
        Runs.Along step Clear (init staleTtl ackBacklogSize ackBacklogTtl) actions) :=
  ⟨(Runs.exec_invariant (fun _ _ _ hi hs => hi.step hs) h (Ok.init ..)).accounted,
    Runs.Along.congr (fun _ _ _ hi hs => hi.step hs) (fun _ action hi => hi.proper_iff action)
      (Ok.init ..)⟩

/-- Two reads of one key, of which the first is cancelled: the answer is lost on it. -/
theorem answer_lost_on_cancelled :
    ∃ t, Runs.exec step (init 10 16 1)
        [.registerResponse ⟨0x03, none, none, []⟩ 0, .registerResponse ⟨0x03, none, none, []⟩ 0,
          .cancel 0] = some t ∧
      ¬ t.Proper (.resolve ⟨.response, some { toAddr := 0xE0, fromAddr := 0x98, command := 0x03 },
        none⟩ (some 0) true 1) := by
  refine ⟨_, rfl, fun h => ?_⟩
  have hlive := (((h _ rfl rfl).2.2 rfl).1).live
    ⟨⟨⟨0x03, none, none, []⟩, 1, 0, 0⟩, by decide, by decide, by decide⟩
    ⟨⟨0x03, none, none, []⟩, 0, 0, 0⟩ (by decide) (by decide)
  revert hlive
  decide

/-- A read that is answered while it waits. -/
theorem resolves_properly_read :
    Runs.Along step Proper (init 10 16 1)
      [.registerResponse ⟨0x03, none, none, []⟩ 0,
        .resolve ⟨.response, some { toAddr := 0xE0, fromAddr := 0x98, command := 0x03 }, none⟩
          (some 0) true 1] := by
  refine (resolves_properly_iff 10 16 1 rfl).2.mpr ⟨trivial, fun m hm => ⟨?_, fun _ _ => trivial⟩⟩
  cases hm
  intro frame hframe _ _ oldest ho hd
  cases hframe
  cases ho
  cases hd

end CivRequestTracker

end Rigplane.Civ
