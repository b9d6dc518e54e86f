import Mathlib.Data.List.Basic
import Mathlib.Logic.Function.Basic
import Rigplane.Lib.Runs

/-!
# The coalesced handoff to a loop

`CoalescedLoopHandoff` of `audio/loop_handoff.py`.  A step is what happens under the lock, or one
call between two locked parts: the producers are at any point of `submit` while the loop drains and
delivers.

`drain_scheduled` is set before the callback is, so one thing goes with it: a producer that is about
to schedule, a scheduled drain, a producer whose `call_soon_threadsafe` raised and that is about to
release the buffer, or nothing at all: `loop.close()` drops the callbacks that have not run, the
drain among them, and `submit` trusts the flag (`Owned`).

`submitted` and `delivered` list the frames that entered the buffer and those that `deliver` got,
and `buffered` is what a drain found; no step reads them.
-/

namespace Rigplane.Audio

/-- Where a producer is in `submit`. -/
inductive SubmitPhase where
  | idle
  /-- Before `call_soon_threadsafe`. -/
  | scheduling
  /-- The call raised; before the second locked part. -/
  | failed
deriving DecidableEq

/-- How a call of `deliver` ends. -/
inductive DeliverOutcome where
  | returns
  | raises
  /-- It raises a `BaseException` that is no `Exception`, which `except Exception` lets pass. -/
  | raisesBase
deriving DecidableEq

/-- A drain that delivers: what it found in the buffer, what it handed out and what is left. -/
structure Drain (F : Type) where
  buffered : List F
  handed : List F := []
  batch : List F

structure LoopHandoff (Thread F : Type) where
  pending : List F := []
  drainScheduled : Bool := false
  closed : Bool := false
  phase : Thread → SubmitPhase := fun _ => .idle
  loopClosed : Bool := false
  /-- The `_drain` callbacks in the loop's queue. -/
  scheduled : Nat := 0
  drain : Option (Drain F) := none
  finished : List (Drain F) := []
  submitted : List F := []
  delivered : List F := []

inductive HandoffAction (Thread F : Type) where
  /-- The first locked part of `submit`. -/
  | submit (thread : Thread) (frame : F)
  | callSoon (thread : Thread)
  /-- The second locked part, and the raise. -/
  | release (thread : Thread)
  /-- The locked part of `_drain`. -/
  | beginDrain
  | deliver (outcome : DeliverOutcome)
  | endDrain
  /-- `loop.close()`; it raises while a callback of the loop runs. -/
  | closeLoop

namespace LoopHandoff

variable {Thread F : Type} [DecidableEq Thread]

/-- The frames of the batch that are not delivered yet. -/
def batch (h : LoopHandoff Thread F) : List F :=
  match h.drain with
  | some drain => drain.batch
  | none => []

def setPhase (h : LoopHandoff Thread F) (thread : Thread) (phase : SubmitPhase) :
    LoopHandoff Thread F := { h with phase := Function.update h.phase thread phase }

def submit (h : LoopHandoff Thread F) (thread : Thread) (frame : F) : LoopHandoff Thread F :=
  if h.closed then h
  else
    let h := { h with pending := h.pending ++ [frame], submitted := h.submitted ++ [frame] }
    if h.drainScheduled then h
    else { h with drainScheduled := true }.setPhase thread .scheduling

def callSoon (h : LoopHandoff Thread F) (thread : Thread) : LoopHandoff Thread F :=
  if h.loopClosed then h.setPhase thread .failed
  else { h with scheduled := h.scheduled + 1 }.setPhase thread .idle

def release (h : LoopHandoff Thread F) (thread : Thread) : LoopHandoff Thread F :=
  { h with closed := true, pending := [], drainScheduled := false }.setPhase thread .idle

def beginDrain (h : LoopHandoff Thread F) : LoopHandoff Thread F :=
  { h with
    scheduled := h.scheduled - 1
    drainScheduled := false
    pending := []
    drain := some { buffered := h.pending, batch := h.pending } }

/-- The drain with its next frame handed out. -/
def handOut (h : LoopHandoff Thread F) (drain : Drain F) (frame : F) (rest : List F)
    (outcome : DeliverOutcome) : LoopHandoff Thread F :=
  let drain := { drain with handed := drain.handed ++ [frame], batch := rest }
  let h := { h with delivered := h.delivered ++ [frame] }
  match outcome with
  | .returns | .raises => { h with drain := some drain }
  | .raisesBase => { h with drain := none, finished := h.finished ++ [drain] }

def step (h : LoopHandoff Thread F) : HandoffAction Thread F → Option (LoopHandoff Thread F)
  | .submit thread frame => if h.phase thread = .idle then some (h.submit thread frame) else none
  | .callSoon thread => if h.phase thread = .scheduling then some (h.callSoon thread) else none
  | .release thread => if h.phase thread = .failed then some (h.release thread) else none
  | .beginDrain =>
      if h.loopClosed = false ∧ 0 < h.scheduled ∧ h.drain.isNone then some h.beginDrain else none
  | .deliver outcome =>
      match h.drain with
      | some drain =>
          match drain.batch with
          | frame :: rest => some (h.handOut drain frame rest outcome)
          | [] => none
      | none => none
  | .endDrain =>
      match h.drain with
      | some drain =>
          if drain.batch.isEmpty then
            some { h with drain := none, finished := h.finished ++ [drain] }
          else none
      | none => none
  | .closeLoop =>
      if h.drain.isSome then some h else some { h with loopClosed := true, scheduled := 0 }

/-- The loop, where it can be closed, is not closed before a scheduled drain, and no delivery with
frames behind it in its batch raises a `BaseException`. -/
def Keeps (h : LoopHandoff Thread F) (action : HandoffAction Thread F) : Prop :=
  match action with
  | .closeLoop => h.drain.isSome = false → h.scheduled = 0
  | .deliver .raisesBase => h.batch.length ≤ 1
  | _ => True

instance (h : LoopHandoff Thread F) : ∀ action, Decidable (h.Keeps action)
  | .closeLoop => inferInstanceAs (Decidable (h.drain.isSome = false → h.scheduled = 0))
  | .deliver .raisesBase => inferInstanceAs (Decidable (h.batch.length ≤ 1))
  | .deliver .returns | .deliver .raises => .isTrue trivial
  | .submit _ _ | .callSoon _ | .release _ | .beginDrain | .endDrain => .isTrue trivial

/-- While the loop is open, what was delivered, the batch and the buffer are what was submitted, in
order; and a filled buffer has a drain or a producer to schedule one, or, on the closed loop, a
producer that is about to release it. -/
structure Safe (h : LoopHandoff Thread F) : Prop where
  order : h.loopClosed = false → h.delivered ++ (h.batch ++ h.pending) = h.submitted
  wakes : h.pending ≠ [] → h.scheduled = 1 ∨ (∃ thread, h.phase thread = .scheduling) ∨
    h.loopClosed = true ∧ ∃ thread, h.phase thread = .failed

/-! ## Who answers for the flag -/

/-- What goes with `drain_scheduled`: a producer in `submit` or a scheduled drain, and one of them
only; or nothing, where the loop was closed before the drain. -/
inductive Owned (h : LoopHandoff Thread F) : Prop where
  | nobody (flag : h.drainScheduled = false) (idle : ∀ thread, h.phase thread = .idle)
      (scheduled : h.scheduled = 0)
  | producer (thread : Thread) (flag : h.drainScheduled = true) (busy : h.phase thread ≠ .idle)
      (idle : ∀ other, other ≠ thread → h.phase other = .idle) (scheduled : h.scheduled = 0)
  | drain (flag : h.drainScheduled = true) (idle : ∀ thread, h.phase thread = .idle)
      (scheduled : h.scheduled = 1) (opened : h.loopClosed = false)
  | dropped (flag : h.drainScheduled = true) (idle : ∀ thread, h.phase thread = .idle)
      (scheduled : h.scheduled = 0) (closed : h.loopClosed = true)

/-- A drain handed out what it found, in order. -/
def Drain.Sound (drain : Drain F) : Prop := drain.handed ++ drain.batch = drain.buffered

structure Kept (h : LoopHandoff Thread F) : Prop where
  owned : h.Owned
  flag_iff : h.drainScheduled = true ↔ h.pending ≠ []
  failed_closed : ∀ thread, h.phase thread = .failed → h.loopClosed = true
  closed_empty : h.closed = true → h.pending = [] ∧ h.loopClosed = true
  drain_sound : ∀ drain, h.drain = some drain ∨ drain ∈ h.finished → Drain.Sound drain
  drain_open : h.drain.isSome → h.loopClosed = false

/-- While nothing was released, every frame is delivered, in the batch or in the buffer. -/
def Complete (h : LoopHandoff Thread F) : Prop :=
  h.closed = false → h.delivered ++ (h.batch ++ h.pending) = h.submitted

omit [DecidableEq Thread] in
theorem Kept.initial : Kept ({} : LoopHandoff Thread F) where
  owned := .nobody rfl (fun _ => rfl) rfl
  flag_iff := by simp
  failed_closed := fun _ h => by cases h
  closed_empty := fun h => by cases h
  drain_sound := by simp
  drain_open := fun h => by cases h

variable {h h' : LoopHandoff Thread F} {thread : Thread}

theorem setPhase_self (h : LoopHandoff Thread F) (thread : Thread) (phase : SubmitPhase) :
    (h.setPhase thread phase).phase thread = phase := Function.update_self _ _ _

theorem setPhase_other {other : Thread} (h : LoopHandoff Thread F) (phase : SubmitPhase)
    (hne : other ≠ thread) : (h.setPhase thread phase).phase other = h.phase other :=
  Function.update_of_ne hne _ _

/-- Where the one busy producer leaves `submit`, all are idle. -/
theorem setPhase_idle (h : LoopHandoff Thread F)
    (hidle : ∀ other, other ≠ thread → h.phase other = .idle) (other : Thread) :
    (h.setPhase thread .idle).phase other = .idle := by
  by_cases hne : other = thread
  · rw [hne, setPhase_self]
  · rw [setPhase_other _ _ hne]
    exact hidle other hne

/-- A producer that is not idle is the one that answers for the flag. -/
theorem Owned.of_busy (hown : h.Owned) (hbusy : h.phase thread ≠ .idle) :
    h.drainScheduled = true ∧ (∀ other, other ≠ thread → h.phase other = .idle) ∧
      h.scheduled = 0 := by
  cases hown with
  | nobody _ idle _ => exact absurd (idle thread) hbusy
  | producer owner flag _ idle scheduled =>
      have heq : thread = owner := by
        by_contra hne
        exact hbusy (idle thread hne)
      subst heq
      exact ⟨flag, idle, scheduled⟩
  | drain _ idle _ _ => exact absurd (idle thread) hbusy
  | dropped _ idle _ _ => exact absurd (idle thread) hbusy

omit [DecidableEq Thread] in
/-- A scheduled drain is the only one, and no producer is in `submit`. -/
theorem Owned.of_scheduled (hown : h.Owned) (hscheduled : 0 < h.scheduled) :
    h.drainScheduled = true ∧ (∀ thread, h.phase thread = .idle) ∧ h.scheduled = 1 := by
  cases hown with
  | nobody _ _ scheduled => exact absurd hscheduled (by simp [scheduled])
  | producer _ _ _ _ scheduled => exact absurd hscheduled (by simp [scheduled])
  | drain flag idle scheduled _ => exact ⟨flag, idle, scheduled⟩
  | dropped _ _ scheduled _ => exact absurd hscheduled (by simp [scheduled])

omit [DecidableEq Thread] in
/-- Only the flag and what goes with it decide who owns it. -/
theorem Owned.of_eq {g : LoopHandoff Thread F} (hown : h.Owned)
    (hflag : g.drainScheduled = h.drainScheduled) (hphase : g.phase = h.phase)
    (hscheduled : g.scheduled = h.scheduled) (hloop : g.loopClosed = h.loopClosed) : g.Owned := by
  cases hown with
  | nobody flag idle scheduled =>
      exact .nobody (hflag.trans flag) (by rwa [hphase]) (hscheduled.trans scheduled)
  | producer owner flag busy idle scheduled =>
      exact .producer owner (hflag.trans flag) (by rwa [hphase]) (by rwa [hphase])
        (hscheduled.trans scheduled)
  | drain flag idle scheduled opened =>
      exact .drain (hflag.trans flag) (by rwa [hphase]) (hscheduled.trans scheduled)
        (hloop.trans opened)
  | dropped flag idle scheduled closed =>
      exact .dropped (hflag.trans flag) (by rwa [hphase]) (hscheduled.trans scheduled)
        (hloop.trans closed)

theorem Kept.submit (hkept : h.Kept) (thread : Thread) (frame : F) :
    (h.submit thread frame).Kept := by
  rw [LoopHandoff.submit]
  split
  · exact hkept
  · rename_i hopen
    simp only
    split
    · rename_i hflag
      exact ⟨hkept.owned.of_eq rfl rfl rfl rfl, by simp [hflag], hkept.failed_closed,
        fun hc => absurd hc hopen, hkept.drain_sound, hkept.drain_open⟩
    · rename_i hflag
      cases hkept.owned with
      | nobody _ idle scheduled =>
          refine ⟨.producer thread rfl ?_ ?_ scheduled, by simp [setPhase], ?_,
            fun hc => absurd hc hopen, hkept.drain_sound, hkept.drain_open⟩
          · rw [setPhase_self]
            simp
          · intro other hne
            rw [setPhase_other _ _ hne]
            exact idle other
          · intro other hother
            by_cases hne : other = thread
            · rw [hne, setPhase_self] at hother
              cases hother
            · rw [setPhase_other _ _ hne] at hother
              exact hkept.failed_closed other hother
      | producer _ flag _ _ _ => exact absurd flag hflag
      | drain flag _ _ _ => exact absurd flag hflag
      | dropped flag _ _ _ => exact absurd flag hflag

theorem Kept.callSoon (hkept : h.Kept) (hphase : h.phase thread = .scheduling) :
    (h.callSoon thread).Kept := by
  obtain ⟨hflag, hidle, hscheduled⟩ := hkept.owned.of_busy (by rw [hphase]; simp)
  rw [LoopHandoff.callSoon]
  split
  · rename_i hloop
    refine ⟨.producer thread hflag ?_ ?_ hscheduled, hkept.flag_iff, fun _ _ => hloop,
      hkept.closed_empty, hkept.drain_sound, hkept.drain_open⟩
    · rw [setPhase_self]
      simp
    · intro other hne
      rw [setPhase_other _ _ hne]
      exact hidle other hne
  · rename_i hloop
    have hall := setPhase_idle { h with scheduled := h.scheduled + 1 } hidle
    refine ⟨.drain hflag hall ?_ (eq_false_of_ne_true hloop), hkept.flag_iff, ?_,
      hkept.closed_empty, hkept.drain_sound, hkept.drain_open⟩
    · show h.scheduled + 1 = 1
      rw [hscheduled]
    · intro other hother
      rw [hall other] at hother
      cases hother

theorem Kept.release (hkept : h.Kept) (hphase : h.phase thread = .failed) :
    (h.release thread).Kept := by
  obtain ⟨-, hidle, hscheduled⟩ := hkept.owned.of_busy (by rw [hphase]; simp)
  have hall := setPhase_idle { h with closed := true, pending := [], drainScheduled := false } hidle
  refine ⟨.nobody rfl hall hscheduled, by simp [LoopHandoff.release, setPhase], ?_,
    fun _ => ⟨rfl, hkept.failed_closed thread hphase⟩, hkept.drain_sound, hkept.drain_open⟩
  intro other hother
  rw [LoopHandoff.release, hall other] at hother
  cases hother

omit [DecidableEq Thread] in
theorem Kept.beginDrain (hkept : h.Kept) (hopen : h.loopClosed = false)
    (hscheduled : 0 < h.scheduled) : h.beginDrain.Kept := by
  obtain ⟨-, hidle, hone⟩ := hkept.owned.of_scheduled hscheduled
  refine ⟨.nobody rfl hidle ?_, by simp [LoopHandoff.beginDrain], hkept.failed_closed,
    fun hc => ⟨rfl, (hkept.closed_empty hc).2⟩, ?_, fun _ => hopen⟩
  · show h.scheduled - 1 = 0
    rw [hone]
  · rintro drain (hdrain | hmem)
    · cases hdrain
      rfl
    · exact hkept.drain_sound drain (.inr hmem)

omit [DecidableEq Thread] in
/-- The flag, the producers and the buffer do not see what a drain delivers. -/
theorem Kept.of_drain (hkept : h.Kept) {drain : Option (Drain F)} {finished : List (Drain F)}
    {delivered : List F} (hopen : drain.isSome → h.loopClosed = false)
    (hsound : ∀ d, drain = some d ∨ d ∈ finished → Drain.Sound d) :
    ({ h with drain, finished, delivered } : LoopHandoff Thread F).Kept :=
  ⟨hkept.owned.of_eq rfl rfl rfl rfl, hkept.flag_iff, hkept.failed_closed, hkept.closed_empty,
    hsound, hopen⟩

omit [DecidableEq Thread] in
/-- A drain that ends joins those that were sound. -/
theorem Kept.sound_finished (hkept : h.Kept) {drain : Drain F} (hsound : Drain.Sound drain) :
    ∀ d, (none : Option (Drain F)) = some d ∨ d ∈ h.finished ++ [drain] → Drain.Sound d := by
  rintro d (hd | hd)
  · cases hd
  · rcases List.mem_append.mp hd with hd | hd
    · exact hkept.drain_sound d (.inr hd)
    · rw [List.mem_singleton.mp hd]
      exact hsound

omit [DecidableEq Thread] in
theorem Kept.handOut (hkept : h.Kept) {drain : Drain F} {frame : F} {rest : List F}
    (hdrain : h.drain = some drain) (hbatch : drain.batch = frame :: rest)
    (outcome : DeliverOutcome) : (h.handOut drain frame rest outcome).Kept := by
  have hopen : h.loopClosed = false := hkept.drain_open (by rw [hdrain]; rfl)
  have hsound : Drain.Sound { drain with handed := drain.handed ++ [frame], batch := rest } := by
    have hbefore := hkept.drain_sound drain (.inl hdrain)
    rw [Drain.Sound, hbatch] at hbefore
    rw [Drain.Sound, List.append_assoc]
    exact hbefore
  have hcurrent : ∀ d, some { drain with handed := drain.handed ++ [frame], batch := rest } =
      some d ∨ d ∈ h.finished → Drain.Sound d := by
    rintro d (hd | hd)
    · cases hd
      exact hsound
    · exact hkept.drain_sound d (.inr hd)
  cases outcome with
  | raisesBase => exact hkept.of_drain (fun h => by cases h) (hkept.sound_finished hsound)
  | returns => exact hkept.of_drain (fun _ => hopen) hcurrent
  | raises => exact hkept.of_drain (fun _ => hopen) hcurrent

omit [DecidableEq Thread] in
/-- The close drops the drain that was scheduled. -/
theorem Kept.closeLoop (hkept : h.Kept) (hnone : h.drain.isSome = false) :
    ({ h with loopClosed := true, scheduled := 0 } : LoopHandoff Thread F).Kept := by
  refine ⟨?_, hkept.flag_iff, fun _ _ => rfl, fun hc => ⟨(hkept.closed_empty hc).1, rfl⟩,
    hkept.drain_sound, fun hsome => absurd hsome (by simp [hnone])⟩
  cases hkept.owned with
  | nobody flag idle _ => exact .nobody flag idle rfl
  | producer owner flag busy idle _ => exact .producer owner flag busy idle rfl
  | drain flag idle _ _ => exact .dropped flag idle rfl rfl
  | dropped flag idle _ _ => exact .dropped flag idle rfl rfl

/-- What a step does. -/
inductive Stepped (h : LoopHandoff Thread F) :
    HandoffAction Thread F → LoopHandoff Thread F → Prop where
  | submit (thread : Thread) (frame : F) (idle : h.phase thread = .idle) :
      Stepped h (.submit thread frame) (h.submit thread frame)
  | callSoon (thread : Thread) (phase : h.phase thread = .scheduling) :
      Stepped h (.callSoon thread) (h.callSoon thread)
  | release (thread : Thread) (phase : h.phase thread = .failed) :
      Stepped h (.release thread) (h.release thread)
  | beginDrain (opened : h.loopClosed = false) (scheduled : 0 < h.scheduled)
      (absent : h.drain = none) : Stepped h .beginDrain h.beginDrain
  | deliver (outcome : DeliverOutcome) {drain : Drain F} {frame : F} {rest : List F}
      (running : h.drain = some drain) (batch : drain.batch = frame :: rest) :
      Stepped h (.deliver outcome) (h.handOut drain frame rest outcome)
  | endDrain {drain : Drain F} (running : h.drain = some drain) (batch : drain.batch = []) :
      Stepped h .endDrain { h with drain := none, finished := h.finished ++ [drain] }
  | refused (running : h.drain.isSome) : Stepped h .closeLoop h
  | closeLoop (absent : h.drain.isSome = false) :
      Stepped h .closeLoop { h with loopClosed := true, scheduled := 0 }

theorem stepped {action : HandoffAction Thread F} (hstep : h.step action = some h') :
    Stepped h action h' := by
  cases action with
  | submit thread frame =>
      obtain ⟨hidle, heq⟩ := Option.ite_none_right_eq_some.mp hstep
      cases heq
      exact .submit thread frame hidle
  | callSoon thread =>
      obtain ⟨hphase, heq⟩ := Option.ite_none_right_eq_some.mp hstep
      cases heq
      exact .callSoon thread hphase
  | release thread =>
      obtain ⟨hphase, heq⟩ := Option.ite_none_right_eq_some.mp hstep
      cases heq
      exact .release thread hphase
  | beginDrain =>
      obtain ⟨⟨hopen, hscheduled, hnone⟩, heq⟩ := Option.ite_none_right_eq_some.mp hstep
      cases heq
      exact .beginDrain hopen hscheduled (Option.isNone_iff_eq_none.mp hnone)
  | deliver outcome =>
      rw [LoopHandoff.step] at hstep
      split at hstep
      · rename_i drain hdrain
        split at hstep
        · rename_i frame rest hbatch
          cases hstep
          exact .deliver outcome hdrain hbatch
        · cases hstep
      · cases hstep
  | endDrain =>
      rw [LoopHandoff.step] at hstep
      split at hstep
      · rename_i drain hdrain
        split at hstep
        · rename_i hempty
          cases hstep
          exact .endDrain hdrain (List.isEmpty_iff.mp hempty)
        · cases hstep
      · cases hstep
  | closeLoop =>
      rw [LoopHandoff.step] at hstep
      split at hstep
      · rename_i hrunning
        cases hstep
        exact .refused hrunning
      · rename_i hnone
        cases hstep
        exact .closeLoop (eq_false_of_ne_true hnone)

theorem Kept.step {action : HandoffAction Thread F} (hkept : h.Kept)
    (hstep : h.step action = some h') : h'.Kept := by
  cases stepped hstep with
  | submit thread frame _ => exact hkept.submit thread frame
  | callSoon thread hphase => exact hkept.callSoon hphase
  | release thread hphase => exact hkept.release hphase
  | beginDrain hopen hscheduled _ => exact hkept.beginDrain hopen hscheduled
  | deliver outcome hdrain hbatch => exact hkept.handOut hdrain hbatch outcome
  | endDrain hdrain _ =>
      exact hkept.of_drain (fun h => by cases h)
        (hkept.sound_finished (hkept.drain_sound _ (.inl hdrain)))
  | refused _ => exact hkept
  | closeLoop hnone => exact hkept.closeLoop hnone

/-! ## Runs -/

omit [DecidableEq Thread] in
theorem batch_of_some {drain : Drain F} (hdrain : h.drain = some drain) :
    h.batch = drain.batch := by
  rw [batch, hdrain]

omit [DecidableEq Thread] in
theorem batch_of_none (hdrain : h.drain = none) : h.batch = [] := by
  rw [batch, hdrain]

theorem Complete.step {action : HandoffAction Thread F} (hcomplete : h.Complete)
    (hkeeps : h.Keeps action) (hstep : h.step action = some h') : h'.Complete := by
  cases stepped hstep with
  | submit thread frame _ =>
      rw [LoopHandoff.submit]
      split
      · exact hcomplete
      · rename_i hopen
        have hbefore := hcomplete (eq_false_of_ne_true hopen)
        have hafter : h.delivered ++ (h.batch ++ (h.pending ++ [frame])) =
            h.submitted ++ [frame] := by
          rw [← hbefore]
          simp only [List.append_assoc]
        simp only
        split
        · exact fun _ => hafter
        · exact fun _ => hafter
  | callSoon thread _ =>
      rw [LoopHandoff.callSoon]
      split
      · exact hcomplete
      · exact hcomplete
  | release thread _ =>
      exact fun hopen => absurd hopen (by simp [LoopHandoff.release, setPhase])
  | beginDrain _ _ hnone =>
      intro hopen
      have hbefore := hcomplete hopen
      rw [batch_of_none hnone, List.nil_append] at hbefore
      show h.delivered ++ (h.pending ++ []) = h.submitted
      rw [List.append_nil, hbefore]
  | @deliver outcome drain frame rest hdrain hbatch =>
      have hafter (hopen : h.closed = false) :
          (h.delivered ++ [frame]) ++ (rest ++ h.pending) = h.submitted := by
        rw [← hcomplete hopen, batch_of_some hdrain, hbatch, List.append_assoc]
        rfl
      cases outcome with
      | returns => exact hafter
      | raises => exact hafter
      | raisesBase =>
          -- Nothing stands behind the frame, so nothing is lost with the batch.
          rw [Keeps, batch_of_some hdrain, hbatch, List.length_cons] at hkeeps
          have hrest : rest = [] := List.eq_nil_of_length_eq_zero (by omega)
          rw [hrest] at hafter
          exact hafter
  | endDrain hdrain hempty =>
      intro hopen
      have hbefore := hcomplete hopen
      rw [batch_of_some hdrain, hempty] at hbefore
      exact hbefore
  | refused _ => exact hcomplete
  | closeLoop _ => exact hcomplete

/-- A drain or a producer in `submit` goes with the flag. -/
def Attended (h : LoopHandoff Thread F) : Prop :=
  h.drainScheduled = true → h.scheduled = 1 ∨ ∃ thread, h.phase thread ≠ .idle

theorem Attended.step {action : HandoffAction Thread F} (hattended : h.Attended) (hkept : h.Kept)
    (hkeeps : h.Keeps action) (hstep : h.step action = some h') : h'.Attended := by
  cases stepped hstep with
  | submit thread frame _ =>
      rw [LoopHandoff.submit]
      split
      · exact hattended
      · simp only
        split
        · exact hattended
        · refine fun _ => .inr ⟨thread, ?_⟩
          rw [setPhase_self]
          simp
  | callSoon thread hphase =>
      have hbusy : h.phase thread ≠ .idle := by
        rw [hphase]
        simp
      obtain ⟨-, -, hscheduled⟩ := hkept.owned.of_busy hbusy
      rw [LoopHandoff.callSoon]
      split
      · refine fun _ => .inr ⟨thread, ?_⟩
        rw [setPhase_self]
        simp
      · refine fun _ => .inl ?_
        show h.scheduled + 1 = 1
        rw [hscheduled]
  | release thread _ =>
      exact fun hflag => absurd hflag (by simp [LoopHandoff.release, setPhase])
  | beginDrain _ _ _ => exact fun hflag => absurd hflag (by simp [LoopHandoff.beginDrain])
  | deliver outcome _ _ =>
      cases outcome with
      | returns => exact hattended
      | raises => exact hattended
      | raisesBase => exact hattended
  | endDrain _ _ => exact hattended
  | refused _ => exact hattended
  | closeLoop hnone =>
      intro hflag
      rcases hattended hflag with hone | hbusy
      · exact absurd hone (by rw [hkeeps hnone]; simp)
      · exact .inr hbusy

omit [DecidableEq Thread] in
theorem Kept.safe (hkept : h.Kept) (hcomplete : h.Complete) (hattended : h.Attended) : h.Safe where
  order := by
    intro hopen
    refine hcomplete ?_
    by_contra hclosed
    rw [(hkept.closed_empty (eq_true_of_ne_false hclosed)).2] at hopen
    cases hopen
  wakes := by
    intro hne
    rcases hattended (hkept.flag_iff.mpr hne) with hone | ⟨thread, hbusy⟩
    · exact .inl hone
    · cases hphase : h.phase thread with
      | idle => exact absurd hphase hbusy
      | scheduling => exact .inr (.inl ⟨thread, hphase⟩)
      | failed => exact .inr (.inr ⟨hkept.failed_closed thread hphase, thread, hphase⟩)

/-- A close before a scheduled drain leaves the buffer to nobody, and a batch that is cut off leaves
its frames nowhere. -/
theorem Kept.keeps {action : HandoffAction Thread F} (hkept : h.Kept) (hsafe : h.Safe)
    (hafter : ∀ h', h.step action = some h' → h'.Safe) : h.Keeps action := by
  cases action with
  | closeLoop =>
      intro hnone
      by_contra hne
      obtain ⟨hflag, hidle, -⟩ := hkept.owned.of_scheduled (Nat.pos_of_ne_zero hne)
      have hclosed := hafter _ (by rw [LoopHandoff.step, if_neg (by simp [hnone])])
      rcases hclosed.wakes (hkept.flag_iff.mp hflag) with
        hone | ⟨thread, hphase⟩ | ⟨-, thread, hphase⟩
      · cases hone
      · exact absurd ((hidle thread).symm.trans hphase) (by simp)
      · exact absurd ((hidle thread).symm.trans hphase) (by simp)
  | deliver outcome =>
      cases outcome with
      | returns => trivial
      | raises => trivial
      | raisesBase =>
          show h.batch.length ≤ 1
          cases hdrain : h.drain with
          | none =>
              rw [batch_of_none hdrain]
              exact Nat.zero_le 1
          | some drain =>
              rw [batch_of_some hdrain]
              cases hbatch : drain.batch with
              | nil => exact Nat.zero_le 1
              | cons frame rest =>
                  have hopen : h.loopClosed = false := hkept.drain_open (by rw [hdrain]; rfl)
                  have hstep : h.step (.deliver .raisesBase) =
                      some (h.handOut drain frame rest .raisesBase) := by
                    simp only [LoopHandoff.step, hdrain, hbatch]
                  have hbefore : h.delivered ++ ((frame :: rest) ++ h.pending) = h.submitted := by
                    rw [← hbatch, ← batch_of_some hdrain]
                    exact hsafe.order hopen
                  have hrest : (h.delivered ++ [frame]) ++ ([] ++ h.pending) = h.submitted :=
                    (hafter _ hstep).order hopen
                  have hlength := congrArg List.length (hbefore.trans hrest.symm)
                  simp only [List.length_append, List.length_cons, List.length_nil] at hlength
                  simp only [List.length_cons]
                  omega
  | submit thread frame => trivial
  | callSoon thread => trivial
  | release thread => trivial
  | beginDrain => trivial
  | endDrain => trivial

/-- The handoff never opens again. -/
theorem closed_step {action : HandoffAction Thread F} (hclosed : h.closed = true)
    (hstep : h.step action = some h') : h'.closed = true := by
  cases stepped hstep with
  | submit thread frame _ =>
      rw [LoopHandoff.submit, if_pos hclosed]
      exact hclosed
  | callSoon thread _ =>
      rw [LoopHandoff.callSoon]
      split
      · exact hclosed
      · exact hclosed
  | release thread _ => rfl
  | deliver outcome _ _ =>
      cases outcome with
      | returns => exact hclosed
      | raises => exact hclosed
      | raisesBase => exact hclosed
  | beginDrain _ _ _ => exact hclosed
  | endDrain _ _ => exact hclosed
  | refused _ => exact hclosed
  | closeLoop _ => exact hclosed

theorem closed_of_release {actions : List (HandoffAction Thread F)} {thread : Thread}
    (hrun : Runs.exec step h actions = some h') (hmem : .release thread ∈ actions) :
    h'.closed = true := by
  obtain ⟨pre, post, rfl⟩ := List.append_of_mem hmem
  obtain ⟨m, m', -, hrelease, hpost⟩ := Runs.exec_mid_eq_some.mp hrun
  cases stepped hrelease
  exact Runs.exec_invariant (fun _ _ _ hclosed hstep => closed_step hclosed hstep) hpost rfl

/-- The frames of the submits, up to the first of these that failed. -/
def submits : List (HandoffAction Thread F) → List F
  | [] => []
  | .submit _ frame :: actions => frame :: submits actions
  | .release _ :: _ => []
  | .callSoon _ :: actions | .beginDrain :: actions | .deliver _ :: actions
  | .endDrain :: actions | .closeLoop :: actions => submits actions

/-- No frame enters the closed handoff. -/
theorem submitted_step {action : HandoffAction Thread F} (hclosed : h.closed = true)
    (hstep : h.step action = some h') : h'.submitted = h.submitted := by
  cases stepped hstep with
  | submit thread frame _ => rw [LoopHandoff.submit, if_pos hclosed]
  | callSoon thread _ =>
      rw [LoopHandoff.callSoon]
      split
      · rfl
      · rfl
  | deliver outcome _ _ =>
      cases outcome with
      | returns => rfl
      | raises => rfl
      | raisesBase => rfl
  | release _ _ => rfl
  | beginDrain _ _ _ => rfl
  | endDrain _ _ => rfl
  | refused _ => rfl
  | closeLoop _ => rfl

theorem submitted_closed {actions : List (HandoffAction Thread F)} (hclosed : h.closed = true)
    (hrun : Runs.exec step h actions = some h') : h'.submitted = h.submitted := by
  have hkept := Runs.exec_invariant
    (I := fun m : LoopHandoff Thread F => m.closed = true ∧ m.submitted = h.submitted)
    (fun _ _ _ ⟨hm, hsame⟩ hstep => ⟨closed_step hm hstep, (submitted_step hm hstep).trans hsame⟩)
    hrun ⟨hclosed, rfl⟩
  exact hkept.2

/-- What entered the buffer is what was submitted until a submit failed, in the order of the locked
parts. -/
theorem submitted_run {actions : List (HandoffAction Thread F)}
    (hrun : Runs.exec step h actions = some h') (hopen : h.closed = false) :
    h'.submitted = h.submitted ++ submits actions := by
  induction actions generalizing h with
  | nil =>
      cases hrun
      rw [submits, List.append_nil]
  | cons action actions ih =>
      obtain ⟨m, hstep, hrun⟩ := Runs.exec_cons_eq_some.mp hrun
      cases stepped hstep with
      | submit thread frame _ =>
          have henters : (h.submit thread frame).closed = false ∧
              (h.submit thread frame).submitted = h.submitted ++ [frame] := by
            rw [LoopHandoff.submit, if_neg (ne_true_of_eq_false hopen)]
            simp only
            split
            · exact ⟨hopen, rfl⟩
            · exact ⟨hopen, rfl⟩
          rw [ih hrun henters.1, henters.2, submits, List.append_assoc]
          rfl
      | callSoon thread _ =>
          have hsame : (h.callSoon thread).closed = false ∧
              (h.callSoon thread).submitted = h.submitted := by
            rw [LoopHandoff.callSoon]
            split
            · exact ⟨hopen, rfl⟩
            · exact ⟨hopen, rfl⟩
          rw [ih hrun hsame.1, hsame.2, submits]
      | release thread _ =>
          rw [submitted_closed rfl hrun, submits, List.append_nil]
          rfl
      | beginDrain _ _ _ => exact (ih hrun hopen :)
      | deliver outcome _ _ =>
          cases outcome with
          | returns => exact (ih hrun hopen :)
          | raises => exact (ih hrun hopen :)
          | raisesBase => exact (ih hrun hopen :)
      | endDrain _ _ => exact (ih hrun hopen :)
      | refused _ => exact (ih hrun hopen :)
      | closeLoop _ => exact (ih hrun hopen :)

/-- Every state of a run is safe just where its steps keep what is scheduled and what is in a batch.
In every run, what entered the buffer is what was submitted, a drain hands out what it found, in
order, and once a submit failed the buffer is empty. -/
theorem handoff_safe_iff (actions : List (HandoffAction Thread F)) :
    (Runs.Throughout step Safe {} actions ↔ Runs.Along step Keeps {} actions) ∧
      ∀ h, Runs.exec step {} actions = some h →
        h.submitted = submits actions ∧
        (∀ drain, h.drain = some drain ∨ drain ∈ h.finished →
          drain.handed ++ drain.batch = drain.buffered) ∧
        ((∃ thread, .release thread ∈ actions) → h.pending = []) := by
  refine ⟨⟨fun hsafe => ?_, fun hkeeps => ?_⟩, fun h hrun => ?_⟩
  · exact hsafe.along (I := Kept) (fun _ _ _ hkept hstep => hkept.step hstep)
      (fun _ _ hkept hsafe hafter => hkept.keeps hsafe hafter) .initial
  · have hok := hkeeps.throughout (I := fun h => h.Kept ∧ h.Complete ∧ h.Attended)
      (fun _ _ _ ⟨hkept, hcomplete, hattended⟩ hok hstep =>
        ⟨hkept.step hstep, hcomplete.step hok hstep, hattended.step hkept hok hstep⟩)
      ⟨.initial, fun _ => rfl, fun hflag => by cases hflag⟩
    exact hok.mono fun h ⟨hkept, hcomplete, hattended⟩ => hkept.safe hcomplete hattended
  · have hkept : h.Kept :=
      Runs.exec_invariant (fun _ _ _ hkept hstep => hkept.step hstep) hrun .initial
    exact ⟨submitted_run hrun rfl, hkept.drain_sound,
      fun ⟨_, hmem⟩ => (hkept.closed_empty (closed_of_release hrun hmem)).1⟩

/-- Two producers, of which one schedules; the delivery of the first frame raises; the loop is
closed between drains, and the next submit fails. -/
def raisingRun : List (HandoffAction Bool Nat) :=
  [.submit false 1, .submit true 2, .callSoon false, .beginDrain, .deliver .raises,
    .deliver .returns, .endDrain, .closeLoop, .submit true 3, .submit false 4, .callSoon true,
    .release true]

theorem handoff_safe_iff_raisingRun : Runs.Throughout step Safe {} raisingRun ∧
    ∃ h : LoopHandoff Bool Nat, Runs.exec step {} raisingRun = some h ∧ h.pending = [] :=
  ⟨(handoff_safe_iff raisingRun).1.mpr (by decide),
    _, rfl, ((handoff_safe_iff raisingRun).2 _ rfl).2.2 ⟨true, by simp [raisingRun]⟩⟩

/-- The drain is scheduled and the loop closed before it runs: every later frame stays buffered, and
no submit fails. -/
theorem closed_buffer_grows : ¬ ∀ (actions : List (HandoffAction Bool Nat))
    (h : LoopHandoff Bool Nat), Runs.exec step {} actions = some h → h.pending ≠ [] →
      h.scheduled = 1 ∨ ∃ thread, h.phase thread ≠ .idle := by
  intro hall
  have hleft := hall [.submit false 1, .callSoon false, .closeLoop, .submit false 2, .submit true 3]
    _ rfl (by simp [submit, callSoon, setPhase])
  rcases hleft with hone | ⟨thread, hbusy⟩
  · exact absurd hone (by decide)
  · cases thread with
    | false => exact hbusy rfl
    | true => exact hbusy rfl

end LoopHandoff

end Rigplane.Audio
