import Mathlib.Data.List.Induction
import Mathlib.Order.Nat

/-!
# What a TCI session queues

The outbound side of `TciSession` of `tci/server.py`: replies go to the outbox at once or behind the
lines that are held for coalescing, a timer moves the held lines to the outbox, and the sender takes
frames out of it whenever the peer drains.

The lines keep one order on the way from `accepted` through `pending` and the outbox to `sent`
(`Sound`); `accepted` and `sent` are logs that no method reads.  The queued payload is bounded by
two checks that do not see each other: `_hold` and `_send_now` count the held lines and `_offer`
counts the outbox.  `Fits` says when the check that is made is enough (`outbound_iff`).
-/

namespace Rigplane.Tci

/-- `MAX_QUEUED_OUTBOUND`. -/
def maxQueuedOutbound : Nat := 128

/-- What a frame of the outbox carries. -/
inductive Outbound where
  | text (line : String)
  | binary (payload : List UInt8)

namespace Outbound

def line? : Outbound → Option String
  | text line => some line
  | binary _ => none

end Outbound

structure TciSession where
  outbox : List Outbound := []
  pending : List String := []
  /-- A flush is scheduled. -/
  flushHandle : Bool := false
  done : Bool := false
  /-- `_overflow` dropped the transport and scheduled `finish()`. -/
  overflowed : Bool := false
  /-- The lines that `_send_now` and `_hold` accepted. -/
  accepted : List String := []
  /-- The frames that the sender took. -/
  sent : List Outbound := []

namespace TciSession

def overflow (s : TciSession) : TciSession := { s with overflowed := true }

/-- `_offer`: whether the frame came into the outbox. -/
def offer (s : TciSession) (out : Outbound) : Bool × TciSession :=
  if s.outbox.length < maxQueuedOutbound then (true, { s with outbox := s.outbox ++ [out] })
  else (false, s.overflow)

/-- `_send_now`. -/
def sendNow (s : TciSession) (line : String) : Bool × TciSession :=
  if s.done then (false, s)
  else if s.pending ≠ [] then
    if maxQueuedOutbound < s.pending.length + 1 then (false, s.overflow)
    else (true, { s with pending := s.pending ++ [line], accepted := s.accepted ++ [line] })
  else
    match s.offer (.text line) with
    | (true, s) => (true, { s with accepted := s.accepted ++ [line] })
    | (false, s) => (false, s)

/-- `_hold`. -/
def hold (s : TciSession) (lines : List String) : TciSession :=
  if s.done then s
  else if maxQueuedOutbound < s.pending.length + lines.length then s.overflow
  else
    { s with
      pending := s.pending ++ lines
      accepted := s.accepted ++ lines
      flushHandle := true }

/-- The loop of `_flush`. -/
def offerLines (s : TciSession) : List String → TciSession
  | [] => s
  | line :: lines =>
      match s.offer (.text line) with
      | (true, s) => offerLines s lines
      | (false, s) => s

/-- `_flush`, when its timer fires. -/
def flush (s : TciSession) : TciSession :=
  if s.flushHandle then
    if s.done ∨ s.pending = [] then { s with flushHandle := false }
    else { s with pending := [], flushHandle := false }.offerLines s.pending
  else s

/-- The part of `finish` before its first `await`. -/
def finish (s : TciSession) : TciSession :=
  if s.done then s else { s with done := true, flushHandle := false }

/-- The sender gets a frame. -/
def take (s : TciSession) : TciSession :=
  match s.outbox with
  | [] => s
  | out :: outbox => if s.done then s else { s with outbox, sent := s.sent ++ [out] }

inductive TciAction where
  | sendNow (line : String)
  | hold (lines : List String)
  | broadcastBinary (payload : List UInt8)
  /-- The flush timer fires, if it is armed. -/
  | flush
  | take
  /-- The reader, the watchdog, an overflow or `stop()` finishes the session. -/
  | finish

def step (s : TciSession) : TciAction → TciSession
  | .sendNow line => (s.sendNow line).2
  | .hold lines => s.hold lines
  | .broadcastBinary payload => (s.offer (.binary payload)).2
  | .flush => s.flush
  | .take => s.take
  | .finish => s.finish

/-- A new session, with the lines that `on_connect` returned. -/
def opened (burst : List String) : TciSession :=
  burst.foldl (fun s line => (s.offer (.text line)).2) {}

def run (burst : List String) (actions : List TciAction) : TciSession :=
  actions.foldl step (opened burst)

/-! ## The order of the lines -/

/-- The text lines that came into the outbox. -/
def entered (s : TciSession) : List String := (s.sent ++ s.outbox).filterMap Outbound.line?

/-- Of the burst and the accepted lines, in order, nothing is lost before an overflow; and held
lines have a flush scheduled until the session is done. -/
structure Sound (burst : List String) (s : TciSession) : Prop where
  order : (s.entered ++ s.pending).Sublist (burst ++ s.accepted)
  complete : s.overflowed = false → s.entered ++ s.pending = burst ++ s.accepted
  held : s.pending ≠ [] → s.flushHandle = true ∨ s.done = true

variable {burst : List String} {s : TciSession}

theorem Sound.overflow (h : s.Sound burst) : s.overflow.Sound burst where
  order := h.order
  complete := fun hflag => by cases hflag
  held := h.held

theorem entered_offer (s : TciSession) (out : Outbound) :
    entered { s with outbox := s.outbox ++ [out] } = s.entered ++ out.line?.toList := by
  rw [entered, entered, ← List.append_assoc, List.filterMap_append]
  cases out <;> rfl

theorem Sound.broadcastBinary (h : s.Sound burst) (payload : List UInt8) :
    (s.offer (.binary payload)).2.Sound burst := by
  rw [offer]
  split
  · have hentered := entered_offer s (.binary payload)
    rw [show (Outbound.binary payload).line?.toList = [] from rfl, List.append_nil] at hentered
    constructor
    · show (entered { s with outbox := s.outbox ++ [.binary payload] } ++ s.pending).Sublist _
      rw [hentered]
      exact h.order
    · intro hflag
      show entered { s with outbox := s.outbox ++ [.binary payload] } ++ s.pending = _
      rw [hentered]
      exact h.complete hflag
    · exact h.held
  · exact h.overflow

theorem Sound.sendNow (h : s.Sound burst) (line : String) : (s.sendNow line).2.Sound burst := by
  rw [TciSession.sendNow]
  split
  · exact h
  · split
    · rename_i hheld
      split
      · exact h.overflow
      · constructor
        · show (s.entered ++ (s.pending ++ [line])).Sublist (burst ++ (s.accepted ++ [line]))
          rw [← List.append_assoc, ← List.append_assoc]
          exact h.order.append (.refl [line])
        · intro hflag
          show s.entered ++ (s.pending ++ [line]) = burst ++ (s.accepted ++ [line])
          rw [← List.append_assoc, ← List.append_assoc, h.complete hflag]
        · exact fun _ => h.held hheld
    · rename_i hnone
      have hpending : s.pending = [] := not_not.mp hnone
      rw [offer]
      split
      · rename_i heq
        split at heq
        · cases heq
          have horder := h.order
          have hcomplete := h.complete
          rw [hpending, List.append_nil] at horder hcomplete
          have hentered : entered { s with outbox := s.outbox ++ [.text line] } ++ s.pending =
              s.entered ++ [line] := by
            rw [entered_offer, hpending, List.append_nil]
            rfl
          constructor
          · show (entered { s with outbox := s.outbox ++ [.text line] } ++ s.pending).Sublist
              (burst ++ (s.accepted ++ [line]))
            rw [hentered, ← List.append_assoc]
            exact horder.append (.refl [line])
          · intro hflag
            show entered { s with outbox := s.outbox ++ [.text line] } ++ s.pending =
              burst ++ (s.accepted ++ [line])
            rw [hentered, ← List.append_assoc, hcomplete hflag]
          · exact h.held
        · cases heq
      · rename_i heq
        split at heq
        · cases heq
        · cases heq
          exact h.overflow

theorem Sound.hold (h : s.Sound burst) (lines : List String) : (s.hold lines).Sound burst := by
  rw [TciSession.hold]
  split
  · exact h
  · split
    · exact h.overflow
    · constructor
      · show (s.entered ++ (s.pending ++ lines)).Sublist (burst ++ (s.accepted ++ lines))
        rw [← List.append_assoc, ← List.append_assoc]
        exact h.order.append (.refl lines)
      · intro hflag
        show s.entered ++ (s.pending ++ lines) = burst ++ (s.accepted ++ lines)
        rw [← List.append_assoc, ← List.append_assoc, h.complete hflag]
      · exact fun _ => .inl rfl

/-- A flush offers the lines in turn, up to the first that finds the outbox full. -/
theorem offerLines_spec (s : TciSession) (lines : List String) : ∃ front rest,
    lines = front ++ rest ∧ s.offerLines lines =
      { s with
        outbox := s.outbox ++ front.map .text
        overflowed := s.overflowed || !rest.isEmpty } := by
  induction lines generalizing s with
  | nil => exact ⟨[], [], rfl, by simp [offerLines]⟩
  | cons line lines ih =>
      rw [offerLines, offer]
      split
      · rename_i heq
        split at heq
        · cases heq
          obtain ⟨front, rest, rfl, hlines⟩ := ih { s with outbox := s.outbox ++ [.text line] }
          refine ⟨line :: front, rest, rfl, ?_⟩
          rw [hlines, List.append_assoc]
          rfl
        · cases heq
      · rename_i heq
        split at heq
        · cases heq
        · cases heq
          exact ⟨[], line :: lines, rfl, by simp [TciSession.overflow]⟩

theorem filterMap_text (lines : List String) :
    (lines.map Outbound.text).filterMap Outbound.line? = lines := by
  induction lines with
  | nil => rfl
  | cons line lines ih => exact congrArg (line :: ·) ih

theorem Sound.offerLines {flag : Bool} (h : s.Sound burst) :
    ({ s with pending := [], flushHandle := flag }.offerLines s.pending).Sound burst := by
  obtain ⟨front, rest, hcut, hlines⟩ :=
    offerLines_spec { s with pending := [], flushHandle := flag } s.pending
  have hentered :
      entered { s with outbox := s.outbox ++ front.map Outbound.text } = s.entered ++ front := by
    rw [entered, entered, ← List.append_assoc, List.filterMap_append, filterMap_text]
  have horder := h.order
  have hcomplete := h.complete
  rw [hcut] at horder hcomplete
  rw [hlines]
  constructor
  · show (entered { s with outbox := s.outbox ++ front.map Outbound.text } ++ []).Sublist _
    rw [hentered, List.append_nil]
    exact ((List.sublist_append_left front rest).append_left s.entered).trans horder
  · intro hflag
    obtain ⟨hbefore, hrest⟩ := Bool.or_eq_false_iff.mp hflag
    show entered { s with outbox := s.outbox ++ front.map Outbound.text } ++ [] = _
    have hnone : rest = [] := List.isEmpty_iff.mp (by simpa using hrest)
    rw [hnone, List.append_nil] at hcomplete
    rw [hentered, List.append_nil]
    exact hcomplete hbefore
  · exact fun hne => absurd rfl hne

theorem Sound.flush (h : s.Sound burst) : s.flush.Sound burst := by
  rw [TciSession.flush]
  split
  · split
    · rename_i hidle
      exact ⟨h.order, h.complete, fun hne => .inr (hidle.resolve_right hne)⟩
    · exact h.offerLines
  · exact h

theorem Sound.finish (h : s.Sound burst) : s.finish.Sound burst := by
  rw [TciSession.finish]
  split
  · exact h
  · exact ⟨h.order, h.complete, fun _ => .inr rfl⟩

theorem Sound.take (h : s.Sound burst) : s.take.Sound burst := by
  rw [TciSession.take]
  split
  · exact h
  · rename_i out outbox houtbox
    split
    · exact h
    · have hentered : entered { s with outbox, sent := s.sent ++ [out] } = s.entered := by
        rw [entered, entered, houtbox, List.append_assoc]
        rfl
      constructor
      · show (entered { s with outbox, sent := s.sent ++ [out] } ++ s.pending).Sublist _
        rw [hentered]
        exact h.order
      · intro hflag
        show entered { s with outbox, sent := s.sent ++ [out] } ++ s.pending = _
        rw [hentered]
        exact h.complete hflag
      · exact h.held

theorem Sound.step (h : s.Sound burst) (action : TciAction) : (s.step action).Sound burst := by
  cases action with
  | sendNow line => exact h.sendNow line
  | hold lines => exact h.hold lines
  | broadcastBinary payload => exact h.broadcastBinary payload
  | flush => exact h.flush
  | take => exact h.take
  | finish => exact h.finish

/-! ## How much is queued -/

/-- The frames in the outbox and the lines held. -/
def queued (s : TciSession) : Nat := s.outbox.length + s.pending.length

/-- What a call adds is refused, or there is room for it beside both containers. -/
def Fits (s : TciSession) : TciAction → Prop
  | .sendNow _ => s.done ∨ s.pending = [] ∨ maxQueuedOutbound < s.pending.length + 1 ∨
      s.queued + 1 ≤ maxQueuedOutbound
  | .hold lines => s.done ∨ maxQueuedOutbound < s.pending.length + lines.length ∨
      s.queued + lines.length ≤ maxQueuedOutbound
  | .broadcastBinary _ => maxQueuedOutbound ≤ s.outbox.length ∨ s.queued + 1 ≤ maxQueuedOutbound
  | .flush | .take | .finish => True

theorem queued_offer (s : TciSession) (out : Outbound) : (s.offer out).2.queued =
    if s.outbox.length < maxQueuedOutbound then s.queued + 1 else s.queued := by
  rw [offer]
  split
  · simp only [queued, List.length_append, List.length_singleton]
    omega
  · rfl

theorem queued_flush_le (s : TciSession) : s.flush.queued ≤ s.queued := by
  rw [TciSession.flush]
  split
  · split
    · exact le_rfl
    · obtain ⟨front, rest, hcut, hlines⟩ :=
        offerLines_spec { s with pending := [], flushHandle := false } s.pending
      rw [hlines]
      simp only [queued, hcut, List.length_append, List.length_map, List.length_nil]
      omega
  · exact le_rfl

theorem queued_take_le (s : TciSession) : s.take.queued ≤ s.queued := by
  rw [TciSession.take]
  split
  · exact le_rfl
  · rename_i houtbox
    split
    · exact le_rfl
    · simp only [queued, houtbox, List.length_cons]
      omega

theorem queued_step (h : s.queued ≤ maxQueuedOutbound) (action : TciAction) :
    (s.step action).queued ≤ maxQueuedOutbound ↔ s.Fits action := by
  cases action with
  | sendNow line =>
      rw [step, TciSession.sendNow, Fits]
      split
      · rename_i hdone
        exact iff_of_true h (.inl hdone)
      · rename_i hdone
        rw [or_iff_right hdone]
        split
        · rename_i hheld
          rw [or_iff_right hheld]
          split
          · rename_i hfull
            exact iff_of_true h (.inl hfull)
          · rename_i hroom
            rw [or_iff_right hroom]
            show s.outbox.length + (s.pending ++ [line]).length ≤ _ ↔ _
            rw [List.length_append, ← Nat.add_assoc]
            rfl
        · rename_i hnone
          have hempty : s.pending = [] := not_not.mp hnone
          have hoffer : (s.offer (.text line)).2.queued ≤ maxQueuedOutbound := by
            rw [queued_offer]
            split
            · rename_i hroom
              rw [queued, hempty]
              exact hroom
            · exact h
          refine iff_of_true ?_ (.inl hempty)
          split
          · rename_i heq
            rw [heq] at hoffer
            exact hoffer
          · rename_i heq
            rw [heq] at hoffer
            exact hoffer
  | hold lines =>
      rw [step, TciSession.hold, Fits]
      split
      · rename_i hdone
        exact iff_of_true h (.inl hdone)
      · rename_i hdone
        rw [or_iff_right hdone]
        split
        · rename_i hfull
          exact iff_of_true h (.inl hfull)
        · rename_i hroom
          rw [or_iff_right hroom]
          show s.outbox.length + (s.pending ++ lines).length ≤ _ ↔ _
          rw [List.length_append, ← Nat.add_assoc]
          rfl
  | broadcastBinary payload =>
      rw [step, queued_offer, Fits]
      split <;> omega
  | flush => exact iff_of_true ((queued_flush_le s).trans h) trivial
  | take => exact iff_of_true ((queued_take_le s).trans h) trivial
  | finish =>
      refine iff_of_true ?_ trivial
      rw [step, TciSession.finish]
      split
      · exact h
      · exact h

/-! ## Runs -/

/-- Before the session has held or replied anything, a line of the burst comes in. -/
theorem Sound.opened_line {front : List String} (h : s.Sound front) (haccepted : s.accepted = [])
    (hpending : s.pending = []) (hqueued : s.queued ≤ maxQueuedOutbound) (line : String) :
    (s.offer (.text line)).2.Sound (front ++ [line]) ∧ (s.offer (.text line)).2.accepted = [] ∧
      (s.offer (.text line)).2.pending = [] ∧
      (s.offer (.text line)).2.queued ≤ maxQueuedOutbound := by
  have hroom := queued_offer s (.text line)
  have horder := h.order
  have hcomplete := h.complete
  rw [haccepted, hpending, List.append_nil, List.append_nil] at horder hcomplete
  rw [offer] at hroom ⊢
  split at hroom
  · rename_i hfree
    rw [if_pos hfree]
    have hentered : entered { s with outbox := s.outbox ++ [.text line] } = s.entered ++ [line] :=
      entered_offer s (.text line)
    refine ⟨⟨?_, fun hflag => ?_, fun hne => absurd hpending hne⟩, haccepted, hpending, ?_⟩
    · show (entered { s with outbox := s.outbox ++ [.text line] } ++ s.pending).Sublist
        ((front ++ [line]) ++ s.accepted)
      rw [hentered, haccepted, hpending, List.append_nil, List.append_nil]
      exact horder.append (.refl [line])
    · show entered { s with outbox := s.outbox ++ [.text line] } ++ s.pending =
        (front ++ [line]) ++ s.accepted
      rw [hentered, haccepted, hpending, List.append_nil, List.append_nil, hcomplete hflag]
    · rw [hroom, queued, hpending]
      exact hfree
  · rename_i hfull
    rw [if_neg hfull]
    refine ⟨⟨?_, fun hflag => Bool.noConfusion hflag,
      fun hne => absurd hpending hne⟩, haccepted, hpending, hqueued⟩
    show (s.entered ++ s.pending).Sublist ((front ++ [line]) ++ s.accepted)
    rw [haccepted, hpending, List.append_nil, List.append_nil]
    exact horder.trans (List.sublist_append_left front [line])

theorem opened_sound (burst : List String) :
    (opened burst).Sound burst ∧ (opened burst).queued ≤ maxQueuedOutbound := by
  have hall : (opened burst).Sound burst ∧ (opened burst).accepted = [] ∧
      (opened burst).pending = [] ∧ (opened burst).queued ≤ maxQueuedOutbound := by
    induction burst using List.reverseRecOn with
    | nil => exact ⟨⟨.refl _, fun _ => rfl, fun hne => absurd rfl hne⟩, rfl, rfl, Nat.zero_le _⟩
    | append_singleton front line ih =>
        obtain ⟨hsound, haccepted, hpending, hqueued⟩ := ih
        rw [opened, List.foldl_append]
        exact hsound.opened_line haccepted hpending hqueued line
  exact ⟨hall.1, hall.2.2.2⟩

theorem run_snoc (burst : List String) (actions : List TciAction) (action : TciAction) :
    run burst (actions ++ [action]) = (run burst actions).step action := by
  rw [run, List.foldl_append]
  rfl

theorem run_sound (burst : List String) (actions : List TciAction) :
    (run burst actions).Sound burst := by
  induction actions using List.reverseRecOn with
  | nil => exact (opened_sound burst).1
  | append_singleton actions action ih =>
      rw [run_snoc]
      exact ih.step action

/-- The lines keep their order in every run, and the queued payload stays within its bound
throughout a run if and only if everything that is accepted fits beside both containers. -/
theorem outbound_iff (burst : List String) (actions : List TciAction) :
    (∀ front, front <+: actions → (run burst front).Sound burst ∧
      (run burst front).queued ≤ maxQueuedOutbound) ↔
      ∀ front action, front ++ [action] <+: actions → (run burst front).Fits action := by
  constructor
  · intro hall front action hcut
    have hbefore := (hall front ((List.prefix_append front [action]).trans hcut)).2
    have hafter := (hall (front ++ [action]) hcut).2
    rw [run_snoc] at hafter
    exact (queued_step hbefore action).mp hafter
  · intro hfits front hcut
    refine ⟨run_sound burst front, ?_⟩
    induction front using List.reverseRecOn with
    | nil => exact (opened_sound burst).2
    | append_singleton front action ih =>
        have hbefore := ih ((List.prefix_append front [action]).trans hcut)
        rw [run_snoc]
        exact (queued_step hbefore action).mpr (hfits front action hcut)

/-- As many lines as the bound allows are held and flushed, and as many are held again. -/
def stalled : List TciAction :=
  [.hold (List.replicate maxQueuedOutbound "vfo:0,0,14074000;"), .flush,
    .hold (List.replicate maxQueuedOutbound "vfo:0,0,14074000;")]

/-- A peer that drains nothing has twice the bound queued for it. -/
theorem stalled_exceeds : ¬ ∀ (burst : List String) (actions : List TciAction),
    (run burst actions).queued ≤ maxQueuedOutbound := by
  intro hall
  have hqueued : (run [] stalled).queued = 2 * maxQueuedOutbound := by decide +kernel
  have hle := hall [] stalled
  rw [hqueued] at hle
  exact absurd hle (by decide)

end TciSession

end Rigplane.Tci
