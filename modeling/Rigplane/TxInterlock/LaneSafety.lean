import Mathlib.Tactic.Linarith
import Rigplane.TxInterlock.DeferredLane

/-!
# Runs of the deferred command lane

`Closed` says of the acceptances that are no longer held that each has had one outcome, and when it
may have been which.  `Holding` says of the newest one, while it is held, what the entry of the lane
knows of it.  Both speak of the deadline of a chain, which is read off the list of acceptances.
-/

namespace Rigplane.TxInterlock

variable {π : Type}

namespace LaneRun

/-- The deadline of the newest of these acceptances: that of the first of its chain. -/
def deadline : List (Acceptance π) → Time
  | [] => 0
  | a :: older => if a.chained then deadline older else a.acceptedAt + ttlSeconds

/-- Since this instant, `RX` was all that was observed of the held command. -/
def QuietSince (a : Acceptance π) (quiet : Time) : Prop :=
  ∃ recent older, a.observations = recent ++ (.rx, quiet) :: older ∧ ∀ o ∈ recent, o.1 = .rx

/-- What a terminal outcome of the newest of the acceptances says. -/
structure Lawful (a : Acceptance π) (older : List (Acceptance π)) (t : Terminal π) : Prop where
  command : t.command = a.command
  expiresAt : t.expiresAt = deadline (a :: older)
  outcome : t.outcome = .released ∨ t.outcome = .expired ∨ t.outcome = .superseded
  /-- A release comes before the deadline, with the radio seen quiet for a second up to it. -/
  released : t.outcome = .released → t.reportedAt < t.expiresAt ∧
    a.observations.head? = some (.rx, t.reportedAt) ∧
    ∃ quiet, a.acceptedAt ≤ quiet ∧ quiet + quietSeconds ≤ t.reportedAt ∧ QuietSince a quiet
  expired : t.outcome = .expired → t.expiresAt ≤ t.reportedAt
  superseded : t.outcome = .superseded → t.reportedAt < t.expiresAt

/-- An acceptance continues a chain if the one before it was superseded. -/
def Follows (a : Acceptance π) (older : List (Acceptance π)) : Prop :=
  a.chained = true ↔ ∃ b ∈ older.head?, ∃ t ∈ b.terminals, t.outcome = .superseded

def Closed : List (Acceptance π) → Prop
  | [] => True
  | a :: older => (∃ t, a.terminals = [t] ∧ Lawful a older t) ∧ Follows a older ∧ Closed older

structure Holding (e : DeferredTxCommand π) (clock : Time) (a : Acceptance π)
    (older : List (Acceptance π)) : Prop where
  closed : Closed older
  follows : Follows a older
  terminals : a.terminals = []
  command : e.command = a.command
  expiresAt : e.expiresAt = deadline (a :: older)
  accepted : a.acceptedAt ≤ clock
  quiet : ∀ quiet, e.quietSince = some quiet → a.acceptedAt ≤ quiet ∧ QuietSince a quiet

/-- The newest acceptance was not superseded. -/
def Unchained (accepted : List (Acceptance π)) : Prop :=
  ∀ b ∈ accepted.head?, ∀ t ∈ b.terminals, t.outcome ≠ .superseded

def Ok (s : LaneRun π) : Prop :=
  match s.lane.entry with
  | none => Closed s.accepted ∧ Unchained s.accepted
  | some e => ∃ a older, s.accepted = a :: older ∧ Holding e s.clock a older

variable {s s' : LaneRun π} {e : DeferredTxCommand π} {a : Acceptance π}
  {older : List (Acceptance π)}
  {now : Time} {rfState : RfState}

theorem Ok.initial (clock : Time) : ({ clock } : LaneRun π).Ok :=
  ⟨trivial, fun _ hb => by cases hb⟩

theorem Holding.later (h : Holding e s.clock a older) (hclock : s.clock ≤ now) :
    Holding e now a older := { h with accepted := h.accepted.trans hclock }

/-- The clock may move. -/
theorem Ok.later (h : s.Ok) (hclock : s.clock ≤ now) :
    ({ s with clock := now } : LaneRun π).Ok := by
  rw [Ok] at h ⊢
  cases hentry : s.lane.entry with
  | none => simpa [hentry] using h
  | some e =>
      simp only [hentry] at h ⊢
      obtain ⟨a, older, haccepted, hholding⟩ := h
      exact ⟨a, older, haccepted, hholding.later hclock⟩

/-- The held command has its outcome. -/
theorem Holding.close (h : Holding e s.clock a older) {b : Acceptance π} {t : Terminal π}
    (hchained : b.chained = a.chained) (hterminals : b.terminals = t :: a.terminals)
    (ht : Lawful b older t) : Closed (b :: older) := by
  refine ⟨⟨t, ?_, ht⟩, ?_, h.closed⟩
  · rw [hterminals, h.terminals]
  · rw [Follows, hchained]
    exact h.follows

/-! ## What an operation does -/

open DeferredTxCommandLane in
variable (now rfState) in
theorem observe_cases {lane : DeferredTxCommandLane π} (h : lane.entry = some e) :
    (e.expiresAt ≤ now ∧ lane.observe rfState now = (some (result .expired e), { entry := none })) ∨
    (∃ quietSince, lane.observe rfState now =
        (some (result .held { e with quietSince }), { entry := some { e with quietSince } }) ∧
      ∀ quiet, quietSince = some quiet → rfState = .rx ∧
        (e.quietSince = some quiet ∨ e.quietSince = none ∧ quiet = now)) ∨
    now < e.expiresAt ∧ rfState = .rx ∧ (∃ quiet, e.quietSince = some quiet ∧
      quiet + quietSeconds ≤ now) ∧
      lane.observe rfState now = (some (result .released e), { entry := none }) := by
  rw [DeferredTxCommandLane.observe, h]
  simp only
  split
  · exact .inl ⟨by assumption, rfl⟩
  split
  · exact .inr (.inl ⟨none, rfl, fun _ hnone => by cases hnone⟩)
  rename_i hactive hrx
  have hrx : rfState = .rx := not_not.mp hrx
  split
  · rename_i hnone
    refine .inr (.inl ⟨some now, rfl, fun quiet hquiet => ⟨hrx, .inr ⟨hnone, ?_⟩⟩⟩)
    exact (Option.some.inj hquiet).symm
  · rename_i quiet hquiet
    split
    · obtain ⟨command, deferredAt, expiresAt, quietSince⟩ := e
      cases hquiet
      obtain ⟨entry⟩ := lane
      cases h
      exact .inr (.inl ⟨some quiet, rfl, fun _ hsome => ⟨hrx, .inl hsome⟩⟩)
    · rename_i hlong
      refine .inr (.inr ⟨not_le.mp hactive, hrx, ⟨quiet, hquiet, ?_⟩, rfl⟩)
      linarith [not_lt.mp hlong]

open DeferredTxCommandLane in
variable (now rfState) in
theorem defer_cases (lane : DeferredTxCommandLane π) (command : Command π) :
    (∃ error, lane.defer command now rfState = .error error) ∨
    (lane.entry = none ∧ ∃ e, lane.defer command now rfState = .ok
    (result .held e, { entry := some e }) ∧
      e.command = command ∧ e.expiresAt = now + ttlSeconds ∧ e.quietSince = none) ∨
    ∃ previous e, lane.entry = some previous ∧ e.command = command ∧ e.quietSince = none ∧
      ((previous.expiresAt ≤ now ∧ e.expiresAt = now + ttlSeconds ∧ lane.defer command now rfState =
        .ok (⟨.expired, previous.command, previous.expiresAt, some command⟩, { entry := some e })) ∨
      now < previous.expiresAt ∧ e.expiresAt = previous.expiresAt ∧ lane.defer command now rfState =
        .ok (⟨.superseded, previous.command, previous.expiresAt, some command⟩,
          { entry := some e })) := by
  rw [defer]
  simp only
  split
  · exact .inl ⟨_, rfl⟩
  · cases hentry : lane.entry with
    | none => exact .inr (.inl ⟨rfl, _, rfl, rfl, rfl, rfl⟩)
    | some previous =>
        refine .inr (.inr ⟨previous, replacement (some previous) command now, rfl, ?_, ?_, ?_⟩)
        · simp only [replacement]
          split <;> rfl
        · simp only [replacement]
          split <;> rfl
        · by_cases hexpired : previous.expiresAt ≤ now
          · simp [replacement, hexpired, not_lt.mpr hexpired]
          · simp [replacement, hexpired, not_le.mp hexpired]

/-! ## Steps -/

/-- The held command is observed, and stays held. -/
theorem Holding.observed (h : Holding e s.clock a older) (hclock : s.clock ≤ now)
    (rfState : RfState) {quietSince : Option Time} (hquiet : ∀ quiet, quietSince = some quiet →
      a.acceptedAt ≤ quiet ∧ QuietSince (observed rfState now a) quiet) :
    Holding { e with quietSince } now (observed rfState now a) older where
  closed := h.closed
  follows := h.follows
  terminals := h.terminals
  command := h.command
  expiresAt := h.expiresAt
  accepted := h.accepted.trans hclock
  quiet := hquiet

/-- One more `RX` keeps the quiet. -/
theorem QuietSince.observed {quiet : Time} (h : QuietSince a quiet) :
    QuietSince (observed .rx now a) quiet := by
  obtain ⟨recent, before, hobservations, hrx⟩ := h
  refine ⟨(.rx, now) :: recent, before, ?_, fun o ho => ?_⟩
  · simp [LaneRun.observed, hobservations]
  · rcases List.mem_cons.mp ho with rfl | ho
    · rfl
    · exact hrx o ho

theorem Ok.observe (h : s.Ok) (hclock : s.clock ≤ now)
    (hstep : step s (.observe rfState now) = some s') : s'.Ok := by
  rw [LaneRun.step, if_neg (not_lt.mpr hclock)] at hstep
  rw [Ok] at h
  cases hentry : s.lane.entry with
  | none =>
      simp only [hentry] at h
      simp only [DeferredTxCommandLane.observe, hentry] at hstep
      cases hstep
      simpa [Ok, hentry] using h
  | some e =>
      simp only [hentry] at h
      obtain ⟨a, older, haccepted, hheld⟩ := h
      rcases observe_cases now rfState hentry with
        ⟨hlate, heq⟩ | ⟨quietSince, heq, hquiet⟩ | ⟨hearly, rfl, ⟨quiet, hquiet, hlong⟩, heq⟩
      · rw [heq] at hstep
        cases hstep
        rw [haccepted]
        refine ⟨hheld.close rfl rfl {
          command := hheld.command
          expiresAt := hheld.expiresAt
          outcome := .inr (.inl rfl)
          released := fun hreleased => by cases hreleased
          expired := fun _ => hlate
          superseded := fun hsuperseded => by cases hsuperseded }, ?_⟩
        simp [Unchained, touch, reported, LaneRun.observed, DeferredTxCommandLane.result,
          hheld.terminals]
      · rw [heq] at hstep
        cases hstep
        rw [haccepted]
        refine ⟨_, older, rfl, hheld.observed hclock rfState fun quiet hsome => ?_⟩
        obtain ⟨rfl, hsame | ⟨-, rfl⟩⟩ := hquiet quiet hsome
        · obtain ⟨hafter, hsince⟩ := hheld.quiet quiet hsame
          exact ⟨hafter, hsince.observed⟩
        · exact ⟨hheld.accepted.trans hclock, [], a.observations, rfl, fun o ho => by cases ho⟩
      · rw [heq] at hstep
        cases hstep
        rw [haccepted]
        obtain ⟨hafter, hsince⟩ := hheld.quiet quiet hquiet
        refine ⟨hheld.close rfl rfl {
          command := hheld.command
          expiresAt := hheld.expiresAt
          outcome := .inl rfl
          released := fun _ => ⟨hearly, rfl, quiet, hafter, hlong, hsince.observed⟩
          expired := fun hexpired => by cases hexpired
          superseded := fun hsuperseded => by cases hsuperseded }, ?_⟩
        simp [Unchained, touch, reported, LaneRun.observed, DeferredTxCommandLane.result,
          hheld.terminals]

/-- A new command is held, after acceptances that are closed. -/
theorem Holding.fresh (hclosed : Closed older) (hfollows : Follows a older)
    (hterminals : a.terminals = [])
    (hcommand : e.command = a.command) (hdeadline : e.expiresAt = deadline (a :: older))
    (haccepted : a.acceptedAt = now) (hquiet : e.quietSince = none) : Holding e now a older where
  closed := hclosed
  follows := hfollows
  terminals := hterminals
  command := hcommand
  expiresAt := hdeadline
  accepted := haccepted.le
  quiet quiet h := by
    rw [hquiet] at h
    cases h

theorem Unchained.follows (h : Unchained older) (hchained : a.chained = false) :
    Follows a older := by
  constructor
  · intro htrue
    rw [hchained] at htrue
    cases htrue
  · rintro ⟨b, hb, t, ht, hsuperseded⟩
    exact absurd hsuperseded (h b hb t ht)

theorem Ok.defer {command : Command π} (h : s.Ok) (hclock : s.clock ≤ now)
    (hstep : step s (.defer command now rfState) = some s') : s'.Ok := by
  rw [LaneRun.step, if_neg (not_lt.mpr hclock)] at hstep
  rcases defer_cases now rfState s.lane command with
    ⟨error, heq⟩ | ⟨hnone, e, heq, hcommand, hdeadline, hquiet⟩ |
      ⟨previous, e, hentry, hcommand, hquiet, ⟨hlate, hdeadline, heq⟩ | ⟨hearly, hdeadline, heq⟩⟩
  · rw [heq] at hstep
    cases hstep
    exact h.later hclock
  · rw [heq] at hstep
    cases hstep
    rw [Ok] at h
    simp only [hnone] at h
    obtain ⟨hclosed, hunchained⟩ := h
    have htouch : touch (reported (DeferredTxCommandLane.result .held e) now) s.accepted =
      s.accepted := by
      cases s.accepted with
      | nil => rfl
      | cons a older => simp [touch, reported, DeferredTxCommandLane.result]
    rw [htouch]
    refine ⟨_, _, rfl, .fresh hclosed (hunchained.follows rfl) rfl hcommand ?_ rfl hquiet⟩
    simp [deadline, hdeadline, DeferredTxCommandLane.result]
  · rw [Ok] at h
    simp only [hentry] at h
    obtain ⟨a, older, haccepted, hheld⟩ := h
    rw [heq, haccepted] at hstep
    cases hstep
    have hclosed : Closed (reported ⟨.expired, previous.command, previous.expiresAt,
      some command⟩ now a ::
        older) := hheld.close rfl rfl {
      command := hheld.command
      expiresAt := hheld.expiresAt
      outcome := .inr (.inl rfl)
      released := fun hreleased => by cases hreleased
      expired := fun _ => hlate
      superseded := fun hsuperseded => by cases hsuperseded }
    refine ⟨_, _, rfl, .fresh hclosed (Unchained.follows ?_ rfl) rfl hcommand ?_ rfl hquiet⟩
    · simp [Unchained, touch, reported, hheld.terminals]
    · simp [deadline, hdeadline]
  · rw [Ok] at h
    simp only [hentry] at h
    obtain ⟨a, older, haccepted, hheld⟩ := h
    rw [heq, haccepted] at hstep
    cases hstep
    have hclosed : Closed (reported ⟨.superseded, previous.command, previous.expiresAt,
      some command⟩ now a ::
        older) := hheld.close rfl rfl {
      command := hheld.command
      expiresAt := hheld.expiresAt
      outcome := .inr (.inr rfl)
      released := fun hreleased => by cases hreleased
      expired := fun hexpired => by cases hexpired
      superseded := fun _ => hearly }
    refine ⟨_, _, rfl, .fresh hclosed ?_ rfl hcommand ?_ rfl hquiet⟩
    · simp [Follows, touch, reported]
    · rw [hdeadline, hheld.expiresAt]
      simp [deadline, touch, reported]

theorem Ok.step {call : Call π} (h : s.Ok) (hstep : step s call = some s') : s'.Ok := by
  cases call with
  | defer command now rfState =>
      have hclock : s.clock ≤ now := by
        by_contra hback
        simp [LaneRun.step, not_le.mp hback] at hstep
      exact h.defer hclock hstep
  | observe rfState now =>
      have hclock : s.clock ≤ now := by
        by_contra hback
        simp [LaneRun.step, not_le.mp hback] at hstep
      exact h.observe hclock hstep

/-! ## Every acceptance of a run -/

theorem Closed.of_append {newer : List (Acceptance π)} (h : Closed (newer ++ a :: older)) :
    Closed (a :: older) := by
  induction newer with
  | nil => exact h
  | cons b newer ih => exact ih h.2.2

structure Safe (s : LaneRun π) : Prop where
  /-- A command is the one that is held, or has had one outcome. -/
  outcomes : ∀ newer a older, s.accepted = newer ++ a :: older →
    (newer = [] ∧ a.terminals = [] ∧ ∃ e, s.lane.entry = some e ∧ e.command = a.command ∧
      e.expiresAt = deadline (a :: older)) ∨
    ((newer = [] → s.lane.entry = none) ∧ ∃ t, a.terminals = [t] ∧ Lawful a older t)
  /-- Chains are those of active supersessions. -/
  chains : ∀ newer a older, s.accepted = newer ++ a :: older → Follows a older
  /-- What is held was accepted, and nothing was accepted after it. -/
  held : ∀ e, s.lane.entry = some e → ∃ a older, s.accepted = a :: older ∧ a.terminals = []

theorem Ok.safe (h : s.Ok) : s.Safe := by
  rw [Ok] at h
  cases hentry : s.lane.entry with
  | none =>
      simp only [hentry] at h
      obtain ⟨hclosed, -⟩ := h
      constructor
      · intro newer a older haccepted
        rw [haccepted] at hclosed
        exact .inr ⟨fun _ => hentry, hclosed.of_append.1⟩
      · intro newer a older haccepted
        rw [haccepted] at hclosed
        exact hclosed.of_append.2.1
      · intro e he
        rw [hentry] at he
        cases he
  | some e =>
      simp only [hentry] at h
      obtain ⟨a, older, haccepted, hheld⟩ := h
      constructor
      · intro newer b rest hsplit
        rw [haccepted] at hsplit
        cases newer with
        | nil =>
            cases hsplit
            exact .inl ⟨rfl, hheld.terminals, e, hentry, hheld.command, hheld.expiresAt⟩
        | cons x newer =>
            cases hsplit
            exact .inr ⟨fun hnil => (by cases hnil), hheld.closed.of_append.1⟩
      · intro newer b rest hsplit
        rw [haccepted] at hsplit
        cases newer with
        | nil =>
            cases hsplit
            exact hheld.follows
        | cons x newer =>
            cases hsplit
            exact hheld.closed.of_append.2.1
      · exact fun _ _ => ⟨a, older, haccepted, hheld.terminals⟩

end LaneRun

open LaneRun

end Rigplane.TxInterlock
