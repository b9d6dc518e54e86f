import Rigplane.Rigctld.Connection

/-!
# What a response task can do

`Response.Ok` is what holds of a response task at any time, and `Moved` is all that one turn of it
can do: it keeps what is done, starts its handler only where the line before has been executed,
and writes once, when all lines before it have retired.  `turn_moved` and `turn_ok` read both off
the turns.
-/

namespace Rigplane.Rigctld

/-- The reply that a response task goes on with. -/
def Phase.reply : Phase → Option Reply
  | cleaning reply _ => reply
  | executing reply | retiring reply => some reply
  | unstarted | predecessor | handling | draining | ended _ => none

namespace Response

variable (r : Response)

/-- The reply is one that the line calls for. -/
def Sound : Reply → Prop
  | .error code => r.line = .error code ∨
      ∃ cmd managedOff, r.line = .command cmd managedOff ∧ (code = .etimeout ∨ code = .eio)
  | .resp resp => r.handler = .ended (.returned resp) ∧
      ∃ cmd managedOff, r.line = .command cmd managedOff

/-- The bytes are a reply to the line: its error, or what the handler's response is formatted as. -/
def Answers (out : List UInt8) : Prop := ∃ reply, r.Sound reply ∧ r.format reply = some out

/-- Its handler has been reached. -/
def Late : Prop := (∃ reply, r.phase = .retiring reply) ∨ r.phase = .draining ∨ r.Ended

/-- It is to be cancelled, or will be where it stands: it writes nothing any more. -/
def Doomed : Prop :=
  r.cancelling = true ∨ (∃ reply c, r.phase = .cleaning reply c ∧
    (reply = none ∨ c = true)) ∨ r.Ended

structure Ok : Prop where
  settled : r.settled = true → r.Ended
  executed : r.execution = true → r.Late
  late : r.Late → r.execution = true ∨ r.phase = .ended .cancelled ∧ r.handler = .unstarted
  running : r.handler = .running → r.phase = .handling ∨ ∃ reply c, r.phase = .cleaning reply c
  started : r.phase = .unstarted ∨ r.phase = .predecessor → r.handler = .unstarted
  command : r.phase = .predecessor ∨ r.phase = .handling → ∃ cmd managedOff,
    r.line = .command cmd managedOff
  sound : ∀ reply, r.phase.reply = some reply → r.Sound reply
  collected : r.collected = true → r.Ended
  commanded : r.handler ≠ .unstarted → ∃ cmd managedOff, r.line = .command cmd managedOff
  unasked : r.unasked = true → r.handler = .ended .cancelled

end Response

/-- What one turn can do to the response with this number. -/
structure Moved (s : Connection) (k : Nat) (r r' : Response) (outs : List (List UInt8)) : Prop where
  line : r'.line = r.line
  execution : r.execution = true → r'.execution = true
  settled : r.settled = true → r'.settled = true
  ended : r.Ended → r'.phase = r.phase ∧ r'.handler = r.handler
  submission : r'.submission = r.submission ∨ r.submission = some false ∧ r'.submission = some true
  collected : r.collected = true → r'.collected = true
  cancelling : r.cancelling = false → r'.cancelling = false
  handler : r'.handler = r.handler ∨ r'.handler = .running ∧
      (r.phase = .unstarted ∨ r.phase = .predecessor) ∧ r.handler = .unstarted ∧
      r.cancelling = false ∧ ((∃ cmd, r.line = .command cmd true) ∨ s.ExecutedBefore k) ∨
    r.handler = .running ∧ ∃ result, r'.handler = .ended result
  writes : outs = [] ∨ ∃ reply out, outs = [out] ∧ r.phase = .retiring reply ∧
    r.cancelling = false ∧ s.RetiredBefore k ∧ r.format reply = some out ∧ r'.phase = .draining
  /-- What is written has been written by a turn. -/
  written : r'.phase = .draining → r.phase = .draining ∨ outs ≠ []
  finished : r'.phase = .ended .done ∨ r'.phase = .ended .drainFailed → r'.phase = r.phase ∨
    r.phase = .draining
  /-- The execution is done in turn, or by a cancellation. -/
  executes : r.execution = false → r'.execution = true → s.ExecutedBefore k ∨
    r'.phase = .ended .cancelled
  /-- Where a cancellation comes from. -/
  cancelled : r'.phase = .ended .cancelled → r.phase = .ended .cancelled ∨ r.cancelling = true ∨
    ∃ reply c, r.phase = .cleaning reply c ∧ (reply = none ∨ c = true)
  cleaning : ∀ reply c, r'.phase = .cleaning reply c → reply = none ∨ c = true →
    r'.phase = r.phase ∨ r.cancelling = true ∨ r'.unasked = true
  unasked : r.unasked = true → r'.unasked = true
  doomed : r.Doomed → r'.Doomed
  drains : r.phase = .draining → r'.phase = .draining ∨ r'.Ended

variable {s : Connection} {k : Nat} {r r' : Response} {outs : List (List UInt8)}

/-! ## The turns -/

theorem begin_moved (hok : r.Ok) (h : s.turn k r .begin = some (r', outs)) :
    Moved s k r r' outs := by
  simp only [Connection.turn] at h
  split at h
  · cases h
  rename_i hbegin
  obtain ⟨hphase, hcancelling⟩ := not_or.mp hbegin
  rw [not_not] at hphase
  have hunstarted := hok.started (.inl hphase)
  split at h
  · cases h
    constructor <;> simp_all [Response.Ended, Response.Doomed]
  · split at h
    · cases h
      constructor <;> simp_all [Response.Ended, Response.Doomed]
    · cases h
      constructor <;> simp_all [Response.Ended, Response.Doomed]

theorem wake_moved (hok : r.Ok) (h : s.turn k r .wake = some (r', outs)) :
    Moved s k r r' outs := by
  simp only [Connection.turn] at h
  split at h
  · cases h
  split at h
  · cases h
  · cases h
  · rename_i hphase
    have hunstarted := hok.started (.inr hphase)
    split at h
    · cases h
      constructor <;> simp_all [Response.Ended, Response.Doomed]
    · cases h
  · split at h
    · rename_i result hended
      cases h
      have hunasked := hok.unasked
      cases result with
      | returned | raised | timedOut | cancelled =>
          constructor <;> simp_all [Response.Ended, Response.Doomed, Response.handled]
    · cases h
    · cases h
  · rename_i reply c hphase
    split at h
    · cases h
    split at h
    · cases h
      constructor <;> simp_all [Response.Ended, Response.Doomed]
    · rename_i hnone
      cases h
      -- There is no reply, or it has been cancelled.
      have hcancelled : reply = none ∨ c = true := by
        cases reply with
        | none => exact .inl rfl
        | some reply =>
            cases c with
            | true => exact .inr rfl
            | false => exact absurd rfl (hnone reply rfl)
      have hcleaning : ∃ reply c, r.phase = .cleaning reply c ∧ (reply = none ∨ c = true) :=
        ⟨reply, c, hphase, hcancelled⟩
      constructor <;> simp_all [Response.Ended, Response.Doomed, Response.abort]
  · split at h
    · cases h
      constructor <;> simp_all [Response.Ended, Response.Doomed]
    · cases h
  · split at h
    · split at h
      · cases h
        constructor <;> simp_all [Response.Ended, Response.Doomed]
      · cases h
        constructor <;> simp_all [Response.Ended, Response.Doomed]
    · cases h
  · cases h
    constructor <;> simp_all [Response.Ended, Response.Doomed]

theorem interrupt_moved (h : s.turn k r .interrupt = some (r', outs)) : Moved s k r r' outs := by
  simp only [Connection.turn] at h
  split at h
  · cases h
  split at h
  · cases h
    constructor <;> simp_all [Response.Ended, Response.Doomed]
  · cases h
    constructor <;> simp_all [Response.Ended, Response.Doomed]
  · cases h
    constructor <;> simp_all [Response.Ended, Response.Doomed]
  · cases h
    constructor <;> simp_all [Response.Ended, Response.Doomed]
  · cases h
    constructor <;> simp_all [Response.Ended, Response.Doomed, Response.abort]
  · cases h
    constructor <;> simp_all [Response.Ended, Response.Doomed]
  · cases h
    constructor <;> simp_all [Response.Ended, Response.Doomed]
  · cases h

theorem turn_moved (hok : r.Ok) {turn : Turn} (h : s.turn k r turn = some (r', outs)) :
    Moved s k r r' outs := by
  cases turn with
  | begin => exact begin_moved hok h
  | wake => exact wake_moved hok h
  | interrupt => exact interrupt_moved h
  | timeout | drainFails | submissionEnds =>
      simp only [Connection.turn] at h
      split at h
      · cases h
        constructor <;> simp_all [Response.Ended, Response.Doomed]
      · cases h
  | handlerEnds result =>
      simp only [Connection.turn] at h
      split at h
      · rename_i hrunning
        cases h
        rcases hok.running hrunning with hphase | ⟨reply, c, hphase⟩
        · constructor <;> simp_all [Response.Ended, Response.Doomed]
        · constructor <;> simp_all [Response.Ended, Response.Doomed]
      · cases h
  | collect =>
      simp only [Connection.turn] at h
      split at h
      · cases h
      split at h
      · cases h
        constructor <;> simp_all [Response.Ended, Response.Doomed]
      · cases h
        constructor <;> simp_all [Response.Ended, Response.Doomed]

theorem Response.Sound.handlerEnds {reply : Reply} (h : r.Sound reply)
    (hrunning : r.handler = .running)
    (result : Result) : ({ r with handler := .ended result } : Response).Sound reply := by
  cases reply with
  | error code => exact h
  | resp resp =>
      have hended := h.1
      rw [hrunning] at hended
      cases hended

theorem begin_ok (hok : r.Ok) (h : s.turn k r .begin = some (r', outs)) : r'.Ok := by
  simp only [Connection.turn] at h
  split at h
  · cases h
  rename_i hbegin
  obtain ⟨hphase, hcancelling⟩ := not_or.mp hbegin
  rw [not_not] at hphase
  have hunstarted := hok.started (.inl hphase)
  obtain ⟨hsettled, hexecuted, hlate, hrunning, hstarted, hcommand, hsound, hcollected,
    hcommanded, hunasked⟩ := hok
  split at h
  · cases h
    constructor <;> simp_all [Response.Ended, Response.Late, Phase.reply, Response.Sound]
  · split at h
    · cases h
      constructor <;> simp_all [Response.Ended, Response.Late, Phase.reply, Response.Sound]
    · cases h
      constructor <;> simp_all [Response.Ended, Response.Late, Phase.reply, Response.Sound]

theorem wake_ok (hok : r.Ok) (h : s.turn k r .wake = some (r', outs)) : r'.Ok := by
  obtain ⟨hsettled, hexecuted, hlate, hrunning, hstarted, hcommand, hsound, hcollected,
    hcommanded, hunasked⟩ := hok
  simp only [Connection.turn] at h
  split at h
  · cases h
  split at h
  · cases h
  · cases h
  · rename_i hphase
    split at h
    · cases h
      constructor <;> simp_all [Response.Ended, Response.Late, Phase.reply, Response.Sound]
    · cases h
  · split at h
    · rename_i result hended
      cases h
      cases result with
      | returned | raised | timedOut | cancelled =>
          constructor <;> simp_all [Response.Ended, Response.Late, Phase.reply, Response.Sound,
            Response.handled]
    · cases h
    · cases h
  · rename_i reply c hphase
    split at h
    · cases h
    rename_i howns
    have hnot : r.handler ≠ .running := fun hrunning => howns (.inl hrunning)
    split at h
    · cases h
      constructor <;> simp_all [Response.Ended, Response.Late, Phase.reply, Response.Sound]
    · rename_i hnone
      cases h
      constructor <;> simp_all [Response.Ended, Response.Late, Phase.reply, Response.Sound,
        Response.abort]
  · split at h
    · cases h
      constructor <;> simp_all [Response.Ended, Response.Late, Phase.reply, Response.Sound]
    · cases h
  · split at h
    · split at h
      · cases h
        constructor <;> simp_all [Response.Ended, Response.Late, Phase.reply, Response.Sound]
      · cases h
        constructor <;> simp_all [Response.Ended, Response.Late, Phase.reply, Response.Sound]
    · cases h
  · cases h
    constructor <;> simp_all [Response.Ended, Response.Late, Phase.reply, Response.Sound]

theorem interrupt_ok (hok : r.Ok) (h : s.turn k r .interrupt = some (r', outs)) : r'.Ok := by
  obtain ⟨hsettled, hexecuted, hlate, hrunning, hstarted, hcommand, hsound, hcollected,
    hcommanded, hunasked⟩ := hok
  simp only [Connection.turn] at h
  split at h
  · cases h
  split at h
  · cases h
    constructor <;> simp_all [Response.Ended, Response.Late, Phase.reply, Response.Sound]
  · cases h
    constructor <;> simp_all [Response.Ended, Response.Late, Phase.reply, Response.Sound]
  · cases h
    constructor <;> simp_all [Response.Ended, Response.Late, Phase.reply, Response.Sound]
  · cases h
    constructor <;> simp_all [Response.Ended, Response.Late, Phase.reply, Response.Sound]
  · cases h
    constructor <;> simp_all [Response.Ended, Response.Late, Phase.reply, Response.Sound,
        Response.abort]
  · cases h
    constructor <;> simp_all [Response.Ended, Response.Late, Phase.reply, Response.Sound]
  · cases h
    constructor <;> simp_all [Response.Ended, Response.Late, Phase.reply, Response.Sound]
  · cases h

theorem turn_ok (hok : r.Ok) {turn : Turn} (h : s.turn k r turn = some (r', outs)) : r'.Ok := by
  cases turn with
  | begin => exact begin_ok hok h
  | wake => exact wake_ok hok h
  | interrupt => exact interrupt_ok hok h
  | timeout | drainFails =>
      obtain ⟨hsettled, hexecuted, hlate, hrunning, hstarted, hcommand, hsound, hcollected,
        hcommanded, hunasked⟩ := hok
      simp only [Connection.turn] at h
      split at h
      · cases h
        constructor <;> simp_all [Response.Ended, Response.Late, Phase.reply, Response.Sound]
      · cases h
  | submissionEnds =>
      simp only [Connection.turn] at h
      split at h
      · cases h
        exact ⟨hok.settled, hok.executed, hok.late, hok.running, hok.started, hok.command,
          hok.sound,
          hok.collected, hok.commanded, hok.unasked⟩
      · cases h
  | handlerEnds result =>
      simp only [Connection.turn] at h
      split at h
      · rename_i hrunning
        cases h
        have hsound : ∀ reply, r.phase.reply = some reply →
            ({ r with handler := .ended result } : Response).Sound reply := fun reply hreply =>
          (hok.sound reply hreply).handlerEnds hrunning result
        rcases hok.running hrunning with hphase | ⟨reply, c, hphase⟩
        · obtain ⟨hsettled, hexecuted, hlate, hrunning, hstarted, hcommand, -, hcollected,
            hcommanded, hunasked⟩ := hok
          refine ⟨?_, ?_, ?_, ?_, ?_, ?_, hsound, ?_, ?_, ?_⟩ <;> simp_all
            [Response.Ended, Response.Late]
        · obtain ⟨hsettled, hexecuted, hlate, hrunning, hstarted, hcommand, -, hcollected,
            hcommanded, hunasked⟩ := hok
          refine ⟨?_, ?_, ?_, ?_, ?_, ?_, hsound, ?_, ?_, ?_⟩ <;> simp_all
            [Response.Ended, Response.Late]
      · cases h
  | collect =>
      simp only [Connection.turn] at h
      split at h
      · cases h
      rename_i hcollect
      split at h
      · cases h
        obtain ⟨hsettled, hexecuted, hlate, hrunning, hstarted, hcommand, hsound, hcollected,
          hcommanded, hunasked⟩ := hok
        constructor <;> simp_all [Response.Ended, Response.Late, Phase.reply, Response.Sound]
      · cases h
        exact ⟨hok.settled, hok.executed, hok.late, hok.running, hok.started, hok.command,
          hok.sound,
          fun _ => by_contra fun hnot => hcollect (.inl hnot), hok.commanded, hok.unasked⟩

theorem fresh_ok (line : Line) (submission : Option Bool) :
    ({ line, submission } : Response).Ok := by
  constructor <;> simp [Response.Ended, Response.Late, Phase.reply]

theorem cancelling_ok (hok : r.Ok) : ({ r with cancelling := true } : Response).Ok :=
  ⟨hok.settled, hok.executed, hok.late, hok.running, hok.started, hok.command, hok.sound,
    hok.collected, hok.commanded, hok.unasked⟩

/-- A handler that has ended stays as it has ended. -/
theorem Moved.handler_ended {result : Result} (h : Moved s k r r' outs)
    (hended : r.handler = .ended result) : r'.handler = .ended result := by
  rcases h.handler with hsame | ⟨-, -, hunstarted, -⟩ | ⟨hrunning, -⟩
  · rw [hsame, hended]
  · rw [hended] at hunstarted
    cases hunstarted
  · rw [hended] at hrunning
    cases hrunning

/-- A task that is to be cancelled writes nothing. -/
theorem Moved.writes_nothing (h : Moved s k r r' outs) (hdoomed : r.Doomed) : outs = [] := by
  rcases h.writes with hnone | ⟨reply, out, -, hphase, hcancelling, -⟩
  · exact hnone
  · rcases hdoomed with hcancel | ⟨_, _, hcleaning, -⟩ | ⟨_, hended⟩
    · rw [hcancelling] at hcancel
      cases hcancel
    · rw [hphase] at hcleaning
      cases hcleaning
    · rw [hphase] at hended
      cases hended

theorem turn_collected {turn : Turn} (h : s.turn k r turn = some (r', outs)) :
    turn ≠ .collect ∧ r'.collected = r.collected ∨
      turn = .collect ∧ r'.collected = true ∧ r'.phase = r.phase := by
  cases turn with
  | collect =>
      simp only [Connection.turn] at h
      split at h
      · cases h
      split at h
      · cases h
        exact .inr ⟨rfl, rfl, rfl⟩
      · cases h
        exact .inr ⟨rfl, rfl, rfl⟩
  | begin | wake | timeout | drainFails | interrupt | handlerEnds _ | submissionEnds =>
      simp only [Connection.turn] at h
      refine .inl ⟨fun hcollect => (by cases hcollect), ?_⟩
      repeat' split at h
      all_goals
        cases h
        try rfl

theorem Response.Answers.moved {out : List UInt8} (h : r.Answers out)
    (hmoved : Moved s k r r' outs) :
    r'.Answers out := by
  obtain ⟨reply, hsound, hformat⟩ := h
  refine ⟨reply, ?_, ?_⟩
  · cases reply with
    | error code =>
        rw [Response.Sound, hmoved.line]
        exact hsound
    | resp resp =>
        rw [Response.Sound, hmoved.line]
        exact ⟨hmoved.handler_ended hsound.1, hsound.2⟩
  · rw [← hformat]
    cases reply with
    | error code => rfl
    | resp resp => rw [Response.format, Response.format, hmoved.line]

end Rigplane.Rigctld
