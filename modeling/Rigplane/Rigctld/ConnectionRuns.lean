import Rigplane.Rigctld.ResponseTurns

/-!
# Runs of a connection

`Happened` is what a step of the connection can do, and the invariants follow it.

* `Leaving`: once the loop has ended without a `quit`, no response is written any more, and before
  that nothing is cancelled but by the handler itself.
* `Ordered`: replies are written in the order of their lines.
* `Chained`: a handler starts when the ones before it have ended.

Two things can get a line past its turn.  A handler that ends with a `CancelledError` nobody asked
for takes its reply with it (`Skipped`), and if it is that of a managed unkey, which has not waited
for its predecessors, it lets the next handler pass them too (`Foreign`).
-/

namespace Rigplane.Rigctld

variable {config : ClientConfig} {s s' : Connection} {k j : Nat} {r r' : Response}

/-- The loop is still there. -/
def Reader.Open : Reader → Prop
  | waiting | reading _ => True
  | retiring | releasing | closed => False

/-- The response tasks are done. -/
def Reader.Gathered : Reader → Prop
  | releasing | closed => True
  | waiting | reading _ | retiring => False

theorem Reader.Gathered.not_open {reader : Reader} (h : reader.Gathered) : ¬ reader.Open := by
  cases reader with
  | releasing | closed => exact id
  | waiting | reading _ | retiring => cases h

/-! ## Steps -/

/-- What the loop leaves alone while it reads. -/
structure Kept (config : ClientConfig) (s s' : Connection) : Prop where
  written : s'.written = s.written
  writerClosed : s'.writerClosed = s.writerClosed
  handbackBegun : s'.handbackBegun = s.handbackBegun
  releaseOnClose : config.channel = false → s'.releaseOnClose = s.releaseOnClose

/-- A step of the connection. -/
inductive Happened (config : ClientConfig) (s : Connection) : Connection → Prop where
  | task {k : Nat} {turn : Turn} {r r' : Response} {outs : List (List UInt8)} :
      s.responses[k]? = some r → s.turn k r turn = some (r', outs) →
      Happened config s { s with
        responses := s.responses.set k r'
        written := if s.writerClosed then s.written else s.written ++ outs.map fun out => (k, out)
        writerClosed := s.writerClosed || Connection.Closes r turn }
  /-- The loop goes on. -/
  | looped {s' : Connection} : Kept config s s' → s'.responses = s.responses →
      s'.gracefulQuit = s.gracefulQuit → s.reader.Open → s'.reader.Open →
      (∀ atCapacity, s'.reader = .reading atCapacity →
        s.pending.length ≤ maxPendingClientResponses ∧
          (atCapacity = false → s.pending.length < maxPendingClientResponses)) →
      Happened config s s'
  | scheduled {s' : Connection} (line : Line) (submission : Option Bool) (atCapacity : Bool) :
      Kept config s s' → s'.responses = s.responses ++ [({ line, submission } : Response)] →
      s'.gracefulQuit = s.gracefulQuit → s.reader = .reading atCapacity → s'.reader = .waiting →
      (atCapacity = true → ∃ cmd, line = .command cmd true) → Happened config s s'
  | left {s' : Connection} (graceful : Bool) : Kept config s s' →
      s'.responses = (s.leave graceful).responses → s'.gracefulQuit = graceful → s.reader.Open →
      s'.reader = .retiring → Happened config s s'
  | gathered : s.reader = .retiring →
      (∀ r ∈ s.responses, r.Ended ∧ r.submission ≠ some false) →
      Happened config s { s with reader := .releasing, handbackBegun := s.releaseOnClose }
  | finished : s.reader = .releasing →
      Happened config s { s with reader := .closed, writerClosed := true }

theorem accept_happened {cmd : RigctldCommand} {atCapacity : Bool} {now : Time}
    (hreader : s.reader = .reading atCapacity) :
    Happened config s
      ({ s with clock := now, firstCommandLine := false }.accept config cmd atCapacity now) := by
  have hopen : s.reader.Open := by
    rw [hreader]
    trivial
  rw [Connection.accept]
  simp only
  split
  · exact .left false ⟨rfl, rfl, rfl, fun _ => rfl⟩ rfl rfl hopen rfl
  rename_i hroom
  generalize checkRateLimit config.commandRateLimit s.window now = checked
  obtain ⟨allowed, window⟩ := checked
  have hcapacity : atCapacity = true → isManagedOff config cmd = true := fun hat => by
    by_contra hoff
    exact hroom ⟨hat, hoff⟩
  simp only
  split
  · rename_i hlimited
    refine .scheduled (.error .eio) none atCapacity
      ⟨rfl, rfl, rfl, fun _ => rfl⟩ rfl rfl hreader rfl
      fun hat => absurd (hcapacity hat) hlimited.2
  · refine .scheduled (.command cmd (isManagedOff config cmd))
      (if startsSubmission config cmd then some false else none) atCapacity
      ⟨?_, ?_, ?_, fun hchannel => ?_⟩ ?_ ?_ hreader rfl fun hat => ⟨cmd, by rw [hcapacity hat]⟩
    all_goals
      cases allowed with
      | true | false => simp_all [Connection.schedule]

theorem receive_happened {raw : List UInt8} {atCapacity : Bool} {now : Time}
    (hreader : s.reader = .reading atCapacity) :
    Happened config s ({ s with clock := now }.receive config raw atCapacity now) := by
  have hopen : s.reader.Open := by
    rw [hreader]
    trivial
  rw [Connection.receive]
  split
  · exact .looped ⟨rfl, rfl, rfl, fun _ => rfl⟩ rfl rfl hopen trivial fun _ h => by cases h
  split
  · exact .left false ⟨rfl, rfl, rfl, fun _ => rfl⟩ rfl rfl hopen rfl
  simp only
  split
  · split
    · exact .left false ⟨rfl, rfl, rfl, fun _ => rfl⟩ rfl rfl hopen rfl
    · rename_i error _ hroom
      exact .scheduled (.error (Connection.parseErrorCode error)) none atCapacity
        ⟨rfl, rfl, rfl, fun _ => rfl⟩ rfl rfl hreader rfl fun hat => absurd hat hroom
  · split
    · exact .left true ⟨rfl, rfl, rfl, fun _ => rfl⟩ rfl rfl hopen rfl
    · exact accept_happened hreader

theorem step_happened {action : Action} (h : s.step config action = some s') :
    Happened config s s' := by
  cases action with
  | startRead =>
      rw [Connection.step] at h
      split at h
      · rename_i hwaiting
        cases h
        have hopen : s.reader.Open := by
          rw [hwaiting.1]
          trivial
        refine .looped ⟨rfl, rfl, rfl, fun _ => rfl⟩ rfl rfl hopen trivial fun atCapacity hat => ?_
        refine ⟨hwaiting.2, fun hfalse => ?_⟩
        have hcapacity := Reader.reading.inj hat
        rw [hfalse, decide_eq_false_iff_not] at hcapacity
        exact not_le.mp hcapacity
      · cases h
  | receive raw now =>
      rw [Connection.step.eq_def] at h
      simp only at h
      split at h
      · rename_i atCapacity hreader
        split at h
        · cases h
          exact receive_happened hreader
        · cases h
      all_goals cases h
  | readEnds =>
      rw [Connection.step.eq_def] at h
      simp only at h
      split at h
      · rename_i hreader
        cases h
        exact .left false ⟨rfl, rfl, rfl, fun _ => rfl⟩ rfl rfl (by rw [hreader]; trivial) rfl
      · rename_i hreader
        cases h
        exact .left false ⟨rfl, rfl, rfl, fun _ => rfl⟩ rfl rfl (by rw [hreader]; trivial) rfl
      all_goals cases h
  | task k turn =>
      obtain ⟨r, hr, h⟩ := Option.bind_eq_some_iff.mp h
      obtain ⟨after, hturn, rfl⟩ := Option.map_eq_some_iff.mp h
      exact .task hr hturn
  | gathered =>
      rw [Connection.step] at h
      split at h
      · rename_i hgathered
        cases h
        exact .gathered hgathered.1 hgathered.2
      · cases h
  | finished =>
      rw [Connection.step] at h
      split at h
      · rename_i hreleasing
        cases h
        exact .finished hreleasing
      · cases h

/-! ## Leaving -/

namespace Connection

/-- The loop has ended, and not by a `quit`. -/
def Left (s : Connection) : Prop := ¬ s.reader.Open ∧ s.gracefulQuit = false

structure Leaving (s : Connection) : Prop where
  ok : ∀ r ∈ s.responses, r.Ok
  undisturbed : ¬ s.Left → ∀ r ∈ s.responses, r.cancelling = false
  doomed : s.Left → ∀ r ∈ s.responses, r.Doomed
  cancelled : ∀ r ∈ s.responses, r.phase = .ended .cancelled → s.Left ∨ r.unasked = true
  cleaning : ∀ r ∈ s.responses, ∀ reply c, r.phase = .cleaning reply c → reply = none ∨ c = true →
    s.Left ∨ r.unasked = true

theorem Leaving.initial (config : ClientConfig) (clock : Time) :
    (initial config clock).Leaving where
  ok _ hr := by cases hr
  undisturbed _ _ hr := by cases hr
  doomed _ _ hr := by cases hr
  cancelled _ hr := by cases hr
  cleaning _ hr := by cases hr

theorem Left.of_closed {s s' : Connection} (hreader : ¬ s.reader.Open) (hreader' : ¬ s'.reader.Open)
    (hgraceful : s'.gracefulQuit = s.gracefulQuit) : s'.Left ↔ s.Left := by
  rw [Left, Left, hgraceful]
  exact and_congr_left fun _ => iff_of_true hreader' hreader

theorem not_left_of_open {s : Connection} (h : s.reader.Open) : ¬ s.Left := fun hleft => hleft.1 h

/-- A step of the loop that leaves the tasks alone. -/
theorem Leaving.same (h : s.Leaving) (hresponses : s'.responses = s.responses)
    (hleft : s'.Left ↔ s.Left) : s'.Leaving where
  ok := hresponses ▸ h.ok
  undisturbed hnot := hresponses ▸ h.undisturbed (hleft.not.mp hnot)
  doomed hyes := hresponses ▸ h.doomed (hleft.mp hyes)
  cancelled := by
    rw [hresponses, hleft]
    exact h.cancelled
  cleaning := by
    rw [hresponses, hleft]
    exact h.cleaning

theorem Leaving.append (h : s.Leaving) {line : Line} {submission : Option Bool}
    (hresponses : s'.responses = s.responses ++ [({ line, submission } : Response)])
    (hleft : ¬ s'.Left) (hwas : ¬ s.Left) : s'.Leaving := by
  have hmem {P : Response → Prop} (hold : ∀ r ∈ s.responses, P r)
      (hfresh : P { line, submission }) : ∀ r ∈ s'.responses, P r := by
    rw [hresponses]
    intro r hr
    rcases List.mem_append.mp hr with hr | hr
    · exact hold r hr
    · rw [List.mem_singleton.mp hr]
      exact hfresh
  have hold {P : Prop} (h : s.Left ∨ P) : s'.Left ∨ P := .inr (h.resolve_left hwas)
  exact {
    ok := hmem h.ok (fresh_ok line submission)
    undisturbed := fun _ => hmem (h.undisturbed hwas) rfl
    doomed := fun hyes => absurd hyes hleft
    cancelled := hmem (fun r hr hphase => hold (h.cancelled r hr hphase)) fun hphase => by
      cases hphase
    cleaning := hmem (fun r hr reply c hphase hnone => hold (h.cleaning r hr reply c hphase hnone))
      fun _ _ hphase => by cases hphase }

theorem Leaving.leave (h : s.Leaving) {graceful : Bool} (hopen : s.reader.Open)
    (hresponses : s'.responses = (s.leave graceful).responses)
    (hgraceful : s'.gracefulQuit = graceful) (hreader : s'.reader = .retiring) : s'.Leaving := by
  cases graceful with
  | true =>
      refine h.same hresponses (iff_of_false (fun hleft => ?_) (not_left_of_open hopen))
      rw [Left, hgraceful] at hleft
      cases hleft.2
  | false =>
      have hleft : s'.Left := by
        rw [Left, hreader, hgraceful]
        exact ⟨id, rfl⟩
      have hmem {P : Response → Prop} (hended : ∀ r ∈ s.responses, r.Ended → P r)
          (hcancel : ∀ r ∈ s.responses, P { r with cancelling := true }) :
          ∀ r ∈ s'.responses, P r := by
        rw [hresponses]
        intro r hr
        obtain ⟨before, hbefore, rfl⟩ := List.mem_map.mp hr
        split
        · rename_i hdone
          exact hended before hbefore hdone
        · exact hcancel before hbefore
      exact {
        ok := hmem (fun r hr _ => h.ok r hr) fun r hr => cancelling_ok (h.ok r hr)
        undisturbed := fun hnot => absurd hleft hnot
        doomed := fun _ => hmem (fun _ _ hdone => .inr (.inr hdone)) fun _ _ => .inl rfl
        cancelled := fun _ _ _ => .inl hleft
        cleaning := fun _ _ _ _ _ _ => .inl hleft }

theorem Leaving.task (h : s.Leaving) {outs : List (List UInt8)} (hr : s.responses[k]? = some r)
    (hmoved : Moved s k r r' outs) (hok : r'.Ok) (hresponses : s'.responses = s.responses.set k r')
    (hleft : s'.Left ↔ s.Left) : s'.Leaving := by
  have hin : r ∈ s.responses := List.mem_of_getElem? hr
  have hmem {P : Response → Prop} (hold : ∀ r ∈ s.responses, P r) (hnew : P r') :
      ∀ r ∈ s'.responses, P r := by
    rw [hresponses]
    intro r hr
    rcases List.mem_or_eq_of_mem_set hr with hr | rfl
    · exact hold r hr
    · exact hnew
  have hcancels (hcancel : r.cancelling = true) : s.Left := by
    by_contra hnot
    rw [h.undisturbed hnot r hin] at hcancel
    cases hcancel
  refine ⟨hmem h.ok hok, fun hnot => ?_, fun hyes => ?_, ?_, ?_⟩
  · have hwas := h.undisturbed (hleft.not.mp hnot)
    exact hmem hwas (hmoved.cancelling (hwas r hin))
  · have hwas := h.doomed (hleft.mp hyes)
    exact hmem hwas (hmoved.doomed (hwas r hin))
  · rw [hleft]
    refine hmem h.cancelled fun hphase => ?_
    rcases hmoved.cancelled hphase with hsame | hcancel | ⟨reply, c, hcleaning, hnone⟩
    · exact (h.cancelled r hin hsame).imp_right hmoved.unasked
    · exact .inl (hcancels hcancel)
    · exact (h.cleaning r hin reply c hcleaning hnone).imp_right hmoved.unasked
  · rw [hleft]
    refine hmem h.cleaning fun reply c hphase hnone => ?_
    rcases hmoved.cleaning reply c hphase hnone with hsame | hcancel | hended
    · rw [hsame] at hphase
      exact (h.cleaning r hin reply c hphase hnone).imp_right hmoved.unasked
    · exact .inl (hcancels hcancel)
    · exact .inr hended

theorem Leaving.step (h : s.Leaving) (hhappened : Happened config s s') : s'.Leaving := by
  cases hhappened with
  | task hr hturn =>
      have hok := h.ok _ (List.mem_of_getElem? hr)
      exact h.task hr (turn_moved hok hturn) (turn_ok hok hturn) rfl Iff.rfl
  | looped _ hresponses _ hopen hopen' =>
      exact h.same hresponses (iff_of_false (not_left_of_open hopen') (not_left_of_open hopen))
  | scheduled line submission atCapacity _ hresponses _ hreader hreader' =>
      refine h.append hresponses (not_left_of_open ?_) (not_left_of_open ?_)
      · rw [hreader']
        trivial
      · rw [hreader]
        trivial
  | left graceful _ hresponses hgraceful hopen hreader =>
      exact h.leave hopen hresponses hgraceful hreader
  | gathered hreader =>
      exact h.same rfl (Left.of_closed (by rw [hreader]; exact id) id rfl)
  | finished hreader =>
      exact h.same rfl (Left.of_closed (by rw [hreader]; exact id) id rfl)

/-! ## The order of the replies -/

end Connection

/-- It has ended without its reply, and not because the connection was left. -/
def Response.Skipped (r : Response) : Prop :=
  r.phase = .ended .unformatted ∨ r.phase = .ended .cancelled ∧ r.unasked = true

/-- Its failure closes the socket. -/
def Response.Failed (r : Response) : Prop :=
  r.phase = .ended .drainFailed ∨ r.phase = .ended .unformatted

/-- It has written its reply. -/
def Response.Done (r : Response) : Prop :=
  r.phase = .draining ∨ r.phase = .ended .done ∨ r.phase = .ended .drainFailed

namespace Connection

/-- The socket has been closed by the failure of a response. -/
def Lost (s : Connection) : Prop := ∃ r ∈ s.responses, r.Failed ∧ r.collected = true

/-- The reply with this number has been written. -/
def Wrote (s : Connection) (k : Nat) : Prop := ∃ out, (k, out) ∈ s.written

structure Ordered (s : Connection) : Prop where
  increasing : (s.written.map Prod.fst).Pairwise (· < ·)
  reply : ∀ k out, (k, out) ∈ s.written → ∃ r, s.responses[k]? = some r ∧
    (r.phase = .draining ∨ r.Ended) ∧ r.Answers out
  retired : ∀ k, s.Wrote k → ∀ j < k, ∀ r, s.responses[j]? = some r → r.settled = true
  done : ∀ k r, s.responses[k]? = some r → r.Done → s.Wrote k ∨ s.Lost
  lost : s.Lost → s.writerClosed = true
  closed : s.writerClosed = true → s.Lost ∨ s.reader = .closed
  before : ∀ k, s.Wrote k → ∀ j < k, ∀ r, s.responses[j]? = some r → s.Wrote j ∨ r.Skipped

/-- The response tasks are done where the loop has gathered them. -/
structure Gathered (config : ClientConfig) (s : Connection) : Prop where
  done : s.reader.Gathered → ∀ r ∈ s.responses, r.Ended ∧ r.submission ≠ some false
  release : config.channel = false → s.releaseOnClose = true
  handbackBegun : s.reader.Gathered → s.handbackBegun = s.releaseOnClose
  handed : s.handbackBegun = true → s.reader.Gathered

theorem get_set {x : Response} (hr : s.responses[k]? = some r)
    (hx : (s.responses.set k r')[j]? = some x) :
    j = k ∧ x = r' ∨ j ≠ k ∧ s.responses[j]? = some x := by
  by_cases hj : j = k
  · subst hj
    rw [List.getElem?_set_self (List.getElem?_eq_some_iff.mp hr).1] at hx
    exact .inl ⟨rfl, (Option.some.inj hx).symm⟩
  · rw [List.getElem?_set_ne (Ne.symm hj)] at hx
    exact .inr ⟨hj, hx⟩

theorem set_get {x : Response} (hr : s.responses[k]? = some r) (hx : s.responses[j]? = some x) :
    ∃ y, (s.responses.set k r')[j]? = some y ∧ (j = k ∧ x = r ∧ y = r' ∨ j ≠ k ∧ y = x) := by
  by_cases hj : j = k
  · subst hj
    refine ⟨r', List.getElem?_set_self (List.getElem?_eq_some_iff.mp hr).1, .inl ⟨rfl, ?_, rfl⟩⟩
    exact Option.some.inj (hx.symm.trans hr)
  · exact ⟨x, (List.getElem?_set_ne (Ne.symm hj)).trans hx, .inr ⟨hj, rfl⟩⟩

theorem retired_of_before (h : s.RetiredBefore k) (hj : j < k) {x : Response}
    (hx : s.responses[j]? = some x) : x.settled = true := by
  refine h x (List.mem_of_getElem? (i := j) ?_)
  rw [List.getElem?_take_of_lt hj]
  exact hx

/-- The reply of the response with this number is written. -/
structure Writes (s s' : Connection) (k : Nat) (r r' : Response) (out : List UInt8) : Prop where
  written : s'.written = s.written ++ [(k, out)]
  reply : ∃ reply, r.phase = .retiring reply ∧ r.format reply = some out
  before : s.RetiredBefore k
  draining : r'.phase = .draining
  unclosed : s.writerClosed = false
  spared : ¬ r.Doomed

/-- A turn of a response, as far as the replies see it. -/
structure Turned (s s' : Connection) (k : Nat) (r r' : Response) : Prop where
  get : s.responses[k]? = some r
  responses : s'.responses = s.responses.set k r'
  ok : r.Ok
  moved : ∃ outs, Moved s k r r' outs
  writes : s'.written = s.written ∧ (r'.phase = .draining → r.phase = .draining ∨
      s.writerClosed = true) ∨ ∃ out, Writes s s' k r r' out
  /-- The socket is closed where the callbacks of a response find that it has failed. -/
  closes : s'.writerClosed = true → s.writerClosed = true ∨ r'.Failed ∧ r'.collected = true
  stays : s.writerClosed = true → s'.writerClosed = true
  loses : r'.Failed → r'.collected = true → s'.writerClosed = true ∨ r.Failed ∧ r.collected = true
  reader : s'.reader = s.reader

theorem turned {turn : Turn} {outs : List (List UInt8)} (hok : r.Ok)
    (hr : s.responses[k]? = some r) (hturn : s.turn k r turn = some (r', outs)) :
    Turned s { s with
      responses := s.responses.set k r'
      written := if s.writerClosed then s.written else s.written ++ outs.map fun out => (k, out)
      writerClosed := s.writerClosed || Closes r turn } k r r' := by
  have hmoved : Moved s k r r' outs := turn_moved hok hturn
  refine ⟨hr, rfl, hok, ⟨outs, hmoved⟩, ?_, fun hclosed => ?_, fun hclosed => ?_,
    fun hfailed hc => ?_,
    rfl⟩
  · rcases hmoved.writes with rfl | ⟨reply, out, rfl, hphase, hcancelling, hbefore,
      hformat, hdrains⟩
    · refine .inl ⟨by simp, fun hdrains => .inl ?_⟩
      exact (hmoved.written hdrains).resolve_right fun h => h rfl
    · cases hclosed : s.writerClosed with
      | true => exact .inl ⟨by simp, fun _ => .inr rfl⟩
      | false =>
          refine .inr ⟨out, by simp, ⟨reply, hphase, hformat⟩, hbefore, hdrains, hclosed,
            fun hdoomed => ?_⟩
          have hnothing := hmoved.writes_nothing hdoomed
          cases hnothing
  · rw [Bool.or_eq_true, decide_eq_true_eq] at hclosed
    refine hclosed.imp_right fun hcloses => ?_
    rcases hcloses with ⟨rfl, hfailed⟩
    rcases turn_collected hturn with ⟨hother, -⟩ | ⟨-, hcollected, hphase⟩
    · exact absurd rfl hother
    · exact ⟨by rwa [Response.Failed, hphase], hcollected⟩
  · simp [hclosed]
  · rcases turn_collected hturn with ⟨-, hsame⟩ | ⟨rfl, -, hphase⟩
    · rw [hsame] at hc
      rw [Response.Failed, (hmoved.ended (hok.collected hc)).1] at hfailed
      exact .inr ⟨hfailed, hc⟩
    · left
      rw [Response.Failed, hphase] at hfailed
      have hcloses : Closes r .collect := ⟨rfl, hfailed⟩
      simp [hcloses]

theorem Turned.self (h : Turned s s' k r r') : s'.responses[k]? = some r' := by
  rw [h.responses]
  exact List.getElem?_set_self (List.getElem?_eq_some_iff.mp h.get).1

theorem Turned.before (h : Turned s s' k r r') {x : Response} (hx : s'.responses[j]? = some x) :
    j = k ∧ x = r' ∨ j ≠ k ∧ s.responses[j]? = some x := get_set h.get (h.responses ▸ hx)

theorem Turned.after (h : Turned s s' k r r') {x : Response} (hx : s.responses[j]? = some x) :
    ∃ y, s'.responses[j]? = some y ∧ (j = k ∧ x = r ∧ y = r' ∨ j ≠ k ∧ y = x) := by
  rw [h.responses]
  exact set_get h.get hx

theorem Turned.lost (h : Turned s s' k r r') (hlost : s.Lost) : s'.Lost := by
  obtain ⟨x, hx, hfailed, hcollected⟩ := hlost
  obtain ⟨j, hj⟩ := List.mem_iff_getElem?.mp hx
  obtain ⟨y, hy, hsame⟩ := h.after hj
  obtain ⟨outs, hmoved⟩ := h.moved
  refine ⟨y, List.mem_of_getElem? (i := j) hy, ?_⟩
  rcases hsame with ⟨-, rfl, rfl⟩ | ⟨-, rfl⟩
  · have hphase := (hmoved.ended (h.ok.collected hcollected)).1
    exact ⟨by rwa [Response.Failed, hphase], hmoved.collected hcollected⟩
  · exact ⟨hfailed, hcollected⟩

theorem Turned.lost_iff (h : Turned s s' k r r') (hlost : s.Lost → s.writerClosed = true)
    (hnow : s'.Lost) : s'.writerClosed = true := by
  obtain ⟨x, hx, hfailed, hcollected⟩ := hnow
  obtain ⟨j, hj⟩ := List.mem_iff_getElem?.mp hx
  rcases h.before hj with ⟨-, rfl⟩ | ⟨-, hj⟩
  · rcases h.loses hfailed hcollected with hclosed | ⟨hfailed, hcollected⟩
    · exact hclosed
    · exact h.stays (hlost ⟨r, List.mem_of_getElem? h.get, hfailed, hcollected⟩)
  · exact h.stays (hlost ⟨x, List.mem_of_getElem? hj, hfailed, hcollected⟩)

theorem Turned.wrote (h : Turned s s' k r r') (hwrote : s.Wrote j) : s'.Wrote j := by
  obtain ⟨out, hout⟩ := hwrote
  refine ⟨out, ?_⟩
  rcases h.writes with ⟨hsame, -⟩ | ⟨more, hwrites⟩
  · rwa [hsame]
  · rw [hwrites.written]
    exact List.mem_append_left _ hout

/-- What has been written was written before, or is the reply of this turn. -/
theorem Turned.wrote_before (h : Turned s s' k r r') {out : List UInt8}
    (hout : (j, out) ∈ s'.written) : (j, out) ∈ s.written ∨ j = k ∧ Writes s s' k r r' out := by
  rcases h.writes with ⟨hsame, -⟩ | ⟨more, hwrites⟩
  · exact .inl (hsame ▸ hout)
  · rw [hwrites.written] at hout
    rcases List.mem_append.mp hout with hold | hnew
    · exact .inl hold
    · rw [List.mem_singleton] at hnew
      cases hnew
      exact .inr ⟨rfl, hwrites⟩

/-- What is settled stays settled, whichever response it is. -/
theorem Turned.settled (h : Turned s s' k r r') {x : Response} (hx : s'.responses[j]? = some x)
    (hall : ∀ y, s.responses[j]? = some y → y.settled = true) : x.settled = true := by
  obtain ⟨outs, hmoved⟩ := h.moved
  rcases h.before hx with ⟨rfl, rfl⟩ | ⟨-, hx⟩
  · exact hmoved.settled (hall r h.get)
  · exact hall x hx

theorem Turned.skipped (h : Turned s s' k r r') {x : Response} (hx : s'.responses[j]? = some x)
    (hall : ∀ y, s.responses[j]? = some y → s.Wrote j ∨ y.Skipped) : s'.Wrote j ∨ x.Skipped := by
  obtain ⟨outs, hmoved⟩ := h.moved
  rcases h.before hx with ⟨rfl, rfl⟩ | ⟨-, hx⟩
  · refine (hall r h.get).imp h.wrote fun hskip => ?_
    have hended : r.Ended := hskip.elim (fun hphase => ⟨_, hphase⟩) fun hphase => ⟨_, hphase.1⟩
    have hphase := (hmoved.ended hended).1
    exact hskip.imp hphase.trans fun h => ⟨hphase.trans h.1, hmoved.unasked h.2⟩
  · exact (hall x hx).imp_left h.wrote

/-! ### A turn keeps the order -/

/-- The line whose reply is written comes after all lines whose replies are. -/
theorem Writes.latest (h : s.Ordered) (ht : Turned s s' k r r')
    {out : List UInt8} (hwrites : Writes s s' k r r' out) (hwrote : s.Wrote j) : j < k := by
  obtain ⟨reply, hphase, -⟩ := hwrites.reply
  obtain ⟨old, hold⟩ := hwrote
  obtain ⟨x, hx, hdone, -⟩ := h.reply j old hold
  by_contra hlater
  rcases (not_lt.mp hlater).lt_or_eq with hlt | rfl
  · have hsettled := h.retired j ⟨old, hold⟩ k hlt r ht.get
    obtain ⟨ending, hended⟩ := ht.ok.settled hsettled
    rw [hphase] at hended
    cases hended
  · rw [ht.get] at hx
    cases hx
    rcases hdone with hdraining | ⟨ending, hended⟩
    · rw [hphase] at hdraining
      cases hdraining
    · rw [hphase] at hended
      cases hended

/-- Each line before it has its reply written, unless it was skipped. -/
theorem Writes.all_before (h : s.Ordered) (hleaving : s.Leaving) (ht : Turned s s' k r r')
    {out : List UInt8} (hwrites : Writes s s' k r r' out) (hj : j < k) {x : Response}
    (hx : s.responses[j]? = some x) : s.Wrote j ∨ x.Skipped := by
  have hin : x ∈ s.responses := List.mem_of_getElem? hx
  have hkept {P : Prop} (hwas : P ∨ s.Lost) : P := by
    refine hwas.resolve_right fun hlost => ?_
    have hunclosed := hwrites.unclosed
    rw [h.lost hlost] at hunclosed
    cases hunclosed
  obtain ⟨ending, hended⟩ := (hleaving.ok x hin).settled (retired_of_before hwrites.before hj hx)
  cases ending with
  | done => exact .inl (hkept (h.done j x hx (.inr (.inl hended))))
  | drainFailed => exact .inl (hkept (h.done j x hx (.inr (.inr hended))))
  | unformatted => exact .inr (.inl hended)
  | cancelled =>
      rcases hleaving.cancelled x hin hended with hleft | hunasked
      · exact absurd (hleaving.doomed hleft r (List.mem_of_getElem? ht.get)) hwrites.spared
      · exact .inr (.inr ⟨hended, hunasked⟩)

theorem Ordered.turn (h : s.Ordered) (hleaving : s.Leaving) (hgathered : s.Gathered config)
    (ht : Turned s s' k r r') : s'.Ordered := by
  obtain ⟨outs, hmoved⟩ := ht.moved
  refine ⟨?_, fun j out hout => ?_, fun j hwrote i hi x hx => ?_, fun j x hx hdone => ?_,
    ht.lost_iff h.lost, fun hclosed => ?_, fun j hwrote i hi x hx => ?_⟩
  · rcases ht.writes with ⟨hsame, -⟩ | ⟨out, hwrites⟩
    · rw [hsame]
      exact h.increasing
    · rw [hwrites.written, List.map_append, List.pairwise_append]
      refine ⟨h.increasing, List.pairwise_singleton _ _, fun j hj i hi => ?_⟩
      obtain ⟨⟨j, old⟩, hold, rfl⟩ := List.mem_map.mp hj
      rw [List.map_singleton, List.mem_singleton] at hi
      rw [hi]
      exact hwrites.latest h ht ⟨old, hold⟩
  · rcases ht.wrote_before hout with hold | ⟨rfl, hwrites⟩
    · obtain ⟨x, hx, hdone, hanswers⟩ := h.reply j out hold
      obtain ⟨y, hy, hsame⟩ := ht.after hx
      refine ⟨y, hy, ?_⟩
      rcases hsame with ⟨-, rfl, rfl⟩ | ⟨-, rfl⟩
      · refine ⟨?_, hanswers.moved hmoved⟩
        rcases hdone with hdraining | ⟨ending, hended⟩
        · exact hmoved.drains hdraining
        · exact .inr ⟨ending, (hmoved.ended ⟨ending, hended⟩).1.trans hended⟩
      · exact ⟨hdone, hanswers⟩
    · obtain ⟨reply, hphase, hformat⟩ := hwrites.reply
      refine ⟨r', ht.self, .inl hwrites.draining, Response.Answers.moved
        ⟨reply, ?_, hformat⟩ hmoved⟩
      refine ht.ok.sound reply ?_
      rw [hphase]
      rfl
  · obtain ⟨out, hout⟩ := hwrote
    rcases ht.wrote_before hout with hold | ⟨rfl, hwrites⟩
    · exact ht.settled hx fun y hy => h.retired j ⟨out, hold⟩ i hi y hy
    · exact ht.settled hx fun y hy => retired_of_before hwrites.before hi hy
  · rcases ht.before hx with ⟨rfl, rfl⟩ | ⟨-, hx⟩
    · -- It was done before this turn, or this turn writes.
      have hwas (hdone : r.Done) : s'.Wrote j ∨ s'.Lost :=
        (h.done j r ht.get hdone).imp ht.wrote ht.lost
      rcases hdone with hdraining | hdone
      · rcases ht.writes with ⟨-, hdrains⟩ | ⟨out, hwrites⟩
        · rcases hdrains hdraining with hdrained | hclosed
          · exact hwas (.inl hdrained)
          · rcases h.closed hclosed with hlost | hreader
            · exact .inr (ht.lost hlost)
            · have hended := (hgathered.done (by rw [hreader]; trivial) r
                (List.mem_of_getElem? ht.get)).1
              obtain ⟨ending, hphase⟩ := hended
              rw [(hmoved.ended ⟨ending, hphase⟩).1, hphase] at hdraining
              cases hdraining
        · refine .inl ⟨out, ?_⟩
          rw [hwrites.written]
          exact List.mem_append_right _ (List.mem_singleton_self _)
      · rcases hmoved.finished hdone with hsame | hdraining
        · rw [hsame] at hdone
          exact hwas (.inr hdone)
        · exact hwas (.inl hdraining)
    · exact (h.done j x hx hdone).imp ht.wrote ht.lost
  · rcases ht.closes hclosed with hclosed | ⟨hfailed, hcollected⟩
    · rcases h.closed hclosed with hlost | hreader
      · exact .inl (ht.lost hlost)
      · exact .inr (ht.reader.trans hreader)
    · exact .inl ⟨r', List.mem_of_getElem? ht.self, hfailed, hcollected⟩
  · obtain ⟨out, hout⟩ := hwrote
    rcases ht.wrote_before hout with hold | ⟨rfl, hwrites⟩
    · exact ht.skipped hx fun y hy => h.before j ⟨out, hold⟩ i hi y hy
    · exact ht.skipped hx fun y hy => hwrites.all_before h hleaving ht hi hy

/-! ### The loop keeps the order -/

/-- The loop does nothing to a response but cancel it. -/
structure Like (x y : Response) : Prop where
  line : y.line = x.line
  phase : y.phase = x.phase
  handler : y.handler = x.handler
  submission : y.submission = x.submission
  execution : y.execution = x.execution
  settled : y.settled = x.settled
  collected : y.collected = x.collected
  unasked : y.unasked = x.unasked

/-- What the loop does to the responses: it may add a fresh one. -/
structure Framed (s s' : Connection) : Prop where
  after : ∀ (j : Nat) (x : Response), s.responses[j]? = some x →
    ∃ y, s'.responses[j]? = some y ∧ Like x y
  before : ∀ (j : Nat) (y : Response), s'.responses[j]? = some y →
    (∃ x, s.responses[j]? = some x ∧ Like x y) ∨
    s.responses.length = j ∧ ∃ line submission, y = ({ line, submission } : Response)

theorem Framed.same (h : s'.responses = s.responses) : Framed s s' where
  after j x hx := ⟨x, by rw [h]; exact hx, rfl, rfl, rfl, rfl, rfl, rfl, rfl, rfl⟩
  before j y hy := .inl ⟨y, by rw [← h]; exact hy, rfl, rfl, rfl, rfl, rfl, rfl, rfl, rfl⟩

theorem Framed.append {line : Line} {submission : Option Bool}
    (h : s'.responses = s.responses ++ [({ line, submission } : Response)]) : Framed s s' where
  after j x hx := by
    have hj := (List.getElem?_eq_some_iff.mp hx).1
    refine ⟨x, ?_, rfl, rfl, rfl, rfl, rfl, rfl, rfl, rfl⟩
    rw [h, List.getElem?_append_left hj]
    exact hx
  before j y hy := by
    rw [h] at hy
    rcases lt_or_ge j s.responses.length with hj | hj
    · rw [List.getElem?_append_left hj] at hy
      exact .inl ⟨y, hy, rfl, rfl, rfl, rfl, rfl, rfl, rfl, rfl⟩
    · rw [List.getElem?_append_right hj] at hy
      obtain ⟨hlt, hy⟩ := List.getElem?_eq_some_iff.mp hy
      rw [List.length_singleton] at hlt
      rw [List.getElem_singleton] at hy
      exact .inr ⟨by omega, line, submission, hy.symm⟩

theorem Framed.leave {graceful : Bool} (h : s'.responses = (s.leave graceful).responses) :
    Framed s s' := by
  cases graceful with
  | true => exact .same h
  | false =>
      have hget (j : Nat) : s'.responses[j]? = s.responses[j]?.map fun r =>
          if r.Ended then r else { r with cancelling := true } := by
        rw [h]
        exact List.getElem?_map
      have hlike (x : Response) :
          Like x (if x.Ended then x else { x with cancelling := true }) := by
        split
        · exact ⟨rfl, rfl, rfl, rfl, rfl, rfl, rfl, rfl⟩
        · exact ⟨rfl, rfl, rfl, rfl, rfl, rfl, rfl, rfl⟩
      constructor
      · intro j x hx
        refine ⟨_, ?_, hlike x⟩
        rw [hget, hx]
        rfl
      · intro j y hy
        rw [hget] at hy
        obtain ⟨x, hx, rfl⟩ := Option.map_eq_some_iff.mp hy
        exact .inl ⟨x, hx, hlike x⟩

theorem Ordered.frame (h : s.Ordered) (hframed : Framed s s') (hwritten : s'.written = s.written)
    (hclosed : s'.writerClosed = s.writerClosed ∨ s'.reader = .closed ∧ s'.writerClosed = true)
    (hreader : s.reader ≠ .closed) : s'.Ordered := by
  have hwrote (j : Nat) : s'.Wrote j ↔ s.Wrote j := by rw [Wrote, Wrote, hwritten]
  have hinside {j : Nat} (hj : s.Wrote j) : j < s.responses.length := by
    obtain ⟨out, hout⟩ := hj
    obtain ⟨x, hx, -⟩ := h.reply j out hout
    exact (List.getElem?_eq_some_iff.mp hx).1
  have hwas {k j : Nat} (hk : s.Wrote k) (hj : j < k) {y : Response}
      (hy : s'.responses[j]? = some y) : ∃ x, s.responses[j]? = some x ∧ Like x y := by
    refine (hframed.before j y hy).resolve_right fun hfresh => ?_
    have hlt := hinside hk
    omega
  have hlost : s'.Lost ↔ s.Lost := by
    constructor
    · rintro ⟨y, hy, hfailed, hcollected⟩
      obtain ⟨j, hj⟩ := List.mem_iff_getElem?.mp hy
      rcases hframed.before j y hj with ⟨x, hx, hlike⟩ | ⟨-, line, submission, rfl⟩
      · rw [Response.Failed, hlike.phase] at hfailed
        rw [hlike.collected] at hcollected
        exact ⟨x, List.mem_of_getElem? hx, hfailed, hcollected⟩
      · cases hcollected
    · rintro ⟨x, hx, hfailed, hcollected⟩
      obtain ⟨j, hj⟩ := List.mem_iff_getElem?.mp hx
      obtain ⟨y, hy, hlike⟩ := hframed.after j x hj
      refine ⟨y, List.mem_of_getElem? hy, ?_, ?_⟩
      · rwa [Response.Failed, hlike.phase]
      · rwa [hlike.collected]
  refine ⟨hwritten ▸ h.increasing, fun j out hout => ?_, fun k hk j hj y hy => ?_,
    fun j y hy hdone => ?_, fun hnow => ?_, fun hnow => ?_, fun k hk j hj y hy => ?_⟩
  · obtain ⟨x, hx, hdone, reply, hsound, hformat⟩ := h.reply j out (hwritten ▸ hout)
    obtain ⟨y, hy, hlike⟩ := hframed.after j x hx
    refine ⟨y, hy, ?_, reply, ?_, ?_⟩
    · rwa [Response.Ended, hlike.phase]
    · cases reply with
      | error code => rwa [Response.Sound, hlike.line]
      | resp resp => rwa [Response.Sound, hlike.line, hlike.handler]
    · cases reply with
      | error code => exact hformat
      | resp resp => rwa [Response.format, hlike.line]
  · rw [hwrote] at hk
    obtain ⟨x, hx, hlike⟩ := hwas hk hj hy
    rw [hlike.settled]
    exact h.retired k hk j hj x hx
  · rcases hframed.before j y hy with ⟨x, hx, hlike⟩ | ⟨-, line, submission, rfl⟩
    · rw [Response.Done, hlike.phase] at hdone
      rw [hwrote, hlost]
      exact h.done j x hx hdone
    · rcases hdone with hphase | hphase | hphase
      · cases hphase
      · cases hphase
      · cases hphase
  · rcases hclosed with hsame | ⟨-, htrue⟩
    · rw [hsame]
      exact h.lost (hlost.mp hnow)
    · exact htrue
  · rcases hclosed with hsame | ⟨hend, -⟩
    · rw [hsame] at hnow
      exact .inl (hlost.mpr ((h.closed hnow).resolve_right hreader))
    · exact .inr hend
  · rw [hwrote] at hk
    obtain ⟨x, hx, hlike⟩ := hwas hk hj hy
    rw [hwrote, Response.Skipped, hlike.phase, hlike.unasked]
    exact h.before k hk j hj x hx

/-! ### The tasks that are gathered -/

theorem Gathered.loop (h : s.Gathered config) (hkept : Kept config s s') (hopen : s.reader.Open)
    (hreader : ¬ s'.reader.Gathered) : s'.Gathered config where
  done hdone := absurd hdone hreader
  release hchannel := by
    rw [hkept.releaseOnClose hchannel]
    exact h.release hchannel
  handbackBegun hdone := absurd hdone hreader
  handed hback := by
    rw [hkept.handbackBegun] at hback
    exact absurd hopen (h.handed hback).not_open

theorem Gathered.step (h : s.Gathered config) (hleaving : s.Leaving)
    (hhappened : Happened config s s') : s'.Gathered config := by
  cases hhappened with
  | task hr hturn =>
      rename_i k turn r r' outs
      have hmoved := turn_moved (hleaving.ok r (List.mem_of_getElem? hr)) hturn
      refine ⟨fun hdone x hx => ?_, h.release, h.handbackBegun, h.handed⟩
      have hwas := h.done hdone
      rcases List.mem_or_eq_of_mem_set hx with hx | rfl
      · exact hwas x hx
      · obtain ⟨⟨ending, hended⟩, hsubmission⟩ := hwas r (List.mem_of_getElem? hr)
        refine ⟨⟨ending, (hmoved.ended ⟨ending, hended⟩).1.trans hended⟩, ?_⟩
        rcases hmoved.submission with hsame | ⟨hold, -⟩
        · rwa [hsame]
        · exact absurd hold hsubmission
  | looped hkept _ _ hopen hopen' => exact h.loop hkept hopen fun hdone => hdone.not_open hopen'
  | scheduled line submission atCapacity hkept _ _ hreader hreader' =>
      refine h.loop hkept ?_ ?_
      · rw [hreader]
        trivial
      · rw [hreader']
        exact id
  | left graceful hkept _ _ hopen hreader =>
      refine h.loop hkept hopen ?_
      rw [hreader]
      exact id
  | gathered hreader hall => exact ⟨fun _ => hall, h.release, fun _ => rfl, fun _ => trivial⟩
  | finished hreader =>
      have hdone : s.reader.Gathered := by
        rw [hreader]
        trivial
      exact ⟨fun _ => h.done hdone, h.release, fun _ => h.handbackBegun hdone, fun _ => trivial⟩

theorem Ordered.step (h : s.Ordered) (hleaving : s.Leaving) (hgathered : s.Gathered config)
    (hhappened : Happened config s s') : s'.Ordered := by
  have hopen {reader : Reader} (hreader : reader.Open) : reader ≠ .closed := by
    rintro rfl
    exact hreader
  cases hhappened with
  | task hr hturn =>
      exact h.turn hleaving hgathered (turned (hleaving.ok _ (List.mem_of_getElem? hr)) hr hturn)
  | looped hkept hresponses _ hreader _ =>
      exact h.frame (.same hresponses) hkept.written (.inl hkept.writerClosed) (hopen hreader)
  | scheduled line submission atCapacity hkept hresponses _ hreader _ =>
      exact h.frame (.append hresponses) hkept.written (.inl hkept.writerClosed)
        (hopen (by rw [hreader]; trivial))
  | left graceful hkept hresponses _ hreader _ =>
      exact h.frame (.leave hresponses) hkept.written (.inl hkept.writerClosed) (hopen hreader)
  | gathered hreader =>
      exact h.frame (.same rfl) rfl (.inl rfl) (by rw [hreader]; decide)
  | finished hreader =>
      exact h.frame (.same rfl) rfl (.inr ⟨rfl, rfl⟩) (by rw [hreader]; decide)

end Connection

end Rigplane.Rigctld
