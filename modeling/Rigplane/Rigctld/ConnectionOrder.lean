import Rigplane.Rigctld.ConnectionRuns

/-!
# The order of replies and handlers

The results about every run of a connection, whatever the interleaving of its tasks.

* `replies_in_order`: replies are written in the order of their lines, each for its own line, and
  no line is passed over unless its response was skipped.
* `quit_answers_all`: after a `quit` every line before it is answered.
* `handlers_in_turn`: a handler starts when those of the lines before have ended.
* `released_after_handlers`: the handback of the session's TX begins when no handler is left.
-/

namespace Rigplane.Rigctld

variable {config : ClientConfig} {s s' : Connection} {k j : Nat} {r r' : Response}

namespace Connection

/-! ## Handlers -/

/-- The handler of a managed unkey has ended with a cancellation that its response did not ask
for, and met where it waited for it. -/
def Foreign (s : Connection) (j : Nat) : Prop := ∃ r, s.responses[j]? = some r ∧
  (∃ cmd, r.line = .command cmd true) ∧ r.phase = .ended .cancelled ∧ r.unasked = true

/-- All lines before this one are executed. -/
def Executed (s : Connection) (k : Nat) : Prop :=
  ∀ j < k, ∀ r, s.responses[j]? = some r → r.execution = true

structure Chained (s : Connection) : Prop where
  /-- An execution that is done is so in turn. -/
  chain : ∀ k r, s.responses[k]? = some r → r.execution = true →
    s.Left ∨ (∃ j ≤ k, s.Foreign j) ∨ s.Executed k
  started : ∀ k r, s.responses[k]? = some r → (∃ cmd, r.line = .command cmd false) →
    r.handler ≠ .unstarted → (∃ j < k, s.Foreign j) ∨ s.Executed k

theorem Chained.initial (config : ClientConfig) (clock : Time) :
    (initial config clock).Chained where
  chain _ _ hr := by cases hr
  started _ _ hr := by cases hr

/-- Where the line before is executed, all are, unless a foreign cancellation let one pass. -/
theorem Chained.before (h : s.Chained) (hbefore : s.ExecutedBefore k)
    (hk : k < s.responses.length) :
    s.Left ∨ (∃ j < k, s.Foreign j) ∨ s.Executed k := by
  cases k with
  | zero => exact .inr (.inr fun j hj => absurd hj (Nat.not_lt_zero j))
  | succ k =>
      have hlast : s.responses[k]? = some s.responses[k] := List.getElem?_eq_getElem _
      have hdone : s.responses[k].execution = true := by
        refine hbefore _ ?_
        rw [Option.mem_def, List.getLast?_take, if_neg (Nat.succ_ne_zero k),
          Nat.add_sub_cancel, hlast]
        rfl
      rcases h.chain k _ hlast hdone with hleft | ⟨j, hj, hforeign⟩ | hall
      · exact .inl hleft
      · exact .inr (.inl ⟨j, Nat.lt_succ_of_le hj, hforeign⟩)
      · refine .inr (.inr fun j hj x hx => ?_)
        rcases (Nat.lt_succ_iff.mp hj).lt_or_eq with hlt | rfl
        · exact hall j hlt x hx
        · rw [hlast] at hx
          cases hx
          exact hdone

/-- An unkey that is let pass so stays so. -/
theorem Foreign.after (h : s.Foreign j)
    (hafter : ∀ x, s.responses[j]? = some x → x.Ended → ∃ y, s'.responses[j]? = some y ∧
      y.line = x.line ∧ y.phase = x.phase ∧ (x.unasked = true → y.unasked = true)) :
    s'.Foreign j := by
  obtain ⟨x, hx, ⟨cmd, hline⟩, hphase, hunasked⟩ := h
  obtain ⟨y, hy, hline', hphase', hkept⟩ := hafter x hx ⟨_, hphase⟩
  exact ⟨y, hy, ⟨cmd, hline'.trans hline⟩, hphase'.trans hphase, hkept hunasked⟩

theorem Turned.foreign (h : Turned s s' k r r') (hforeign : s.Foreign j) : s'.Foreign j := by
  obtain ⟨outs, hmoved⟩ := h.moved
  refine hforeign.after fun x hx hended => ?_
  obtain ⟨y, hy, hsame⟩ := h.after hx
  refine ⟨y, hy, ?_⟩
  rcases hsame with ⟨-, rfl, rfl⟩ | ⟨-, rfl⟩
  · exact ⟨hmoved.line, (hmoved.ended hended).1, hmoved.unasked⟩
  · exact ⟨rfl, rfl, id⟩

theorem Turned.executed (h : Turned s s' k r r') (hexecuted : s.Executed j) : s'.Executed j := by
  obtain ⟨outs, hmoved⟩ := h.moved
  intro i hi x hx
  rcases h.before hx with ⟨rfl, rfl⟩ | ⟨-, hx⟩
  · exact hmoved.execution (hexecuted i hi r h.get)
  · exact hexecuted i hi x hx

theorem Chained.turn (h : s.Chained) (hleaving : s.Leaving) (ht : Turned s s' k r r')
    (hleft : s'.Left ↔ s.Left) : s'.Chained := by
  obtain ⟨outs, hmoved⟩ := ht.moved
  have hin : r ∈ s.responses := List.mem_of_getElem? ht.get
  have hk : k < s.responses.length := (List.getElem?_eq_some_iff.mp ht.get).1
  have hturns {i : Nat} (hall : s.Left ∨ (∃ j < i, s.Foreign j) ∨ s.Executed i) :
      s'.Left ∨ (∃ j < i, s'.Foreign j) ∨ s'.Executed i := by
    rw [hleft]
    exact hall.imp_right fun h => h.imp
      (fun hforeign => hforeign.imp fun _ hj => ⟨hj.1, ht.foreign hj.2⟩) ht.executed
  constructor
  · intro i x hx hexecution
    rcases ht.before hx with ⟨rfl, rfl⟩ | ⟨-, hx⟩
    · by_cases hwas : r.execution = true
      · rw [hleft]
        exact (h.chain i r ht.get hwas).imp_right fun h => h.imp
          (fun hforeign => hforeign.imp fun _ hj => ⟨hj.1, ht.foreign hj.2⟩) ht.executed
      have hweaken (hall : s'.Left ∨ (∃ j < i, s'.Foreign j) ∨ s'.Executed i) :
          s'.Left ∨ (∃ j ≤ i, s'.Foreign j) ∨ s'.Executed i :=
        hall.imp_right fun h => h.imp_left fun hforeign => hforeign.imp fun _ hj => ⟨hj.1.le, hj.2⟩
      rcases hmoved.executes (Bool.not_eq_true _ ▸ hwas) hexecution with hbefore | hcancelled
      · exact hweaken (hturns (h.before hbefore hk))
      · -- The cancellation comes from the connection, or from the handler.
        have hwhere : s.Left ∨ r.unasked = true := by
          rcases hmoved.cancelled hcancelled with hphase | hcancel | ⟨reply, c, hphase, hnone⟩
          · exact hleaving.cancelled r hin hphase
          · refine .inl (by_contra fun hnot => ?_)
            rw [hleaving.undisturbed hnot r hin] at hcancel
            cases hcancel
          · exact hleaving.cleaning r hin reply c hphase hnone
        rcases hwhere with hgone | hunasked
        · exact .inl (hleft.mpr hgone)
        · have hhandler := ht.ok.unasked hunasked
          obtain ⟨cmd, managedOff, hline⟩ := ht.ok.commanded
            (by rw [hhandler]; exact Handler.noConfusion)
          cases managedOff with
          | true =>
              exact .inr (.inl ⟨i, le_rfl, x, ht.self, ⟨cmd, hmoved.line.trans hline⟩, hcancelled,
                hmoved.unasked hunasked⟩)
          | false =>
              have hstarted := h.started i r ht.get ⟨cmd, hline⟩
                (by rw [hhandler]; exact Handler.noConfusion)
              exact hweaken (hturns (.inr hstarted))
    · rw [hleft]
      exact (h.chain i x hx hexecution).imp_right fun h => h.imp
        (fun hforeign => hforeign.imp fun _ hj => ⟨hj.1, ht.foreign hj.2⟩) ht.executed
  · rintro i x hx ⟨cmd, hline⟩ hreached
    have hwas (hstarted : (∃ j < i, s.Foreign j) ∨ s.Executed i) :
        (∃ j < i, s'.Foreign j) ∨ s'.Executed i :=
      hstarted.imp (fun hforeign => hforeign.imp fun _ hj => ⟨hj.1, ht.foreign hj.2⟩) ht.executed
    rcases ht.before hx with ⟨rfl, rfl⟩ | ⟨-, hx⟩
    · rw [hmoved.line] at hline
      rcases hmoved.handler with hsame | ⟨-, hphase, -, hcancelling, hturn⟩ | ⟨hrunning, -⟩
      · rw [hsame] at hreached
        exact hwas (h.started i r ht.get ⟨cmd, hline⟩ hreached)
      · rcases hturn with ⟨other, hoff⟩ | hbefore
        · rw [hline] at hoff
          cases hoff
        · refine hwas ((h.before hbefore hk).resolve_left fun hgone => ?_)
          rcases hleaving.doomed hgone r hin with hcancel | ⟨_, _, hcleaning, -⟩ | ⟨_, hended⟩
          · rw [hcancelling] at hcancel
            cases hcancel
          · rcases hphase with hphase | hphase
            · rw [hphase] at hcleaning
              cases hcleaning
            · rw [hphase] at hcleaning
              cases hcleaning
          · rcases hphase with hphase | hphase
            · rw [hphase] at hended
              cases hended
            · rw [hphase] at hended
              cases hended
      · refine hwas (h.started i r ht.get ⟨cmd, hline⟩ ?_)
        rw [hrunning]
        exact Handler.noConfusion
    · exact hwas (h.started i x hx ⟨cmd, hline⟩ hreached)

theorem Chained.frame (h : s.Chained) (hframed : Framed s s')
    (hleft : s'.Left ∨ (s'.Left ↔ s.Left)) : s'.Chained := by
  have hforeign {i : Nat} (hforeign : s.Foreign i) : s'.Foreign i :=
    hforeign.after fun x hx _ => by
      obtain ⟨y, hy, hlike⟩ := hframed.after i x hx
      exact ⟨y, hy, hlike.line, hlike.phase, fun hunasked => hlike.unasked.trans hunasked⟩
  have hexecuted {i : Nat} (hi : i ≤ s.responses.length) (hall : s.Executed i) : s'.Executed i := by
    intro j hj y hy
    rcases hframed.before j y hy with ⟨x, hx, hlike⟩ | ⟨hlength, -⟩
    · rw [hlike.execution]
      exact hall j hj x hx
    · omega
  constructor
  · intro i y hy hexecution
    rcases hframed.before i y hy with ⟨x, hx, hlike⟩ | ⟨-, line, submission, rfl⟩
    · rcases hleft with hgone | hsame
      · exact .inl hgone
      · rw [hlike.execution] at hexecution
        rw [hsame]
        exact (h.chain i x hx hexecution).imp_right fun h => h.imp
          (fun hthere => hthere.imp fun _ hj => ⟨hj.1, hforeign hj.2⟩)
          (hexecuted (List.getElem?_eq_some_iff.mp hx).1.le)
    · cases hexecution
  · rintro i y hy ⟨cmd, hline⟩ hreached
    rcases hframed.before i y hy with ⟨x, hx, hlike⟩ | ⟨-, line, submission, rfl⟩
    · rw [hlike.line] at hline
      rw [hlike.handler] at hreached
      exact (h.started i x hx ⟨cmd, hline⟩ hreached).imp
        (fun hthere => hthere.imp fun _ hj => ⟨hj.1, hforeign hj.2⟩)
        (hexecuted (List.getElem?_eq_some_iff.mp hx).1.le)
    · exact absurd rfl hreached

theorem Chained.step (h : s.Chained) (hleaving : s.Leaving)
    (hhappened : Happened config s s') : s'.Chained := by
  cases hhappened with
  | task hr hturn =>
      exact h.turn hleaving (turned (hleaving.ok _ (List.mem_of_getElem? hr)) hr hturn) Iff.rfl
  | looped _ hresponses _ hopen hopen' =>
      exact h.frame (.same hresponses)
        (.inr (iff_of_false (not_left_of_open hopen') (not_left_of_open hopen)))
  | scheduled line submission atCapacity _ hresponses _ hreader hreader' =>
      refine h.frame (.append hresponses) (.inr (iff_of_false (not_left_of_open ?_)
        (not_left_of_open ?_)))
      · rw [hreader']
        trivial
      · rw [hreader]
        trivial
  | left graceful _ hresponses hgraceful hopen hreader =>
      refine h.frame (.leave hresponses) ?_
      cases graceful with
      | true =>
          refine .inr (iff_of_false (fun hleft => ?_) (not_left_of_open hopen))
          have hquit := hleft.2
          rw [hgraceful] at hquit
          cases hquit
      | false =>
          refine .inl ⟨?_, hgraceful⟩
          rw [hreader]
          exact id
  | gathered hreader =>
      exact h.frame (.same rfl) (.inr (Left.of_closed (by rw [hreader]; exact id) id rfl))
  | finished hreader =>
      exact h.frame (.same rfl) (.inr (Left.of_closed (by rw [hreader]; exact id) id rfl))

/-! ## Every run -/

structure Inv (config : ClientConfig) (s : Connection) : Prop where
  leaving : s.Leaving
  gathered : s.Gathered config
  ordered : s.Ordered
  chained : s.Chained

theorem Inv.initial (config : ClientConfig) (clock : Time) : (initial config clock).Inv config where
  leaving := .initial config clock
  gathered := by
    refine ⟨fun h => (by cases h), fun hchannel => ?_, fun h => (by cases h), fun h => (by cases h)⟩
    rw [Connection.initial, hchannel]
    rfl
  ordered := by
    refine ⟨List.Pairwise.nil, fun _ _ h => (by cases h), fun _ h => ?_, fun _ _ h => (by cases h),
      fun h => ?_, fun h => (by cases h), fun _ h => ?_⟩
    · obtain ⟨out, hout⟩ := h
      cases hout
    · obtain ⟨r, hr, -⟩ := h
      cases hr
    · obtain ⟨out, hout⟩ := h
      cases hout
  chained := .initial config clock

theorem Inv.step (h : s.Inv config) {action : Action} (hstep : s.step config action = some s') :
    s'.Inv config := by
  have hhappened := step_happened hstep
  exact ⟨h.leaving.step hhappened, h.gathered.step h.leaving hhappened,
    h.ordered.step h.leaving h.gathered hhappened, h.chained.step h.leaving hhappened⟩

theorem inv_runs {clock : Time} {actions : List Action}
    (hrun : Runs.exec (step config) (initial config clock) actions = some s) : s.Inv config :=
  Runs.exec_invariant (fun _ _ _ h hstep => h.step hstep) hrun (Inv.initial config clock)

/-- The replies are in the order of their lines. -/
structure InOrder (s : Connection) : Prop where
  increasing : (s.written.map Prod.fst).Pairwise (· < ·)
  /-- Each reply answers its own line. -/
  own : ∀ k out, (k, out) ∈ s.written → ∃ r, s.responses[k]? = some r ∧ r.Answers out
  /-- No line is passed over, unless its response was skipped. -/
  complete : ∀ k, s.Wrote k → ∀ j < k, ∀ r, s.responses[j]? = some r → s.Wrote j ∨ r.Skipped
  /-- Where none was, the replies are those of the first lines. -/
  initially : (∀ r ∈ s.responses, ¬ r.Skipped) →
    s.written.map Prod.fst = List.range s.written.length

/-- An increasing list of numbers that leaves none out counts from zero. -/
theorem eq_range {l : List Nat} (hlt : l.Pairwise (· < ·)) (hdown : ∀ k ∈ l, ∀ j < k, j ∈ l) :
    l = List.range l.length := by
  have hmono : ∀ i j (hi : i < l.length) (hj : j < l.length), i < j → l[i] < l[j] :=
    List.pairwise_iff_getElem.mp hlt
  have hle : ∀ i (hi : i < l.length), l[i] ≤ i := by
    intro i
    induction i with
    | zero =>
        intro hi
        by_contra hpos
        obtain ⟨j, hj, hzero⟩ := List.getElem_of_mem
          (hdown _ (List.getElem_mem hi) 0 (by omega))
        rcases Nat.eq_zero_or_pos j with rfl | hlater
        · omega
        · have := hmono 0 j hi hj hlater
          omega
    | succ i ih =>
        intro hi
        have hprevious := ih (by omega)
        by_contra hpos
        obtain ⟨j, hj, hvalue⟩ := List.getElem_of_mem
          (hdown _ (List.getElem_mem hi) (i + 1) (by omega))
        rcases lt_trichotomy j (i + 1) with hearlier | rfl | hlater
        · rcases (Nat.lt_succ_iff.mp hearlier).lt_or_eq with hlt | rfl
          · have := hmono j i hj (by omega) hlt
            omega
          · omega
        · omega
        · have := hmono (i + 1) j hi hj hlater
          omega
  have hge : ∀ i (hi : i < l.length), i ≤ l[i] := by
    intro i
    induction i with
    | zero => exact fun _ => Nat.zero_le _
    | succ i ih =>
        intro hi
        have hprevious := ih (by omega)
        have hstep := hmono i (i + 1) (by omega) hi (Nat.lt_succ_self i)
        omega
  refine List.ext_getElem (List.length_range).symm fun i hi _ => ?_
  rw [List.getElem_range]
  exact le_antisymm (hle i hi) (hge i hi)

end Connection

open Connection

/-- In every run of a connection, in whatever order its tasks go on, replies are written in the
order of the lines that they answer. -/
theorem replies_in_order {clock : Time} {actions : List Action}
    (hrun : Runs.exec (step config) (initial config clock) actions = some s) : s.InOrder := by
  have h := (inv_runs hrun).ordered
  refine ⟨h.increasing, fun k out hout => ?_, h.before, fun hnone => ?_⟩
  · obtain ⟨r, hr, -, hanswers⟩ := h.reply k out hout
    exact ⟨r, hr, hanswers⟩
  · have hdown : ∀ k ∈ s.written.map Prod.fst, ∀ j < k, j ∈ s.written.map Prod.fst := by
      intro k hk j hj
      obtain ⟨⟨k, out⟩, hout, rfl⟩ := List.mem_map.mp hk
      obtain ⟨r, hr, -⟩ := h.reply k out hout
      have hlt : j < s.responses.length := hj.trans (List.getElem?_eq_some_iff.mp hr).1
      have hget := List.getElem?_eq_getElem hlt
      obtain ⟨more, hmore⟩ := (h.before k ⟨out, hout⟩ j hj _ hget).resolve_right
        (hnone _ (List.getElem_mem hlt))
      exact List.mem_map_of_mem hmore
    rw [eq_range h.increasing hdown, List.length_map]

/-- A frequency is read, and an unkey comes after it, whose handler is done first. -/
def overtaking : List Action := [
  .startRead, .receive [102] 1, .startRead, .receive [84, 32, 48] 2,
  .task 1 .begin, .task 0 .begin, .task 0 .wake,
  .task 1 (.handlerEnds (.returned {})), .task 1 .wake, .task 1 .submissionEnds, .task 1 .wake,
  .task 0 (.handlerEnds (.returned { values := ["14074000".toList] })), .task 0 .wake,
  .task 0 .wake, .task 0 .wake, .task 1 .wake, .task 0 .wake, .task 0 .wake, .task 1 .wake]

theorem replies_in_order_overtaking :
    ∃ s, Runs.exec (step { managed := true }) (initial { managed := true } 0) overtaking = some s ∧
      s.written.map Prod.fst = [0, 1] ∧ s.InOrder := by
  have hany : (Runs.exec (step { managed := true }) (initial { managed := true } 0) overtaking).any
      (fun s => s.written.map Prod.fst = [0, 1]) = true := by decide +kernel
  obtain ⟨s, hrun, hwritten⟩ := (Option.any_eq_true _ _).mp hany
  exact ⟨s, hrun, of_decide_eq_true hwritten, replies_in_order hrun⟩

/-- After a `quit`, when the connection has been wound up, every line has been answered, unless its
response was skipped or the socket was lost. -/
theorem quit_answers_all {clock : Time} {actions : List Action}
    (hrun : Runs.exec (step config) (initial config clock) actions = some s)
    (hclosed : s.reader = .closed) (hquit : s.gracefulQuit = true) :
    ∀ k r, s.responses[k]? = some r → s.Wrote k ∨ r.Skipped ∨ s.Lost := by
  intro k r hr
  have hin : r ∈ s.responses := List.mem_of_getElem? hr
  have h := inv_runs hrun
  obtain ⟨⟨ending, hended⟩, -⟩ := h.gathered.done (by rw [hclosed]; trivial) r hin
  have hdone (hdone : r.Done) : s.Wrote k ∨ r.Skipped ∨ s.Lost :=
    (h.ordered.done k r hr hdone).imp_right .inr
  cases ending with
  | done => exact hdone (.inr (.inl hended))
  | drainFailed => exact hdone (.inr (.inr hended))
  | unformatted => exact .inr (.inl (.inl hended))
  | cancelled =>
      rcases h.leaving.cancelled r hin hended with hleft | hhandler
      · have hnot := hleft.2
        rw [hquit] at hnot
        cases hnot
      · exact .inr (.inl (.inr ⟨hended, hhandler⟩))

/-- Then the client quits. -/
def quitting : List Action :=
  overtaking ++ [.startRead, .receive [113] 3, .task 1 .wake, .gathered, .finished]

theorem quit_answers_all_quitting :
    ∃ s, Runs.exec (step { managed := true }) (initial { managed := true } 0) quitting = some s ∧
      ∀ k r, s.responses[k]? = some r → s.Wrote k ∨ r.Skipped ∨ s.Lost := by
  have hany : (Runs.exec (step { managed := true }) (initial { managed := true } 0) quitting).any
      (fun s => decide (s.reader = .closed) && s.gracefulQuit) = true := by decide +kernel
  obtain ⟨s, hrun, hquit⟩ := (Option.any_eq_true _ _).mp hany
  obtain ⟨hclosed, hquit⟩ := Bool.and_eq_true_iff.mp hquit
  exact ⟨s, hrun, quit_answers_all hrun (of_decide_eq_true hclosed) hquit⟩

/-- A handler that is not that of a managed unkey has found none of the earlier ones running, and
none of them runs later, unless that of an earlier unkey ended with a cancellation that its response
did not ask for. -/
theorem handlers_in_turn {clock : Time} {actions : List Action}
    (hrun : Runs.exec (step config) (initial config clock) actions = some s)
    (hr : s.responses[k]? = some r) (hline : ∃ cmd, r.line = .command cmd false)
    (hstarted : r.handler ≠ .unstarted) :
    (∃ i < k, s.Foreign i) ∨ ∀ j < k, ∀ x, s.responses[j]? = some x → x.handler ≠ .running := by
  have h := inv_runs hrun
  refine (h.chained.started k r hr hline hstarted).imp_right fun hall j hj x hx hrunning => ?_
  have hok := h.leaving.ok x (List.mem_of_getElem? hx)
  have hphase := hok.running hrunning
  rcases hok.executed (hall j hj x hx) with ⟨reply, hretiring⟩ | hdraining | ⟨ending, hended⟩
  · rw [hretiring] at hphase
    rcases hphase with hphase | ⟨_, _, hphase⟩
    · cases hphase
    · cases hphase
  · rw [hdraining] at hphase
    rcases hphase with hphase | ⟨_, _, hphase⟩
    · cases hphase
    · cases hphase
  · rw [hended] at hphase
    rcases hphase with hphase | ⟨_, _, hphase⟩
    · cases hphase
    · cases hphase

theorem handlers_in_turn_overtaking :
    ∃ s r, Runs.exec (step { managed := true }) (initial { managed := true } 0)
        (overtaking ++ [.startRead, .receive [109] 3, .task 2 .begin, .task 2 .wake]) = some s ∧
      s.responses[2]? = some r ∧ r.handler = .running ∧
      ((∃ i < 2, s.Foreign i) ∨ ∀ j < 2, ∀ x, s.responses[j]? = some x → x.handler ≠ .running) := by
  have hany : (Runs.exec (step { managed := true }) (initial { managed := true } 0)
      (overtaking ++ [.startRead, .receive [109] 3, .task 2 .begin, .task 2 .wake])).any
      (fun s => s.responses[2]?.any fun r => decide (r.handler = .running) &&
        decide (r.line = .command { shortCmd := "m", longCmd := "get_mode" } false)) = true := by
    decide +kernel
  obtain ⟨s, hrun, hany⟩ := (Option.any_eq_true _ _).mp hany
  obtain ⟨r, hr, hboth⟩ := (Option.any_eq_true _ _).mp hany
  obtain ⟨hrunning, hline⟩ := Bool.and_eq_true_iff.mp hboth
  have hrunning : r.handler = .running := of_decide_eq_true hrunning
  refine ⟨s, r, hrun, hr, hrunning, handlers_in_turn hrun hr ⟨_, of_decide_eq_true hline⟩ ?_⟩
  rw [hrunning]
  exact Handler.noConfusion

end Rigplane.Rigctld
