import Rigplane.Rigctld.ConnectionOrder
import Mathlib.Algebra.Order.Floor.Ring
import Mathlib.Data.Rat.Floor

/-!
# What a client cannot do

* `pending_bounded`: a client has at most one response task over the limit, and then only for an
  unkey.
* `rate_limited`: in no second do more commands pass than the rate limit allows, and no command
  other than an unkey is carried out without having passed.
* `http_refused`: a connection that begins with an HTTP request line carries nothing out.
-/

namespace Rigplane.Rigctld

variable {config : ClientConfig} {s s' : Connection} {k j : Nat} {r r' : Response}

namespace Connection

/-! ## Pending responses -/

structure Roomy (s : Connection) : Prop where
  waiting : s.pending.length ≤ maxPendingClientResponses + 1
  reading : ∀ atCapacity, s.reader = .reading atCapacity →
    s.pending.length ≤ maxPendingClientResponses ∧
      (atCapacity = false → s.pending.length < maxPendingClientResponses)
  /-- The one over the limit answers an unkey, and is the latest. -/
  excess : maxPendingClientResponses < s.pending.length →
    ∃ r ∈ s.responses.getLast?, ∃ cmd, r.line = .command cmd true

theorem Roomy.initial (config : ClientConfig) (clock : Time) : (initial config clock).Roomy where
  waiting := Nat.zero_le _
  reading _ hread := by cases hread
  excess hover := by cases hover

theorem pending_length (s : Connection) :
    s.pending.length = s.responses.countP fun r => ¬ r.collected :=
  List.countP_eq_length_filter.symm

/-- No response comes to be pending that was not, and the latest answers the line that it did. -/
structure Fewer (s s' : Connection) : Prop where
  pending : s'.pending.length ≤ s.pending.length
  latest : ∀ r ∈ s.responses.getLast?, ∃ r' ∈ s'.responses.getLast?, r'.line = r.line

theorem Fewer.same (h : s'.responses = s.responses) : Fewer s s' where
  pending := by rw [Connection.pending, h, Connection.pending]
  latest r hr := ⟨r, by rw [h]; exact hr, rfl⟩

theorem Fewer.leave {graceful : Bool} (h : s'.responses = (s.leave graceful).responses) :
    Fewer s s' := by
  cases graceful with
  | true => exact .same h
  | false =>
      have hmap : s'.responses = s.responses.map fun r =>
        if r.Ended then r else { r with cancelling := true } := h
      constructor
      · rw [pending_length, pending_length, hmap, List.countP_map]
        refine List.countP_mono_left fun x _ hx => ?_
        simp only [Function.comp_apply] at hx
        split at hx
        · exact hx
        · exact hx
      · intro r hr
        rw [hmap, List.getLast?_map, Option.mem_def.mp hr]
        refine ⟨_, rfl, ?_⟩
        simp only
        split
        · rfl
        · rfl

theorem Turned.fewer (h : Turned s s' k r r') : Fewer s s' := by
  obtain ⟨outs, hmoved⟩ := h.moved
  obtain ⟨hk, hget⟩ := List.getElem?_eq_some_iff.mp h.get
  constructor
  · rw [pending_length, pending_length, h.responses, List.countP_set hk, hget]
    have hpos : r.collected = false → 0 < s.responses.countP fun r => ¬ r.collected := fun hc =>
      List.countP_pos_iff.mpr ⟨r, List.mem_of_getElem? h.get, by simp [hc]⟩
    cases hc : r.collected with
    | true => simp [hmoved.collected hc]
    | false =>
        have hone := hpos hc
        have hmore : (if (decide ¬ r'.collected = true) = true then 1 else 0) ≤ 1 := by
          split
          · exact le_rfl
          · exact Nat.zero_le 1
        rw [if_pos (by simp)]
        omega
  · intro x hx
    rw [List.getLast?_eq_getElem?] at hx
    obtain ⟨y, hy, hsame⟩ := h.after hx
    refine ⟨y, ?_, ?_⟩
    · rw [List.getLast?_eq_getElem?, h.responses, List.length_set, ← h.responses]
      exact hy
    · rcases hsame with ⟨-, rfl, rfl⟩ | ⟨-, rfl⟩
      · exact hmoved.line
      · rfl

theorem Roomy.fewer (h : s.Roomy) (hfewer : Fewer s s')
    (hreader : s'.reader = s.reader ∨ ∀ atCapacity, s'.reader ≠ .reading atCapacity) :
    s'.Roomy where
  waiting := hfewer.pending.trans h.waiting
  reading atCapacity hread := by
    rcases hreader with hsame | hnot
    · obtain ⟨hle, hlt⟩ := h.reading atCapacity (hsame ▸ hread)
      exact ⟨hfewer.pending.trans hle, fun hfalse => hfewer.pending.trans_lt (hlt hfalse)⟩
    · exact absurd hread (hnot atCapacity)
  excess hover := by
    obtain ⟨r, hr, cmd, hline⟩ := h.excess (hover.trans_le hfewer.pending)
    obtain ⟨r', hr', hsame⟩ := hfewer.latest r hr
    exact ⟨r', hr', cmd, hsame.trans hline⟩

theorem Roomy.step (h : s.Roomy) (hleaving : s.Leaving) (hhappened : Happened config s s') :
    s'.Roomy := by
  cases hhappened with
  | task hr hturn =>
      exact h.fewer (turned (hleaving.ok _ (List.mem_of_getElem? hr)) hr hturn).fewer (.inl rfl)
  | looped _ hresponses _ _ _ hreading =>
      have hfewer := Fewer.same hresponses
      refine ⟨hfewer.pending.trans h.waiting, fun atCapacity hread => ?_, fun hover => ?_⟩
      · obtain ⟨hle, hlt⟩ := hreading atCapacity hread
        exact ⟨hfewer.pending.trans hle, fun hfalse => hfewer.pending.trans_lt (hlt hfalse)⟩
      · obtain ⟨r, hr, cmd, hline⟩ := h.excess (hover.trans_le hfewer.pending)
        obtain ⟨r', hr', hsame⟩ := hfewer.latest r hr
        exact ⟨r', hr', cmd, hsame.trans hline⟩
  | scheduled line submission atCapacity _ hresponses _ hreader hreader' hroom =>
      obtain ⟨hle, hlt⟩ := h.reading atCapacity hreader
      have hlength : s'.pending.length = s.pending.length + 1 := by
        rw [pending_length, pending_length, hresponses, List.countP_append]
        rfl
      refine ⟨by omega, fun _ hread => ?_, fun hover => ?_⟩
      · rw [hreader'] at hread
        cases hread
      · rw [hresponses, List.getLast?_concat]
        refine ⟨_, rfl, hroom ?_⟩
        cases atCapacity with
        | true => rfl
        | false =>
            have hless := hlt rfl
            omega
  | left graceful _ hresponses _ _ hreader =>
      exact h.fewer (.leave hresponses) (.inr fun _ => by rw [hreader]; exact Reader.noConfusion)
  | gathered => exact h.fewer (.same rfl) (.inr fun _ => Reader.noConfusion)
  | finished => exact h.fewer (.same rfl) (.inr fun _ => Reader.noConfusion)

/-! ## The rate limit -/

/-- The window holds the latest of the times, latest last, and leaves none out that is not a second
old. -/
def Windowed (window times : List Time) (clock : Time) : Prop :=
  ∃ old, times = window.reverse ++ old ∧ ∀ t ∈ old, t ≤ clock - 1

/-- Within the second that ends with `t`. -/
def Within (t time : Time) : Prop := t - 1 < time ∧ time ≤ t

instance (t time : Time) : Decidable (Within t time) := inferInstanceAs (Decidable (_ ∧ _))

variable {window times : List Time} {clock now t : Time}

theorem Windowed.advance (h : Windowed window times clock) (hnow : clock ≤ now) :
    Windowed (window.dropWhile fun t => t ≤ now - 1) times now := by
  obtain ⟨old, htimes, hold⟩ := h
  refine ⟨(window.takeWhile fun t => t ≤ now - 1).reverse ++ old, ?_, fun t ht => ?_⟩
  · rw [htimes, ← List.append_assoc, ← List.reverse_append, List.takeWhile_append_dropWhile]
  · rcases List.mem_append.mp ht with ht | ht
    · have hdropped := List.mem_takeWhile_imp (List.mem_reverse.mp ht)
      rwa [decide_eq_true_eq] at hdropped
    · exact (hold t ht).trans (sub_le_sub_right hnow 1)

theorem Windowed.pass (h : Windowed window times clock) :
    Windowed (window ++ [clock]) (clock :: times) clock := by
  obtain ⟨old, htimes, hold⟩ := h
  refine ⟨old, ?_, hold⟩
  rw [List.reverse_append, htimes]
  rfl

theorem Windowed.count (h : Windowed window times clock) (ht : clock ≤ t) :
    (times.countP fun time => Within t time) ≤ window.length := by
  obtain ⟨old, htimes, hold⟩ := h
  have hnone : (old.countP fun time => Within t time) = 0 := by
    refine List.countP_eq_zero.mpr fun time htime hwithin => ?_
    have hlate := (of_decide_eq_true hwithin).1
    have hearly := hold time htime
    linarith
  rw [htimes, List.countP_append, hnone, Nat.add_zero]
  exact List.countP_le_length.trans (List.length_reverse).le

/-- What the limit lets pass, at most so often in a second. -/
structure Metered (limit : ℚ) (s : Connection) : Prop where
  window : s.reader.Open → Windowed s.window (s.passed.map Prod.fst) s.clock
  rate : ∀ t, ((s.passed.map Prod.fst).countP fun time => Within t time) ≤ ⌈limit⌉₊
  numbered : (s.passed.map Prod.snd).Pairwise (· > ·) ∧ ∀ p ∈ s.passed, p.2 < s.responses.length
  /-- A command that is not an unkey has passed. -/
  carried : ∀ k r, s.responses[k]? = some r → (∃ cmd, r.line = .command cmd false) →
    ∃ t, (t, k) ∈ s.passed

theorem Metered.initial {limit : ℚ} (config : ClientConfig) (clock : Time) :
    (initial config clock).Metered limit where
  window _ := ⟨[], rfl, fun _ ht => by cases ht⟩
  rate _ := Nat.zero_le _
  numbered := ⟨List.Pairwise.nil, fun _ hp => by cases hp⟩
  carried _ _ hr := by cases hr

theorem Metered.frame {limit : ℚ} (h : s.Metered limit) (hpassed : s'.passed = s.passed)
    (hwindow : s'.reader.Open → s.reader.Open ∧
      (s'.window = s.window ∨ s'.window = s.window.dropWhile fun t => t ≤ s'.clock - 1))
    (hclock : s.clock ≤ s'.clock) (hlength : s.responses.length ≤ s'.responses.length)
    (hlines : ∀ (k : Nat) (r' : Response), s'.responses[k]? = some r' →
      (∃ cmd, r'.line = .command cmd false) → ∃ r, s.responses[k]? = some r ∧ r'.line = r.line) :
    s'.Metered limit where
  window hopen := by
    rw [hpassed]
    obtain ⟨hwas, hsame⟩ := hwindow hopen
    obtain ⟨old, htimes, hold⟩ := h.window hwas
    rcases hsame with hsame | hsame
    · rw [hsame]
      exact ⟨old, htimes, fun t ht => (hold t ht).trans (sub_le_sub_right hclock 1)⟩
    · rw [hsame]
      exact Windowed.advance ⟨old, htimes, hold⟩ hclock
  rate := by
    rw [hpassed]
    exact h.rate
  numbered := by
    rw [hpassed]
    exact ⟨h.numbered.1, fun p hp => (h.numbered.2 p hp).trans_le hlength⟩
  carried k r' hr' hline := by
    obtain ⟨r, hr, hsame⟩ := hlines k r' hr' hline
    rw [hpassed]
    exact h.carried k r hr (hsame ▸ hline)

/-- A command passes. -/
theorem Metered.pass {limit : ℚ} (h : s.Metered limit) (hopen : s.reader.Open)
    (hnow : s.clock ≤ now)
    {cmd : RigctldCommand} {managedOff : Bool} {submission : Option Bool}
    (hroom : ((s.window.dropWhile fun t => t ≤ now - 1).length : ℚ) < limit)
    (hpassed : s'.passed = (now, s.responses.length) :: s.passed)
    (hwindow : s'.window = (s.window.dropWhile fun t => t ≤ now - 1) ++ [now])
    (hclock : s'.clock = now)
    (hresponses : s'.responses = s.responses ++
      [({ line := .command cmd managedOff, submission } : Response)]) : s'.Metered limit := by
  have hadvanced := (h.window hopen).advance hnow
  have hlength : s'.responses.length = s.responses.length + 1 := by
    rw [hresponses, List.length_append]
    rfl
  refine ⟨fun _ => ?_, fun t => ?_, ⟨?_, fun p hp => ?_⟩, fun k r hr hline => ?_⟩
  · rw [hwindow, hpassed, hclock]
    exact hadvanced.pass
  · rw [hpassed, List.map_cons, List.countP_cons]
    split
    · rename_i hwithin
      have hcount := hadvanced.count (of_decide_eq_true hwithin).2
      have hceil := Nat.lt_ceil.mpr hroom
      omega
    · exact h.rate t
  · rw [hpassed, List.map_cons, List.pairwise_cons]
    refine ⟨fun k hk => ?_, h.numbered.1⟩
    obtain ⟨p, hp, rfl⟩ := List.mem_map.mp hk
    exact h.numbered.2 p hp
  · rw [hlength]
    rw [hpassed] at hp
    rcases List.mem_cons.mp hp with rfl | hp
    · exact Nat.lt_succ_self _
    · exact (h.numbered.2 p hp).trans (Nat.lt_succ_self _)
  · rw [hpassed]
    rw [hresponses] at hr
    rcases lt_or_ge k s.responses.length with hk | hk
    · rw [List.getElem?_append_left hk] at hr
      obtain ⟨t, ht⟩ := h.carried k r hr hline
      exact ⟨t, List.mem_cons_of_mem _ ht⟩
    · have hlt := (List.getElem?_eq_some_iff.mp hr).1
      rw [List.length_append, List.length_singleton] at hlt
      have heq : k = s.responses.length := by omega
      rw [heq]
      exact ⟨now, List.mem_cons_self⟩

/-- A line is answered that has not passed: by an error, or because it is an unkey. -/
theorem Metered.schedule {limit : ℚ} (h : s.Metered limit) (hopen : s.reader.Open)
    (hnow : s.clock ≤ now) {line : Line} {submission : Option Bool}
    (hline : ¬ ∃ cmd, line = .command cmd false)
    (hwindow : s'.window = s.window ∨ s'.window = s.window.dropWhile fun t => t ≤ now - 1)
    (hpassed : s'.passed = s.passed) (hclock : s'.clock = now)
    (hresponses : s'.responses = s.responses ++ [({ line, submission } : Response)]) :
    s'.Metered limit := by
  refine h.frame hpassed (fun _ => ⟨hopen, hclock.symm ▸ hwindow⟩) (hclock.symm ▸ hnow) ?_
    fun k r' hr' hcommand => ?_
  · rw [hresponses, List.length_append]
    exact Nat.le_add_right _ _
  · rw [hresponses] at hr'
    rcases lt_or_ge k s.responses.length with hk | hk
    · rw [List.getElem?_append_left hk] at hr'
      exact ⟨r', hr', rfl⟩
    · rw [List.getElem?_append_right hk] at hr'
      obtain ⟨hlt, hget⟩ := List.getElem?_eq_some_iff.mp hr'
      rw [List.getElem_singleton] at hget
      rw [← hget] at hcommand
      exact absurd hcommand hline

/-- The loop is left. -/
theorem Metered.leave {limit : ℚ} (h : s.Metered limit) (graceful : Bool)
    (hnow : s.clock ≤ s'.clock) (hpassed : s'.passed = s.passed) (hreader : s'.reader = .retiring)
    (hresponses : s'.responses = (s.leave graceful).responses) : s'.Metered limit := by
  have hframed : Framed s s' := .leave hresponses
  refine h.frame hpassed (fun hopen => ?_) hnow ?_ fun k r' hr' _ => ?_
  · rw [hreader] at hopen
    cases hopen
  · rw [hresponses]
    cases graceful with
    | true => exact le_rfl
    | false => exact (List.length_map _).ge
  · rcases hframed.before k r' hr' with ⟨r, hr, hlike⟩ | ⟨hlength, -⟩
    · exact ⟨r, hr, hlike.line⟩
    · have hlt := (List.getElem?_eq_some_iff.mp hr').1
      rw [hresponses] at hlt
      cases graceful with
      | true => exact absurd hlt (by rw [← hlength]; exact lt_irrefl _)
      | false =>
          rw [← hlength] at hlt
          exact absurd hlt (by
            show ¬ _ < (s.responses.map _).length
            rw [List.length_map]
            exact lt_irrefl _)

theorem Metered.accept {limit : ℚ} (h : s.Metered limit)
    (hlimit : config.commandRateLimit = some limit) (hopen : s.reader.Open) (hnow : s.clock ≤ now)
    {cmd : RigctldCommand} {atCapacity : Bool} :
    ({ s with clock := now, firstCommandLine := false }.accept config cmd atCapacity now).Metered
      limit := by
  rw [Connection.accept, hlimit, checkRateLimit]
  simp only
  split
  · exact h.leave false hnow rfl rfl rfl
  by_cases hfull : limit ≤ ((s.window.dropWhile fun t => t ≤ now - 1).length : ℚ)
  · rw [if_pos hfull]
    simp only
    split
    · exact h.schedule hopen hnow (fun hcommand => by cases hcommand.choose_spec) (.inr rfl) rfl rfl
        rfl
    · rename_i hoff
      have hmanaged : isManagedOff config cmd = true := by
        by_contra hnot
        exact hoff ⟨Bool.false_ne_true, hnot⟩
      have hline : ¬ ∃ other, Line.command cmd true = .command other false := by
        rintro ⟨other, hother⟩
        cases hother
      rw [hmanaged]
      exact h.schedule hopen hnow hline (.inr rfl) rfl rfl rfl
  · rw [if_neg hfull]
    simp only [not_true_eq_false, false_and, if_false, if_true]
    exact h.pass hopen hnow (not_le.mp hfull) rfl rfl rfl rfl

theorem Metered.receive {limit : ℚ} (h : s.Metered limit)
    (hlimit : config.commandRateLimit = some limit) (hopen : s.reader.Open) (hnow : s.clock ≤ now)
    {raw : List UInt8} {atCapacity : Bool} :
    ({ s with clock := now }.receive config raw atCapacity now).Metered limit := by
  rw [Connection.receive]
  split
  · exact h.frame rfl (fun _ => ⟨hopen, .inl rfl⟩) hnow le_rfl fun _ r' hr' _ => ⟨r', hr', rfl⟩
  split
  · exact h.leave false hnow rfl rfl rfl
  simp only
  split
  · split
    · exact h.leave false hnow rfl rfl rfl
    · exact h.schedule hopen hnow (fun hcommand => by cases hcommand.choose_spec) (.inl rfl) rfl rfl
        rfl
  · split
    · exact h.leave true hnow rfl rfl rfl
    · exact h.accept hlimit hopen hnow

theorem Metered.task {limit : ℚ} (h : s.Metered limit) (ht : Turned s s' k r r')
    (hpassed : s'.passed = s.passed) (hwindow : s'.window = s.window)
    (hclock : s'.clock = s.clock) : s'.Metered limit := by
  obtain ⟨outs, hmoved⟩ := ht.moved
  refine h.frame hpassed (fun hopen => ⟨ht.reader ▸ hopen, .inl hwindow⟩) hclock.ge ?_
    fun j x hx _ => ?_
  · rw [ht.responses, List.length_set]
  · rcases ht.before hx with ⟨rfl, rfl⟩ | ⟨-, hx⟩
    · exact ⟨r, ht.get, hmoved.line⟩
    · exact ⟨x, hx, rfl⟩

/-- The loop goes on, and nothing else happens. -/
theorem Metered.idle {limit : ℚ} (h : s.Metered limit) (hpassed : s'.passed = s.passed)
    (hreader : s'.reader.Open → s.reader.Open) (hwindow : s'.window = s.window)
    (hclock : s'.clock = s.clock) (hresponses : s'.responses = s.responses) :
    s'.Metered limit :=
  h.frame hpassed (fun hopen => ⟨hreader hopen, .inl hwindow⟩) hclock.ge (hresponses ▸ le_rfl)
    fun _ r' hr' _ => ⟨r', hresponses ▸ hr', rfl⟩

theorem Metered.step {limit : ℚ} (h : s.Metered limit) (hleaving : s.Leaving)
    (hlimit : config.commandRateLimit = some limit) {action : Action}
    (hstep : s.step config action = some s') : s'.Metered limit := by
  cases action with
  | startRead =>
      obtain ⟨hwaiting, hsome⟩ := Option.ite_none_right_eq_some.mp hstep
      cases hsome
      exact h.idle rfl (fun _ => by rw [hwaiting.1]; trivial) rfl rfl rfl
  | receive raw now =>
      rw [Connection.step.eq_def] at hstep
      simp only at hstep
      split at hstep
      · rename_i atCapacity hreader
        obtain ⟨hnow, hsome⟩ := Option.ite_none_right_eq_some.mp hstep
        cases hsome
        exact h.receive hlimit (by rw [hreader]; trivial) hnow
      all_goals cases hstep
  | readEnds =>
      rw [Connection.step.eq_def] at hstep
      simp only at hstep
      split at hstep
      all_goals
        cases hstep
      all_goals
        exact h.leave false le_rfl rfl rfl rfl
  | task k turn =>
      obtain ⟨r, hr, hstep⟩ := Option.bind_eq_some_iff.mp hstep
      obtain ⟨after, hturn, rfl⟩ := Option.map_eq_some_iff.mp hstep
      exact h.task (turned (hleaving.ok r (List.mem_of_getElem? hr)) hr hturn) rfl rfl rfl
  | gathered =>
      obtain ⟨hreader, hsome⟩ := Option.ite_none_right_eq_some.mp hstep
      cases hsome
      exact h.idle rfl (fun hopen => by cases hopen) rfl rfl rfl
  | finished =>
      obtain ⟨hreader, hsome⟩ := Option.ite_none_right_eq_some.mp hstep
      cases hsome
      exact h.idle rfl (fun hopen => by cases hopen) rfl rfl rfl

/-- The connection has turned out to carry HTTP. -/
structure Refused (s : Connection) : Prop where
  left : ¬ s.reader.Open
  empty : s.responses = []
  written : s.written = []

/-- No line has been received yet. -/
structure Fresh (s : Connection) : Prop where
  first : s.firstCommandLine = true
  empty : s.responses = []
  written : s.written = []

theorem taskStep_empty {turn : Turn} (h : s.responses = []) : s.taskStep k turn = none := by
  rw [Connection.taskStep, h]
  rfl

theorem Refused.step (h : s.Refused) {action : Action}
    (hstep : s.step config action = some s') : s'.Refused := by
  have hhappened := step_happened hstep
  have hnone {P : Prop} (hopen : s.reader.Open) : P := absurd hopen h.left
  cases hhappened with
  | task hr _ =>
      rw [h.empty] at hr
      cases hr
  | looped _ _ _ hopen _ _ => exact hnone hopen
  | scheduled _ _ _ _ _ _ hreader _ _ => exact hnone (by rw [hreader]; trivial)
  | left _ _ _ _ hopen _ => exact hnone hopen
  | gathered => exact ⟨id, h.empty, h.written⟩
  | finished => exact ⟨id, h.empty, h.written⟩

/-- Only a line that is not blank ends the beginning. -/
theorem Fresh.step (h : s.Fresh) {action : Action} (hstep : s.step config action = some s') :
    (s'.Fresh ∧ ∀ raw now, action = .receive raw now → raw = []) ∨ s'.Refused ∨
      ∃ raw now, action = .receive raw now ∧ raw ≠ [] ∧ isHttpRequestLine raw = false := by
  cases action with
  | startRead =>
      obtain ⟨-, hsome⟩ := Option.ite_none_right_eq_some.mp hstep
      cases hsome
      exact .inl ⟨⟨h.first, h.empty, h.written⟩, fun _ _ haction => by cases haction⟩
  | receive raw now =>
      rw [Connection.step.eq_def] at hstep
      simp only at hstep
      split at hstep
      · obtain ⟨-, hsome⟩ := Option.ite_none_right_eq_some.mp hstep
        cases hsome
        rw [Connection.receive]
        split
        · rename_i hblank
          refine .inl ⟨⟨h.first, h.empty, h.written⟩, fun _ _ haction => ?_⟩
          cases haction
          exact hblank
        rename_i hblank
        split
        · refine .inr (.inl ⟨id, ?_, h.written⟩)
          rw [Connection.leave, h.empty]
          rfl
        · rename_i hplain
          refine .inr (.inr ⟨raw, now, rfl, hblank, ?_⟩)
          exact Bool.eq_false_iff.mpr fun hhttp => hplain ⟨h.first, hhttp⟩
      all_goals cases hstep
  | readEnds =>
      rw [Connection.step.eq_def] at hstep
      simp only at hstep
      have hleft : (s.leave false).Refused := by
        refine ⟨id, ?_, h.written⟩
        rw [Connection.leave, h.empty]
        rfl
      split at hstep
      all_goals cases hstep
      all_goals exact .inr (.inl hleft)
  | task k turn =>
      rw [Connection.step, taskStep_empty h.empty] at hstep
      cases hstep
  | gathered =>
      obtain ⟨-, hsome⟩ := Option.ite_none_right_eq_some.mp hstep
      cases hsome
      exact .inr (.inl ⟨id, h.empty, h.written⟩)
  | finished =>
      obtain ⟨-, hsome⟩ := Option.ite_none_right_eq_some.mp hstep
      cases hsome
      exact .inr (.inl ⟨id, h.empty, h.written⟩)

/-- What the rate limit promises. -/
structure Limited (limit : ℚ) (s : Connection) : Prop where
  /-- In each second. -/
  rate : ∀ t, ((s.passed.map Prod.fst).countP fun time => Within t time) ≤ ⌈limit⌉₊
  /-- Each passage is for one command. -/
  single : (s.passed.map Prod.snd).Nodup
  carried : ∀ k r, s.responses[k]? = some r → (∃ cmd, r.line = .command cmd false) →
    ∃ t, (t, k) ∈ s.passed

end Connection

/-- The first line that is received, blank ones apart. -/
def firstLine : List Action → Option (List UInt8)
  | [] => none
  | .receive raw _ :: actions => if raw = [] then firstLine actions else some raw
  | _ :: actions => firstLine actions

theorem firstLine_cons {action : Action} {actions : List Action}
    (h : ∀ raw now, action = .receive raw now → raw = []) :
    firstLine (action :: actions) = firstLine actions := by
  cases action with
  | receive raw now => rw [firstLine, if_pos (h raw now rfl)]
  | startRead | readEnds | task _ _ | gathered | finished => rfl

open Connection

/-- There is room for one response more than the limit, which an unkey takes. -/
theorem pending_bounded {clock : Time} {actions : List Action}
    (hrun : Runs.exec (step config) (initial config clock) actions = some s) :
    s.pending.length ≤ maxPendingClientResponses + 1 ∧
      (maxPendingClientResponses < s.pending.length →
        ∃ r ∈ s.responses.getLast?, ∃ cmd, r.line = .command cmd true) := by
  have hstep : ∀ m action m', m.Leaving ∧ m.Roomy → step config m action = some m' →
      m'.Leaving ∧ m'.Roomy := fun _ _ _ h hstep =>
    have hhappened := step_happened hstep
    ⟨h.1.step hhappened, h.2.step h.1 hhappened⟩
  have h := (Runs.exec_invariant hstep hrun ⟨.initial config clock, .initial config clock⟩).2
  exact ⟨h.waiting, h.excess⟩

/-- A client that sends a limit of requests and then an unkey, without a response going on. -/
def flooding : List Action :=
  (List.range maxPendingClientResponses).flatMap (fun n => [.startRead, .receive [102] n]) ++
    [.startRead, .receive [84, 32, 48] maxPendingClientResponses]

theorem pending_bounded_flooding :
    ∃ s, Runs.exec (step { managed := true }) (initial { managed := true } 0) flooding = some s ∧
      s.pending.length = 65 ∧ ∃ r ∈ s.responses.getLast?, ∃ cmd, r.line = .command cmd true := by
  have hany : (Runs.exec (step { managed := true }) (initial { managed := true } 0) flooding).any
      (fun s => s.pending.length = 65) = true := by decide +kernel
  obtain ⟨s, hrun, hlength⟩ := (Option.any_eq_true _ _).mp hany
  have hlength : s.pending.length = 65 := of_decide_eq_true hlength
  refine ⟨s, hrun, hlength, (pending_bounded hrun).2 ?_⟩
  rw [hlength]
  decide

/-- In no second does the rate limit let more commands pass than it says, and no command but an
unkey is carried out without having passed. -/
theorem rate_limited {clock : Time} {actions : List Action} {limit : ℚ}
    (hrun : Runs.exec (step config) (initial config clock) actions = some s)
    (hlimit : config.commandRateLimit = some limit) : s.Limited limit := by
  have hstep : ∀ m action m', m.Leaving ∧ m.Metered limit → step config m action = some m' →
      m'.Leaving ∧ m'.Metered limit := fun _ _ _ h hstep =>
    ⟨h.1.step (step_happened hstep), h.2.step h.1 hlimit hstep⟩
  have h := (Runs.exec_invariant hstep hrun ⟨.initial config clock, .initial config clock⟩).2
  exact ⟨h.rate, h.numbered.1.imp Nat.ne_of_gt, h.carried⟩

/-- Three commands within one second, of which the second is refused and the third is an unkey. -/
def hurrying : List Action := [.startRead, .receive [102] 1, .startRead, .receive [109] (3 / 2),
  .startRead, .receive [84, 32, 48] (7 / 4)]

theorem rate_limited_hurrying :
    ∃ s, Runs.exec (step { managed := true, commandRateLimit := some 1 })
        (initial { managed := true, commandRateLimit := some 1 } 0) hurrying = some s ∧
      s.passed = [(1, 0)] ∧ s.Limited 1 := by
  have hany : (Runs.exec (step { managed := true, commandRateLimit := some 1 })
      (initial { managed := true, commandRateLimit := some 1 } 0) hurrying).any
      (fun s => s.passed = [(1, 0)]) = true := by decide +kernel
  obtain ⟨s, hrun, hpassed⟩ := (Option.any_eq_true _ _).mp hany
  exact ⟨s, hrun, of_decide_eq_true hpassed, rate_limited hrun rfl⟩

/-- A connection whose first line asks for HTTP carries nothing out and answers nothing, whatever
follows. -/
theorem http_refused {clock : Time} {actions : List Action} {raw : List UInt8}
    (hrun : Runs.exec (step config) (initial config clock) actions = some s)
    (hfirst : firstLine actions = some raw) (hhttp : isHttpRequestLine raw = true) :
    s.responses = [] ∧ s.written = [] := by
  have hfresh {m : Connection} (hfresh : m.Fresh) : ∀ actions, firstLine actions = some raw →
      Runs.exec (step config) m actions = some s → s.responses = [] ∧ s.written = [] := by
    intro actions
    induction actions generalizing m with
    | nil => exact fun hfirst => (by cases hfirst)
    | cons action actions ih =>
        intro hfirst hrun
        obtain ⟨m', hstep, hrest⟩ := Runs.exec_cons_eq_some.mp hrun
        rcases hfresh.step hstep with ⟨hfresh', hblank⟩ | hrefused | ⟨first, now, rfl,
          hline, hplain⟩
        · rw [firstLine_cons hblank] at hfirst
          exact ih hfresh' hfirst hrest
        · have h := Runs.exec_invariant (fun _ _ _ h hstep => h.step hstep) hrest hrefused
          exact ⟨h.empty, h.written⟩
        · rw [firstLine, if_neg hline] at hfirst
          cases hfirst
          rw [hhttp] at hplain
          cases hplain
  exact hfresh ⟨rfl, rfl, rfl⟩ actions hfirst hrun

/-- A browser asks for a page. -/
def browsing : List Action := [.startRead,
  .receive [71, 69, 84, 32, 47, 32, 72, 84, 84, 80, 47, 49, 46, 49] 1, .gathered]

theorem http_refused_browsing : ∃ s, Runs.exec (step {}) (initial {} 0) browsing = some s ∧
    s.responses = [] ∧ s.written = [] := by
  have hsome : (Runs.exec (step {}) (initial {} 0) browsing).isSome = true := by decide +kernel
  obtain ⟨s, hrun⟩ := Option.isSome_iff_exists.mp hsome
  exact ⟨s, hrun, http_refused hrun rfl (by decide +kernel)⟩

end Rigplane.Rigctld
