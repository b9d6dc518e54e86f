import Rigplane.Tci.Server

/-!
# The steps of the TCI server

`Happened` says what a step does to the clients, the sessions and the calls of `finish`, whichever
task takes it.  A client goes through the phases of `Client.Advance`, and `Client.Counted` says for
each of them how often its handler has been connected and disconnected.
-/

namespace Rigplane.Tci

namespace Client

/-- A client whose session is in `_sessions`. -/
def registered (c : Client) : Bool :=
  match c.session with
  | some .live | some .joining | some .closing | some .tearing => true
  | none | some .finished => false

/-- A client whose session is being torn down. -/
def winding (c : Client) : Bool :=
  match c.session with
  | some .joining | some .closing | some .tearing => true
  | none | some .live | some .finished => false

/-- What a client goes through, under a generation of the server. -/
inductive Advance (gen : Nat) (c : Client) : Client → Prop where
  | upgraded (haccept : c.accept = .upgrading) :
    Advance gen c { c with accept := .connecting, connects := c.connects + 1 }
  | declined (haccept : c.accept = .upgrading) : Advance gen c { c with accept := .ended }
  | connected (haccept : c.accept = .connecting) (hgen : gen = c.setupGen) :
    Advance gen c { c with accept := .ended, session := some .live }
  | clear (haccept : c.accept = .connecting) : Advance gen c c.clear
  | cleared (haccept : c.accept = .clearing) : Advance gen c { c with accept := .ended }
  | joining (hsession : c.session = some .live) :
    Advance gen c { c with session := some .joining }
  | closing (hsession : c.session = some .joining) :
    Advance gen c { c with session := some .closing }
  | tearing (hsession : c.session = some .closing) :
    Advance gen c { c with session := some .tearing, disconnects := c.disconnects + 1 }
  | finished (hsession : c.session = some .tearing) :
    Advance gen c { c with session := some .finished }

/-- The callbacks that have been called, by where the client stands. -/
def Counted (c : Client) : Prop :=
  match c.accept, c.session with
  | .upgrading, none => c.connects = 0 ∧ c.disconnects = 0
  | .connecting, none => c.connects = 1 ∧ c.disconnects = 0
  | .clearing, none => c.connects = 1 ∧ c.disconnects = 1
  | .ended, none => c.connects ≤ 1 ∧ c.disconnects = c.connects
  | .ended, some .live | .ended, some .joining | .ended, some .closing =>
      c.connects = 1 ∧ c.disconnects = 0
  | .ended, some .tearing | .ended, some .finished => c.connects = 1 ∧ c.disconnects = 1
  | .upgrading, some _ | .connecting, some _ | .clearing, some _ => False

variable {gen : Nat} {c c' : Client}

theorem Counted.no_session (h : c.Counted) (haccept : c.accept ≠ .ended) : c.session = none := by
  obtain ⟨setupGen, accept, connects, disconnects, session⟩ := c
  cases session with
  | none => rfl
  | some phase =>
      cases accept with
      | ended => exact absurd rfl haccept
      | upgrading | connecting | clearing => exact h.elim

theorem Counted.accept_ended (h : c.Counted) (hsession : c.session ≠ none) : c.accept = .ended := by
  by_contra haccept
  exact hsession (h.no_session haccept)

theorem Counted.disconnected (h : c.Counted) (hsession : c.session = some .tearing) :
    c.disconnects = 1 := by
  have haccept : c.accept = .ended := h.accept_ended (by rw [hsession]; nofun)
  rw [Counted, haccept, hsession] at h
  exact h.2

theorem Counted.le (h : c.Counted) : c.disconnects ≤ c.connects ∧ c.connects ≤ 1 := by
  obtain ⟨setupGen, accept, connects, disconnects, session⟩ := c
  cases session with
  | none => cases accept <;> simp only [Counted] at h ⊢ <;> omega
  | some phase =>
      cases accept with
      | ended => cases phase <;> simp only [Counted] at h ⊢ <;> omega
      | upgrading | connecting | clearing => exact h.elim

/-- When all is over, the handler has been disconnected if it has been connected. -/
theorem Counted.settled (h : c.Counted) (haccept : c.accept = .ended)
    (hregistered : c.registered = false) : c.disconnects = c.connects := by
  obtain ⟨setupGen, accept, connects, disconnects, session⟩ := c
  cases haccept
  cases session with
  | none => exact h.2
  | some phase =>
      cases phase with
      | finished => exact h.2.trans h.1.symm
      | live | joining | closing | tearing => cases hregistered

theorem Advance.counted (h : Advance gen c c') (hcounted : c.Counted) : c'.Counted := by
  obtain ⟨setupGen, accept, connects, disconnects, session⟩ := c
  cases h with
  | upgraded haccept | declined haccept | connected haccept | clear haccept | cleared haccept =>
      cases haccept
      cases session with
      | none => simp_all [Counted, Client.clear]
      | some phase => exact hcounted.elim
  | joining hsession | closing hsession | tearing hsession | finished hsession =>
      cases hsession
      cases hcounted.accept_ended nofun
      simp_all [Counted]

theorem Advance.setupGen (h : Advance gen c c') : c'.setupGen = c.setupGen := by
  cases h <;> rfl

/-- A session appears under the generation of its accept only. -/
theorem Advance.registered_of (h : Advance gen c c') (hgen : c.setupGen < gen)
    (hregistered : c'.registered = true) : c.registered = true := by
  cases h with
  | connected _ hsame => omega
  | upgraded | declined | clear | cleared => exact hregistered
  | joining hsession | closing hsession | tearing hsession | finished hsession =>
      rw [registered, hsession]

theorem Advance.accept_ended (h : Advance gen c c') (haccept : c.accept = .ended) :
    c'.accept = .ended := by
  cases h with
  | upgraded hphase | clear hphase =>
      rw [haccept] at hphase
      cases hphase
  | declined | connected | cleared => rfl
  | joining | closing | tearing | finished => exact haccept

theorem Advance.finished_stays (h : Advance gen c c') (hcounted : c.Counted)
    (hfinished : c.session = some .finished) : c'.session = some .finished := by
  have hended : c.accept = .ended := hcounted.accept_ended (by rw [hfinished]; nofun)
  cases h with
  | upgraded haccept | declined haccept | connected haccept | clear haccept | cleared haccept =>
      rw [hended] at haccept
      cases haccept
  | joining hsession | closing hsession | tearing hsession =>
      rw [hfinished] at hsession
      cases hsession
  | finished => rfl

end Client

namespace TciServer

variable {s s' : TciServer} {action : Action}

/-- `_sessions`, when a client has gone on. -/
def sessionsAfter (s : TciServer) (k : Nat) (c c' : Client) : List Nat :=
  if c'.registered = c.registered then s.sessions
  else if c'.registered then s.sessions ++ [k]
  else s.sessions.erase k

/-- A call for a client goes on, and ends when the session is finished if it is no task's own.  The
one that tears the session down does not end before. -/
inductive CallsAfter (s : TciServer) (k : Nat) (c : Client) : List FinishCall → Prop where
  | same : CallsAfter s k c s.calls
  | set {j : Nat} {call : FinishCall} (phase : CallPhase) (hcall : s.calls[j]? = some call)
    (hclient : call.client = k)
    (hended : phase = .ended → call.own = true ∨ c.session = some .finished)
    (hwinning : call.phase = .winning → c.winding = false) :
    CallsAfter s k c (s.calls.set j { call with phase })

/-- What a step does. -/
inductive Happened (s : TciServer) (action : Action) : TciServer → Prop where
  /-- The listener stays.  A start is added by `.start` only. -/
  | started (starting : Bool) {starts : List Start}
    (hstarts : ∀ x ∈ starts,
      (action = .start ∧ x.gen = s.generation) ∨ ∃ y ∈ s.starts, x.gen = y.gen) :
    Happened s action { s with starting := starting, starts := starts }
  /-- A listener is installed by a start of this generation. -/
  | bound {start : Start} (hstart : start ∈ s.starts) (hgen : s.generation = start.gen)
    (starting : Bool) {starts : List Start}
    (hstarts : ∀ x ∈ starts, ∃ y ∈ s.starts, x.gen = y.gen) :
    Happened s action
      { s with
        listener := some start.gen
        starting := starting
        generation := s.generation + 1
        starts := starts }
  | stopped : Happened s action s.stop
  | accepted (hopen : s.listener = none → s.generation = 0) :
    Happened s action { s with clients := s.clients ++ [{ setupGen := s.generation }] }
  | moved {k : Nat} {c : Client} (c' : Client) {calls : List FinishCall}
    (hclient : s.clients[k]? = some c) (hmove : c' = c ∨ Client.Advance s.generation c c')
    (hcalls : CallsAfter s k c' calls)
    (hwon : c'.winding = true →
      c.winding = true ∨ ∃ call ∈ calls, call.client = k ∧ call.phase = .winning) :
    Happened s action
      { s with clients := s.clients.set k c', sessions := s.sessionsAfter k c c', calls := calls }
  | called {k : Nat} (own : Bool) :
    Happened s action { s with calls := s.calls ++ [{ client := k, own }] }

theorem sessionsAfter_of_same {k : Nat} {c c' : Client} (h : c'.registered = c.registered) :
    s.sessionsAfter k c c' = s.sessions := if_pos h

/-- An accept goes on, and no session appears or ends. -/
theorem Happened.accept {k : Nat} {c c' : Client} (hclient : s.clients[k]? = some c)
    (hadvance : Client.Advance s.generation c c') (hsame : c'.registered = c.registered)
    (hwinding : c'.winding = true → c.winding = true) :
    Happened s action (s.setClient k c') := by
  have h : Happened s action _ :=
    .moved c' hclient (.inr hadvance) .same fun hthere => .inl (hwinding hthere)
  rw [sessionsAfter_of_same hsame] at h
  exact h

/-- A call goes on, and its session does not. -/
theorem Happened.call {j : Nat} {call : FinishCall} {c : Client} (phase : CallPhase)
    (hcall : s.calls[j]? = some call) (hclient : s.clients[call.client]? = some c)
    (hended : phase = .ended → call.own = true ∨ c.session = some .finished)
    (hphase : call.phase ≠ .winning) :
    Happened s action (s.setCall j call phase) := by
  have h : Happened s action _ := .moved c hclient (.inl rfl)
    (.set phase hcall rfl hended fun hwinning => absurd hwinning hphase) .inl
  obtain ⟨hlt, hget⟩ := List.getElem?_eq_some_iff.mp hclient
  rw [sessionsAfter_of_same rfl, ← hget, List.set_getElem_self] at h
  exact h

/-- The starts keep their generations. -/
theorem starts_set {i : Nat} {start : Start} (hstart : s.starts[i]? = some start)
    (phase : StartPhase) :
    ∀ x ∈ s.starts.set i { start with phase }, ∃ y ∈ s.starts, x.gen = y.gen := by
  intro x hx
  rcases List.mem_or_eq_of_mem_set hx with hin | rfl
  · exact ⟨x, hin, rfl⟩
  · exact ⟨start, List.mem_of_getElem? hstart, rfl⟩

theorem Happened.endStart {i : Nat} {start : Start} (hstart : s.starts[i]? = some start) :
    Happened s action (s.endStart i start) :=
  .started s.starting fun x hx => .inr (starts_set hstart .ended x hx)

theorem Happened.release {i : Nat} {start : Start} (hstart : s.starts[i]? = some start) :
    Happened s action ((s.release start.gen).endStart i start) := by
  have hstarts (x : Start) (hx : x ∈ s.starts.set i { start with phase := .ended }) :
      (action = .start ∧ x.gen = s.generation) ∨ ∃ y ∈ s.starts, x.gen = y.gen :=
    .inr (starts_set hstart .ended x hx)
  rw [TciServer.release]
  split
  · exact .started false hstarts
  · exact .started s.starting hstarts

theorem Happened.bind {i : Nat} {start : Start} (hstart : s.starts[i]? = some start) :
    Happened s action (s.bound i start) := by
  rw [TciServer.bound]
  split
  · exact .started s.starting fun x hx => .inr (starts_set hstart .orphaned x hx)
  · rename_i hbound
    push Not at hbound
    have hgen : s.generation = start.gen := hbound.2.1
    have h : Happened s action _ := .bound (List.mem_of_getElem? hstart) hgen false
      (starts_set hstart .ended)
    rw [TciServer.release, if_pos hgen]
    exact h

theorem startStep_happened {i : Nat} {start : Start} (hstart : s.starts[i]? = some start)
    (h : s.startStep i start action = some s') : Happened s action s' := by
  cases action with
  | bound =>
      simp only [startStep, Option.ite_none_right_eq_some, Option.some.injEq] at h
      obtain ⟨-, rfl⟩ := h
      exact .bind hstart
  | bindFails =>
      simp only [startStep, Option.ite_none_right_eq_some, Option.some.injEq] at h
      obtain ⟨-, rfl⟩ := h
      exact .release hstart
  | orphanClosed _ cut =>
      rw [startStep] at h
      split at h
      · cases h
      · split at h
        · cases h
          exact .endStart hstart
        · cases h
          exact .release hstart
  | start | stop | accept | upgraded | declined | connected | connectFails | cleared | finish
  | run | proceed | abandon => cases h

theorem acceptStep_happened {k : Nat} {c : Client} (hclient : s.clients[k]? = some c)
    (hcounted : c.Counted) (h : s.acceptStep k c action = some s') : Happened s action s' := by
  cases action with
  | upgraded =>
      simp only [acceptStep, Option.ite_none_right_eq_some, Option.some.injEq] at h
      obtain ⟨haccept, rfl⟩ := h
      rw [TciServer.upgraded]
      split
      · exact .accept hclient (.declined haccept) rfl id
      · exact .accept hclient (.upgraded haccept) rfl id
  | declined =>
      simp only [acceptStep, Option.ite_none_right_eq_some, Option.some.injEq] at h
      obtain ⟨haccept, rfl⟩ := h
      exact .accept hclient (.declined haccept) rfl id
  | connected i =>
      simp only [acceptStep, Option.ite_none_right_eq_some, Option.some.injEq] at h
      obtain ⟨haccept, rfl⟩ := h
      rw [TciServer.connected]
      split
      · exact .accept hclient (.clear haccept) rfl id
      · rename_i hgen
        have hnone : c.session = none := hcounted.no_session (by rw [haccept]; nofun)
        have h : Happened s (.connected i) _ := .moved _ hclient
          (.inr (.connected haccept (not_not.mp hgen))) .same nofun
        simp only [sessionsAfter, Client.registered, hnone] at h
        exact h
  | connectFails =>
      simp only [acceptStep, Option.ite_none_right_eq_some, Option.some.injEq] at h
      obtain ⟨haccept, rfl⟩ := h
      exact .accept hclient (.clear haccept) rfl id
  | cleared =>
      simp only [acceptStep, Option.ite_none_right_eq_some, Option.some.injEq] at h
      obtain ⟨haccept, rfl⟩ := h
      exact .accept hclient (.cleared haccept) rfl id
  | start | bound | bindFails | orphanClosed | stop | accept | finish | run | proceed
  | abandon => cases h

theorem run_happened {j : Nat} {call : FinishCall} {c : Client} (hcall : s.calls[j]? = some call)
    (hclient : s.clients[call.client]? = some c) (hphase : call.phase = .created)
    (h : s.run j call c = some s') : Happened s action s' := by
  have hnew : call.phase ≠ .winning := by
    rw [hphase]
    nofun
  have hwait : Happened s action (s.setCall j call (if call.own then .ended else .waiting)) := by
    refine .call _ hcall hclient (fun hended => .inl ?_) hnew
    by_contra hown
    rw [if_neg hown] at hended
    cases hended
  rw [run] at h
  split at h
  · cases h
  · rename_i hsession
    cases h
    have hlt := (List.getElem?_eq_some_iff.mp hcall).1
    have h : Happened s action _ := .moved _ hclient (.inr (.joining hsession))
      (.set .winning hcall rfl nofun fun hwinning => absurd hwinning hnew)
      fun _ => .inr ⟨_, List.mem_set hlt _, rfl, rfl⟩
    simp only [sessionsAfter, Client.registered, hsession] at h
    exact h
  all_goals
    cases h
    exact hwait

theorem wind_happened {j : Nat} {call : FinishCall} {c : Client} (hcall : s.calls[j]? = some call)
    (hclient : s.clients[call.client]? = some c) (h : s.wind j call c = some s') :
    Happened s action s' := by
  rw [wind] at h
  split at h
  · rename_i hsession
    cases h
    refine .accept hclient (.closing hsession) ?_ fun _ => ?_
    · rw [Client.registered, Client.registered, hsession]
    · rw [Client.winding, hsession]
  · rename_i hsession
    cases h
    refine .accept hclient (.tearing hsession) ?_ fun _ => ?_
    · rw [Client.registered, Client.registered, hsession]
    · rw [Client.winding, hsession]
  · rename_i hsession
    cases h
    have h : Happened s action _ := .moved _ hclient (.inr (.finished hsession))
      (.set .ended hcall rfl (fun _ => .inr rfl) fun _ => rfl) nofun
    simp only [sessionsAfter, Client.registered, hsession] at h
    exact h
  all_goals cases h

theorem callStep_happened {j : Nat} {call : FinishCall} {c : Client}
    (hcall : s.calls[j]? = some call) (hclient : s.clients[call.client]? = some c)
    (h : s.callStep j call c action = some s') : Happened s action s' := by
  cases action with
  | run =>
      rw [callStep, Option.ite_none_right_eq_some] at h
      exact run_happened hcall hclient h.1 h.2
  | proceed =>
      rw [callStep] at h
      split at h
      · exact wind_happened hcall hclient h
      · rename_i hphase
        rw [Option.ite_none_right_eq_some] at h
        obtain ⟨hfinished, h⟩ := h
        cases h
        exact .call .ended hcall hclient (fun _ => .inr hfinished) (by rw [hphase]; nofun)
      all_goals cases h
  | abandon =>
      rw [callStep, Option.ite_none_right_eq_some] at h
      obtain ⟨hphase, h⟩ := h
      cases h
      refine .call .abandoned hcall hclient nofun ?_
      rcases hphase with hphase | hphase <;> rw [hphase] <;> nofun
  | start | bound | bindFails | orphanClosed | stop | accept | upgraded | declined | connected
  | connectFails | cleared | finish => cases h

theorem step_happened (hcounted : ∀ c ∈ s.clients, c.Counted) (h : step s action = some s') :
    Happened s action s' := by
  cases action with
  | start =>
      cases h
      rw [TciServer.start]
      split
      · exact .started s.starting fun x hx => .inr ⟨x, hx, rfl⟩
      · refine .started true fun x hx => ?_
        rcases List.mem_append.mp hx with hx | hx
        · exact .inr ⟨x, hx, rfl⟩
        · cases List.mem_singleton.mp hx
          exact .inl ⟨rfl, rfl⟩
  | stop =>
      cases h
      exact .stopped
  | accept =>
      cases h
      rw [TciServer.accept]
      split
      · exact .started s.starting fun x hx => .inr ⟨x, hx, rfl⟩
      · rename_i hopen
        exact .accepted fun hnone => Nat.eq_zero_of_not_pos fun hpos => hopen ⟨hnone, hpos⟩
  | finish k own =>
      rw [step, Option.ite_none_right_eq_some] at h
      obtain ⟨-, h⟩ := h
      cases h
      exact .called own
  | bound | bindFails | orphanClosed =>
      obtain ⟨start, hstart, h⟩ := Option.bind_eq_some_iff.mp h
      exact startStep_happened hstart h
  | upgraded | declined | connected | connectFails | cleared =>
      obtain ⟨c, hclient, h⟩ := Option.bind_eq_some_iff.mp h
      exact acceptStep_happened hclient (hcounted c (List.mem_of_getElem? hclient)) h
  | run | proceed | abandon =>
      obtain ⟨call, hcall, h⟩ := Option.bind_eq_some_iff.mp h
      obtain ⟨c, hclient, h⟩ := Option.bind_eq_some_iff.mp h
      exact callStep_happened hcall hclient h

end TciServer

end Rigplane.Tci
