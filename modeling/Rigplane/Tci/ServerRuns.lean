import Mathlib.Data.List.Nodup
import Mathlib.Order.Nat
import Rigplane.Tci.ServerSteps

/-!
# Runs of the TCI server

The results about every run of the server, whatever the interleaving of its tasks.

* `disconnected_once`: a handler is disconnected at most once, and only when it was connected; when
  its accept has ended and its session is gone, it has been.
* `teardown_completes`: a teardown that has begun is completed by the call that has begun it.
* `no_late_session`: no session appears after a `stop`, unless the server is started again.
* `stop_settles`: when what a `stop` waits for has ended, all clients before it are settled.
-/

namespace Rigplane.Tci

namespace TciServer

variable {s s' s₀ : TciServer} {action : Action}

/-! ## Clients and sessions -/

structure Ok (s : TciServer) : Prop where
  counted : ∀ c ∈ s.clients, c.Counted
  setupGen : ∀ c ∈ s.clients, c.setupGen ≤ s.generation
  startGen : ∀ x ∈ s.starts, x.gen ≤ s.generation
  nodup : s.sessions.Nodup
  registered : ∀ k, k ∈ s.sessions ↔ ∃ c, s.clients[k]? = some c ∧ c.registered = true

theorem Ok.initial : Ok {} := by
  constructor <;> simp

theorem Ok.registered_iff (h : s.Ok) {k : Nat} {c : Client} (hclient : s.clients[k]? = some c) :
    k ∈ s.sessions ↔ c.registered = true := by
  rw [h.registered, hclient]
  simp

theorem mem_sessionsAfter (h : s.Ok) {k : Nat} {c c' : Client} (hclient : s.clients[k]? = some c)
    (i : Nat) :
    i ∈ s.sessionsAfter k c c' ↔ (i = k ∧ c'.registered = true) ∨ (i ≠ k ∧ i ∈ s.sessions) := by
  have hk := h.registered_iff hclient
  rw [sessionsAfter]
  by_cases hi : i = k
  · subst hi
    split
    · rename_i hsame
      simp [hk, hsame]
    · split
      · rename_i hthere
        simp [hthere]
      · rename_i hthere
        simp [hthere, h.nodup.mem_erase_iff]
  · split
    · simp [hi]
    · split
      · simp [hi]
      · simp [hi, h.nodup.mem_erase_iff]

theorem nodup_sessionsAfter (h : s.Ok) {k : Nat} {c c' : Client}
    (hclient : s.clients[k]? = some c) : (s.sessionsAfter k c c').Nodup := by
  rw [sessionsAfter]
  split
  · exact h.nodup
  · rename_i hmoved
    split
    · rename_i hthere
      have hout : k ∉ s.sessions := by
        rw [h.registered_iff hclient]
        exact fun hbefore => hmoved (hthere.trans hbefore.symm)
      exact List.nodup_append_comm.mp (List.nodup_cons.mpr ⟨hout, h.nodup⟩)
    · exact h.nodup.erase k

theorem Ok.moved (h : s.Ok) {k : Nat} {c c' : Client} {calls : List FinishCall}
    (hclient : s.clients[k]? = some c) (hmove : c' = c ∨ Client.Advance s.generation c c') :
    Ok { s with
      clients := s.clients.set k c'
      sessions := s.sessionsAfter k c c'
      calls := calls } := by
  have hin : c ∈ s.clients := List.mem_of_getElem? hclient
  have hlt : k < s.clients.length := (List.getElem?_eq_some_iff.mp hclient).1
  have hset {P : Client → Prop} (hall : ∀ x ∈ s.clients, P x) (hthis : P c → P c') :
      ∀ x ∈ s.clients.set k c', P x := by
    intro x hx
    rcases List.mem_or_eq_of_mem_set hx with hx | rfl
    · exact hall x hx
    · exact hthis (hall c hin)
  refine ⟨hset h.counted ?_, hset h.setupGen ?_, h.startGen, nodup_sessionsAfter h hclient, ?_⟩
  · rcases hmove with rfl | hadvance
    · exact id
    · exact hadvance.counted
  · rcases hmove with rfl | hadvance
    · exact id
    · rw [hadvance.setupGen]
      exact id
  · intro i
    rw [mem_sessionsAfter h hclient, List.getElem?_set]
    by_cases hi : i = k
    · subst hi
      simp [hlt]
    · rw [if_neg (Ne.symm hi), ← h.registered]
      simp [hi]

theorem Ok.happened (h : s.Ok) (hhappened : Happened s action s') : s'.Ok := by
  cases hhappened with
  | started starting hstarts =>
      refine ⟨h.counted, h.setupGen, fun x hx => ?_, h.nodup, h.registered⟩
      rcases hstarts x hx with ⟨-, hgen⟩ | ⟨y, hy, hgen⟩
      · exact hgen.le
      · exact hgen.le.trans (h.startGen y hy)
  | bound hstart hgen starting hstarts =>
      refine ⟨h.counted, fun c hc => (h.setupGen c hc).trans (Nat.le_succ _), fun x hx => ?_,
        h.nodup, h.registered⟩
      obtain ⟨y, hy, hsame⟩ := hstarts x hx
      exact (hsame.le.trans (h.startGen y hy)).trans (Nat.le_succ _)
  | stopped =>
      exact ⟨h.counted, fun c hc => (h.setupGen c hc).trans (Nat.le_succ _),
        fun x hx => (h.startGen x hx).trans (Nat.le_succ _), h.nodup, h.registered⟩
  | accepted hopen =>
      have hadded {P : Client → Prop} (hall : ∀ x ∈ s.clients, P x)
          (hthis : P { setupGen := s.generation }) :
          ∀ x ∈ s.clients ++ [{ setupGen := s.generation }], P x := by
        intro x hx
        rcases List.mem_append.mp hx with hx | hx
        · exact hall x hx
        · cases List.mem_singleton.mp hx
          exact hthis
      refine ⟨hadded h.counted ⟨rfl, rfl⟩, hadded h.setupGen (Nat.le_refl _), h.startGen, h.nodup,
        fun k => (h.registered k).trans ?_⟩
      rcases lt_trichotomy k s.clients.length with hlt | rfl | hgt
      · rw [List.getElem?_append_left hlt]
      · simp [Client.registered]
      · have hlength : s.clients.length + 1 ≤ k := hgt
        rw [List.getElem?_eq_none hgt.le, List.getElem?_eq_none (by simpa using hlength)]
  | moved c' hclient hmove hcalls => exact h.moved hclient hmove
  | called own => exact ⟨h.counted, h.setupGen, h.startGen, h.nodup, h.registered⟩

theorem Ok.step (h : s.Ok) (hstep : step s action = some s') : s'.Ok :=
  h.happened (step_happened h.counted hstep)

theorem run_ok {actions : List Action} (hrun : Runs.exec step {} actions = some s) : s.Ok :=
  Runs.exec_invariant (fun _ _ _ h hstep => h.step hstep) hrun .initial

/-- A handler is disconnected at most once, after it was connected, and has been when its accept
has ended and its session is gone. -/
theorem disconnected_once {actions : List Action} (hrun : Runs.exec step {} actions = some s)
    {k : Nat} {c : Client} (hclient : s.clients[k]? = some c) :
    c.disconnects ≤ c.connects ∧ c.connects ≤ 1 ∧
      (c.accept = .ended → k ∉ s.sessions → c.disconnects = c.connects) := by
  have hok := run_ok hrun
  have hcounted := hok.counted c (List.mem_of_getElem? hclient)
  refine ⟨hcounted.le.1, hcounted.le.2, fun haccept hgone => hcounted.settled haccept ?_⟩
  rw [hok.registered_iff hclient] at hgone
  exact eq_false_of_ne_true hgone

/-- The server is started, and of two sockets the second is still in `on_connect`. -/
def opening : List Action :=
  [.start, .bound 0, .accept, .upgraded 0, .connected 0, .accept, .upgraded 1]

/-- It is stopped, and both clients are cleaned up side by side. -/
def settling : List Action := opening ++ [.stop, .run 0, .proceed 0, .connectFails 1, .proceed 0,
  .cleared 1, .proceed 0]

theorem disconnected_once_settling : ∃ s c, Runs.exec step {} settling = some s ∧
    s.clients[1]? = some c ∧ c.connects = 1 ∧ c.disconnects ≤ c.connects ∧ c.connects ≤ 1 ∧
      (c.accept = .ended → 1 ∉ s.sessions → c.disconnects = c.connects) := by
  have hany : (Runs.exec step {} settling).any
      (fun s => s.clients[1]?.any fun c => c.connects = 1) = true := by decide +kernel
  obtain ⟨s, hrun, hclient⟩ := (Option.any_eq_true _ _).mp hany
  obtain ⟨c, hclient, hconnects⟩ := (Option.any_eq_true _ _).mp hclient
  exact ⟨s, c, hrun, hclient, of_decide_eq_true hconnects, disconnected_once hrun hclient⟩

/-! ## The tearing down of a session -/

/-- A session that is being torn down has a call of `finish` that does it. -/
def Won (s : TciServer) : Prop :=
  ∀ (k : Nat) c, s.clients[k]? = some c → c.winding = true →
    ∃ call ∈ s.calls, call.client = k ∧ call.phase = .winning

theorem CallsAfter.winning {k : Nat} {c : Client} {calls : List FinishCall} {call : FinishCall}
    (h : CallsAfter s k c calls) (hin : call ∈ s.calls) (hphase : call.phase = .winning)
    (hwinding : call.client = k → c.winding = true) : call ∈ calls := by
  cases h with
  | same => exact hin
  | @set j moved phase hcall hthis hended hwinning =>
      obtain ⟨i, hi, hget⟩ := List.getElem_of_mem hin
      by_cases hsame : j = i
      · subst hsame
        rw [List.getElem?_eq_getElem hi, hget] at hcall
        cases hcall
        have hover := hwinning hphase
        rw [hwinding hthis] at hover
        cases hover
      · refine List.mem_of_getElem? (i := i) ?_
        rw [List.getElem?_set_ne hsame, List.getElem?_eq_getElem hi, hget]

theorem Won.happened (h : s.Won) (hhappened : Happened s action s') : s'.Won := by
  have hmore (more : List FinishCall) (k : Nat) (c : Client) (hclient : s.clients[k]? = some c)
      (hwinding : c.winding = true) :
      ∃ call ∈ s.calls ++ more, call.client = k ∧ call.phase = .winning := by
    obtain ⟨call, hin, hcall⟩ := h k c hclient hwinding
    exact ⟨call, List.mem_append_left _ hin, hcall⟩
  cases hhappened with
  | started | bound => exact h
  | stopped | called => exact hmore _
  | accepted =>
      intro k c hclient hwinding
      rw [List.getElem?_append] at hclient
      split at hclient
      · exact h k c hclient hwinding
      · have hnew : c ∈ [{ setupGen := s.generation }] := List.mem_of_getElem? hclient
        cases List.mem_singleton.mp hnew
        cases hwinding
  | @moved k c c' calls hclient hmove hcalls hwon =>
      intro i x hx hwinding
      rw [List.getElem?_set] at hx
      split at hx
      · rename_i hsame
        subst hsame
        rw [if_pos (List.getElem?_eq_some_iff.mp hclient).1] at hx
        cases hx
        rcases hwon hwinding with hbefore | hnow
        · obtain ⟨call, hin, hthis, hphase⟩ := h k c hclient hbefore
          exact ⟨call, hcalls.winning hin hphase fun _ => hwinding, hthis, hphase⟩
        · exact hnow
      · rename_i hother
        obtain ⟨call, hin, hthis, hphase⟩ := h i x hx hwinding
        exact ⟨call, hcalls.winning hin hphase fun hk => absurd (hk.symm.trans hthis) hother, hthis,
          hphase⟩

theorem run_won {actions : List Action} (hrun : Runs.exec step {} actions = some s) : s.Won :=
  (Runs.exec_invariant (I := fun s => s.Ok ∧ s.Won)
    (fun _ _ _ h hstep => ⟨h.1.step hstep, h.2.happened (step_happened h.1.counted hstep)⟩)
    hrun ⟨.initial, by simp [Won]⟩).2

/-- `n` awaits of the call `j` end, and the session of the client `k` is finished and its handler
disconnected. -/
def CompletesIn (s : TciServer) (j k n : Nat) : Prop :=
  ∃ s' c, Runs.exec step s (List.replicate n (.proceed j)) = some s' ∧ k ∉ s'.sessions ∧
    s'.clients[k]? = some c ∧ c.session = some .finished ∧ c.disconnects = 1

section

variable {j : Nat} {call : FinishCall} {c : Client}

theorem proceed_eq (hcall : s.calls[j]? = some call) (hphase : call.phase = .winning)
    (hclient : s.clients[call.client]? = some c) : step s (.proceed j) = s.wind j call c := by
  simp only [step, hcall, Option.bind_some, hclient, callStep, hphase]

theorem completes_tearing (hok : s.Ok) (hcall : s.calls[j]? = some call)
    (hphase : call.phase = .winning) (hclient : s.clients[call.client]? = some c)
    (hsession : c.session = some .tearing) : s.CompletesIn j call.client 1 := by
  have hstep := proceed_eq hcall hphase hclient
  rw [wind, hsession] at hstep
  have hlt := (List.getElem?_eq_some_iff.mp hclient).1
  refine ⟨_, { c with session := some .finished }, Runs.exec_cons_eq_some.mpr ⟨_, hstep, rfl⟩, ?_,
    List.getElem?_set_self hlt, rfl, ?_⟩
  · exact fun hin => (hok.nodup.mem_erase_iff.mp hin).1 rfl
  · exact (hok.counted c (List.mem_of_getElem? hclient)).disconnected hsession

/-- The teardown goes on from one await to the next. -/
theorem completes_succ {c' : Client} {n : Nat} (hcall : s.calls[j]? = some call)
    (hphase : call.phase = .winning) (hclient : s.clients[call.client]? = some c)
    (hwind : s.wind j call c = some (s.setClient call.client c'))
    (hrest : (s.setClient call.client c').CompletesIn j call.client n) :
    s.CompletesIn j call.client (n + 1) := by
  obtain ⟨s', x, hrun, hdone⟩ := hrest
  have hstep := (proceed_eq hcall hphase hclient).trans hwind
  exact ⟨s', x, Runs.exec_cons_eq_some.mpr ⟨_, hstep, hrun⟩, hdone⟩

theorem completes_closing (hok : s.Ok) (hcall : s.calls[j]? = some call)
    (hphase : call.phase = .winning) (hclient : s.clients[call.client]? = some c)
    (hsession : c.session = some .closing) : s.CompletesIn j call.client 2 := by
  have hlt := (List.getElem?_eq_some_iff.mp hclient).1
  have hwind : s.wind j call c = some (s.setClient call.client
      { c with session := some .tearing, disconnects := c.disconnects + 1 }) := by
    rw [wind, hsession]
  have hstep := (proceed_eq hcall hphase hclient).trans hwind
  exact completes_succ hcall hphase hclient hwind
    (completes_tearing (hok.step hstep) hcall hphase (List.getElem?_set_self hlt) rfl)

theorem completes_joining (hok : s.Ok) (hcall : s.calls[j]? = some call)
    (hphase : call.phase = .winning) (hclient : s.clients[call.client]? = some c)
    (hsession : c.session = some .joining) : s.CompletesIn j call.client 3 := by
  have hlt := (List.getElem?_eq_some_iff.mp hclient).1
  have hwind : s.wind j call c =
      some (s.setClient call.client { c with session := some .closing }) := by
    rw [wind, hsession]
  have hstep := (proceed_eq hcall hphase hclient).trans hwind
  exact completes_succ hcall hphase hclient hwind
    (completes_closing (hok.step hstep) hcall hphase (List.getElem?_set_self hlt) rfl)

end

/-- A teardown that has begun is owned by a call of `finish`, which completes it in at most three
awaits, whatever has become of those who wait for it. -/
theorem teardown_completes {actions : List Action} (hrun : Runs.exec step {} actions = some s)
    {k : Nat} {c : Client} (hclient : s.clients[k]? = some c) (hwinding : c.winding = true) :
    ∃ j n, n ≤ 3 ∧ s.CompletesIn j k n := by
  have hok := run_ok hrun
  obtain ⟨call, hin, rfl, hphase⟩ := run_won hrun k c hclient hwinding
  obtain ⟨j, hj, hget⟩ := List.getElem_of_mem hin
  have hcall : s.calls[j]? = some call := by rw [List.getElem?_eq_getElem hj, hget]
  rw [Client.winding] at hwinding
  split at hwinding
  · rename_i hsession
    exact ⟨j, 3, by decide, completes_joining hok hcall hphase hclient hsession⟩
  · rename_i hsession
    exact ⟨j, 2, by decide, completes_closing hok hcall hphase hclient hsession⟩
  · rename_i hsession
    exact ⟨j, 1, by decide, completes_tearing hok hcall hphase hclient hsession⟩
  all_goals cases hwinding

/-- A task of a session has begun to finish it, and the call of a stop that waits for it is
abandoned. -/
def abandoning : List Action :=
  opening ++ [.finish 0 true, .run 0, .stop, .run 1, .abandon 1]

theorem teardown_completes_abandoning :
    ∃ s, Runs.exec step {} abandoning = some s ∧ ∃ j n, n ≤ 3 ∧ s.CompletesIn j 0 n := by
  have hany : (Runs.exec step {} abandoning).any
      (fun s => s.clients[0]?.any fun c => c.winding) = true := by decide +kernel
  obtain ⟨s, hrun, hclient⟩ := (Option.any_eq_true _ _).mp hany
  obtain ⟨c, hclient, hwinding⟩ := (Option.any_eq_true _ _).mp hclient
  exact ⟨s, hrun, teardown_completes hrun hclient hwinding⟩

/-! ## After a stop -/

/-- `s` is a later state than that of a `stop` in `s₀`. -/
structure Stopped (s₀ s : TciServer) : Prop where
  gen : s₀.generation < s.generation
  length : s₀.clients.length ≤ s.clients.length
  old : ∀ k < s₀.clients.length, ∀ c, s.clients[k]? = some c → c.setupGen ≤ s₀.generation
  kept : ∀ k ∈ s.sessions, k ∈ s₀.sessions ∨ s₀.clients.length ≤ k

theorem Stopped.stop (h : s₀.Ok) : Stopped s₀ s₀.stop where
  gen := Nat.lt_succ_self _
  length := Nat.le_refl _
  old := fun _ _ c hclient => h.setupGen c (List.mem_of_getElem? hclient)
  kept := fun _ hk => .inl hk

theorem Stopped.happened (h : Stopped s₀ s) (hok : s.Ok) (hhappened : Happened s action s') :
    Stopped s₀ s' := by
  cases hhappened with
  | started | called => exact ⟨h.gen, h.length, h.old, h.kept⟩
  | bound | stopped => exact ⟨h.gen.trans (Nat.lt_succ_self _), h.length, h.old, h.kept⟩
  | accepted =>
      refine ⟨h.gen, ?_, fun k hk c hclient => h.old k hk c ?_, h.kept⟩
      · rw [List.length_append]
        exact h.length.trans (Nat.le_add_right _ _)
      · rwa [List.getElem?_append_left (hk.trans_le h.length)] at hclient
  | @moved k c c' calls hclient hmove hcalls hwon =>
      have hlt : k < s.clients.length := (List.getElem?_eq_some_iff.mp hclient).1
      refine ⟨h.gen, ?_, fun i hi x hx => ?_, fun i hi => ?_⟩
      · rw [List.length_set]
        exact h.length
      · rw [List.getElem?_set] at hx
        split at hx
        · rename_i hsame
          subst hsame
          cases hx
          rcases hmove with rfl | hadvance
          · exact h.old k hi c' hclient
          · rw [hadvance.setupGen]
            exact h.old k hi c hclient
        · exact h.old i hi x hx
      · rcases (mem_sessionsAfter hok hclient i).mp hi with ⟨rfl, hregistered⟩ | ⟨-, hin⟩
        · by_cases hnew : s₀.clients.length ≤ i
          · exact .inr hnew
          · refine h.kept i ((hok.registered_iff hclient).mpr ?_)
            rcases hmove with rfl | hadvance
            · exact hregistered
            · have hgen : c.setupGen < s.generation :=
                (h.old i (not_le.mp hnew) c hclient).trans_lt h.gen
              exact hadvance.registered_of hgen hregistered
        · exact h.kept i hin

/-- No listener is there, and none is to come. -/
structure Shut (n : Nat) (s : TciServer) : Prop where
  listener : s.listener = none
  gen : 0 < s.generation
  starts : ∀ x ∈ s.starts, x.gen < s.generation
  length : s.clients.length = n

theorem Shut.stop (h : s₀.Ok) : Shut s₀.clients.length s₀.stop where
  listener := rfl
  gen := Nat.succ_pos _
  starts := fun x hx => Nat.lt_succ_of_le (h.startGen x hx)
  length := rfl

theorem Shut.happened {n : Nat} (h : Shut n s) (hstart : action ≠ .start)
    (hhappened : Happened s action s') : Shut n s' := by
  cases hhappened with
  | started starting hstarts =>
      refine ⟨h.listener, h.gen, fun x hx => ?_, h.length⟩
      rcases hstarts x hx with ⟨hthis, -⟩ | ⟨y, hy, hgen⟩
      · exact absurd hthis hstart
      · exact hgen.trans_lt (h.starts y hy)
  | bound hin hgen =>
      exact absurd (h.starts _ hin) (not_lt.mpr hgen.le)
  | stopped =>
      exact ⟨rfl, Nat.succ_pos _, fun x hx => (h.starts x hx).trans (Nat.lt_succ_self _), h.length⟩
  | accepted hopen => exact absurd (hopen h.listener) h.gen.ne'
  | moved => exact ⟨h.listener, h.gen, h.starts, by rw [List.length_set]; exact h.length⟩
  | called => exact ⟨h.listener, h.gen, h.starts, h.length⟩

theorem Ok.stop (h : s.Ok) : s.stop.Ok := h.happened (.stopped : Happened s .stop s.stop)

theorem stopped_run {actions : List Action} (hok : s₀.Ok)
    (hrun : Runs.exec step s₀.stop actions = some s) : s.Ok ∧ Stopped s₀ s :=
  Runs.exec_invariant (I := fun s => s.Ok ∧ Stopped s₀ s)
    (fun _ _ _ h hstep => ⟨h.1.step hstep, h.2.happened h.1 (step_happened h.1.counted hstep)⟩)
    hrun ⟨hok.stop, .stop hok⟩

theorem shut_run {actions : List Action} (hok : s₀.Ok)
    (hrun : Runs.exec step s₀.stop actions = some s) (hstart : .start ∉ actions) :
    Shut s₀.clients.length s := by
  have halong : Runs.Along step (fun _ a => a ≠ .start) s₀.stop actions :=
    .of_forall fun a ha _ hthis => hstart (hthis ▸ ha)
  exact (Runs.exec_invariant_along (I := fun s => s.Ok ∧ Shut s₀.clients.length s)
    (fun _ _ _ h hne hstep =>
      ⟨h.1.step hstep, h.2.happened hne (step_happened h.1.counted hstep)⟩)
    hrun halong ⟨hok.stop, .stop hok⟩).2

/-- After a `stop` no socket that was accepted before it becomes a session, and if the server is not
started again, no other socket does. -/
theorem no_late_session {before after : List Action} (hbefore : Runs.exec step {} before = some s₀)
    (hrun : Runs.exec step s₀ (.stop :: after) = some s) :
    (∀ k ∈ s.sessions, k ∈ s₀.sessions ∨ s₀.clients.length ≤ k) ∧
      (.start ∉ after → s.listener = none ∧ ∀ k ∈ s.sessions, k ∈ s₀.sessions) := by
  have hok := run_ok hbefore
  obtain ⟨m, hstop, hafter⟩ := Runs.exec_cons_eq_some.mp hrun
  cases hstop
  obtain ⟨hok', hstopped⟩ := stopped_run hok hafter
  refine ⟨hstopped.kept, fun hstart => ?_⟩
  have hshut := shut_run hok hafter hstart
  refine ⟨hshut.listener, fun k hk => (hstopped.kept k hk).resolve_right fun hle => ?_⟩
  obtain ⟨c, hclient, -⟩ := (hok'.registered k).mp hk
  have hlt := (List.getElem?_eq_some_iff.mp hclient).1
  rw [hshut.length] at hlt
  exact absurd hle (not_le.mpr hlt)

theorem no_late_session_connected : ∃ s₀ s, Runs.exec step {} opening = some s₀ ∧
    Runs.exec step s₀ [.stop, .connected 1, .accept] = some s ∧ s₀.sessions = [0] ∧
      (∀ k ∈ s.sessions, k ∈ s₀.sessions ∨ s₀.clients.length ≤ k) ∧
        (.start ∉ [Action.connected 1, .accept] →
          s.listener = none ∧ ∀ k ∈ s.sessions, k ∈ s₀.sessions) := by
  have hany : (Runs.exec step {} opening).any (fun s₀ => s₀.sessions = [0] ∧
      (Runs.exec step s₀ [.stop, .connected 1, .accept]).isSome) = true := by decide +kernel
  obtain ⟨s₀, hbefore, hthen⟩ := (Option.any_eq_true _ _).mp hany
  obtain ⟨hsessions, hsome⟩ := of_decide_eq_true hthen
  obtain ⟨s, hrun⟩ := Option.isSome_iff_exists.mp hsome
  exact ⟨s₀, s, hbefore, hrun, hsessions, no_late_session hbefore hrun⟩

/-! ## What a stop waits for -/

/-- A call of `finish` that is not a task's own ends when the session is finished. -/
def Called (s : TciServer) : Prop :=
  ∀ call ∈ s.calls, call.own = false → call.phase = .ended →
    ∃ c, s.clients[call.client]? = some c ∧ c.session = some .finished

/-- The `finish` of a session that a `stop` has asked for. -/
def Asked (s : TciServer) (x : Stop) (k : Nat) : Prop :=
  ∃ j ∈ x.calls, ∃ call, s.calls[j]? = some call ∧ call.client = k ∧ call.own = false

/-- What a `stop` has left of a client that was accepted before it. -/
structure Watched (s : TciServer) (x : Stop) (k : Nat) (c : Client) : Prop where
  old : c.setupGen < s.generation
  accept : c.accept = .ended ∨ k ∈ x.setups
  session : c.registered = true → s.Asked x k

structure Waits (s : TciServer) : Prop where
  called : s.Called
  watched : ∀ x ∈ s.stops, ∀ k < x.accepted, ∃ c, s.clients[k]? = some c ∧ s.Watched x k c

theorem Waits.initial : Waits {} := by
  constructor <;> simp [Called]

/-- What a step can do to a client. -/
structure Kept (s s' : TciServer) : Prop where
  gen : s.generation ≤ s'.generation
  client : ∀ (k : Nat) c, s.clients[k]? = some c → ∃ c', s'.clients[k]? = some c' ∧
    (c' = c ∨ Client.Advance s.generation c c')
  call : ∀ (j : Nat) call, s.calls[j]? = some call → ∃ call', s'.calls[j]? = some call' ∧
    call'.client = call.client ∧ call'.own = call.own

theorem Happened.kept (h : Happened s action s') : Kept s s' := by
  have hclients (k : Nat) (c : Client) (hclient : s.clients[k]? = some c) :
      ∃ c', s.clients[k]? = some c' ∧ (c' = c ∨ Client.Advance s.generation c c') :=
    ⟨c, hclient, .inl rfl⟩
  have hcalls (j : Nat) (call : FinishCall) (hcall : s.calls[j]? = some call) :
      ∃ call', s.calls[j]? = some call' ∧ call'.client = call.client ∧ call'.own = call.own :=
    ⟨call, hcall, rfl, rfl⟩
  have hmore (more : List FinishCall) (j : Nat) (call : FinishCall)
      (hcall : s.calls[j]? = some call) : ∃ call', (s.calls ++ more)[j]? = some call' ∧
        call'.client = call.client ∧ call'.own = call.own := by
    refine ⟨call, ?_, rfl, rfl⟩
    rwa [List.getElem?_append_left (List.getElem?_eq_some_iff.mp hcall).1]
  cases h with
  | started => exact ⟨Nat.le_refl _, hclients, hcalls⟩
  | bound => exact ⟨Nat.le_succ _, hclients, hcalls⟩
  | stopped => exact ⟨Nat.le_succ _, hclients, hmore _⟩
  | accepted =>
      refine ⟨Nat.le_refl _, fun k c hclient => ⟨c, ?_, .inl rfl⟩, hcalls⟩
      rwa [List.getElem?_append_left (List.getElem?_eq_some_iff.mp hclient).1]
  | called => exact ⟨Nat.le_refl _, hclients, hmore _⟩
  | @moved k c c' calls hclient hmove hafter hwon =>
      refine ⟨Nat.le_refl _, fun i x hx => ?_, ?_⟩
      · have hlt := (List.getElem?_eq_some_iff.mp hx).1
        by_cases hi : k = i
        · subst hi
          rw [hclient] at hx
          cases hx
          exact ⟨c', List.getElem?_set_self hlt, hmove⟩
        · exact ⟨x, by rwa [List.getElem?_set_ne hi], .inl rfl⟩
      · cases hafter with
        | same => exact hcalls
        | @set j call phase hcall hthis hended hwinning =>
            intro i y hy
            have hlt := (List.getElem?_eq_some_iff.mp hy).1
            by_cases hi : j = i
            · subst hi
              rw [hcall] at hy
              cases hy
              exact ⟨{ call with phase }, List.getElem?_set_self hlt, rfl, rfl⟩
            · exact ⟨y, by rwa [List.getElem?_set_ne hi], rfl, rfl⟩

theorem Watched.kept {x : Stop} {k : Nat} {c c' : Client} (h : s.Watched x k c) (hkept : Kept s s')
    (hmove : c' = c ∨ Client.Advance s.generation c c') : s'.Watched x k c' := by
  have hasked (hasked : s.Asked x k) : s'.Asked x k := by
    obtain ⟨j, hj, call, hcall, rfl, hown⟩ := hasked
    obtain ⟨call', hcall', hclient, hsame⟩ := hkept.call j call hcall
    exact ⟨j, hj, call', hcall', hclient, hsame.trans hown⟩
  rcases hmove with rfl | hadvance
  · exact ⟨h.old.trans_le hkept.gen, h.accept, fun hthere => hasked (h.session hthere)⟩
  · refine ⟨?_, h.accept.imp_left hadvance.accept_ended,
      fun hthere => hasked (h.session (hadvance.registered_of h.old hthere))⟩
    rw [hadvance.setupGen]
    exact h.old.trans_le hkept.gen

theorem Waits.watched_awaited (hok : s.Ok) {k : Nat} (hk : k < s.clients.length) :
    ∃ c, s.stop.clients[k]? = some c ∧ s.stop.Watched s.awaited k c := by
  have hclient : s.clients[k]? = some s.clients[k] := List.getElem?_eq_getElem hk
  refine ⟨s.clients[k], hclient, Nat.lt_succ_of_le (hok.setupGen _ (List.getElem_mem hk)), ?_,
    fun hthere => ?_⟩
  · by_cases haccept : s.clients[k].accept = .ended
    · exact .inl haccept
    · refine .inr (List.mem_filter.mpr ⟨List.mem_range.mpr hk, ?_⟩)
      rw [hclient]
      exact decide_eq_true haccept
  · obtain ⟨i, hi, hget⟩ := List.getElem_of_mem ((hok.registered_iff hclient).mpr hthere)
    refine ⟨s.calls.length + i, ?_, { client := k, own := false }, ?_, rfl, rfl⟩
    · exact List.mem_range'_1.mpr ⟨Nat.le_add_right _ _, Nat.add_lt_add_left hi _⟩
    · rw [TciServer.stop, List.getElem?_append_right (Nat.le_add_right _ _),
        Nat.add_sub_cancel_left, List.getElem?_map, List.getElem?_eq_getElem hi, hget]
      rfl

theorem Called.happened (h : s.Called) (hok : s.Ok) (hhappened : Happened s action s') :
    s'.Called := by
  have hkept := hhappened.kept
  have hold {call : FinishCall} (hin : call ∈ s.calls) (hown : call.own = false)
      (hended : call.phase = .ended) :
      ∃ c, s'.clients[call.client]? = some c ∧ c.session = some .finished := by
    obtain ⟨c, hclient, hfinished⟩ := h call hin hown hended
    obtain ⟨c', hclient', rfl | hadvance⟩ := hkept.client _ c hclient
    · exact ⟨c', hclient', hfinished⟩
    · exact ⟨c', hclient', hadvance.finished_stays
        (hok.counted c (List.mem_of_getElem? hclient)) hfinished⟩
  intro call hin hown hended
  cases hhappened with
  | started | bound | accepted => exact hold hin hown hended
  | stopped =>
      rcases List.mem_append.mp hin with hin | hin
      · exact hold hin hown hended
      · obtain ⟨k, -, rfl⟩ := List.mem_map.mp hin
        cases hended
  | called =>
      rcases List.mem_append.mp hin with hin | hin
      · exact hold hin hown hended
      · cases List.mem_singleton.mp hin
        cases hended
  | moved c' hclient hmove hcalls =>
      cases hcalls with
      | same => exact hold hin hown hended
      | set phase hcall hthis hends =>
          rcases List.mem_or_eq_of_mem_set hin with hin | rfl
          · exact hold hin hown hended
          · have hlt := (List.getElem?_eq_some_iff.mp hclient).1
            refine ⟨c', ?_, (hends hended).resolve_left fun htrue => ?_⟩
            · rw [hthis]
              exact List.getElem?_set_self hlt
            · rw [hown] at htrue
              cases htrue

theorem Waits.happened (h : s.Waits) (hok : s.Ok) (hhappened : Happened s action s') :
    s'.Waits := by
  have hold {x : Stop} (hx : x ∈ s.stops) (k : Nat) (hk : k < x.accepted) :
      ∃ c, s'.clients[k]? = some c ∧ s'.Watched x k c := by
    obtain ⟨c, hclient, hwatched⟩ := h.watched x hx k hk
    obtain ⟨c', hclient', hmove⟩ := hhappened.kept.client k c hclient
    exact ⟨c', hclient', hwatched.kept hhappened.kept hmove⟩
  refine ⟨h.called.happened hok hhappened, fun x hx => ?_⟩
  cases hhappened with
  | started | bound | accepted | moved | called => exact hold hx
  | stopped =>
      rcases List.mem_append.mp hx with hx | hx
      · exact hold hx
      · cases List.mem_singleton.mp hx
        exact fun k hk => Waits.watched_awaited hok hk

theorem run_waits {actions : List Action} (hrun : Runs.exec step {} actions = some s) : s.Waits :=
  (Runs.exec_invariant (I := fun s => s.Ok ∧ s.Waits)
    (fun _ _ _ h hstep =>
      ⟨h.1.step hstep, h.2.happened h.1 (step_happened h.1.counted hstep)⟩)
    hrun ⟨.initial, .initial⟩).2

/-- When the calls of `finish` that a `stop` has made have ended, and the accepts that it has
cancelled too, the clients before it have no session and their handlers are disconnected. -/
theorem stop_settles {actions : List Action} (hrun : Runs.exec step {} actions = some s) {x : Stop}
    (hx : x ∈ s.stops)
    (hcalls : ∀ j ∈ x.calls, ∀ call, s.calls[j]? = some call → call.phase = .ended)
    (hsetups : ∀ k ∈ x.setups, ∀ c, s.clients[k]? = some c → c.accept = .ended) :
    ∀ k < x.accepted, k ∉ s.sessions ∧
      ∃ c, s.clients[k]? = some c ∧ c.accept = .ended ∧ c.disconnects = c.connects := by
  intro k hk
  have hok := run_ok hrun
  have hwaits := run_waits hrun
  obtain ⟨c, hclient, hwatched⟩ := hwaits.watched x hx k hk
  have haccept : c.accept = .ended := hwatched.accept.elim id fun hin => hsetups k hin c hclient
  have hgone : c.registered = false := by
    by_contra hthere
    rw [Bool.not_eq_false] at hthere
    obtain ⟨j, hj, call, hcall, rfl, hown⟩ := hwatched.session hthere
    obtain ⟨c', hclient', hfinished⟩ := hwaits.called call (List.mem_of_getElem? hcall) hown
      (hcalls j hj call hcall)
    rw [hclient] at hclient'
    cases hclient'
    rw [Client.registered, hfinished] at hthere
    cases hthere
  refine ⟨fun hin => ?_, c, hclient, haccept, ?_⟩
  · rw [hok.registered_iff hclient, hgone] at hin
    cases hin
  · exact (hok.counted c (List.mem_of_getElem? hclient)).settled haccept hgone

theorem stop_settles_settling : ∃ s, Runs.exec step {} settling = some s ∧ ∀ k < 2, k ∉ s.sessions ∧
    ∃ c, s.clients[k]? = some c ∧ c.accept = .ended ∧ c.disconnects = c.connects := by
  have hany : (Runs.exec step {} settling).any
      (fun s => s.stops = [{ accepted := 2, calls := [0], setups := [1] }] ∧
        s.calls = [{ client := 0, own := false, phase := .ended }] ∧
        s.clients[1]?.all fun c => c.accept = .ended) = true := by decide +kernel
  obtain ⟨s, hrun, hended⟩ := (Option.any_eq_true _ _).mp hany
  obtain ⟨hstops, hcalls, haccept⟩ := of_decide_eq_true hended
  have hin : { accepted := 2, calls := [0], setups := [1] } ∈ s.stops := by
    rw [hstops]
    exact List.mem_singleton_self _
  refine ⟨s, hrun, stop_settles hrun hin (fun j hj call hcall => ?_) (fun k hk c hclient => ?_)⟩
  · cases List.mem_singleton.mp hj
    rw [hcalls] at hcall
    cases hcall
    rfl
  · cases List.mem_singleton.mp hk
    rw [hclient] at haccept
    exact of_decide_eq_true haccept

end TciServer

end Rigplane.Tci
