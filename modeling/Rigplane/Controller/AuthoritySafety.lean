import Rigplane.Controller.Authority

/-!
# Runs of the controller authority

`Ok` is what every operation keeps, whatever tickets it is called with.  Sessions that are live and
sessions that have ended have different owners, a session has one primary ticket at most, and a
watchdog runs while a session is live.
-/

namespace Rigplane.Controller

namespace ControllerAuthority

variable {c : Config} {s s' : ControllerAuthority} {owner owner' : String} {session : Session}
  {current : Option Nat} {owners : List String}

/-! ## Ends of sessions -/

theorem endSession_none (h : s.sessions.get? owner = none) : s.endSession current owner = s := by
  rw [endSession, h]

/-- What the end of a session leaves; the watchdog may go with the last one. -/
theorem endSession_some (h : s.sessions.get? owner = some session) :
    ∃ sessionWatchdog watchdogs, s.endSession current owner =
      { s with
        sessions := s.sessions.erase owner
        sessionWatchdog
        watchdogs
        registrations := (s.closeAll session.channels.values).registrations
        ended := owner :: s.ended
        releases := owner :: s.releases } ∧
      ((s.sessions.erase owner).items ≠ [] →
        sessionWatchdog = s.sessionWatchdog ∧ watchdogs = s.watchdogs) := by
  rw [endSession, h]
  simp only [stopWatchdog]
  split
  · rename_i w hw
    split
    · rename_i hlast
      exact ⟨none, s.watchdogs.set w .cancelled, rfl,
        fun hne => absurd (List.isEmpty_iff.mp hlast.1) hne⟩
    · exact ⟨s.sessionWatchdog, s.watchdogs, rfl, fun _ => ⟨rfl, rfl⟩⟩
  · exact ⟨s.sessionWatchdog, s.watchdogs, rfl, fun _ => ⟨rfl, rfl⟩⟩

theorem endSession_get? : (s.endSession current owner).sessions.get? owner' =
    if owner' = owner then none else s.sessions.get? owner' := by
  cases h : s.sessions.get? owner with
  | none =>
      rw [endSession_none h]
      split
      · rename_i heq
        rw [heq, h]
      · rfl
  | some session =>
      obtain ⟨w, ws, heq, -⟩ := @endSession_some s owner session current h
      rw [heq]
      exact Dict.get?_erase _ _ _

/-- What each end of a session keeps, their sequence keeps. -/
theorem endSessions_keeps {I : ControllerAuthority → Prop}
    (h : ∀ s owner, I s → I (s.endSession current owner)) (hs : I s) :
    I (s.endSessions current owners) := by
  induction owners generalizing s with
  | nil => exact hs
  | cons owner owners ih => exact ih (h s owner hs)

theorem endSessions_get? : (s.endSessions current owners).sessions.get? owner' =
    if owner' ∈ owners then none else s.sessions.get? owner' := by
  induction owners generalizing s with
  | nil => rfl
  | cons owner owners ih =>
      rw [endSessions, List.foldl_cons]
      refine (ih (s := s.endSession current owner)).trans ?_
      rw [endSession_get?]
      by_cases hmem : owner' ∈ owners
      · rw [if_pos hmem, if_pos (List.mem_cons_of_mem _ hmem)]
      · rw [if_neg hmem]
        by_cases heq : owner' = owner
        · rw [if_pos heq, if_pos (heq ▸ List.mem_cons_self)]
        · rw [if_neg heq, if_neg]
          rintro (_ | ⟨_, hmem'⟩)
          · exact heq rfl
          · exact hmem hmem'

/-! ## The invariant -/

/-- The owner came from the source of tokens. -/
def Drawn (c : Config) (s : ControllerAuthority) (owner : String) : Prop :=
  ∃ n < s.tokens, owner = c.owner n

/-- A ticket is the primary of a session. -/
def Heads (owner : String) (ticket : Ticket) : Bool :=
  decide (ticket.primary = true ∧ ticket.txOwner = some owner)

structure Ok (c : Config) (s : ControllerAuthority) : Prop where
  live : ∀ owner session, s.sessions.get? owner = some session → s.Drawn c owner
  ended : ∀ owner ∈ s.ended, s.Drawn c owner ∧ s.sessions.get? owner = none
  endedOnce : s.ended.Nodup
  releases : s.releases = s.ended
  tickets : ∀ ticket ∈ s.tickets, ∀ owner ∈ ticket.txOwner, s.Drawn c owner
  onePrimary : ∀ owner, s.tickets.countP (Heads owner) ≤ 1
  noPrimary : ∀ owner session, s.sessions.get? owner = some session → session.primary = none →
    s.tickets.countP (Heads owner) = 0
  cap : ∀ client : String, s.held (some client) ≤ c.maxSessionsPerClient
  watchdog : ∀ owner session, s.sessions.get? owner = some session →
    ∃ w, s.sessionWatchdog = some w ∧ s.watchdogs[w]? = some .running
  /-- The sessions are those of the local mode, the grant that of the remote one. -/
  exclusive : s.mode = .remote → ∀ owner, s.sessions.get? owner = none
  granted : s.key.isSome → s.mode = .remote ∧ s.state = .held ∧ s.takingBack = false
  primary : s.primary.isSome → s.key.isSome
  revoking : s.revocation.isSome → s.mode = .remote ∧ s.state = .revoking

theorem Ok.initial : ({} : ControllerAuthority).Ok c where
  live _ _ h := by cases h
  ended _ h := by cases h
  endedOnce := List.nodup_nil
  releases := rfl
  tickets _ h := by cases h
  onePrimary _ := Nat.zero_le _
  noPrimary _ _ h := by cases h
  cap _ := Nat.zero_le _
  watchdog _ _ h := by cases h
  exclusive h := by cases h
  granted h := by cases h
  primary h := by cases h
  revoking h := by cases h

theorem held_erase_le (d : Dict String Session) (owner client : String) :
    (d.erase owner).values.countP (fun session => session.client = some client) ≤
      d.values.countP (fun session => session.client = some client) :=
  List.Sublist.countP_le (List.filter_sublist.map _)

theorem Ok.endSession (h : s.Ok c) (current : Option Nat) (owner : String) :
    (s.endSession current owner).Ok c := by
  cases hget : s.sessions.get? owner with
  | none =>
      rw [endSession_none hget]
      exact h
  | some session =>
      have hsub : ∀ {o x}, (s.endSession current owner).sessions.get? o = some x →
          o ≠ owner ∧ s.sessions.get? o = some x := by
        intro o x hx
        rw [endSession_get?] at hx
        split at hx
        · cases hx
        · exact ⟨by assumption, hx⟩
      obtain ⟨w, ws, heq, hwatchdog⟩ := @endSession_some s owner session current hget
      rw [heq] at hsub ⊢
      constructor
      · exact fun o x hx => h.live o x (hsub hx).2
      · intro o ho
        rcases List.mem_cons.mp ho with rfl | ho
        · refine ⟨h.live o session hget, ?_⟩
          exact (Dict.get?_erase _ _ _).trans (if_pos rfl)
        · refine ⟨(h.ended o ho).1, ?_⟩
          rw [← Option.not_isSome_iff_eq_none, Option.isSome_iff_exists]
          rintro ⟨x, hx⟩
          have hnone := (h.ended o ho).2
          rw [(hsub hx).2] at hnone
          cases hnone
      · refine List.nodup_cons.mpr ⟨fun hmem => ?_, h.endedOnce⟩
        have hnone := (h.ended owner hmem).2
        rw [hget] at hnone
        cases hnone
      · exact congrArg (owner :: ·) h.releases
      · exact h.tickets
      · exact h.onePrimary
      · exact fun o x hx => h.noPrimary o x (hsub hx).2
      · exact fun client => (held_erase_le _ _ _).trans (h.cap client)
      · intro o x hx
        have hne : (s.sessions.erase owner).items ≠ [] :=
          List.ne_nil_of_mem (Dict.mem_items.mpr hx)
        obtain ⟨hw, hws⟩ := hwatchdog hne
        obtain ⟨v, hv, hrunning⟩ := h.watchdog o x (hsub hx).2
        refine ⟨v, hw.trans hv, ?_⟩
        show ws[v]? = _
        rw [hws]
        exact hrunning
      · intro hmode o
        rw [← Option.not_isSome_iff_eq_none, Option.isSome_iff_exists]
        rintro ⟨x, hx⟩
        have hnone := h.exclusive hmode o
        rw [(hsub hx).2] at hnone
        cases hnone
      · exact h.granted
      · exact h.primary
      · exact h.revoking

theorem Ok.endSessions (h : s.Ok c) (current : Option Nat) (owners : List String) :
    (s.endSessions current owners).Ok c :=
  endSessions_keeps (fun _ owner hs => hs.endSession current owner) h

/-- Without sessions the mode may change. -/
theorem Ok.remode (h : s.Ok c) {mode : Mode} {generation : Nat} {state : GrantState}
    (hkey : s.key = none) (hrevocation : s.revocation = none)
    (hempty : mode = .remote → ∀ owner, s.sessions.get? owner = none) (takingBack : Bool) :
    ({ s with mode, generation, state, takingBack } : ControllerAuthority).Ok c :=
  { h with
    exclusive := hempty
    granted := fun hsome => by
      rw [hkey] at hsome
      cases hsome
    revoking := fun hsome => by
      rw [hrevocation] at hsome
      cases hsome }

theorem Ok.revoke (h : s.Ok c) (current : Option Nat) : (s.revoke current).Ok c := by
  rw [ControllerAuthority.revoke]
  split
  · have hnext : ({ s with generation := s.generation + 1 } :
      ControllerAuthority).Ok c := { h with }
    exact hnext.endSessions current s.sessions.keys
  split
  · exact h
  split
  · exact h
  · rename_i hremote _ _
    exact { h with
      granted := fun hsome => by cases hsome
      primary := fun hsome => by cases hsome
      revoking := fun _ => ⟨hremote, rfl⟩ }

theorem Ok.expire (h : s.Ok c) (current : Option Nat) : (s.expire current).Ok c := by
  rw [ControllerAuthority.expire]
  split
  · exact (h.revoke current).endSessions current _
  · exact h.endSessions current _

theorem modify_get? {f : Session → Session} : (s.modify owner f).sessions.get? owner' =
    if owner' = owner then (s.sessions.get? owner).map f else s.sessions.get? owner' := by
  rw [modify]
  cases h : s.sessions.get? owner with
  | none =>
      simp only [Option.map_none]
      split
      · rename_i heq
        rw [heq, h]
      · rfl
  | some session =>
      simp only [Option.map_some]
      exact Dict.get?_set _ _ _ _

/-- Changed sessions that have changed neither their primary nor their client. -/
theorem Ok.modify (h : s.Ok c) (owner : String) {f : Session → Session}
    (hprimary : ∀ x, (f x).primary = x.primary) (hclient : ∀ x, (f x).client = x.client) :
    (s.modify owner f).Ok c := by
  cases hget : s.sessions.get? owner with
  | none =>
      rw [ControllerAuthority.modify, hget]
      exact h
  | some session =>
      have hmod : ∀ {o x}, (s.modify owner f).sessions.get? o = some x →
          ∃ y, s.sessions.get? o = some y ∧ x.primary = y.primary := by
        intro o x hx
        rw [modify_get?] at hx
        split at hx
        · rename_i heq
          subst heq
          rw [hget] at hx
          cases hx
          exact ⟨session, hget, hprimary session⟩
        · exact ⟨x, hx, rfl⟩
      have hnone : ∀ {o}, s.sessions.get? o = none → (s.modify owner f).sessions.get? o = none := by
        intro o ho
        rw [← Option.not_isSome_iff_eq_none, Option.isSome_iff_exists]
        rintro ⟨x, hx⟩
        obtain ⟨y, hy, -⟩ := hmod hx
        rw [ho] at hy
        cases hy
      rw [ControllerAuthority.modify, hget] at hmod hnone ⊢
      exact { h with
        live := fun o x hx => by
          obtain ⟨y, hy, -⟩ := hmod hx
          exact h.live o y hy
        ended := fun o ho => ⟨(h.ended o ho).1, hnone (h.ended o ho).2⟩
        noPrimary := fun o x hx hnone => by
          obtain ⟨y, hy, heq⟩ := hmod hx
          exact h.noPrimary o y hy (heq ▸ hnone)
        cap := fun client => by
          have hcount := @Dict.countP_values_set _ _ _ s.sessions owner session (f session)
            (fun x => decide (x.client = some client)) hget (by rw [hclient])
          exact hcount.le.trans (h.cap client)
        watchdog := fun o x hx => by
          obtain ⟨y, hy, -⟩ := hmod hx
          exact h.watchdog o y hy
        exclusive := fun hmode o => hnone (h.exclusive hmode o) }

/-! ## Operations -/

/-- A new session, of a client below its cap. -/
theorem Ok.opened (hinj : Function.Injective c.owner) (h : s.Ok c) {client : Option String}
    (hmode : s.mode = .localMode) (hcap : client.isSome → s.held client < c.maxSessionsPerClient) :
    (s.opened c client).Ok c := by
  have hfresh : ∀ {o}, s.Drawn c o → o ≠ c.owner s.tokens := by
    rintro o ⟨n, hn, rfl⟩ heq
    exact absurd (hinj heq) hn.ne
  have hdrawn : ∀ {o}, s.Drawn c o → ∃ n < s.tokens + 1, o = c.owner n := by
    rintro o ⟨n, hn, rfl⟩
    exact ⟨n, Nat.lt_succ_of_lt hn, rfl⟩
  have hnone : s.sessions.get? (c.owner s.tokens) = none := by
    rw [← Option.not_isSome_iff_eq_none, Option.isSome_iff_exists]
    rintro ⟨x, hx⟩
    exact hfresh (h.live _ x hx) rfl
  generalize hnew :
      ({ key := c.key s.tokens, deadline := s.clock + (ttlMs : Time) / 1000, client } :
    Session) = new
  have hget : ∀ {o x}, (s.sessions.set (c.owner s.tokens) new).get? o = some x →
      o = c.owner s.tokens ∧ x = new ∨ s.sessions.get? o = some x := by
    intro o x hx
    rw [Dict.get?_set] at hx
    split at hx
    · rename_i heq
      exact .inl ⟨heq, (Option.some.inj hx).symm⟩
    · exact .inr hx
  -- All but the watchdog.
  have hopened : ∀ w ws, (∀ o x, (s.sessions.set (c.owner s.tokens) new).get? o = some x →
      ∃ v, w = some v ∧ ws[v]? = some TaskState.running) →
      ({ s with
        sessions := s.sessions.set (c.owner s.tokens) new, tokens := s.tokens + 1
        sessionWatchdog := w, watchdogs := ws } : ControllerAuthority).Ok c := by
    intro w ws hwatchdog
    constructor
    · intro o x hx
      rcases hget hx with ⟨rfl, -⟩ | hx
      · exact ⟨s.tokens, Nat.lt_succ_self _, rfl⟩
      · exact hdrawn (h.live o x hx)
    · intro o ho
      obtain ⟨hold, habsent⟩ := h.ended o ho
      refine ⟨hdrawn hold, ?_⟩
      exact (Dict.get?_set_ne _ _ (hfresh hold)).trans habsent
    · exact h.endedOnce
    · exact h.releases
    · exact fun ticket hticket o ho => hdrawn (h.tickets ticket hticket o ho)
    · exact h.onePrimary
    · intro o x hx hprimary
      rcases hget hx with ⟨rfl, -⟩ | hx
      · refine List.countP_eq_zero.mpr fun ticket hticket hheads => ?_
        exact hfresh (h.tickets ticket hticket _ (of_decide_eq_true hheads).2) rfl
      · exact h.noPrimary o x hx hprimary
    · intro x
      show (s.sessions.set (c.owner s.tokens) new).values.countP _ ≤ _
      rw [Dict.values_set_of_none hnone, List.countP_append, List.countP_singleton]
      split
      · rename_i heq
        have hclient : client = some x := by
          rw [← hnew] at heq
          exact of_decide_eq_true heq
        subst hclient
        exact Nat.succ_le_of_lt (hcap rfl)
      · exact h.cap x
    · exact hwatchdog
    · intro hremote
      rw [hmode] at hremote
      cases hremote
    · exact h.granted
    · exact h.primary
    · exact h.revoking
  rw [ControllerAuthority.opened]
  simp only [hnew]
  split
  · rename_i hrunning
    obtain ⟨w, hw, hrun⟩ := (Option.any_eq_true _ _).mp hrunning
    exact hopened _ _ fun _ _ _ => ⟨w, hw, of_decide_eq_true hrun⟩
  · exact hopened _ _ fun _ _ _ => ⟨_, rfl, List.getElem?_concat_length⟩

theorem Ok.grant (h : s.Ok c) (hmode : s.mode ≠ .localMode) (hfree : ¬ s.takingBack)
    (hstate : s.state ≠ .revoking) : (s.granted c).Ok c := by
  have hremote : s.mode = .remote := by
    cases hm : s.mode with
    | localMode => exact absurd hm hmode
    | remote => rfl
  have hdrawn : ∀ {o}, s.Drawn c o → ∃ n < s.tokens + 1, o = c.owner n := by
    rintro o ⟨n, hn, rfl⟩
    exact ⟨n, Nat.lt_succ_of_lt hn, rfl⟩
  exact { h with
    live := fun o x hx => hdrawn (h.live o x hx)
    ended := fun o ho => ⟨hdrawn (h.ended o ho).1, (h.ended o ho).2⟩
    tickets := fun ticket hticket o ho => hdrawn (h.tickets ticket hticket o ho)
    granted := fun _ => ⟨hremote, rfl, Bool.eq_false_of_not_eq_true hfree⟩
    primary := fun _ => rfl
    revoking := fun hsome => absurd (h.revoking hsome).2 hstate }

/-- A ticket of a live session, and its primary only where there is none. -/
theorem Ok.attached (h : s.Ok c) {ticket : Ticket}
    (hlive : ∀ owner ∈ ticket.txOwner, ∃ session, s.sessions.get? owner = some session ∧
      (ticket.primary = true → session.primary = none))
    (hgrant : ticket.txOwner = none → s.key.isSome) : (s.attached ticket).Ok c := by
  have hheads : ∀ o, ticket.primary = true → ticket.txOwner = some o →
    s.tickets.countP (Heads o) = 0 := by
    intro o hprimary howner
    obtain ⟨session, hget, hnone⟩ := hlive o howner
    exact h.noPrimary o session hget (hnone hprimary)
  have hcount : ∀ o, (s.tickets ++ [ticket]).countP (Heads o) =
      s.tickets.countP (Heads o) + if Heads o ticket = true then 1 else 0 := by
    intro o
    rw [List.countP_append, List.countP_singleton]
  -- With the ticket, but not yet as the primary.
  have htickets : ∀ t ∈ s.tickets ++ [ticket], ∀ o ∈ t.txOwner, s.Drawn c o := by
    intro t ht o ho
    rcases List.mem_append.mp ht with ht | ht
    · exact h.tickets t ht o ho
    · rw [List.mem_singleton.mp ht] at ho
      obtain ⟨session, hget, -⟩ := hlive o ho
      exact h.live o session hget
  have hone : ∀ o, (s.tickets ++ [ticket]).countP (Heads o) ≤ 1 := by
    intro o
    rw [hcount]
    split
    · rename_i hhead
      obtain ⟨hprimary, howner⟩ := of_decide_eq_true hhead
      rw [hheads o hprimary howner]
    · exact h.onePrimary o
  rw [ControllerAuthority.attached]
  split
  · rename_i hprimary
    split
    · rename_i hnone
      exact { h with
        tickets := htickets
        onePrimary := hone
        noPrimary := fun o x hx hprim => by
          rw [hcount, h.noPrimary o x hx hprim, if_neg]
          intro hhead
          have howner := (of_decide_eq_true hhead).2
          rw [hnone] at howner
          cases howner
        primary := fun _ => hgrant hnone }
    · rename_i o howner
      obtain ⟨session, hget, hnone⟩ := hlive o howner
      have hset : ∀ {o' x},
          (s.sessions.set o { session with primary := some s.tickets.length }).get? o' =
          some x → (o' = o ∧ x.primary ≠ none) ∨ o' ≠ o ∧ s.sessions.get? o' = some x := by
        intro o' x hx
        rw [Dict.get?_set] at hx
        split at hx
        · rename_i heq
          cases hx
          exact .inl ⟨heq, nofun⟩
        · rename_i hne
          exact .inr ⟨hne, hx⟩
      have hnone : ∀ {o'}, s.sessions.get? o' = none →
          (s.sessions.set o { session with primary := some s.tickets.length }).get? o' = none := by
        intro o' ho'
        rw [Dict.get?_set_ne _ _ ?_]
        · exact ho'
        · rintro rfl
          rw [hget] at ho'
          cases ho'
      rw [ControllerAuthority.modify]
      simp only [hget]
      constructor
      · intro o' x hx
        rcases hset hx with ⟨rfl, -⟩ | ⟨-, hx⟩
        · exact h.live o' session hget
        · exact h.live o' x hx
      · exact fun o' ho' => ⟨(h.ended o' ho').1, hnone (h.ended o' ho').2⟩
      · exact h.endedOnce
      · exact h.releases
      · exact htickets
      · exact hone
      · intro o' x hx hprim
        rcases hset hx with ⟨-, hsome⟩ | ⟨hne, hx⟩
        · exact absurd hprim hsome
        · show (s.tickets ++ [ticket]).countP (Heads o') = 0
          rw [hcount, h.noPrimary o' x hx hprim, if_neg]
          intro hhead
          have howner' := (of_decide_eq_true hhead).2
          rw [howner] at howner'
          exact hne (Option.some.inj howner').symm
      · intro client
        have hcount := @Dict.countP_values_set _ _ _ s.sessions o session
          { session with primary := some s.tickets.length }
          (fun x => decide (x.client = some client)) hget rfl
        exact hcount.le.trans (h.cap client)
      · intro o' x hx
        rcases hset hx with ⟨rfl, -⟩ | ⟨-, hx⟩
        · exact h.watchdog o' session hget
        · exact h.watchdog o' x hx
      · exact fun hmode o' => hnone (h.exclusive hmode o')
      · exact h.granted
      · exact h.primary
      · exact h.revoking
  · rename_i hprimary
    exact { h with
      tickets := htickets
      onePrimary := hone
      noPrimary := fun o x hx hprim => by
        rw [hcount, h.noPrimary o x hx hprim, if_neg]
        exact fun hhead => hprimary (of_decide_eq_true hhead).1 }

/-! ## What an operation does -/

theorem acquire_cases (kind : String) (client : Option String) (ready : Bool) :
    (acquire c kind client ready s).2 = s.expire ∨
    (s.expire.mode = .localMode ∧
      (client.isSome → s.expire.held client < c.maxSessionsPerClient) ∧
      (acquire c kind client ready s).2 = s.expire.opened c client) ∨
    s.expire.mode ≠ .localMode ∧ ¬ s.expire.takingBack ∧ s.expire.state ≠ .revoking ∧
      (acquire c kind client ready s).2 = s.expire.granted c := by
  have hopen : ∀ m : ControllerAuthority, (openSession c client m).2 = m ∨
      (client.isSome → m.held client < c.maxSessionsPerClient) ∧
        (openSession c client m).2 = m.opened c client := by
    intro m
    rw [openSession, Program.read_bind, Program.ite_run]
    split
    · exact .inl rfl
    · rename_i hbelow
      refine .inr ⟨fun hsome => ?_, rfl⟩
      exact not_le.mp fun hle => hbelow ⟨hsome, hle⟩
  rw [acquire, Program.update_bind, Program.read_bind]
  simp only [Program.ite_run]
  split
  · exact .inl rfl
  split
  · rename_i hmode
    rcases hopen s.expire with heq | ⟨hbelow, heq⟩
    · exact .inl heq
    · exact .inr (.inl ⟨hmode, hbelow, heq⟩)
  split
  · exact .inl rfl
  split
  · exact .inl rfl
  · rename_i hmode hfree _
    exact .inr (.inr ⟨hmode, fun htaking => hfree (.inl htaking),
      fun hrevoking => hfree (.inr (.inr hrevoking)), rfl⟩)

/-- The session that a key names. -/
theorem ownerOf_some {key : String} (h : s.ownerOf key = some owner) :
    ∃ session, s.sessions.get? owner = some session ∧ session.key = key := by
  rw [ownerOf, Option.map_eq_some_iff] at h
  obtain ⟨⟨o, session⟩, hfind, rfl⟩ := h
  refine ⟨session, Dict.mem_items.mp (List.mem_of_find?_eq_some hfind), ?_⟩
  have hkey := List.find?_some hfind
  exact of_decide_eq_true hkey

/-- `credential` returns a grant of the state after its expiries, or raises. -/
theorem credential_cases (key : String) : (∃ error, credential key s = (.error error, s.expire)) ∨
    ∃ grant, credential key s = (.ok grant, s.expire) ∧
      ((∃ owner session, grant.txOwner = some owner ∧ s.expire.sessions.get? owner = some session ∧
        session.key = key) ∨ grant.txOwner = none ∧ s.expire.key.isSome) := by
  rw [credential, Program.update_bind, Program.read_bind]
  simp only [Program.ite_run]
  split
  · exact .inl ⟨_, rfl⟩
  split
  · split
    · exact .inl ⟨_, rfl⟩
    · rename_i hsome
      cases howner : s.expire.ownerOf key with
      | none => exact absurd (congrArg Option.isNone howner) hsome
      | some owner =>
          obtain ⟨session, hget, hkey⟩ := ownerOf_some howner
          exact .inr ⟨_, rfl, .inl ⟨owner, session, howner, hget, hkey⟩⟩
  split
  · rename_i hheld
    refine .inr ⟨_, rfl, .inr ⟨rfl, ?_⟩⟩
    have hkey : s.expire.key = some key := hheld.1
    rw [hkey]
    rfl
  · exact .inl ⟨_, rfl⟩

theorem attach_cases (key role sessionId : String) :
    (attach key role sessionId s).2 = s.expire ∨
    ∃ ticket : Ticket, (attach key role sessionId s).2 = s.expire.attached ticket ∧
      (∀ owner ∈ ticket.txOwner, ∃ session, s.expire.sessions.get? owner = some session ∧
        session.key = key ∧ (ticket.primary = true → session.primary = none)) ∧
      (ticket.txOwner = none → s.expire.key.isSome) := by
  rw [attach]
  rcases credential_cases (s := s) key with ⟨error, herror⟩ | ⟨grant, hgrant, howner⟩
  · refine .inl ?_
    show (Program.bind (credential key) _ s).2 = _
    rw [Program.bind, herror]
  · show (Program.bind (credential key) _ s).2 = _ ∨
      ∃ ticket, (Program.bind (credential key) _ s).2 = _ ∧ _
    rw [Program.bind, hgrant]
    simp only [Program.read_bind, Program.ite_run]
    split
    · exact .inl rfl
    split
    · exact .inl rfl
    split
    · exact .inl rfl
    · rename_i hrole hfree hbusy
      refine .inr ⟨_, rfl, ?_, ?_⟩
      · intro owner hmem
        rcases howner with ⟨o, session, ho, hget, hkey⟩ | ⟨hnone, -⟩
        · rw [Option.mem_def, ho] at hmem
          cases hmem
          refine ⟨session, hget, hkey, fun hprimary => ?_⟩
          have hfree : ¬ (s.expire.primaryOf grant.txOwner).isSome := fun hsome =>
            hbusy ⟨of_decide_eq_true hprimary, hsome⟩
          rw [ho, primaryOf, hget] at hfree
          exact Option.not_isSome_iff_eq_none.mp hfree
        · rw [Option.mem_def, hnone] at hmem
          cases hmem
      · intro hnone
        rcases howner with ⟨o, session, ho, -⟩ | ⟨-, hsome⟩
        · rw [ho] at hnone
          cases hnone
        · exact hsome

/-- A ticket that `validate` lets pass is valid after the expiries. -/
theorem validate_cases (ticket : Ticket) :
    (∃ error, validate ticket s = (.error error, s.expire)) ∨
      validate ticket s = (.ok (), s.expire) ∧ s.expire.Valid ticket := by
  rw [validate, Program.update_bind, Program.read_bind, Program.ite_run]
  split
  · rename_i hvalid
    exact .inr ⟨rfl, hvalid⟩
  · exact .inl ⟨_, rfl⟩

/-- The deadline that a heartbeat sets. -/
def beat (s : ControllerAuthority) (owner : Option String) : ControllerAuthority :=
  match owner with
  | none => { s with deadline := s.clock + (ttlMs : Time) / 1000 }
  | some owner =>
      s.modify owner fun session => { session with deadline := s.clock + (ttlMs : Time) / 1000 }

theorem heartbeat_cases (handle : Handle) (ticket : Ticket) :
    (∃ error, heartbeat handle ticket s = (.error error, s.expire)) ∨
      heartbeat handle ticket s = (.ok (), s.expire.beat ticket.txOwner) ∧
        s.expire.Valid ticket := by
  show (∃ error, Program.bind (validate ticket) _ s = _) ∨
    Program.bind (validate ticket) _ s = _ ∧ _
  rcases validate_cases (s := s) ticket with ⟨error, herror⟩ | ⟨hok, hvalid⟩
  · rw [Program.bind, herror]
    exact .inl ⟨error, rfl⟩
  · rw [Program.bind, hok]
    simp only [Program.read_bind, Program.ite_run]
    split
    · exact .inl ⟨_, rfl⟩
    · refine .inr ⟨?_, hvalid⟩
      show (Except.ok (), _) = _
      cases ticket.txOwner <;> rfl

theorem addChannel_cases (handle : Handle) (ticket : Ticket) :
    (∃ error, addChannel handle ticket s = (.error error, s.expire)) ∨
      addChannel handle ticket s = (.ok (), s.expire.registered handle ticket) ∧
        s.expire.Valid ticket := by
  show (∃ error, Program.bind (validate ticket) _ s = _) ∨
    Program.bind (validate ticket) _ s = _ ∧ _
  rcases validate_cases (s := s) ticket with ⟨error, herror⟩ | ⟨hok, hvalid⟩
  · rw [Program.bind, herror]
    exact .inl ⟨error, rfl⟩
  · rw [Program.bind, hok]
    exact .inr ⟨rfl, hvalid⟩

theorem release_cases (key : String) : (release key s).2 = s.expire ∨
    (∃ owner session, s.expire.sessions.get? owner = some session ∧ session.key = key ∧
      (release key s).2 = s.expire.endSession none owner) ∨
    s.expire.key.isSome ∧ (release key s).2 = s.expire.revoke none := by
  show (Program.bind (credential key) _ s).2 = _ ∨ (∃ owner session, _ ∧ _ ∧
    (Program.bind (credential key) _ s).2 = _) ∨ _ ∧ (Program.bind (credential key) _ s).2 = _
  rcases credential_cases (s := s) key with ⟨error, herror⟩ | ⟨grant, hgrant, howner⟩
  · rw [Program.bind, herror]
    exact .inl rfl
  · rw [Program.bind, hgrant]
    rcases howner with ⟨o, session, ho, hget, hkey⟩ | ⟨hnone, hsome⟩
    · refine .inr (.inl ⟨o, session, hget, hkey, ?_⟩)
      simp only [Program.update, ho]
    · refine .inr (.inr ⟨hsome, ?_⟩)
      simp only [Program.update, hnone]

theorem setMode_cases (mode : String) (ready : Bool) :
    (setMode mode ready s).2 = s ∨
    (s.mode = .remote ∧ (setMode mode ready s).2 =
      { (if s.state ≠ .blocked then s.revoke none else s) with takingBack := true }) ∨
    (s.takingBack = false ∧ (s.mode = .remote → s.state = .blocked) ∧ ∃ target,
      (setMode mode ready s).2 =
        { s.endSessions none s.sessions.keys with
          generation := (s.endSessions none s.sessions.keys).generation + 1, mode := target,
            state := .idle }) := by
  rw [setMode, Program.read_bind]
  simp only [Program.ite_run]
  split
  · exact .inl rfl
  split
  · exact .inl rfl
  split
  · exact .inl rfl
  split
  · rename_i hback
    exact .inr (.inl ⟨hback.2, rfl⟩)
  split
  · exact .inl rfl
  · rename_i _ hfree hsame hback _
    refine .inr (.inr ⟨Bool.eq_false_of_not_eq_true hfree, fun hremote => ?_, _, rfl⟩)
    by_contra hne
    cases htarget : modeOf mode with
    | localMode => exact hback ⟨htarget, hremote⟩
    | remote => exact hsame ⟨htarget.trans hremote.symm, hne⟩

/-! ## Steps -/

theorem Ok.beat (h : s.Ok c) (owner : Option String) : (s.beat owner).Ok c := by
  cases owner with
  | none => exact { h with }
  | some owner => exact h.modify owner (fun _ => rfl) fun _ => rfl

theorem Ok.registered (h : s.Ok c) (handle : Handle) (ticket : Ticket) :
    (s.registered handle ticket).Ok c := by
  have hrecord : ∀ registrations, ({ s with registrations } :
    ControllerAuthority).Ok c := fun _ => { h with }
  rw [ControllerAuthority.registered.eq_def]
  simp only
  split
  · exact { h with }
  split
  · rename_i owner _ _ session hget
    have hmodified := (hrecord (s.registrations ++
      [({ handle, ticket } : Registration)])).modify owner
      (f := fun session =>
        { session with channels := session.channels.set ticket s.registrations.length })
      (fun _ => rfl) fun _ => rfl
    rw [ControllerAuthority.modify] at hmodified
    simp only [hget] at hmodified
    exact hmodified
  · exact h

theorem Ok.detach (h : s.Ok c) (handle : Handle) (ticket : Ticket) :
    (s.detach handle ticket).Ok c := by
  have hchannels : ∀ channels registrations,
      ({ s with channels, registrations } : ControllerAuthority).Ok c := fun _ _ => { h with }
  rw [ControllerAuthority.detach]
  split
  · rename_i owner _
    split
    · have hdetached :
          ({ s with channels := s.channels.erase ticket }.detaches handle owner).Ok c :=
        hchannels _ _
      have hmodified := hdetached.modify owner
        (f := fun session => { session with channels := session.channels.erase ticket })
        (fun _ => rfl) fun _ => rfl
      split
      · exact hmodified.endSession none owner
      · exact hmodified
    · exact hchannels _ _
  · split
    · exact (hchannels _ _).revoke none
    · exact hchannels _ _

theorem Ok.revoke_key (h : s.Ok c) (hmode : s.mode = .remote) : (s.revoke current).key = none := by
  have hunheld : s.state ≠ .held → s.key = none := by
    intro hne
    by_contra hsome
    exact hne (h.granted (Option.isSome_iff_ne_none.mpr hsome)).2.1
  rw [ControllerAuthority.revoke]
  split
  · rename_i hlocal
    rw [hmode] at hlocal
    cases hlocal
  split
  · rename_i hrevoking
    refine hunheld fun hheld => ?_
    rw [hrevoking] at hheld
    cases hheld
  split
  · rename_i hidle
    exact hidle.2
  · rfl

/-- Nothing is live after all sessions have ended. -/
theorem endSessions_keys (owner : String) :
    (s.endSessions current s.sessions.keys).sessions.get? owner = none := by
  rw [endSessions_get?]
  split
  · rfl
  · exact Dict.get?_eq_none.mpr (by assumption)

/-- The parts of an end of sessions that it does not touch. -/
theorem endSessions_frame : (s.endSessions current owners).key = s.key ∧
    (s.endSessions current owners).primary = s.primary ∧
    (s.endSessions current owners).takingBack = s.takingBack ∧
    (s.endSessions current owners).mode = s.mode ∧
    (s.endSessions current owners).generation = s.generation ∧
    (s.endSessions current owners).clock = s.clock ∧
    (s.endSessions current owners).tickets = s.tickets ∧
    (s.endSessions current owners).revocation = s.revocation := by
  refine endSessions_keeps (I := fun m => m.key = s.key ∧ m.primary = s.primary ∧
    m.takingBack = s.takingBack ∧ m.mode = s.mode ∧ m.generation = s.generation ∧
      m.clock = s.clock ∧
    m.tickets = s.tickets ∧ m.revocation = s.revocation) (fun m owner hm => ?_)
    ⟨rfl, rfl, rfl, rfl, rfl, rfl, rfl, rfl⟩
  cases hget : m.sessions.get? owner with
  | none =>
      rw [endSession_none hget]
      exact hm
  | some session =>
      obtain ⟨w, ws, heq, -⟩ := @endSession_some m owner session current hget
      rw [heq]
      exact hm

theorem Ok.setMode (h : s.Ok c) (mode : String) (ready : Bool) : (setMode mode ready s).2.Ok c := by
  rcases setMode_cases (s := s) mode ready with heq | ⟨hremote, heq⟩ | ⟨htaking, hblocked,
    target, heq⟩
  · rw [heq]
    exact h
  · rw [heq]
    have hkey : (if s.state ≠ .blocked then s.revoke none else s).key = none := by
      split
      · exact h.revoke_key hremote
      · rename_i hblocked
        by_contra hsome
        have hheld := (h.granted (Option.isSome_iff_ne_none.mpr hsome)).2.1
        exact hblocked fun heq => by
          rw [hheld] at heq
          cases heq
    have hok : (if s.state ≠ .blocked then s.revoke none else s).Ok c := by
      split
      · exact h.revoke none
      · exact h
    exact { hok with
      granted := fun hsome => by
        rw [hkey] at hsome
        cases hsome }
  · rw [heq]
    have hkey : s.key = none := by
      by_contra hsome
      obtain ⟨hmode, hheld, -⟩ := h.granted (Option.isSome_iff_ne_none.mpr hsome)
      rw [hblocked hmode] at hheld
      cases hheld
    have hrevocation : s.revocation = none := by
      by_contra hsome
      obtain ⟨hmode, hrevoking⟩ := h.revoking (Option.isSome_iff_ne_none.mpr hsome)
      rw [hblocked hmode] at hrevoking
      cases hrevoking
    obtain ⟨hkey', -, -, -, -, -, -, hrevocation'⟩ := @endSessions_frame s none s.sessions.keys
    exact (h.endSessions none s.sessions.keys).remode (hkey'.trans hkey)
      (hrevocation'.trans hrevocation) (fun _ => endSessions_keys) _

theorem Ok.step (hinj : Function.Injective c.owner) (h : s.Ok c) {action : Action}
    (hstep : step c s action = some s') : s'.Ok c := by
  have hexpire : s.expire.Ok c := h.expire none
  cases action with
  | acquire kind client ready =>
      cases hstep
      rcases acquire_cases (c := c) (s := s) kind client ready with
        heq | ⟨hmode, hcap, heq⟩ | ⟨hmode, hfree, hstate, heq⟩
      · rw [heq]
        exact hexpire
      · rw [heq]
        exact hexpire.opened hinj hmode hcap
      · rw [heq]
        exact hexpire.grant hmode hfree hstate
  | attach key role sessionId =>
      cases hstep
      rcases attach_cases (s := s) key role sessionId with heq | ⟨ticket, heq, hlive, hgrant⟩
      · rw [heq]
        exact hexpire
      · rw [heq]
        refine hexpire.attached (fun owner hmem => ?_) hgrant
        obtain ⟨session, hget, -, hfree⟩ := hlive owner hmem
        exact ⟨session, hget, hfree⟩
  | heartbeat handle =>
      obtain ⟨ticket, -, rfl⟩ := Option.map_eq_some_iff.mp hstep
      rcases heartbeat_cases (s := s) handle ticket with ⟨error, heq⟩ | ⟨heq, -⟩
      · rw [heq]
        exact hexpire
      · rw [heq]
        exact hexpire.beat _
  | addChannel handle =>
      obtain ⟨ticket, -, rfl⟩ := Option.map_eq_some_iff.mp hstep
      rcases addChannel_cases (s := s) handle ticket with ⟨error, heq⟩ | ⟨heq, -⟩
      · rw [heq]
        exact hexpire
      · rw [heq]
        exact hexpire.registered handle ticket
  | detach handle =>
      obtain ⟨ticket, -, rfl⟩ := Option.map_eq_some_iff.mp hstep
      exact h.detach handle ticket
  | release key =>
      cases hstep
      rcases release_cases (s := s) key with heq | ⟨owner, session, -, -, heq⟩ | ⟨-, heq⟩
      · rw [heq]
        exact hexpire
      · rw [heq]
        exact hexpire.endSession none owner
      · rw [heq]
        exact hexpire.revoke none
  | revoke =>
      cases hstep
      exact h.revoke none
  | setMode mode ready =>
      cases hstep
      exact h.setMode mode ready
  | tookBack ready =>
      rw [ControllerAuthority.step] at hstep
      split at hstep
      · rename_i hguard
        cases hstep
        have hkey : s.key = none := by
          by_contra hsome
          have hfree := (h.granted (Option.isSome_iff_ne_none.mpr hsome)).2.2
          rw [hguard.1] at hfree
          cases hfree
        rw [ControllerAuthority.tookBack.eq_def]
        split
        · have hrevocation : s.revocation = none :=
            Option.isNone_iff_eq_none.mp (hguard.2.resolve_left fun hnone => by cases hnone)
          exact { h with
            exclusive := fun hremote => by cases hremote
            granted := fun hsome => by
              rw [hkey] at hsome
              cases hsome
            revoking := fun hsome => by
              rw [hrevocation] at hsome
              cases hsome }
        · exact { h with
            granted := fun hsome => by
              rw [hkey] at hsome
              cases hsome }
      · cases hstep
  | cleanedUp safe =>
      obtain ⟨channels, hrevocation, rfl⟩ := Option.map_eq_some_iff.mp hstep
      have hrevoking := (h.revoking (Option.isSome_iff_exists.mpr ⟨channels, hrevocation⟩)).2
      exact { h with
        granted := fun hsome => by
          have hheld := (h.granted hsome).2.1
          rw [hrevoking] at hheld
          cases hheld
        revoking := fun hsome => by cases hsome }
  | status =>
      cases hstep
      exact hexpire
  | wakes w =>
      rw [ControllerAuthority.step] at hstep
      split at hstep
      · cases hstep
      · cases hstep
        have hexpired : (s.expire (some w)).Ok c := h.expire (some w)
        split
        · rename_i hempty
          have hnone : ∀ {o x}, (s.expire (some w)).sessions.get? o ≠ some x := by
            intro o x hx
            exact List.ne_nil_of_mem (Dict.mem_items.mpr hx) (List.isEmpty_iff.mp hempty)
          exact { hexpired with watchdog := fun o x hx => absurd hx hnone }
        · exact hexpired
  | advance clock =>
      rw [ControllerAuthority.step] at hstep
      split at hstep
      · cases hstep
        exact { h with }
      · cases hstep

end ControllerAuthority

end Rigplane.Controller
