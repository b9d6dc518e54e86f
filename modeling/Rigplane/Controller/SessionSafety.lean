import Rigplane.Controller.AuthoritySafety

/-!
# Channels and tickets of sessions

`Accounted` follows the channels: one that was not detached stands in its session while that is
live, and has been closed once when it has ended.  It needs that a ticket with a channel is not
registered again, and that `detach` finds the channel of the very ticket it is given: channels are
looked up by value, and two tickets of a session may be equal.

`Later` relates a state to the states after it: generations grow, and what has ended stays ended.
-/

namespace Rigplane.Controller

namespace ControllerAuthority

variable {c : Config} {s s' : ControllerAuthority} {owner owner' : String} {session : Session}
  {current : Option Nat} {owners : List String} {ticket ticket' : Ticket} {handle : Handle}

/-! ## Standing channels -/

/-- The channel under a ticket in a live session. -/
def standing (s : ControllerAuthority) (owner : String) (ticket : Ticket) : Option Nat :=
  (s.sessions.get? owner).bind fun session => session.channels.get? ticket

/-- A channel of a ticket without a session. -/
def Sessionless (s : ControllerAuthority) (n : Nat) : Prop :=
  ∃ r, s.registrations[n]? = some r ∧ r.ticket.txOwner = none

structure Accounted (s : ControllerAuthority) : Prop where
  value : ∀ (n : Nat) (r : Registration), s.registrations[n]? = some r →
    s.value r.handle = some r.ticket
  kept : ∀ owner ticket n, s.standing owner ticket = some n →
    ∃ r, s.registrations[n]? = some r ∧ r.ticket = ticket ∧ ticket.txOwner = some owner ∧
      r.detached = false ∧ r.closes = 0
  fate : ∀ (n : Nat) (r : Registration) owner, s.registrations[n]? = some r →
    r.ticket.txOwner = some owner →
    r.detached = false → s.standing owner r.ticket = some n ∨ owner ∈ s.ended ∧ r.closes = 1
  sessionless : ∀ n ∈ s.channels.values, s.Sessionless n
  revoked : ∀ channels ∈ s.revocation, ∀ n ∈ channels, s.Sessionless n

theorem Accounted.initial : ({} : ControllerAuthority).Accounted where
  value _ _ h := by cases h
  kept _ _ _ h := by cases h
  fate _ _ _ h := by cases h
  sessionless _ h := by cases h
  revoked _ h := by cases h

/-- Nothing is said of the rest of the state. -/
theorem Accounted.congr (h : s.Accounted) (hregistrations : s'.registrations = s.registrations)
    (hended : s'.ended = s.ended) (hchannels : ∀ n ∈ s'.channels.values, n ∈ s.channels.values)
    (hrevocation : ∀ channels ∈ s'.revocation, ∀ n ∈ channels, s.Sessionless n)
    (htickets : ∀ handle ticket, s.value handle = some ticket → s'.value handle = some ticket)
    (hstanding : ∀ owner ticket, s'.standing owner ticket = s.standing owner ticket) :
    s'.Accounted where
  value n r hr := by
    rw [hregistrations] at hr
    exact htickets _ _ (h.value n r hr)
  kept o t n hn := by
    rw [hstanding] at hn
    rw [hregistrations]
    exact h.kept o t n hn
  fate n r o hr ho hdetached := by
    rw [hregistrations] at hr
    rw [hstanding, hended]
    exact h.fate n r o hr ho hdetached
  sessionless n hn := by
    rw [Sessionless, hregistrations]
    exact h.sessionless n (hchannels n hn)
  revoked channels hmem n hn := by
    rw [Sessionless, hregistrations]
    exact hrevocation channels hmem n hn

theorem closeAll_get? {channels : List Nat} {n : Nat} :
    (s.closeAll channels).registrations[n]? =
      (s.registrations[n]?).map fun r => { r with closes := r.closes + channels.count n } :=
  List.getElem?_mapIdx

theorem Sessionless.closeAll {n : Nat} (h : s.Sessionless n) (channels : List Nat) :
    (s.closeAll channels).Sessionless n := by
  obtain ⟨r, hr, hnone⟩ := h
  refine ⟨{ r with closes := r.closes + channels.count n }, ?_, hnone⟩
  rw [closeAll_get?, hr]
  rfl

/-- A session has each of its channels once. -/
theorem Accounted.channels_nodup (h : s.Accounted) (hget : s.sessions.get? owner = some session) :
    session.channels.values.Nodup := by
  refine List.Nodup.map_on ?_ (List.Nodup.of_map _ session.channels.nodup)
  rintro ⟨t, n⟩ hn ⟨t', n'⟩ hn' (rfl : n = n')
  have hstanding : ∀ {t : Ticket}, (t, n) ∈ session.channels.items →
    s.standing owner t = some n := by
    intro t hmem
    rw [standing, hget]
    exact Dict.mem_items.mp hmem
  obtain ⟨r, hr, rfl, -⟩ := h.kept owner t n (hstanding hn)
  obtain ⟨r', hr', rfl, -⟩ := h.kept owner t' n (hstanding hn')
  rw [hr] at hr'
  cases hr'
  rfl

theorem standing_of_mem {n : Nat} (hget : s.sessions.get? owner = some session)
    (hn : n ∈ session.channels.values) : ∃ ticket, s.standing owner ticket = some n := by
  obtain ⟨ticket, hticket⟩ := Dict.mem_values.mp hn
  refine ⟨ticket, ?_⟩
  rw [standing, hget]
  exact hticket

theorem mem_of_standing {n : Nat} (hget : s.sessions.get? owner = some session)
    (hn : s.standing owner ticket = some n) : n ∈ session.channels.values := by
  rw [standing, hget] at hn
  exact Dict.mem_values.mpr ⟨ticket, hn⟩

theorem endSession_standing : (s.endSession current owner).standing owner' ticket =
    if owner' = owner then none else s.standing owner' ticket := by
  rw [standing, endSession_get?]
  split
  · rfl
  · rfl

/-- The channels of the session are closed once, the others stand. -/
theorem Accounted.endSession (h : s.Accounted) (current : Option Nat) (owner : String) :
    (s.endSession current owner).Accounted := by
  cases hget : s.sessions.get? owner with
  | none =>
      rw [endSession_none hget]
      exact h
  | some session =>
      have hstanding : ∀ o t, (s.endSession current owner).standing o t =
          if o = owner then none else s.standing o t := fun o t => endSession_standing
      obtain ⟨w, ws, heq, -⟩ := @endSession_some s owner session current hget
      rw [heq] at hstanding ⊢
      have hcount : ∀ {n : Nat} {r : Registration}, s.registrations[n]? = some r →
          (r.ticket.txOwner ≠ some owner ∨ r.closes ≠ 0) → session.channels.values.count n = 0 := by
        intro n r hr hother
        refine List.count_eq_zero.mpr fun hmem => ?_
        obtain ⟨t, ht⟩ := standing_of_mem hget hmem
        obtain ⟨r', hr', rfl, howner, -, hcloses⟩ := h.kept owner t n ht
        rw [hr] at hr'
        cases hr'
        exact hother.elim (fun hne => hne howner) fun hne => hne hcloses
      have hclosed : ∀ {n : Nat} {r : Registration},
        (s.closeAll session.channels.values).registrations[n]? = some r →
          ∃ r₀ : Registration, s.registrations[n]? = some r₀ ∧
            r = { r₀ with closes := r₀.closes + session.channels.values.count n } := by
        intro n r hr
        rw [closeAll_get?] at hr
        obtain ⟨r₀, hr₀, rfl⟩ := Option.map_eq_some_iff.mp hr
        exact ⟨r₀, hr₀, rfl⟩
      constructor
      · intro n r hr
        obtain ⟨r₀, hr₀, rfl⟩ := hclosed hr
        exact h.value n r₀ hr₀
      · intro o t n hn
        rw [hstanding] at hn
        split at hn
        · cases hn
        · rename_i hne
          obtain ⟨r, hr, hticket, howner, hdetached, hcloses⟩ := h.kept o t n hn
          have hzero : session.channels.values.count n = 0 := by
            refine hcount hr (.inl ?_)
            rw [hticket, howner]
            exact fun heq => hne (Option.some.inj heq)
          refine ⟨{ r with closes := r.closes + session.channels.values.count n }, ?_,
            hticket, howner,
            hdetached, ?_⟩
          · exact closeAll_get?.trans (congrArg _ hr)
          · show r.closes + _ = 0
            rw [hcloses, hzero]
      · intro n r o hr ho hdetached
        obtain ⟨r₀, hr₀, rfl⟩ := hclosed hr
        rw [hstanding]
        rcases h.fate n r₀ o hr₀ ho hdetached with hn | ⟨hmem, hcloses⟩
        · split
          · rename_i heq
            subst heq
            obtain ⟨r, hr, -, -, -, hcloses⟩ := h.kept o r₀.ticket n hn
            rw [hr₀] at hr
            cases hr
            refine .inr ⟨List.mem_cons_self, ?_⟩
            show r₀.closes + _ = 1
            rw [hcloses, List.count_eq_one_of_mem (h.channels_nodup hget) (mem_of_standing hget hn)]
          · exact .inl hn
        · refine .inr ⟨List.mem_cons_of_mem _ hmem, ?_⟩
          show r₀.closes + _ = 1
          rw [hcloses, hcount hr₀ (.inr (by simp [hcloses]))]
      · exact fun n hn => (h.sessionless n hn).closeAll _
      · exact fun channels hmem n hn => (h.revoked channels hmem n hn).closeAll _

theorem Accounted.endSessions (h : s.Accounted) (current : Option Nat) (owners : List String) :
    (s.endSessions current owners).Accounted :=
  endSessions_keeps (fun _ owner hs => hs.endSession current owner) h

theorem Accounted.revoke (h : s.Accounted) (current : Option Nat) :
    (s.revoke current).Accounted := by
  rw [ControllerAuthority.revoke]
  split
  · have hnext : ({ s with generation := s.generation + 1 } : ControllerAuthority).Accounted :=
      h.congr rfl rfl (fun _ hn => hn) h.revoked (fun _ _ hvalue => hvalue) fun _ _ => rfl
    exact hnext.endSessions current s.sessions.keys
  split
  · exact h
  split
  · exact h
  · refine h.congr rfl rfl (fun _ hn => by cases hn) ?_ (fun _ _ hvalue => hvalue) fun _ _ => rfl
    rintro channels ⟨⟩ n hn
    exact h.sessionless n hn

theorem Accounted.expire (h : s.Accounted) (current : Option Nat) :
    (s.expire current).Accounted := by
  rw [ControllerAuthority.expire]
  split
  · exact (h.revoke current).endSessions current _
  · exact h.endSessions current _

theorem modify_standing {f : Session → Session} (hf : ∀ x, (f x).channels = x.channels) :
    (s.modify owner f).standing owner' ticket = s.standing owner' ticket := by
  rw [standing, modify_get?, standing]
  split
  · rename_i heq
    rw [heq]
    cases s.sessions.get? owner with
    | none => rfl
    | some session => exact congrArg (fun d => Dict.get? d ticket) (hf session)
  · rfl

theorem modify_frame {f : Session → Session} :
    ∃ sessions, s.modify owner f = { s with sessions } := by
  rw [modify]
  split
  · exact ⟨_, rfl⟩
  · exact ⟨_, rfl⟩

/-- Changed sessions that have kept their channels. -/
theorem Accounted.modify (h : s.Accounted) (owner : String) {f : Session → Session}
    (hf : ∀ x, (f x).channels = x.channels) : (s.modify owner f).Accounted := by
  have hstanding := fun o t => @modify_standing s owner o t f hf
  obtain ⟨sessions, heq⟩ := @modify_frame s owner f
  rw [heq] at hstanding ⊢
  exact h.congr rfl rfl (fun _ hn => hn) h.revoked (fun _ _ hvalue => hvalue) hstanding

/-! ## Operations -/

theorem Accounted.opened (hinj : Function.Injective c.owner) (hok : s.Ok c) (h : s.Accounted)
    (client : Option String) : (s.opened c client).Accounted := by
  have hnone : s.sessions.get? (c.owner s.tokens) = none := by
    rw [← Option.not_isSome_iff_eq_none, Option.isSome_iff_exists]
    rintro ⟨x, hx⟩
    obtain ⟨n, hn, heq⟩ := hok.live _ x hx
    exact absurd (hinj heq) hn.ne'
  have hstanding : ∀ {m : ControllerAuthority}, m.sessions = s.sessions.set (c.owner s.tokens)
      { key := c.key s.tokens, deadline := s.clock + (ttlMs : Time) / 1000, client } →
      ∀ o t, m.standing o t = s.standing o t := by
    intro m hm o t
    rw [standing, standing, hm, Dict.get?_set]
    split
    · rename_i heq
      rw [heq, hnone]
      rfl
    · rfl
  rw [ControllerAuthority.opened]
  simp only
  split
  · exact h.congr rfl rfl (fun _ hn => hn) h.revoked (fun _ _ hvalue => hvalue) (hstanding rfl)
  · exact h.congr rfl rfl (fun _ hn => hn) h.revoked (fun _ _ hvalue => hvalue) (hstanding rfl)

theorem Accounted.attached (h : s.Accounted) (ticket : Ticket) : (s.attached ticket).Accounted := by
  have hvalue : ∀ handle t, s.value handle = some t →
      ({ s with tickets := s.tickets ++ [ticket] } : ControllerAuthority).value handle =
        some t := by
    intro handle t ht
    cases handle with
    | attached n =>
        obtain ⟨hlt, hn⟩ := List.getElem?_eq_some_iff.mp ht
        show (s.tickets ++ [ticket])[n]? = some t
        rw [List.getElem?_append_left hlt]
        exact ht
    | other t' n => exact ht
  have hmade : ∀ primary,
      ({ s with tickets := s.tickets ++ [ticket], primary } : ControllerAuthority).Accounted :=
    fun _ => h.congr rfl rfl (fun _ hn => hn) h.revoked hvalue fun _ _ => rfl
  rw [ControllerAuthority.attached]
  split
  · split
    · exact hmade _
    · exact (hmade s.primary).modify _ fun _ => rfl
  · exact hmade s.primary

theorem Accounted.beat (h : s.Accounted) (owner : Option String) : (s.beat owner).Accounted := by
  cases owner with
  | none =>
      exact h.congr rfl rfl (fun _ hn => hn) h.revoked (fun _ _ hvalue => hvalue) fun _ _ => rfl
  | some owner => exact h.modify owner fun _ => rfl

/-- A ticket that has no channel gets one. -/
theorem Accounted.registered (h : s.Accounted) (hvalue : s.value handle = some ticket)
    (hfree : ∀ owner ∈ ticket.txOwner, s.standing owner ticket = none) :
    (s.registered handle ticket).Accounted := by
  generalize hnew : ({ handle, ticket } : Registration) = new
  have hold : ∀ {n : Nat} {r : Registration}, s.registrations[n]? = some r →
    (s.registrations ++ [new])[n]? = some r := by
    intro n r hr
    obtain ⟨hlt, -⟩ := List.getElem?_eq_some_iff.mp hr
    rw [List.getElem?_append_left hlt]
    exact hr
  have hcases : ∀ {n : Nat} {r : Registration}, (s.registrations ++ [new])[n]? = some r →
      s.registrations[n]? = some r ∨ n = s.registrations.length ∧ r = new := by
    intro n r hr
    rw [List.getElem?_append] at hr
    split at hr
    · exact .inl hr
    · obtain ⟨hlt, hget⟩ := List.getElem?_eq_some_iff.mp hr
      have hzero : n = s.registrations.length := by
        have hlength : n - s.registrations.length < 1 := hlt
        omega
      subst hzero
      rw [Nat.sub_self] at hr
      exact .inr ⟨rfl, (Option.some.inj hr).symm⟩
  have hlast : (s.registrations ++ [new])[s.registrations.length]? = some new :=
    List.getElem?_concat_length
  have hsessionless : ∀ {n}, s.Sessionless n →
      ∃ r, (s.registrations ++ [new])[n]? = some r ∧ r.ticket.txOwner = none := by
    rintro n ⟨r, hr, hnone⟩
    exact ⟨r, hold hr, hnone⟩
  have hvalues : ∀ {n : Nat} {r : Registration}, (s.registrations ++ [new])[n]? = some r →
    s.value r.handle = some r.ticket := by
    intro n r hr
    rcases hcases hr with hr | ⟨-, rfl⟩
    · exact h.value n r hr
    · rw [← hnew]
      exact hvalue
  rw [ControllerAuthority.registered.eq_def]
  simp only [hnew]
  split
  · rename_i hnone
    constructor
    · exact fun n r => hvalues
    · intro o t n hn
      obtain ⟨r, hr, hrest⟩ := h.kept o t n hn
      exact ⟨r, hold hr, hrest⟩
    · intro n r o hr ho hdetached
      rcases hcases hr with hr | ⟨-, rfl⟩
      · exact h.fate n r o hr ho hdetached
      · rw [← hnew] at ho
        rw [hnone] at ho
        cases ho
    · intro n hn
      obtain ⟨t, ht⟩ := Dict.mem_values.mp hn
      rw [Dict.get?_set] at ht
      split at ht
      · cases ht
        refine ⟨new, hlast, ?_⟩
        rw [← hnew]
        exact hnone
      · exact hsessionless (h.sessionless n (Dict.mem_values.mpr ⟨t, ht⟩))
    · exact fun channels hmem n hn => hsessionless (h.revoked channels hmem n hn)
  · rename_i owner howner
    split
    · rename_i session hget
      have hstanding : ∀ {m : ControllerAuthority}, m.sessions = s.sessions.set owner
          { session with channels := session.channels.set ticket s.registrations.length } → ∀ o t,
          m.standing o t =
            if o = owner ∧ t = ticket then some s.registrations.length else s.standing o t := by
        intro m hm o t
        rw [standing, standing, hm, Dict.get?_set]
        by_cases heq : o = owner
        · subst heq
          rw [if_pos rfl, hget]
          show Dict.get? (session.channels.set _ _) _ = if _ then _ else session.channels.get? t
          rw [Dict.get?_set]
          simp only [true_and]
        · rw [if_neg heq, if_neg fun h => heq h.1]
      constructor
      · exact fun n r => hvalues
      · intro o t n hn
        rw [hstanding rfl] at hn
        split at hn
        · rename_i heq
          cases hn
          refine ⟨new, hlast, ?_⟩
          rw [heq.1, heq.2, ← hnew]
          exact ⟨rfl, howner, rfl, rfl⟩
        · obtain ⟨r, hr, hrest⟩ := h.kept o t n hn
          exact ⟨r, hold hr, hrest⟩
      · intro n r o hr ho hdetached
        rw [hstanding rfl]
        rcases hcases hr with hr | ⟨hlength, rfl⟩
        · rcases h.fate n r o hr ho hdetached with hn | hended
          · rw [if_neg]
            · exact .inl hn
            · rintro ⟨rfl, hticket⟩
              rw [hticket, hfree o howner] at hn
              cases hn
          · exact .inr hended
        · rw [← hnew] at ho ⊢
          rw [howner] at ho
          rw [if_pos ⟨(Option.some.inj ho).symm, rfl⟩, hlength]
          exact .inl rfl
      · exact fun n hn => hsessionless (h.sessionless n hn)
      · exact fun channels hmem n hn => hsessionless (h.revoked channels hmem n hn)
    · exact h

/-- In the record, the channels of this ticket. -/
def Marked (handle : Handle) (owner : String) (r : Registration) : Prop :=
  r.handle = handle ∧ r.ticket.txOwner = some owner

theorem detaches_get? {r : Registration} {n : Nat}
    (hr : (s.detaches handle owner).registrations[n]? = some r) :
    ∃ r₀, s.registrations[n]? = some r₀ ∧
      r.handle = r₀.handle ∧ r.ticket = r₀.ticket ∧ r.closes = r₀.closes ∧
      (r.detached = false → r₀.detached = false ∧ ¬ Marked handle owner r₀) := by
  rw [detaches, List.getElem?_map] at hr
  obtain ⟨r₀, hr₀, rfl⟩ := Option.map_eq_some_iff.mp hr
  refine ⟨r₀, hr₀, ?_⟩
  split
  · exact ⟨rfl, rfl, rfl, fun hfalse => by cases hfalse⟩
  · rename_i hunmarked
    exact ⟨rfl, rfl, rfl, fun hfalse => ⟨hfalse, hunmarked⟩⟩

theorem detaches_of_get? {r : Registration} {n : Nat} (hr : s.registrations[n]? = some r) :
    ∃ r', (s.detaches handle owner).registrations[n]? = some r' ∧ r'.ticket = r.ticket ∧
      (¬ Marked handle owner r → r' = r) := by
  rw [detaches, List.getElem?_map, hr]
  refine ⟨_, rfl, ?_, fun hunmarked => if_neg hunmarked⟩
  simp only
  split
  · rfl
  · rfl

/-- The channel of this ticket is detached, if the one found there is its own. -/
theorem Accounted.detach (h : s.Accounted) (hvalue : s.value handle = some ticket)
    (hown : ∀ owner ∈ ticket.txOwner, ∀ n ∈ s.standing owner ticket,
      ∃ r, s.registrations[n]? = some r ∧ r.handle = handle) :
        (s.detach handle ticket).Accounted := by
  have hchannels : ({ s with channels := s.channels.erase ticket } :
    ControllerAuthority).Accounted := by
    refine h.congr rfl rfl (fun n hn => ?_) h.revoked (fun _ _ hvalue => hvalue) fun _ _ => rfl
    obtain ⟨t, ht⟩ := Dict.mem_values.mp hn
    rw [Dict.get?_erase] at ht
    split at ht
    · cases ht
    · exact Dict.mem_values.mpr ⟨t, ht⟩
  rw [ControllerAuthority.detach]
  generalize hnext : ({ s with channels := s.channels.erase ticket } : ControllerAuthority) =
    m at hchannels ⊢
  have hvalue : m.value handle = some ticket := by
    rw [← hnext]
    exact hvalue
  have hown : ∀ owner ∈ ticket.txOwner, ∀ n ∈ m.standing owner ticket,
      ∃ r, m.registrations[n]? = some r ∧ r.handle = handle := by
    rw [← hnext]
    exact hown
  simp only
  split
  · rename_i owner howner
    split
    · rename_i session hget
      have hdetached : ((m.detaches handle owner).modify owner fun session =>
          { session with channels := session.channels.erase ticket }).Accounted := by
        have hstanding : ∀ o t, ((m.detaches handle owner).modify owner fun session =>
            { session with channels := session.channels.erase ticket }).standing o t =
              if o = owner ∧ t = ticket then none else m.standing o t := by
          intro o t
          rw [standing, standing, modify_get?]
          by_cases heq : o = owner
          · subst heq
            have hget' : (m.detaches handle o).sessions.get? o = some session := hget
            rw [if_pos rfl, hget', hget]
            show Dict.get? (session.channels.erase _) _ = if _ then _ else session.channels.get? t
            rw [Dict.get?_erase]
            simp only [true_and]
          · rw [if_neg heq, if_neg fun h => heq h.1]
            rfl
        obtain ⟨sessions, heq⟩ := @modify_frame (m.detaches handle owner) owner
          fun session => { session with channels := session.channels.erase ticket }
        rw [heq] at hstanding ⊢
        have hsessionless : ∀ {n}, m.Sessionless n → (m.detaches handle owner).Sessionless n := by
          rintro n ⟨r, hr, hnone⟩
          obtain ⟨r', hr', hticket, -⟩ := @detaches_of_get? m owner handle r n hr
          exact ⟨r', hr', hticket ▸ hnone⟩
        -- A channel that is marked was put there under this very ticket.
        have hmarked : ∀ {n : Nat} {r : Registration}, m.registrations[n]? = some r →
          Marked handle owner r →
            r.ticket = ticket := by
          rintro n r hr ⟨hhandle, -⟩
          have hsame := hchannels.value n r hr
          rw [hhandle, hvalue] at hsame
          exact (Option.some.inj hsame).symm
        constructor
        · intro n r hr
          obtain ⟨r₀, hr₀, hhandle, hticket, -⟩ := detaches_get? hr
          rw [hhandle, hticket]
          exact hchannels.value n r₀ hr₀
        · intro o t n hn
          rw [hstanding] at hn
          split at hn
          · cases hn
          · rename_i hne
            obtain ⟨r, hr, hticket, ho, hdetached, hcloses⟩ := hchannels.kept o t n hn
            obtain ⟨r', hr', -, hsame⟩ := @detaches_of_get? m owner handle r n hr
            have hunmarked : ¬ Marked handle owner r := by
              intro hmark
              have hboth := hmarked hr hmark
              rw [hticket] at hboth
              subst hboth
              rw [howner] at ho
              exact hne ⟨(Option.some.inj ho).symm, rfl⟩
            rw [hsame hunmarked] at hr'
            exact ⟨r, hr', hticket, ho, hdetached, hcloses⟩
        · intro n r o hr ho hdetached
          obtain ⟨r₀, hr₀, -, hticket, hcloses, hkept⟩ := detaches_get? hr
          obtain ⟨hdetached₀, hunmarked⟩ := hkept hdetached
          rw [hticket] at ho
          rw [hstanding, hticket, hcloses]
          rcases hchannels.fate n r₀ o hr₀ ho hdetached₀ with hn | hended
          · rw [if_neg]
            · exact .inl hn
            · rintro ⟨rfl, hsame⟩
              rw [hsame] at hn
              obtain ⟨r, hr', hhandle⟩ := hown o howner n hn
              rw [hr₀] at hr'
              cases hr'
              exact hunmarked ⟨hhandle, ho⟩
          · exact .inr hended
        · exact fun n hn => hsessionless (hchannels.sessionless n hn)
        · exact fun channels hmem n hn => hsessionless (hchannels.revoked channels hmem n hn)
      split
      · exact hdetached.endSession none owner
      · exact hdetached
    · exact hchannels
  · split
    · exact hchannels.revoke none
    · exact hchannels

/-! ## Steps -/

/-- No ticket with a channel is registered again, and a channel is detached by its own ticket. -/
def Orderly (s : ControllerAuthority) : Action → Prop
  | .addChannel handle =>
      ∀ ticket ∈ s.value handle, ∀ owner ∈ ticket.txOwner, s.standing owner ticket = none
  | .detach handle =>
      ∀ ticket ∈ s.value handle, ∀ owner ∈ ticket.txOwner, ∀ n ∈ s.standing owner ticket,
        ∃ r ∈ s.registrations[n]?, r.handle = handle
  | _ => True

instance (s : ControllerAuthority) : (action : Action) → Decidable (s.Orderly action)
  | .addChannel _ => inferInstanceAs (Decidable (∀ _ ∈ _, ∀ _ ∈ _, _ = none))
  | .detach _ => inferInstanceAs (Decidable (∀ _ ∈ _, ∀ _ ∈ _, ∀ _ ∈ _, ∃ _ ∈ _, _))
  | .acquire .. | .attach .. | .heartbeat _ | .release _ | .revoke | .setMode .. | .tookBack _
  | .cleanedUp _ | .status | .wakes _ | .advance _ => .isTrue trivial

/-- The sessions after some have ended are among those before. -/
theorem endSessions_subset (h : (s.endSessions current owners).sessions.get? owner = some session) :
    s.sessions.get? owner = some session := by
  rw [endSessions_get?] at h
  split at h
  · cases h
  · exact h

theorem revoke_subset (h : (s.revoke current).sessions.get? owner = some session) :
    s.sessions.get? owner = some session := by
  have hnext : ∀ generation, ({ s with generation } : ControllerAuthority).sessions =
    s.sessions := fun _ => rfl
  rw [revoke] at h
  split at h
  · rw [← hnext (s.generation + 1)]
    exact endSessions_subset h
  split at h
  · exact h
  split at h
  · exact h
  · exact h

theorem expire_subset (h : (s.expire current).sessions.get? owner = some session) :
    s.sessions.get? owner = some session := by
  rw [expire] at h
  have hrest := endSessions_subset h
  split at hrest
  · exact revoke_subset hrest
  · exact hrest

theorem expire_standing (h : s.standing owner ticket = none) :
    (s.expire current).standing owner ticket = none := by
  rw [standing] at h ⊢
  cases hget : (s.expire current).sessions.get? owner with
  | none => rfl
  | some session =>
      rw [expire_subset hget] at h
      exact h

theorem endSessions_value : (s.endSessions current owners).value handle = s.value handle := by
  obtain ⟨-, -, -, -, -, -, htickets, -⟩ := @endSessions_frame s current owners
  cases handle with
  | attached n => exact congrArg (·[n]?) htickets
  | other ticket n => rfl

theorem revoke_value : (s.revoke current).value handle = s.value handle := by
  rw [revoke]
  split
  · exact endSessions_value
  split
  · rfl
  split
  · rfl
  · rfl

theorem expire_value : (s.expire current).value handle = s.value handle := by
  rw [expire]
  refine endSessions_value.trans ?_
  split
  · exact revoke_value
  · rfl

theorem Accounted.setMode (h : s.Accounted) (mode : String) (ready : Bool) :
    (setMode mode ready s).2.Accounted := by
  have hrest : ∀ {m : ControllerAuthority}, m.Accounted → ∀ mode generation state takingBack,
      ({ m with mode, generation, state, takingBack } : ControllerAuthority).Accounted :=
    fun hm _ _ _ _ => hm.congr rfl rfl (fun _ hn => hn) hm.revoked
      (fun _ _ hvalue => hvalue) fun _ _ => rfl
  rcases setMode_cases (s := s) mode ready with heq | ⟨-, heq⟩ | ⟨-, -, target, heq⟩
  · rw [heq]
    exact h
  · rw [heq]
    split
    · exact hrest (h.revoke none) _ _ _ _
    · exact hrest h _ _ _ _
  · rw [heq]
    exact hrest (h.endSessions none s.sessions.keys) _ _ _ _

/-- Channels without a session are closed. -/
theorem Accounted.closeAll (h : s.Accounted) {channels : List Nat}
    (hsessionless : ∀ n ∈ channels, s.Sessionless n) : (s.closeAll channels).Accounted := by
  have hcount : ∀ {n : Nat} {r : Registration} {o}, s.registrations[n]? = some r →
      r.ticket.txOwner = some o → channels.count n = 0 := by
    intro n r o hr ho
    refine List.count_eq_zero.mpr fun hmem => ?_
    obtain ⟨r', hr', hnone⟩ := hsessionless n hmem
    rw [hr] at hr'
    cases hr'
    rw [ho] at hnone
    cases hnone
  constructor
  · intro n r hr
    rw [closeAll_get?] at hr
    obtain ⟨r₀, hr₀, rfl⟩ := Option.map_eq_some_iff.mp hr
    exact h.value n r₀ hr₀
  · intro o t n hn
    obtain ⟨r, hr, hticket, ho, hdetached, hcloses⟩ := h.kept o t n hn
    refine ⟨{ r with closes := r.closes + channels.count n }, ?_, hticket, ho, hdetached, ?_⟩
    · exact closeAll_get?.trans (congrArg _ hr)
    · show r.closes + _ = 0
      rw [hcloses, hcount hr (hticket ▸ ho)]
  · intro n r o hr ho hdetached
    rw [closeAll_get?] at hr
    obtain ⟨r₀, hr₀, rfl⟩ := Option.map_eq_some_iff.mp hr
    rcases h.fate n r₀ o hr₀ ho hdetached with hn | ⟨hmem, hcloses⟩
    · exact .inl hn
    · refine .inr ⟨hmem, ?_⟩
      show r₀.closes + _ = 1
      rw [hcloses, hcount hr₀ ho]
  · exact fun n hn => (h.sessionless n hn).closeAll _
  · exact fun channels' hmem n hn => (h.revoked channels' hmem n hn).closeAll _

theorem Accounted.step (hinj : Function.Injective c.owner) (hok : s.Ok c) (h : s.Accounted)
    {action : Action} (horderly : s.Orderly action) (hstep : step c s action = some s') :
    s'.Accounted := by
  have hexpire : s.expire.Accounted := h.expire none
  have hrest : ∀ {m : ControllerAuthority}, m.Accounted →
    ∀ mode generation state takingBack watchdogs clock,
      ({ m with mode, generation, state, takingBack, watchdogs, clock } :
        ControllerAuthority).Accounted :=
    fun hm _ _ _ _ _ _ =>
      hm.congr rfl rfl (fun _ hn => hn) hm.revoked (fun _ _ hvalue => hvalue) fun _ _ => rfl
  cases action with
  | acquire kind client ready =>
      cases hstep
      rcases acquire_cases (c := c) (s := s) kind client ready with heq | ⟨-, -, heq⟩ | ⟨-,
        -, -, heq⟩
      · rw [heq]
        exact hexpire
      · rw [heq]
        exact hexpire.opened hinj (hok.expire none) client
      · rw [heq]
        exact hexpire.congr rfl rfl (fun _ hn => hn) hexpire.revoked
          (fun _ _ hvalue => hvalue) fun _ _ => rfl
  | attach key role sessionId =>
      cases hstep
      rcases attach_cases (s := s) key role sessionId with heq | ⟨ticket, heq, -⟩
      · rw [heq]
        exact hexpire
      · rw [heq]
        exact hexpire.attached ticket
  | heartbeat handle =>
      obtain ⟨ticket, -, rfl⟩ := Option.map_eq_some_iff.mp hstep
      rcases heartbeat_cases (s := s) handle ticket with ⟨error, heq⟩ | ⟨heq, -⟩
      · rw [heq]
        exact hexpire
      · rw [heq]
        exact hexpire.beat _
  | addChannel handle =>
      obtain ⟨ticket, hvalue, rfl⟩ := Option.map_eq_some_iff.mp hstep
      rcases addChannel_cases (s := s) handle ticket with ⟨error, heq⟩ | ⟨heq, -⟩
      · rw [heq]
        exact hexpire
      · rw [heq]
        exact hexpire.registered (expire_value.trans hvalue)
          fun owner howner => expire_standing (horderly ticket hvalue owner howner)
  | detach handle =>
      obtain ⟨ticket, hvalue, rfl⟩ := Option.map_eq_some_iff.mp hstep
      exact h.detach hvalue (horderly ticket hvalue)
  | release key =>
      cases hstep
      rcases release_cases (s := s) key with heq | ⟨owner, session, -, -, heq⟩ | ⟨-, heq⟩
      · rw [heq]
        exact hexpire
      · rw [heq]
        exact hexpire.endSession none owner
      · rw [heq]
        exact hexpire.revoke none
  | revoke =>
      cases hstep
      exact h.revoke none
  | setMode mode ready =>
      cases hstep
      exact h.setMode mode ready
  | tookBack ready =>
      rw [ControllerAuthority.step] at hstep
      split at hstep
      · cases hstep
        rw [ControllerAuthority.tookBack.eq_def]
        split
        · exact hrest h _ _ _ _ _ _
        · exact hrest h _ _ _ _ _ _
      · cases hstep
  | cleanedUp safe =>
      obtain ⟨channels, hrevocation, rfl⟩ := Option.map_eq_some_iff.mp hstep
      have hclosed := h.closeAll (h.revoked channels hrevocation)
      exact hclosed.congr rfl rfl (fun _ hn => hn) (fun _ hmem => by cases hmem)
        (fun _ _ hvalue => hvalue) fun _ _ => rfl
  | status =>
      cases hstep
      exact hexpire
  | wakes w =>
      rw [ControllerAuthority.step] at hstep
      split at hstep
      · cases hstep
      · cases hstep
        split
        · exact hrest (h.expire (some w)) _ _ _ _ _ _
        · exact h.expire (some w)
  | advance clock =>
      rw [ControllerAuthority.step] at hstep
      split at hstep
      · cases hstep
        exact hrest h _ _ _ _ _ _
      · cases hstep

/-! ## Later states -/

structure Later (s s' : ControllerAuthority) : Prop where
  generation : s.generation ≤ s'.generation
  ended : ∀ owner ∈ s.ended, owner ∈ s'.ended
  /-- A session is live, with the watchdog that it had, or it has ended. -/
  lives : ∀ owner session, s.sessions.get? owner = some session →
    (∃ session', s'.sessions.get? owner = some session') ∧ s'.sessionWatchdog = s.sessionWatchdog ∨
      owner ∈ s'.ended

theorem Later.refl (s : ControllerAuthority) : Later s s where
  generation := Nat.le_refl _
  ended _ h := h
  lives _ session h := .inl ⟨⟨session, h⟩, rfl⟩

theorem Later.trans {m : ControllerAuthority} (h : Later s m) (h' : Later m s') : Later s s' where
  generation := Nat.le_trans h.generation h'.generation
  ended owner hmem := h'.ended owner (h.ended owner hmem)
  lives owner session hget := by
    rcases h.lives owner session hget with ⟨⟨session', hget'⟩, hwatchdog⟩ | hmem
    · rw [← hwatchdog]
      exact h'.lives owner session' hget'
    · exact .inr (h'.ended owner hmem)

theorem endSession_later (current : Option Nat) (owner : String) :
    Later s (s.endSession current owner) := by
  cases hget : s.sessions.get? owner with
  | none =>
      rw [endSession_none hget]
      exact Later.refl s
  | some session =>
      have hlive := fun o => @endSession_get? s owner o current
      obtain ⟨w, ws, heq, hkept⟩ := @endSession_some s owner session current hget
      rw [heq] at hlive ⊢
      refine ⟨Nat.le_refl _, fun _ hmem => List.mem_cons_of_mem _ hmem, fun o x hx => ?_⟩
      have hget' := hlive o
      split at hget'
      · rename_i hsame
        exact .inr (hsame ▸ List.mem_cons_self)
      · rw [hx] at hget'
        exact .inl ⟨⟨x, hget'⟩, (hkept (List.ne_nil_of_mem (Dict.mem_items.mpr hget'))).1⟩

theorem endSessions_later (current : Option Nat) (owners : List String) :
    Later s (s.endSessions current owners) :=
  endSessions_keeps (I := Later s) (fun _ owner hm => hm.trans (endSession_later current owner))
    (Later.refl s)

/-- Where the sessions, their watchdog and the ended ones stay, only the generation counts. -/
theorem Later.of_eq (hgeneration : s.generation ≤ s'.generation) (hended : s'.ended = s.ended)
    (hsessions : s'.sessions = s.sessions) (hwatchdog : s'.sessionWatchdog = s.sessionWatchdog) :
    Later s s' where
  generation := hgeneration
  ended _ h := hended ▸ h
  lives _ session h := .inl ⟨⟨session, hsessions ▸ h⟩, hwatchdog⟩

theorem revoke_later (current : Option Nat) : Later s (s.revoke current) := by
  rw [revoke]
  split
  · have hnext : Later s { s with generation := s.generation + 1 } := Later.of_eq
      (Nat.le_succ _) rfl rfl rfl
    exact hnext.trans (endSessions_later current s.sessions.keys)
  split
  · exact Later.refl s
  split
  · exact Later.refl s
  · exact Later.of_eq (Nat.le_succ _) rfl rfl rfl

theorem expire_later (current : Option Nat) : Later s (s.expire current) := by
  rw [expire]
  split
  · exact (revoke_later current).trans (endSessions_later current _)
  · exact endSessions_later current _

theorem modify_later {f : Session → Session} : Later s (s.modify owner f) := by
  rw [modify]
  split
  · refine ⟨Nat.le_refl _, fun _ hmem => hmem, fun o x hx => .inl ?_⟩
    rw [Dict.get?_set]
    split
    · exact ⟨⟨_, rfl⟩, rfl⟩
    · exact ⟨⟨x, hx⟩, rfl⟩
  · exact Later.refl s

theorem opened_later (h : s.Ok c) (client : Option String) : Later s (s.opened c client) := by
  rw [opened]
  have hlive : ∀ new o x, s.sessions.get? o = some x →
      ∃ x', (s.sessions.set (c.owner s.tokens) new).get? o = some x' := by
    intro new o x hx
    rw [Dict.get?_set]
    split
    · exact ⟨_, rfl⟩
    · exact ⟨x, hx⟩
  simp only
  split
  · exact ⟨Nat.le_refl _, fun _ hmem => hmem, fun o x hx => .inl ⟨hlive _ o x hx, rfl⟩⟩
  · rename_i hidle
    refine ⟨Nat.le_refl _, fun _ hmem => hmem, fun o x hx => ?_⟩
    obtain ⟨w, hw, hrunning⟩ := h.watchdog o x hx
    refine absurd ?_ hidle
    rw [hw]
    exact decide_eq_true hrunning

theorem attached_later (ticket : Ticket) : Later s (s.attached ticket) := by
  have hmade : Later s { s with tickets := s.tickets ++ [ticket] } := Later.of_eq
    (Nat.le_refl _) rfl rfl rfl
  rw [attached]
  split
  · split
    · exact Later.of_eq (Nat.le_refl _) rfl rfl rfl
    · exact hmade.trans modify_later
  · exact hmade

theorem beat_later (owner : Option String) : Later s (s.beat owner) := by
  cases owner with
  | none => exact Later.of_eq (Nat.le_refl _) rfl rfl rfl
  | some owner => exact modify_later

theorem registered_later : Later s (s.registered handle ticket) := by
  rw [registered.eq_def]
  simp only
  split
  · exact Later.of_eq (Nat.le_refl _) rfl rfl rfl
  split
  · refine ⟨Nat.le_refl _, fun _ hmem => hmem, fun o x hx => .inl ?_⟩
    rw [Dict.get?_set]
    split
    · exact ⟨⟨_, rfl⟩, rfl⟩
    · exact ⟨⟨x, hx⟩, rfl⟩
  · exact Later.refl s

theorem detach_later : Later s (s.detach handle ticket) := by
  have hchannels : ∀ channels registrations, Later s { s with channels, registrations } :=
    fun _ _ => Later.of_eq (Nat.le_refl _) rfl rfl rfl
  rw [detach]
  simp only
  split
  · rename_i owner _
    split
    · have hdetached :
          Later s ({ s with channels := s.channels.erase ticket }.detaches handle owner) :=
        hchannels _ _
      have hmodified := hdetached.trans (@modify_later _ owner
        fun session => { session with channels := session.channels.erase ticket })
      split
      · exact hmodified.trans (endSession_later none owner)
      · exact hmodified
    · exact hchannels _ _
  · split
    · exact (hchannels _ s.registrations).trans (revoke_later none)
    · exact hchannels _ _

theorem setMode_later (mode : String) (ready : Bool) : Later s (setMode mode ready s).2 := by
  rcases setMode_cases (s := s) mode ready with heq | ⟨-, heq⟩ | ⟨-, -, target, heq⟩
  · rw [heq]
    exact Later.refl s
  · rw [heq]
    split
    · exact (revoke_later none).trans (Later.of_eq (Nat.le_refl _) rfl rfl rfl)
    · exact Later.of_eq (Nat.le_refl _) rfl rfl rfl
  · rw [heq]
    exact (endSessions_later none s.sessions.keys).trans (Later.of_eq (Nat.le_succ _) rfl rfl rfl)

theorem step_later (h : s.Ok c) {action : Action} (hstep : step c s action = some s') :
    Later s s' := by
  have hexpire : Later s s.expire := expire_later none
  cases action with
  | acquire kind client ready =>
      cases hstep
      rcases acquire_cases (c := c) (s := s) kind client ready with heq | ⟨-, -, heq⟩ | ⟨-,
        -, -, heq⟩
      · rw [heq]
        exact hexpire
      · rw [heq]
        exact hexpire.trans (opened_later (h.expire none) client)
      · rw [heq]
        exact hexpire.trans (Later.of_eq (Nat.le_succ _) rfl rfl rfl)
  | attach key role sessionId =>
      cases hstep
      rcases attach_cases (s := s) key role sessionId with heq | ⟨ticket, heq, -⟩
      · rw [heq]
        exact hexpire
      · rw [heq]
        exact hexpire.trans (attached_later ticket)
  | heartbeat handle =>
      obtain ⟨ticket, -, rfl⟩ := Option.map_eq_some_iff.mp hstep
      rcases heartbeat_cases (s := s) handle ticket with ⟨error, heq⟩ | ⟨heq, -⟩
      · rw [heq]
        exact hexpire
      · rw [heq]
        exact hexpire.trans (beat_later _)
  | addChannel handle =>
      obtain ⟨ticket, -, rfl⟩ := Option.map_eq_some_iff.mp hstep
      rcases addChannel_cases (s := s) handle ticket with ⟨error, heq⟩ | ⟨heq, -⟩
      · rw [heq]
        exact hexpire
      · rw [heq]
        exact hexpire.trans registered_later
  | detach handle =>
      obtain ⟨ticket, -, rfl⟩ := Option.map_eq_some_iff.mp hstep
      exact detach_later
  | release key =>
      cases hstep
      rcases release_cases (s := s) key with heq | ⟨owner, session, -, -, heq⟩ | ⟨-, heq⟩
      · rw [heq]
        exact hexpire
      · rw [heq]
        exact hexpire.trans (endSession_later none owner)
      · rw [heq]
        exact hexpire.trans (revoke_later none)
  | revoke =>
      cases hstep
      exact revoke_later none
  | setMode mode ready =>
      cases hstep
      exact setMode_later mode ready
  | tookBack ready =>
      rw [ControllerAuthority.step] at hstep
      split at hstep
      · cases hstep
        rw [ControllerAuthority.tookBack.eq_def]
        split
        · exact Later.of_eq (Nat.le_succ _) rfl rfl rfl
        · exact Later.of_eq (Nat.le_refl _) rfl rfl rfl
      · cases hstep
  | cleanedUp safe =>
      obtain ⟨channels, -, rfl⟩ := Option.map_eq_some_iff.mp hstep
      exact Later.of_eq (Nat.le_refl _) rfl rfl rfl
  | status =>
      cases hstep
      exact hexpire
  | wakes w =>
      rw [ControllerAuthority.step] at hstep
      split at hstep
      · cases hstep
      · cases hstep
        have hexpired : Later s (s.expire (some w)) := expire_later (some w)
        split
        · exact hexpired.trans (Later.of_eq (Nat.le_refl _) rfl rfl rfl)
        · exact hexpired
  | advance clock =>
      rw [ControllerAuthority.step] at hstep
      split at hstep
      · cases hstep
        exact Later.of_eq (Nat.le_refl _) rfl rfl rfl
      · cases hstep

/-! ## Safety -/

/-- The ticket is of an earlier generation, or of a session that has ended. -/
def Stale (s : ControllerAuthority) (ticket : Ticket) : Prop :=
  ticket.generation < s.generation ∨ ∃ owner ∈ ticket.txOwner, owner ∈ s.ended

theorem Stale.later (h : s.Stale ticket) (hlater : Later s s') : s'.Stale ticket := by
  rcases h with hgeneration | ⟨owner, howner, hended⟩
  · exact .inl (Nat.lt_of_lt_of_le hgeneration hlater.generation)
  · exact .inr ⟨owner, howner, hlater.ended owner hended⟩

theorem Stale.not_valid (h : s.Stale ticket) (hok : s.Ok c) : ¬ s.Valid ticket := by
  rintro ⟨hgeneration, hrest⟩
  rcases h with hearlier | ⟨owner, howner, hended⟩
  · exact absurd hgeneration hearlier.ne
  · obtain ⟨-, hnone⟩ := hok.ended owner hended
    rcases hrest with ⟨-, -, hlive⟩ | ⟨hremote, -⟩
    · exact Dict.get?_eq_none.mp hnone (hlive owner howner)
    · rw [ticket.exclusive hremote] at howner
      cases howner

/-- A stale ticket is refused, and the expiries are all that happens. -/
theorem Stale.refused (h : s.Stale ticket) (hok : s.Ok c) (handle : Handle) :
    validate ticket s = (.error ⟨"controller_invalid", 403⟩, s.expire) ∧
    heartbeat handle ticket s = (.error ⟨"controller_invalid", 403⟩, s.expire) ∧
    addChannel handle ticket s = (.error ⟨"controller_invalid", 403⟩, s.expire) := by
  have hinvalid : ¬ s.expire.Valid ticket :=
    (h.later (expire_later none)).not_valid (hok.expire none)
  have hvalidate : validate ticket s = (.error ⟨"controller_invalid", 403⟩, s.expire) := by
    rw [validate, Program.update_bind, Program.read_bind, Program.ite_run]
    exact if_neg hinvalid
  refine ⟨hvalidate, ?_, ?_⟩
  · show Program.bind (validate ticket) _ s = _
    rw [Program.bind, hvalidate]
  · show Program.bind (validate ticket) _ s = _
    rw [Program.bind, hvalidate]

/-- The action is about this session, or about all of them. -/
def Concerns (s : ControllerAuthority) (owner : String) (session : Session) : Action → Prop
  | .attach key _ _ | .release key => session.key = key
  | .heartbeat handle | .addChannel handle | .detach handle =>
      ∃ ticket ∈ s.value handle, ticket.txOwner = some owner
  | .revoke | .setMode .. => True
  | _ => False

theorem key_none (h : s.Ok c) (hget : s.sessions.get? owner = some session) : s.key = none := by
  by_contra hsome
  have hnone := h.exclusive (h.granted (Option.isSome_iff_ne_none.mpr hsome)).1 owner
  rw [hget] at hnone
  cases hnone

theorem endSession_keeps (hne : owner ≠ owner') (hget : s.sessions.get? owner = some session) :
    (s.endSession current owner').sessions.get? owner = some session := by
  rw [endSession_get?, if_neg hne]
  exact hget

theorem modify_keeps {f : Session → Session} (hne : owner ≠ owner')
    (hget : s.sessions.get? owner = some session) :
    (s.modify owner' f).sessions.get? owner = some session := by
  rw [modify_get?, if_neg hne]
  exact hget

/-- Before its deadline a session survives the expiries. -/
theorem expire_keeps (h : s.Ok c) (hget : s.sessions.get? owner = some session)
    (hdeadline : s.clock < session.deadline) :
    (s.expire current).sessions.get? owner = some session := by
  have hkey : ¬ (s.key.isSome ∧ s.deadline ≤ s.clock) := by
    rw [key_none h hget]
    exact fun hsome => by cases hsome.1
  rw [expire]
  simp only [if_neg hkey]
  rw [endSessions_get?, if_neg]
  · exact hget
  · intro hmem
    obtain ⟨⟨o, x⟩, hx, rfl⟩ := List.mem_map.mp hmem
    obtain ⟨hitem, hover⟩ := List.mem_filter.mp hx
    rw [Dict.mem_items.mp hitem] at hget
    cases hget
    exact absurd hdeadline (not_lt.mpr (of_decide_eq_true hover))

theorem session_isolated (hinj : Function.Injective c.owner) (h : s.Ok c) {action : Action}
    (hstep : step c s action = some s') (hget : s.sessions.get? owner = some session)
    (hdeadline : s.clock < session.deadline) (hother : ¬ s.Concerns owner session action) :
    s'.sessions.get? owner = some session := by
  have hexpire : s.expire.Ok c := h.expire none
  have hkept : s.expire.sessions.get? owner = some session := expire_keeps h hget hdeadline
  have hne : ∀ {handle ticket o}, s.value handle = some ticket → ticket.txOwner = some o →
      (¬ ∃ ticket ∈ s.value handle, ticket.txOwner = some owner) → owner ≠ o := by
    rintro handle ticket o hvalue howner hnot rfl
    exact hnot ⟨ticket, hvalue, howner⟩
  cases action with
  | acquire kind client ready =>
      cases hstep
      rcases acquire_cases (c := c) (s := s) kind client ready with heq | ⟨-, -, heq⟩ | ⟨-,
        -, -, heq⟩
      · rw [heq]
        exact hkept
      · rw [heq]
        have hfresh : owner ≠ c.owner s.expire.tokens := by
          obtain ⟨n, hn, rfl⟩ := hexpire.live owner session hkept
          exact fun heq => absurd (hinj heq) hn.ne
        rw [opened]
        simp only
        split
        · exact (Dict.get?_set_ne _ _ hfresh).trans hkept
        · exact (Dict.get?_set_ne _ _ hfresh).trans hkept
      · rw [heq]
        exact hkept
  | attach key role sessionId =>
      cases hstep
      rcases attach_cases (s := s) key role sessionId with heq | ⟨ticket, heq, hlive, -⟩
      · rw [heq]
        exact hkept
      · rw [heq, attached]
        simp only
        split
        · split
          · exact hkept
          · rename_i o howner
            refine modify_keeps ?_ hkept
            rintro rfl
            obtain ⟨session', hget', hkey, -⟩ := hlive owner howner
            rw [hkept] at hget'
            cases hget'
            exact hother hkey
        · exact hkept
  | heartbeat handle =>
      obtain ⟨ticket, hvalue, rfl⟩ := Option.map_eq_some_iff.mp hstep
      rcases heartbeat_cases (s := s) handle ticket with ⟨error, heq⟩ | ⟨heq, -⟩
      · rw [heq]
        exact hkept
      · rw [heq]
        cases howner : ticket.txOwner with
        | none => exact hkept
        | some o => exact modify_keeps (hne hvalue howner hother) hkept
  | addChannel handle =>
      obtain ⟨ticket, hvalue, rfl⟩ := Option.map_eq_some_iff.mp hstep
      rcases addChannel_cases (s := s) handle ticket with ⟨error, heq⟩ | ⟨heq, -⟩
      · rw [heq]
        exact hkept
      · rw [heq, registered.eq_def]
        simp only
        split
        · exact hkept
        · rename_i o howner
          split
          · exact (Dict.get?_set_ne _ _ (hne hvalue howner hother)).trans hkept
          · exact hkept
  | detach handle =>
      obtain ⟨ticket, hvalue, rfl⟩ := Option.map_eq_some_iff.mp hstep
      rw [detach]
      simp only
      split
      · rename_i o howner
        have hdiffers : owner ≠ o := hne hvalue howner hother
        have hmodified :
            (({ s with channels := s.channels.erase ticket }.detaches handle o).modify o
            fun session => { session with channels := session.channels.erase ticket }).sessions.get?
              owner = some session := modify_keeps hdiffers hget
        split
        · split
          · exact endSession_keeps hdiffers hmodified
          · exact hmodified
        · exact hget
      · split
        · rename_i hprimary
          obtain ⟨n, hn, -⟩ := hprimary
          have hsome := h.primary (Option.isSome_iff_exists.mpr ⟨n, hn⟩)
          rw [key_none h hget] at hsome
          cases hsome
        · exact hget
  | release key =>
      cases hstep
      rcases release_cases (s := s) key with heq | ⟨o, session', hget', hkey, heq⟩ | ⟨hsome, heq⟩
      · rw [heq]
        exact hkept
      · rw [heq]
        refine endSession_keeps ?_ hkept
        rintro rfl
        rw [hkept] at hget'
        cases hget'
        exact hother hkey
      · rw [key_none hexpire hkept] at hsome
        cases hsome
  | revoke => exact absurd trivial hother
  | setMode mode ready => exact absurd trivial hother
  | tookBack ready =>
      rw [step] at hstep
      split at hstep
      · cases hstep
        rw [tookBack.eq_def]
        split
        · exact hget
        · exact hget
      · cases hstep
  | cleanedUp safe =>
      obtain ⟨channels, -, rfl⟩ := Option.map_eq_some_iff.mp hstep
      exact hget
  | status =>
      cases hstep
      exact hkept
  | wakes w =>
      rw [step] at hstep
      split at hstep
      · cases hstep
      · cases hstep
        split
        · exact expire_keeps h hget hdeadline
        · exact expire_keeps h hget hdeadline
  | advance clock =>
      rw [step] at hstep
      split at hstep
      · cases hstep
        exact hget
      · cases hstep

/-- A watchdog that wakes ends what is overdue. -/
theorem wakes_ends (h : s.Ok c) {w : Nat} (hstep : step c s (.wakes w) = some s')
    (hget : s.sessions.get? owner = some session) (hdeadline : session.deadline ≤ s.clock) :
    s'.sessions.get? owner = none := by
  have hkey : ¬ (s.key.isSome ∧ s.deadline ≤ s.clock) := by
    rw [key_none h hget]
    exact fun hsome => by cases hsome.1
  have hmem : owner ∈ s.overdue :=
    List.mem_map.mpr ⟨(owner, session), List.mem_filter.mpr ⟨Dict.mem_items.mpr hget,
      decide_eq_true hdeadline⟩, rfl⟩
  have hended : (s.expire (some w)).sessions.get? owner = none := by
    rw [expire]
    simp only [if_neg hkey]
    rw [endSessions_get?, if_pos hmem]
  rw [step] at hstep
  split at hstep
  · cases hstep
  · cases hstep
    split
    · exact hended
    · exact hended

structure Safe (c : Config) (s : ControllerAuthority) : Prop where
  refused : ∀ ticket, s.Stale ticket → ∀ later s', Runs.exec (step c) s later = some s' →
    ∀ handle, validate ticket s' = (.error ⟨"controller_invalid", 403⟩, s'.expire) ∧
      heartbeat handle ticket s' = (.error ⟨"controller_invalid", 403⟩, s'.expire) ∧
      addChannel handle ticket s' = (.error ⟨"controller_invalid", 403⟩, s'.expire)
  isolated : ∀ action s' owner session, step c s action = some s' →
    s.sessions.get? owner = some session → s.clock < session.deadline →
    ¬ s.Concerns owner session action → s'.sessions.get? owner = some session
  /-- A session that is no longer live has ended; while it is live it has one watchdog. -/
  lives : ∀ owner session, s.sessions.get? owner = some session → ∀ later s',
    Runs.exec (step c) s later = some s' →
    (∃ session', s'.sessions.get? owner = some session') ∧ s'.sessionWatchdog = s.sessionWatchdog ∨
      owner ∈ s'.ended
  closed : ∀ owner ∈ s.ended, s.sessions.get? owner = none ∧ s.releases.count owner = 1 ∧
    ∀ r ∈ s.registrations, r.ticket.txOwner = some owner → r.detached = false → r.closes = 1
  unclosed : ∀ owner session, s.sessions.get? owner = some session → s.releases.count owner = 0 ∧
    ∀ r ∈ s.registrations, r.ticket.txOwner = some owner → r.detached = false → r.closes = 0
  onePrimary : ∀ owner, s.tickets.countP (Heads owner) ≤ 1
  cap : ∀ client : String, s.held (some client) ≤ c.maxSessionsPerClient
  watched : ∀ owner session, s.sessions.get? owner = some session →
    ∃ w, s.sessionWatchdog = some w ∧ s.watchdogs[w]? = some .running ∧
      ∃ s', step c s (.wakes w) = some s' ∧
        (session.deadline ≤ s.clock → s'.sessions.get? owner = none ∧ owner ∈ s'.ended)

theorem Ok.run (hinj : Function.Injective c.owner) {actions : List Action} (h : s.Ok c)
    (hrun : Runs.exec (ControllerAuthority.step c) s actions = some s') : s'.Ok c :=
  Runs.exec_invariant (fun _ _ _ hs hstep => hs.step hinj hstep) hrun h

theorem run_later (hinj : Function.Injective c.owner) {actions : List Action} (h : s.Ok c)
    (hrun : Runs.exec (step c) s actions = some s') : Later s s' := by
  have hboth := Runs.exec_invariant (I := fun m => m.Ok c ∧ Later s m)
    (fun _ _ _ hm hstep => ⟨hm.1.step hinj hstep, hm.2.trans (step_later hm.1 hstep)⟩) hrun
    ⟨h, Later.refl s⟩
  exact hboth.2

theorem Accounted.safe (hinj : Function.Injective c.owner) (hok : s.Ok c) (h : s.Accounted) :
    s.Safe c where
  refused ticket hstale later s' hrun handle :=
    (hstale.later (run_later hinj hok hrun)).refused (hok.run hinj hrun) handle
  isolated action s' owner session hstep hget hdeadline hother :=
    session_isolated hinj hok hstep hget hdeadline hother
  lives owner session hget later s' hrun := (run_later hinj hok hrun).lives owner session hget
  closed owner hended := by
    obtain ⟨-, hnone⟩ := hok.ended owner hended
    refine ⟨hnone, ?_, fun r hr ho hdetached => ?_⟩
    · rw [hok.releases]
      exact List.count_eq_one_of_mem hok.endedOnce hended
    · obtain ⟨n, hn⟩ := List.mem_iff_getElem?.mp hr
      rcases h.fate n r owner hn ho hdetached with hstanding | ⟨-, hcloses⟩
      · rw [standing, hnone] at hstanding
        cases hstanding
      · exact hcloses
  unclosed owner session hget := by
    have hlive : owner ∉ s.ended := by
      intro hended
      have hnone := (hok.ended owner hended).2
      rw [hget] at hnone
      cases hnone
    refine ⟨?_, fun r hr ho hdetached => ?_⟩
    · rw [hok.releases]
      exact List.count_eq_zero.mpr hlive
    · obtain ⟨n, hn⟩ := List.mem_iff_getElem?.mp hr
      rcases h.fate n r owner hn ho hdetached with hstanding | ⟨hended, -⟩
      · obtain ⟨r', hr', -, -, -, hcloses⟩ := h.kept owner r.ticket n hstanding
        rw [hn] at hr'
        cases hr'
        exact hcloses
      · exact absurd hended hlive
  onePrimary := hok.onePrimary
  cap := hok.cap
  watched owner session hget := by
    obtain ⟨w, hw, hrunning⟩ := hok.watchdog owner session hget
    obtain ⟨s', hstep⟩ : ∃ s', ControllerAuthority.step c s (.wakes w) = some s' := by
      rw [ControllerAuthority.step, if_neg (not_not_intro hrunning)]
      exact ⟨_, rfl⟩
    refine ⟨w, hw, hrunning, s', hstep, fun hdeadline => ?_⟩
    have hnone := wakes_ends hok hstep hget hdeadline
    refine ⟨hnone, ?_⟩
    rcases (step_later hok hstep).lives owner session hget with ⟨⟨session', hget'⟩, -⟩ | hended
    · rw [hnone] at hget'
      cases hget'
    · exact hended

/-- Where every channel has a ticket of its own and owners do not repeat, sessions are fenced. -/
theorem sessions_fenced (hinj : Function.Injective c.owner) {actions : List Action}
    (hrun : Runs.exec (step c) {} actions = some s)
    (horderly : Runs.Along (step c) Orderly {} actions) : s.Safe c := by
  obtain ⟨hok, hacc⟩ := Runs.exec_invariant_along (I := fun m => m.Ok c ∧ m.Accounted)
    (fun _ _ _ hm ho hstep => ⟨hm.1.step hinj hstep, hm.2.step hinj hm.1 ho hstep⟩) hrun horderly
    ⟨Ok.initial, Accounted.initial⟩
  exact hacc.safe hinj hok

/-- A source of tokens that does not repeat. -/
def source : Config where
  maxSessionsPerClient := 2
  owner n := String.ofList (List.replicate (n + 1) 'o')
  key n := String.ofList (Char.ofNat (97 + n) :: List.replicate 63 'k')
  max_pos := by decide

theorem source_owner_injective : Function.Injective source.owner := by
  intro m n h
  have hlength := congrArg List.length (String.ofList_injective h)
  simpa using hlength

/-- Two sessions with a channel each; the watchdog ends them. -/
def lapses : List Action :=
  [.acquire "browser" (some "10.0.0.1") true, .attach (source.key 0) "primary" "a",
    .attach (source.key 0) "auxiliary" "b", .addChannel (.attached 0), .addChannel (.attached 1),
    .acquire "pro" (some "10.0.0.1") true, .attach (source.key 1) "primary" "c", .advance 4,
    .heartbeat (.attached 2), .addChannel (.attached 2), .advance 7, .wakes 0]

theorem sessions_fenced_lapses : ∃ s, Runs.exec (step source) {} lapses = some s ∧
    s.ended = [source.owner 0] ∧ s.registrations.map Registration.closes = [1, 1, 0] ∧
    s.Safe source := by
  have hany : (Runs.exec (step source) {} lapses).any (fun s => s.ended = [source.owner 0] ∧
      s.registrations.map Registration.closes = [1, 1, 0]) = true := by decide +kernel
  obtain ⟨s, hrun, hends⟩ := (Option.any_eq_true _ _).mp hany
  obtain ⟨hended, hcloses⟩ := of_decide_eq_true hends
  exact ⟨s, hrun, hended, hcloses, sessions_fenced source_owner_injective hrun (by decide +kernel)⟩

/-- Two auxiliary tickets of one session are attached for the same session id, and are equal. -/
def collides : List Action :=
  [.acquire "browser" none true, .attach (source.key 0) "primary" "a",
    .attach (source.key 0) "auxiliary" "b", .attach (source.key 0) "auxiliary" "b",
    .addChannel (.attached 1), .addChannel (.attached 2), .release (source.key 0)]

theorem channel_left_open : ¬ ∀ (c : Config) (actions : List Action) (s : ControllerAuthority),
    Function.Injective c.owner → Runs.exec (step c) {} actions = some s → s.Safe c := by
  intro h
  have hany : (Runs.exec (step source) {} collides).any (fun s => s.ended.any fun owner =>
      s.registrations.any fun r => r.ticket.txOwner = some owner ∧ r.detached = false ∧
        r.closes = 0) = true := by decide +kernel
  obtain ⟨s, hrun, hopen⟩ := (Option.any_eq_true _ _).mp hany
  obtain ⟨owner, hended, hopen⟩ := List.any_eq_true.mp hopen
  obtain ⟨r, hr, hopen⟩ := List.any_eq_true.mp hopen
  obtain ⟨howner, hdetached, hcloses⟩ := of_decide_eq_true hopen
  have hclosed := ((h source collides s source_owner_injective hrun).closed owner hended).2.2 r hr
    howner hdetached
  rw [hcloses] at hclosed
  cases hclosed

end ControllerAuthority

end Rigplane.Controller
