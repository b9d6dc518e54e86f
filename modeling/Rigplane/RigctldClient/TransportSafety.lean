import Rigplane.RigctldClient.Transport

/-!
# Which answer an exchange reads

Under the side condition `Orderly` a connection in use is *clean* whenever no command is on its way:
nothing is unanswered, on the wire or in the buffer.  From the write of a command until the exchange
ends, all of it is *owned* by that exchange.  The two alternate, since an exchange that leaves its
connection open has come to the end of its answer.

Without the condition a status that comes late is taken for that of the next command.
-/

namespace Rigplane.RigctldClient

/-! ## Connections -/

structure Clean (c : Connection) : Prop where
  unanswered : c.unanswered = []
  wire : c.wire = []
  buffer : c.buffer = []

/-- Only the command of this exchange is to be answered, or its answer is on its way. -/
structure Owned (n : Nat) (c : Connection) : Prop where
  answer : c.unanswered = [] ∨ c.unanswered = [n] ∧ c.wire = [] ∧ c.buffer = []
  bytes : ∀ b ∈ c.wire ++ c.buffer, b.owner = n

variable {c c' : Connection} {n : Nat} {raw rest : List Byte} {x y : Exchange}

theorem Clean.owned (h : Clean c) (n : Nat) :
    Owned n { c with unanswered := c.unanswered ++ [n] } where
  answer := by
    refine .inr ⟨?_, h.wire, h.buffer⟩
    rw [h.unanswered]
    rfl
  bytes := by
    rw [h.wire, h.buffer]
    nofun

theorem mem_answer {lines : List (List UInt8)} {b : Byte}
    (h : b ∈ RigctldTransport.answer n lines) : b.owner = n := by
  obtain ⟨line, -, hb⟩ := List.mem_flatMap.mp h
  obtain ⟨v, -, rfl⟩ := List.mem_map.mp hb
  rfl

/-- A read line is the head of the buffer. -/
theorem readline_line (h : c.readline = .line raw rest) : c.buffer = raw ++ rest ∧
    c.buffer ≠ [] := by
  rw [Connection.readline] at h
  split at h
  · rename_i i hi
    split at h
    · cases h
    · cases h
      refine ⟨(List.take_append_drop _ _).symm, ?_⟩
      intro hnil
      rw [hnil] at hi
      cases hi
  · split at h
    · cases h
    split at h
    · cases h
    split at h
    · cases h
    · rename_i hne
      cases h
      exact ⟨(List.append_nil _).symm, hne⟩

theorem readline_overrun (h : c.readline = .overrun rest) : rest ⊆ c.buffer ∧ c.buffer ≠ [] := by
  rw [Connection.readline] at h
  split at h
  · rename_i i hi
    split at h
    · cases h
      refine ⟨List.drop_subset _ _, ?_⟩
      intro hnil
      rw [hnil] at hi
      cases hi
    · cases h
  · split at h
    · rename_i hover
      cases h
      refine ⟨List.nil_subset _, ?_⟩
      intro hnil
      rw [hnil] at hover
      exact absurd hover (Nat.not_lt_zero _)
    split at h
    · cases h
    split at h
    · cases h
    · cases h

/-- Where something was read, the command has been answered. -/
theorem Owned.remains (h : Owned n c) (hne : c.buffer ≠ []) (hsub : rest ⊆ c.buffer) :
    c.unanswered = [] ∧ Owned n { c with buffer := rest } := by
  have hanswered : c.unanswered = [] := by
    rcases h.answer with hnone | ⟨-, -, hbuffer⟩
    · exact hnone
    · exact absurd hbuffer hne
  refine ⟨hanswered, .inl hanswered, fun b hb => ?_⟩
  rcases List.mem_append.mp hb with hb | hb
  · exact h.bytes b (List.mem_append_left _ hb)
  · exact h.bytes b (List.mem_append_right _ (hsub hb))

theorem Exchange.take_spec (x : Exchange) (raw : List Byte) :
    (x.take raw).1.id = x.id ∧ (x.take raw).1.connection = x.connection ∧
      (x.stage ≠ .draining → (x.take raw).1.stage ≠ .draining) ∧
      ∀ line ∈ (x.take raw).1.lines, line ∈ x.lines ∨ line = raw := by
  have happend : ∀ line ∈ x.lines ++ [raw], line ∈ x.lines ∨ line = raw := by
    intro line hline
    rcases List.mem_append.mp hline with hline | hline
    · exact .inl hline
    · exact .inr (List.mem_singleton.mp hline)
  rw [Exchange.take]
  split
  · split
    · exact ⟨rfl, rfl, fun hs => hs, fun _ hline => .inl hline⟩
    split
    · exact ⟨rfl, rfl, fun hs => hs, happend⟩
    · exact ⟨rfl, rfl, fun hs => hs, happend⟩
  · split
    · exact ⟨rfl, rfl, fun hs => hs, fun _ hline => .inl hline⟩
    split
    · exact ⟨rfl, rfl, fun hs => hs, happend⟩
    · exact ⟨rfl, rfl, fun _ => nofun, happend⟩

namespace RigctldTransport

variable {s s' : RigctldTransport} {k : Nat} {outcome : Outcome}

/-! ## The invariant -/

structure Ok (s : RigctldTransport) : Prop where
  current : ∀ k, s.current = some k → k < s.connections.length
  exchange : ∀ x, s.exchange = some x → x.connection < s.connections.length
  ended : ∀ e ∈ s.ended, e.exchange.connection < s.connections.length
  /-- The connection in place, with no command on its way. -/
  idle : ∀ (k : Nat) (c : Connection), s.current = some k → s.connections[k]? = some c →
    (∀ x, s.exchange = some x → x.connection = k → x.stage = .draining) → Clean c
  busy : ∀ (x : Exchange) (c : Connection), s.exchange = some x → x.stage ≠ .draining →
    s.connections[x.connection]? = some c → Owned x.id c
  /-- By the resynchronisation a line of the answer has been read. -/
  answered : ∀ (x : Exchange) (c : Connection), s.exchange = some x → x.stage = .resync →
    s.connections[x.connection]? = some c → c.unanswered = []
  own : ∀ x, s.exchange = some x ∨ x ∈ s.ended.map Ended.exchange →
    ∀ line ∈ x.lines, ∀ b ∈ line, b.owner = x.id
  retired : ∀ e ∈ s.ended, e.unread → s.current ≠ some e.exchange.connection

theorem Ok.initial : ({} : RigctldTransport).Ok where
  current := nofun
  exchange := nofun
  ended := nofun
  idle := nofun
  busy := nofun
  answered := nofun
  own := by
    rintro x (hx | hx)
    · cases hx
    · cases hx
  retired := nofun

theorem Ok.safe (h : s.Ok) : s.Safe := ⟨h.own, h.retired⟩

theorem put_get (hk : s.connections[k]? = some c) {j : Nat} {d : Connection}
    (hd : (s.put k c').connections[j]? = some d) : j = k ∧ d = c' ∨ j ≠ k ∧
    s.connections[j]? = some d := by
  by_cases hj : j = k
  · subst hj
    have hself : (s.put j c').connections[j]? = some c' :=
      List.getElem?_set_self (List.getElem?_eq_some_iff.mp hk).1
    exact .inl ⟨rfl, Option.some.inj (hd.symm.trans hself)⟩
  · exact .inr ⟨hj, (List.getElem?_set_ne (Ne.symm hj)).symm.trans hd⟩

/-- The bytes of one connection move, or the server does something to it. -/
theorem Ok.put (h : s.Ok) (hk : s.connections[k]? = some c) (hclean : Clean c → Clean c')
    (howned : ∀ n, Owned n c → Owned n c') (hanswered : c.unanswered = [] → c'.unanswered = []) :
    (s.put k c').Ok := by
  have hlength : (s.put k c').connections.length = s.connections.length := List.length_set
  constructor
  · rw [hlength]
    exact h.current
  · rw [hlength]
    exact h.exchange
  · rw [hlength]
    exact h.ended
  · intro j d hj hd hdraining
    rcases put_get hk hd with ⟨rfl, rfl⟩ | ⟨-, hd⟩
    · exact hclean (h.idle j c hj hk hdraining)
    · exact h.idle j d hj hd hdraining
  · intro x d hx hstage hd
    rcases put_get hk hd with ⟨heq, rfl⟩ | ⟨-, hd⟩
    · rw [← heq] at hk
      exact howned x.id (h.busy x c hx hstage hk)
    · exact h.busy x d hx hstage hd
  · intro x d hx hstage hd
    rcases put_get hk hd with ⟨heq, rfl⟩ | ⟨-, hd⟩
    · rw [← heq] at hk
      exact hanswered (h.answered x c hx hstage hk)
    · exact h.answered x d hx hstage hd
  · exact h.own
  · exact h.retired

/-- A connection is given up. -/
theorem Ok.unset (h : s.Ok) {current : Option Nat}
    (hcurrent : current = none ∨ current = s.current) :
    ({ s with current } : RigctldTransport).Ok := by
  rcases hcurrent with rfl | rfl
  · exact { h with
      current := fun _ hj => by cases hj
      idle := fun _ _ hj => by cases hj
      retired := fun _ _ _ hj => by cases hj }
  · exact h

theorem Ok.retire (h : s.Ok) (k : Nat) : (s.retire k).Ok := by
  refine h.unset ?_
  split
  · exact .inl rfl
  · exact .inr rfl

theorem retire_current : (s.retire k).current ≠ some k := by
  rw [RigctldTransport.retire]
  split
  · exact nofun
  · assumption

theorem not_unread (h : Clean c) (hc : s.connections[y.connection]? = some c) : ¬ s.Unread y := by
  rintro ⟨d, hd, hunread⟩
  rw [Option.mem_def, hc] at hd
  cases hd
  rcases hunread with hid | ⟨b, hb, -⟩
  · rw [h.unanswered] at hid
    cases hid
  · rw [h.wire, h.buffer] at hb
    cases hb

/-- An exchange ends.  If its connection stays in place, it is clean. -/
theorem Ok.finish (h : s.Ok) (hx : s.exchange = some x) (hconnection : y.connection = x.connection)
    (hown : ∀ line ∈ y.lines, ∀ b ∈ line, b.owner = y.id)
    (hclean : s.current = some x.connection → ∀ c, s.connections[x.connection]? = some c →
    Clean c) :
    (s.finish y outcome).Ok := by
  have hindex : y.connection < s.connections.length := hconnection ▸ h.exchange x hx
  constructor
  · exact h.current
  · intro z hz
    cases hz
  · intro e he
    rcases List.mem_cons.mp he with rfl | he
    · exact hindex
    · exact h.ended e he
  · intro k c hk hc _
    by_cases heq : x.connection = k
    · subst heq
      exact hclean hk c hc
    · refine h.idle k c hk hc fun z hz hzk => ?_
      rw [hx] at hz
      cases hz
      exact absurd hzk heq
  · intro z c hz
    cases hz
  · intro z c hz
    cases hz
  · intro z hz
    rcases hz with hz | hz
    · cases hz
    rcases List.mem_cons.mp hz with rfl | hz
    · exact hown
    · exact h.own z (.inr hz)
  · intro e he hunread
    rcases List.mem_cons.mp he with rfl | he
    · intro hcurrent
      obtain ⟨d, hget⟩ : ∃ d, s.connections[y.connection]? = some d :=
        ⟨_, List.getElem?_eq_getElem hindex⟩
      have hc := hclean (hcurrent.trans (congrArg some hconnection)) d (hconnection ▸ hget)
      exact not_unread hc hget (of_decide_eq_true hunread)
    · exact h.retired e he hunread

/-- The exchange ends as its connection is retired. -/
theorem Ok.abort (h : s.Ok) (hx : s.exchange = some x) :
    ((s.retire x.connection).finish x outcome).Ok :=
  (h.retire x.connection).finish hx rfl (h.own x
    (.inl hx)) fun hcurrent => absurd hcurrent retire_current

/-- The command is written, on a connection in place, which is clean. -/
theorem Ok.write (h : s.Ok) (hx : s.exchange = some x) (hc : s.connections[x.connection]? = some c)
    (hdraining : x.stage = .draining) (hcurrent : s.current = some x.connection) :
    ({ s.put x.connection { c with unanswered := c.unanswered ++ [x.id] } with
      exchange := some { x with stage := .reading } } : RigctldTransport).Ok := by
  have hclean : Clean c := by
    refine h.idle _ c hcurrent hc fun z hz _ => ?_
    rw [hx] at hz
    cases hz
    exact hdraining
  have hlength :
      (s.put x.connection { c with unanswered := c.unanswered ++ [x.id] }).connections.length =
      s.connections.length := List.length_set
  constructor
  · intro k hk
    show k < (s.put _ _).connections.length
    rw [hlength]
    exact h.current k hk
  · intro z hz
    cases hz
    show x.connection < (s.put _ _).connections.length
    rw [hlength]
    exact h.exchange x hx
  · intro e he
    show _ < (s.put _ _).connections.length
    rw [hlength]
    exact h.ended e he
  · intro k d hk _ hdraining'
    have hxk : x.connection = k := Option.some.inj (hcurrent.symm.trans hk)
    cases hdraining' _ rfl hxk
  · intro z d hz _ hd
    cases hz
    rcases put_get hc hd with ⟨-, rfl⟩ | ⟨hne, -⟩
    · exact hclean.owned x.id
    · exact absurd rfl hne
  · intro z d hz hresync
    cases hz
    cases hresync
  · intro z hz
    rcases hz with hz | hz
    · cases hz
      exact h.own x (.inl hx)
    · exact h.own z (.inr hz)
  · exact h.retired

/-- The exchange goes on, past its write. -/
theorem Ok.goOn (h : s.Ok) (hx : s.exchange = some x) (hstage : x.stage ≠ .draining)
    (hanswered : ∀ c, s.connections[x.connection]? = some c → c.unanswered = [])
    (hid : y.id = x.id) (hconnection : y.connection = x.connection) (hstage' : y.stage ≠ .draining)
    (hown : ∀ line ∈ y.lines, ∀ b ∈ line, b.owner = y.id) :
    ({ s with exchange := some y } : RigctldTransport).Ok := by
  constructor
  · exact h.current
  · intro z hz
    cases hz
    exact hconnection ▸ h.exchange x hx
  · exact h.ended
  · intro k c hk hc hdraining
    refine h.idle k c hk hc fun z hz hzk => ?_
    rw [hx] at hz
    cases hz
    exact absurd (hdraining y rfl (hconnection.trans hzk)) hstage'
  · intro z c hz _ hc
    cases hz
    rw [hid]
    exact h.busy x c hx hstage (hconnection ▸ hc)
  · intro z c hz _ hc
    cases hz
    exact hanswered c (hconnection ▸ hc)
  · intro z hz
    rcases hz with hz | hz
    · cases hz
      exact hown
    · exact h.own z (.inr hz)
  · exact h.retired

/-! ## Steps -/

theorem Ok.reads (h : s.Ok) (hx : s.exchange = some x) (hc : s.connections[x.connection]? = some c)
    (hstage : x.stage ≠ .draining) (ho : s.Orderly .read) (hstep : s.reads x c = some s') :
    s'.Ok := by
  have howned : Owned x.id c := h.busy x c hx hstage hc
  have hmine := h.own x (.inl hx)
  have horder := fun hcurrent => (ho x hx c hc hcurrent).1 rfl
  have hput : ∀ {rest}, c.buffer ≠ [] → rest ⊆ c.buffer →
      (s.put x.connection { c with buffer := rest }).Ok := fun hne hsub =>
    h.put hc (fun hclean => absurd hclean.buffer hne) (fun n hn => (hn.remains hne hsub).2)
      fun hanswered => hanswered
  have hget : ∀ {rest} {d : Connection},
      (s.put x.connection { c with buffer := rest }).connections[x.connection]? = some d →
        d = { c with buffer := rest } := by
    intro rest d hd
    have hself : (s.put x.connection { c with buffer := rest }).connections[x.connection]? =
        some { c with buffer := rest } := List.getElem?_set_self (List.getElem?_eq_some_iff.mp hc).1
    exact Option.some.inj (hd.symm.trans hself)
  have hanswered : c.buffer ≠ [] → c.unanswered = [] := fun hne =>
    (howned.remains hne (List.nil_subset _)).1
  -- The connection is clean if nothing remains.
  have hclean : ∀ {rest}, c.buffer ≠ [] → c.wire = [] → rest = [] → ∀ d,
      (s.put x.connection { c with buffer := rest }).connections[x.connection]? = some d →
        Clean d := by
    intro rest hne hwire hrest d hd
    rw [hget hd]
    exact ⟨hanswered hne, hwire, hrest⟩
  rw [RigctldTransport.reads] at hstep
  split at hstep
  · rename_i raw rest hline
    obtain ⟨hbuffer, hne⟩ := readline_line hline
    have hput' := hput hne (hbuffer ▸ List.subset_append_right raw rest)
    obtain ⟨hid, hconnection, hstage', hlines⟩ := x.take_spec raw
    have hown : ∀ line ∈ (x.take raw).1.lines, ∀ b ∈ line, b.owner = (x.take raw).1.id := by
      intro line hline b hb
      rw [hid]
      rcases hlines line hline with hold | rfl
      · exact hmine line hold b hb
      · refine howned.bytes b (List.mem_append_right _ ?_)
        rw [hbuffer]
        exact List.mem_append_left _ hb
    rw [hline, stopsBefore] at horder
    cases htake : x.take raw with
    | mk y o =>
        rw [htake] at hstep hid hconnection hstage' hown horder
        cases o with
        | none =>
            cases hstep
            refine hput'.goOn hx hstage (fun d hd => ?_) hid hconnection (hstage' hstage) hown
            rw [hget hd]
            exact hanswered hne
        | some outcome =>
            cases hstep
            refine hput'.finish hx hconnection hown fun hcurrent => ?_
            obtain ⟨hwire, hrest⟩ := horder hcurrent rest rfl
            exact hclean hne hwire hrest
  · rename_i rest hover
    obtain ⟨hsub, hne⟩ := readline_overrun hover
    cases hstep
    rw [hover] at horder
    refine (hput hne hsub).finish hx rfl hmine fun hcurrent => ?_
    obtain ⟨hwire, hrest⟩ := horder hcurrent rest rfl
    exact hclean hne hwire hrest
  · cases hstep
    exact h.abort hx
  · cases hstep

theorem Ok.act (h : s.Ok) (hx : s.exchange = some x) (hc : s.connections[x.connection]? = some c)
    {action : Action} (ho : s.Orderly action) (hstep : s.act x c action = some s') : s'.Ok := by
  have hmine := h.own x (.inl hx)
  rw [RigctldTransport.act.eq_def] at hstep
  split at hstep
  · split at hstep
    · cases hstep
    split at hstep
    · cases hstep
      refine h.put hc (fun hclean => ?_) (fun n hn => ?_) fun hanswered => hanswered
      · refine ⟨hclean.unanswered, hclean.wire, ?_⟩
        show c.buffer.drop 4096 = []
        rw [hclean.buffer]
        rfl
      · rename_i hne
        exact (hn.remains hne (List.drop_subset _ _)).2
    split at hstep
    · cases hstep
      exact h.abort hx
    · cases hstep
  · split at hstep
    · rename_i hwrites
      obtain ⟨hdraining, hcurrent⟩ := hwrites
      cases hstep
      exact h.write hx hc hdraining hcurrent
    · cases hstep
  · split at hstep
    · rename_i hdraining
      cases hstep
      refine h.finish hx rfl hmine fun hcurrent d hd => h.idle _ d hcurrent hd fun z hz _ => ?_
      rw [hx] at hz
      cases hz
      exact hdraining
    · cases hstep
  · split at hstep
    · rename_i hstage
      exact h.reads hx hc hstage ho hstep
    · cases hstep
  · split at hstep
    · rename_i hresync
      cases hstep
      refine h.finish hx rfl hmine fun hcurrent d hd => ?_
      rw [hc] at hd
      cases hd
      obtain ⟨hwire, hbuffer⟩ := (ho x hx c hc hcurrent).2 rfl
      exact ⟨h.answered x c hx hresync hc, hwire, hbuffer⟩
    · cases hstep
  · cases hstep
    exact h.abort hx
  · cases hstep
    exact h.abort hx
  · cases hstep

theorem Ok.connect (h : s.Ok) :
    ({ s with connections := s.connections ++ [{}], current := some s.connections.length } :
      RigctldTransport).Ok := by
  have hlength : (s.connections ++ [({} : Connection)]).length = s.connections.length + 1 :=
    List.length_append
  have hget : ∀ {j : Nat} {d : Connection}, j < s.connections.length →
      (s.connections ++ [({} : Connection)])[j]? = some d → s.connections[j]? = some d := by
    intro j d hj hd
    rw [List.getElem?_append_left hj] at hd
    exact hd
  constructor
  · intro k hk
    cases hk
    exact hlength ▸ Nat.lt_succ_self _
  · exact fun x hx => hlength ▸ Nat.lt_succ_of_lt (h.exchange x hx)
  · exact fun e he => hlength ▸ Nat.lt_succ_of_lt (h.ended e he)
  · intro k d hk hd _
    cases hk
    rw [List.getElem?_concat_length] at hd
    cases hd
    exact ⟨rfl, rfl, rfl⟩
  · exact fun x d hx hstage hd => h.busy x d hx hstage (hget (h.exchange x hx) hd)
  · exact fun x d hx hstage hd => h.answered x d hx hstage (hget (h.exchange x hx) hd)
  · exact h.own
  · intro e he _ hcurrent
    exact absurd (h.ended e he) (Nat.not_lt.mpr (Nat.le_of_eq (Option.some.inj hcurrent)))

theorem Ok.start (h : s.Ok) (hnone : s.exchange = none) (hcurrent : s.current = some k)
    (kind : Kind) :
    ({ s with
        exchange := some { id := s.started, kind, connection := k }, started := s.started + 1 } :
      RigctldTransport).Ok := by
  constructor
  · exact h.current
  · intro x hx
    cases hx
    exact h.current k hcurrent
  · exact h.ended
  · intro j c hj hc _
    refine h.idle j c hj hc fun x hx => ?_
    rw [hnone] at hx
    cases hx
  · intro x c hx hstage
    cases hx
    exact absurd rfl hstage
  · intro x c hx hresync
    cases hx
    cases hresync
  · intro x hx
    rcases hx with hx | hx
    · cases hx
      exact nofun
    · exact h.own x (.inr hx)
  · exact h.retired

theorem Ok.step (h : s.Ok) {action : Action} (ho : s.Orderly action)
    (hstep : s.step action = some s') :
    s'.Ok := by
  have hact :
      (s.exchange.bind fun x => s.connections[x.connection]?.bind fun c => s.act x c action) =
      some s' → s'.Ok := by
    intro hbind
    obtain ⟨x, hx, hbind⟩ := Option.bind_eq_some_iff.mp hbind
    obtain ⟨c, hc, hbind⟩ := Option.bind_eq_some_iff.mp hbind
    exact h.act hx hc ho hbind
  cases action with
  | connect =>
      rw [RigctldTransport.step] at hstep
      split at hstep
      · cases hstep
        exact h
      · cases hstep
        exact h.connect
  | close =>
      cases hstep
      exact h.unset (.inl rfl)
  | start kind =>
      rw [RigctldTransport.step.eq_def] at hstep
      simp only at hstep
      split at hstep
      · cases hstep
      · cases hstep
      · cases hstep
      · rename_i hexchange hcurrent _
        cases hstep
        exact h.start hexchange hcurrent _
  | answered k lines =>
      obtain ⟨c, hc, hstep⟩ := Option.bind_eq_some_iff.mp hstep
      split at hstep
      · cases hstep
      · rename_i i ids hids
        split at hstep
        · cases hstep
          refine h.put hc (fun hclean => ?_) (fun n hn => ?_) fun hnil => ?_
          · have hnil := hclean.unanswered
            rw [hids] at hnil
            cases hnil
          · rcases hn.answer with hnil | ⟨hone, hwire, hbuffer⟩
            · rw [hids] at hnil
              cases hnil
            · rw [hids] at hone
              cases hone
              refine ⟨.inl rfl, fun b hb => ?_⟩
              simp only [hwire, hbuffer, List.nil_append, List.append_nil] at hb
              exact mem_answer hb
          · rw [hids] at hnil
            cases hnil
        · cases hstep
  | delivered k count =>
      obtain ⟨c, hc, rfl⟩ := Option.map_eq_some_iff.mp hstep
      refine h.put hc (fun hclean => ?_) (fun n hn => ?_) fun hanswered => hanswered
      · refine ⟨hclean.unanswered, ?_, ?_⟩
        · simp only [hclean.wire, List.drop_nil]
        · simp only [hclean.wire, hclean.buffer, List.take_nil, List.append_nil]
      · constructor
        · refine hn.answer.imp (fun hnil => hnil) fun ⟨hone, hwire, hbuffer⟩ => ⟨hone, ?_, ?_⟩
          · simp only [hwire, List.drop_nil]
          · simp only [hwire, hbuffer, List.take_nil, List.append_nil]
        · intro b hb
          refine hn.bytes b ?_
          rcases List.mem_append.mp hb with hb | hb
          · exact List.mem_append_left _ (List.mem_of_mem_drop hb)
          rcases List.mem_append.mp hb with hb | hb
          · exact List.mem_append_right _ hb
          · exact List.mem_append_left _ (List.mem_of_mem_take hb)
  | serverClosed k =>
      obtain ⟨c, hc, rfl⟩ := Option.map_eq_some_iff.mp hstep
      refine h.put hc (fun hclean => ⟨rfl, rfl, hclean.buffer⟩)
        (fun n hn => ⟨.inl rfl, ?_⟩) fun _ => rfl
      exact fun b hb => hn.bytes b (List.mem_append_right _ hb)
  | drained => exact hact hstep
  | written => exact hact hstep
  | refused => exact hact hstep
  | read => exact hact hstep
  | windowPassed => exact hact hstep
  | failed => exact hact hstep
  | cancelled => exact hact hstep

end RigctldTransport

open RigctldTransport

/-- In every run in which the line at which an exchange stops is the last of its answer, each
exchange reads its own answer only. -/
theorem own_answers {s : RigctldTransport} {actions : List Action}
    (hrun : Runs.exec step {} actions = some s)
    (ho : Runs.Along step Orderly {} actions) : s.Safe :=
  (Runs.exec_invariant_along (fun _ _ _ h hok hstep => h.step hok hstep) hrun ho Ok.initial).safe

/-- The bytes of a text. -/
def ascii (text : String) : List UInt8 := text.toList.map fun ch => UInt8.ofNat ch.toNat

/-- A frequency is read, and a command is accepted. -/
def inTurn : List Action :=
  [.connect, .start (.query 1), .written, .answered 0 [ascii "14074000"], .delivered 0 5,
    .delivered 0 4,
    .read, .start .command, .written, .answered 0 [ascii "RPRT 0"], .delivered 0 7, .read]

theorem own_answers_in_turn : ∃ s, Runs.exec step {} inTurn = some s ∧
    s.ended.map Ended.outcome = [.parsed, .returned] ∧ s.Safe := by
  have hany : (Runs.exec step {} inTurn).any
      (fun s => s.ended.map Ended.outcome = [.parsed, .returned]) = true := by decide +kernel
  obtain ⟨s, hrun, hended⟩ := (Option.any_eq_true _ _).mp hany
  exact ⟨s, hrun, of_decide_eq_true hended, own_answers hrun (by decide +kernel)⟩

/-- A stray line comes before the status of a command, and the status only after the window of the
resynchronisation: the next command takes it for its own. -/
def lateStatus : List Action :=
  [.connect, .start .command, .written, .answered 0 [ascii "14074000", ascii "RPRT 0"],
    .delivered 0 9,
    .read, .windowPassed, .start .command, .written, .delivered 0 7, .read]

theorem next_command_reads_late_status : ¬ ∀ (actions : List Action) (s : RigctldTransport),
    Runs.exec step {} actions = some s → s.Safe := by
  intro h
  have hany : (Runs.exec step {} lateStatus).any
      (fun s => s.ended.any fun e => e.exchange.lines.any fun line =>
        line.any fun b => b.owner ≠ e.exchange.id) = true := by decide +kernel
  obtain ⟨s, hrun, hforeign⟩ := (Option.any_eq_true _ _).mp hany
  obtain ⟨e, he, hforeign⟩ := List.any_eq_true.mp hforeign
  obtain ⟨line, hline, hforeign⟩ := List.any_eq_true.mp hforeign
  obtain ⟨b, hb, hforeign⟩ := List.any_eq_true.mp hforeign
  exact of_decide_eq_true hforeign
    ((h lateStatus s hrun).own e.exchange (.inr (List.mem_map_of_mem he)) line hline b hb)

end Rigplane.RigctldClient
