import Rigplane.RigctldClient.TransportSafety
import Rigplane.Rigctld.Replies

/-!
# The client of the rigctld server of this repository

`own_answers` asks for a run where an exchange never stops before the end of its answer.  Here the
answers are those of `format_response` in the normal protocol: `Serving` says so of a step.  A query
is answered by its number of values or by one status, and a `command` by one status.  Then the
exchange stops at the last line whatever the pieces in which the bytes arrive, so client and server
never get out of step.

A server that closes the connection may cut an answer short.  What is left of it counts as a line,
and nothing follows it.
-/

namespace Rigplane.RigctldClient

open Rigplane.Rigctld (RigctldCommand RigctldResponse formatNormal replyLines asciiBytes statusLine
  formatNormal_lines replyLines_unbroken statusLine_chars asciiBytes_newline asciiBytes_prefix)
open Words (closed)

/-- The text of a status begins with this. -/
def statusMark : List UInt8 := [82, 80, 82, 84, 32]

/-! ## Answers that fit -/

/-- A line that `readline` returns as it is. -/
structure Plain (line : List UInt8) : Prop where
  ascii : ∀ b ∈ line, b < 128
  unbroken : 10 ∉ line
  short : line.length ≤ limit

/-- The lines that an exchange of this kind waits for. -/
inductive Fits : Kind → List (List UInt8) → Prop where
  | values {lines : List (List UInt8)} : (∀ line ∈ lines, Plain line ∧ ¬ statusMark <+: line) →
      Fits (.query lines.length) lines
  | status {kind : Kind} {line : List UInt8} : Plain line → statusMark <+: line → Fits kind [line]

/-- The handler answers so a command that an exchange of this kind sends. -/
structure Suits (kind : Kind) (cmd : RigctldCommand) (resp : RigctldResponse) : Prop where
  isSet : cmd.isSet = true ↔ kind = .command
  /-- It is the one query that is answered by a value and a status. -/
  unlocked : cmd.longCmd ≠ "get_lock_mode"
  status : (statusLine resp.error).length ≤ limit
  /-- A query that succeeds has its number of values. -/
  values : ∀ n, kind = .query n → resp.error = 0 → resp.values.length = n
  /-- None of the values is taken for something else. -/
  plain : ∀ value ∈ resp.values, '\n' ∉ value ∧ ¬ "RPRT ".toList <+: value ∧ value.length ≤ limit

variable {kind : Kind} {cmd : RigctldCommand} {resp : RigctldResponse} {lines : List (List UInt8)}

theorem plain_of_ascii {text : List Char} (hascii : ∀ ch ∈ text, ch.toNat < 128)
    (hunbroken : '\n' ∉ text) (hshort : text.length ≤ limit) : Plain (asciiBytes text) where
  ascii b hb := by
    obtain ⟨ch, hch, rfl⟩ := List.mem_map.mp hb
    have hsmall := hascii ch hch
    rw [UInt8.lt_iff_toNat_lt, UInt8.toNat_ofNat']
    have hbound : (128 : UInt8).toNat = 128 := rfl
    omega
  unbroken h := hunbroken ((asciiBytes_newline hascii).mp h)
  short := by
    rw [asciiBytes, List.length_map]
    exact hshort

theorem fits_status (code : Int) (hshort : (statusLine code).length ≤ limit) :
    Fits kind [asciiBytes (statusLine code)] := by
  have hchars := statusLine_chars code
  refine .status (plain_of_ascii (fun ch hch => (hchars ch hch).1) (fun h => (hchars _ h).2 rfl)
    hshort) ?_
  rw [statusLine, asciiBytes, List.map_append]
  exact List.prefix_append statusMark _

theorem mark_ascii : ∀ ch ∈ "RPRT ".toList, ch.toNat < 128 := fun ch hch =>
  (Rigctld.status_chars ch hch).1

/-- What `format_response` makes of a response that suits an exchange fits it. -/
theorem Suits.fits (h : Suits kind cmd resp) (hout : formatNormal cmd resp = some (closed 10 lines))
    (hlines : ∀ line ∈ lines, 10 ∉ line) : Fits kind lines := by
  obtain ⟨hascii, hclosed⟩ := formatNormal_lines hout
  have hunbroken : ∀ line ∈ replyLines cmd resp, '\n' ∉ line :=
    replyLines_unbroken fun value hvalue => (h.plain value hvalue).1
  have heq : lines = (replyLines cmd resp).map asciiBytes := by
    refine Words.closed_inj hlines (fun line hline => ?_) hclosed
    obtain ⟨text, htext, rfl⟩ := List.mem_map.mp hline
    rw [asciiBytes_newline (hascii text htext)]
    exact hunbroken text htext
  have hstatus0 : (statusLine 0).length ≤ limit := by decide
  have hvalues := h.values
  rw [heq]
  rw [replyLines] at hascii ⊢
  split
  · exact fits_status _ h.status
  rename_i herror
  rw [if_neg herror] at hascii
  split
  · exact fits_status 0 hstatus0
  rename_i hset
  rw [if_neg hset] at hascii
  cases kind with
  | command => exact absurd (h.isSet.mpr rfl) hset
  | query n =>
      have hn : resp.values.length = n := hvalues n rfl (not_not.mp herror)
      split
      · rename_i hnil
        rw [hnil] at hn
        subst hn
        have hnone : Fits (.query ([] : List (List UInt8)).length) [] :=
          .values fun _ hline => by cases hline
        exact hnone
      rename_i hnil
      rw [if_neg hnil, if_neg h.unlocked] at hascii
      rw [if_neg h.unlocked, ← hn, ← List.length_map (f := asciiBytes)]
      refine .values fun line hline => ?_
      obtain ⟨value, hvalue, rfl⟩ := List.mem_map.mp hline
      obtain ⟨hbreak, hmark, hshort⟩ := h.plain value hvalue
      refine ⟨plain_of_ascii (hascii value hvalue) hbreak hshort, fun hprefix => hmark ?_⟩
      exact asciiBytes_prefix (hascii value hvalue) mark_ascii hprefix

namespace RigctldTransport

variable {s s' : RigctldTransport} {x y : Exchange} {c : Connection} {k : Nat}

/-- An answer comes on a connection that the server has not closed.  To the command of the exchange
in progress it is what `format_response` makes of a response that suits it. -/
def Serving (s : RigctldTransport) (action : Action) : Prop :=
  ∀ k lines, action = .answered k lines → ∀ c ∈ s.connections[k]?, c.eof = false ∧
    ∀ x ∈ s.exchange, c.unanswered.head? = some x.id → ∃ cmd resp, Suits x.kind cmd resp ∧
      formatNormal cmd resp = some (closed 10 lines)

/-! ## Where the exchange stands in its answer -/

/-- What the exchange still waits for. -/
def owed (x : Exchange) : Kind :=
  match x.kind with
  | .query responseLines => .query (responseLines - x.lines.length)
  | .command => .command

inductive Position (x : Exchange) (c : Connection) : Prop where
  /-- The command is not answered. -/
  | asked : c.unanswered = [x.id] → c.wire = [] → c.buffer = [] → x.lines = [] →
      x.stage = .reading → Position x c
  /-- These lines of the answer are on their way, and perhaps cut off. -/
  | answered (pending : List (List UInt8)) (cut : List Byte) : c.unanswered = [] →
      x.stage = .reading → Fits (owed x) pending → pending ≠ [] →
      c.buffer ++ c.wire ++ cut = answer x.id pending → (c.eof = true → c.wire = []) → Position x c
  /-- Nothing will come any more. -/
  | spent : c.unanswered = [] → c.wire = [] → c.buffer = [] → Position x c

structure Paced (s : RigctldTransport) : Prop where
  fresh : ∀ x, s.exchange = some x → x.stage = .draining → x.lines = []
  position : ∀ (x : Exchange) (c : Connection), s.exchange = some x → x.stage ≠ .draining →
    s.current = some x.connection → s.connections[x.connection]? = some c → Position x c

/-! ### The next line -/

theorem readline_nil (h : c.buffer = []) : c.readline = .pending ∨ c.readline = .eof := by
  rw [Connection.readline, h]
  cases hend : c.eof with
  | true => exact .inr rfl
  | false => exact .inl rfl

theorem stopsBefore_nil (h : c.buffer = []) : stopsBefore x c.readline = none := by
  rcases readline_nil h with hline | hline
  · rw [hline]
    rfl
  · rw [hline]
    rfl

theorem answer_cons (owner : Nat) (line : List UInt8) (lines : List (List UInt8)) :
    answer owner (line :: lines) = line.map (Byte.mk owner) ++
      ⟨owner, 10⟩ :: answer owner lines := by
  simp [answer]

/-- The next line of the answer is read as a whole, unless the stream has ended before. -/
theorem readline_answer {line : List UInt8} {lines : List (List UInt8)} {cut : List Byte}
    {owner : Nat} (hplain : Plain line)
    (h : c.buffer ++ c.wire ++ cut = answer owner (line :: lines)) :
    (∃ rest, c.readline = .line (line.map (Byte.mk owner) ++ [⟨owner, 10⟩]) rest ∧
      rest ++ c.wire ++ cut = answer owner lines) ∨
      (c.eof = true ∧ ∃ raw, c.readline = .line raw []) ∨
      c.readline = .eof ∨ c.readline = .pending := by
  rw [answer_cons] at h
  have hsolid : ∀ b ∈ line.map (Byte.mk owner), ¬ b.value = 10 := by
    intro b hb
    obtain ⟨v, hv, rfl⟩ := List.mem_map.mp hb
    rintro rfl
    exact hplain.unbroken hv
  have hlength : (line.map (Byte.mk owner)).length ≤ limit := by
    rw [List.length_map]
    exact hplain.short
  cases hfind : c.buffer.findIdx? (·.value = 10) with
  | some i =>
      obtain ⟨hi, hhit, hbefore⟩ := List.findIdx?_eq_some_iff_getElem.mp hfind
      rw [decide_eq_true_eq] at hhit
      have hsplit : c.buffer = c.buffer.take i ++ c.buffer[i] :: c.buffer.drop (i + 1) := by
        rw [List.getElem_cons_drop, List.take_append_drop]
      have hclear : ∀ b ∈ c.buffer.take i, ¬ b.value = 10 := by
        intro b hb
        obtain ⟨j, hj, rfl⟩ := List.getElem_of_mem hb
        rw [List.length_take] at hj
        rw [List.getElem_take]
        have hmiss := hbefore j (lt_of_lt_of_le hj (min_le_left _ _))
        rwa [decide_eq_true_eq] at hmiss
      rw [hsplit, List.append_assoc, List.append_assoc, List.cons_append] at h
      obtain ⟨htake, hbyte, hrest⟩ := Words.append_cons_inj hclear hsolid hhit rfl h
      have hshort : ¬ limit < i := by
        rw [← htake, List.length_take] at hlength
        omega
      refine .inl ⟨c.buffer.drop (i + 1), ?_, ?_⟩
      · rw [Connection.readline, hfind]
        simp only
        rw [if_neg hshort, List.take_succ_eq_append_getElem hi, htake, hbyte]
      · rw [List.append_assoc]
        exact hrest
  | none =>
      have hmiss : ∀ b ∈ c.buffer, ¬ b.value = 10 := by
        intro b hb
        have hmiss := List.findIdx?_eq_none_iff.mp hfind b hb
        rwa [decide_eq_false_iff_not] at hmiss
      have hprefix : c.buffer <+: line.map (Byte.mk owner) := by
        rw [List.append_assoc] at h
        rcases List.append_eq_append_iff.mp h with ⟨more, hmore, -⟩ | ⟨more, hmore, hcut⟩
        · exact ⟨more, hmore.symm⟩
        · cases more with
          | nil => exact ⟨[], by rw [hmore, List.append_nil, List.append_nil]⟩
          | cons b more =>
              rw [List.cons_append] at hcut
              have hb := (List.cons.inj hcut).1
              refine absurd ?_ (hmiss b (by rw [hmore]; simp))
              rw [← hb]
      have hshort : ¬ limit < c.buffer.length := not_lt.mpr (le_trans hprefix.length_le hlength)
      right
      rw [Connection.readline, hfind]
      simp only
      rw [if_neg hshort]
      cases hend : c.eof with
      | false => exact .inr (.inr (if_pos (by simp)))
      | true =>
          rw [if_neg (by simp)]
          split
          · exact .inr (.inl rfl)
          · exact .inl ⟨rfl, _, rfl⟩

/-! ### What the exchange does with it -/

theorem rstrip_line (owner : Nat) {line : List UInt8} (hmark : statusMark <+: line) :
    IsStatus (line.map (Byte.mk owner) ++ [⟨owner, 10⟩]) := by
  obtain ⟨rest, rfl⟩ := hmark
  rw [IsStatus, rstrip, List.map_append, List.append_assoc, List.reverse_append]
  have hspace : (statusMark.map (Byte.mk owner)).reverse.dropWhile
      (fun b => b.value = 13 ∨ b.value = 10) = (statusMark.map (Byte.mk owner)).reverse := rfl
  rw [List.dropWhile_append]
  split
  · rw [hspace, List.reverse_reverse, List.map_map]
    exact List.prefix_refl _
  · rw [List.reverse_append, List.reverse_reverse, List.map_append, List.map_map]
    exact List.prefix_append _ _

theorem not_isStatus (owner : Nat) {line : List UInt8} (hmark : ¬ statusMark <+: line) :
    ¬ IsStatus (line.map (Byte.mk owner) ++ [⟨owner, 10⟩]) := by
  intro h
  rw [IsStatus] at h
  have hrstrip : rstrip (line.map (Byte.mk owner) ++ [⟨owner, 10⟩]) <+:
      line.map (Byte.mk owner) := by
    rw [rstrip, List.reverse_append, List.reverse_singleton, List.singleton_append,
      List.dropWhile_cons_of_pos (by simp)]
    have hsuffix := List.dropWhile_suffix (l := (line.map (Byte.mk owner)).reverse)
      fun b : Byte => decide (b.value = 13 ∨ b.value = 10)
    rw [← List.reverse_prefix, List.reverse_reverse] at hsuffix
    exact hsuffix
  have hvalues : (rstrip (line.map (Byte.mk owner) ++ [⟨owner, 10⟩])).map Byte.value <+: line := by
    have hmap := hrstrip.map Byte.value
    rw [List.map_map] at hmap
    have hid : line.map (Byte.value ∘ Byte.mk owner) = line := List.map_id line
    rwa [hid] at hmap
  exact hmark (h.trans hvalues)

theorem newline_ascii : (10 : UInt8) < 128 := by decide

/-- At a line of an answer that fits, the exchange stops if it is the last one and waits for the
others if not. -/
theorem take_answer {line : List UInt8} {lines : List (List UInt8)}
    (hfits : Fits (owed x) (line :: lines)) (hstage : x.stage = .reading) :
    let taken := x.take (line.map (Byte.mk x.id) ++ [⟨x.id, 10⟩])
    (taken.2.isSome = true → lines = []) ∧ (taken.2 = none →
      Fits (owed taken.1) lines ∧ lines ≠ [] ∧ taken.1.stage = .reading) := by
  have hascii (hplain : Plain line) : Ascii (line.map (Byte.mk x.id) ++ [⟨x.id, 10⟩]) := by
    intro b hb
    rcases List.mem_append.mp hb with hb | hb
    · obtain ⟨v, hv, rfl⟩ := List.mem_map.mp hb
      exact hplain.ascii v hv
    · rw [List.mem_singleton.mp hb]
      exact newline_ascii
  generalize howed : owed x = kind at hfits
  cases hfits with
  | status hplain hmark =>
      refine ⟨fun _ => rfl, fun hnone => ?_⟩
      have hstatus := rstrip_line x.id hmark
      rw [Exchange.take] at hnone
      cases hkind : x.kind with
      | query n =>
          rw [hkind] at hnone
          simp only at hnone
          rw [if_neg (not_not.mpr (hascii hplain)), if_pos hstatus] at hnone
          cases hnone
      | command =>
          rw [hkind] at hnone
          simp only at hnone
          rw [if_neg (fun h => h.2 (hascii hplain)), if_pos (.inl hstatus)] at hnone
          cases hnone
  | values hvalues =>
      obtain ⟨⟨hplain, hmark⟩, hmore⟩ := List.forall_mem_cons.mp hvalues
      have hstatus := not_isStatus x.id hmark
      cases hkind : x.kind with
      | command =>
          rw [owed, hkind] at howed
          cases howed
      | query n =>
          rw [owed, hkind] at howed
          simp only [Kind.query.injEq, List.length_cons] at howed
          rw [Exchange.take, hkind]
          simp only
          rw [if_neg (not_not.mpr (hascii hplain)), if_neg hstatus]
          simp only [List.length_append, List.length_singleton]
          split
          · refine ⟨fun _ => List.eq_nil_of_length_eq_zero (by omega), fun h => by cases h⟩
          · refine ⟨fun h => (by cases h), fun _ => ⟨?_, ?_, hstage⟩⟩
            · have hrest : n - (x.lines.length + 1) = lines.length := by omega
              rw [owed]
              simp only [List.length_append, List.length_singleton, hrest]
              exact .values hmore
            · rintro rfl
              rw [List.length_nil] at howed
              omega

/-- An exchange that stops has read all that there is, or the stream has ended in it. -/
theorem Paced.orderly (h : s.Paced) (hok : s.Ok) {action : Action}
    (hstep : s.step action = some s') : s.Orderly action := by
  intro x hx c hc hcurrent
  by_cases hstage : x.stage = .draining
  · have hclean := hok.idle _ c hcurrent hc fun y hy _ => by
      rw [hx] at hy
      cases hy
      exact hstage
    refine ⟨fun _ rest hrest => ?_, fun _ => ⟨hclean.wire, hclean.buffer⟩⟩
    rw [stopsBefore_nil hclean.buffer] at hrest
    cases hrest
  cases h.position x c hx hstage hcurrent hc with
  | asked _ hwire hbuffer =>
      refine ⟨fun _ rest hrest => ?_, fun _ => ⟨hwire, hbuffer⟩⟩
      rw [stopsBefore_nil hbuffer] at hrest
      cases hrest
  | spent _ hwire hbuffer =>
      refine ⟨fun _ rest hrest => ?_, fun _ => ⟨hwire, hbuffer⟩⟩
      rw [stopsBefore_nil hbuffer] at hrest
      cases hrest
  | answered pending cut _ hreading hfits hne hbytes hend =>
      refine ⟨fun _ rest hrest => ?_, fun hpassed => ?_⟩
      · obtain ⟨line, lines, rfl⟩ := List.exists_cons_of_ne_nil hne
        have hplain : Plain line := by
          generalize owed x = kind at hfits
          cases hfits with
          | values hvalues => exact (hvalues line List.mem_cons_self).1
          | status hplain _ => exact hplain
        rcases readline_answer hplain hbytes with
          ⟨left, hline, hleft⟩ | ⟨heof, raw, hline⟩ | hline | hline
        · rw [hline, stopsBefore] at hrest
          split at hrest
          · rename_i hstops
            cases hrest
            rw [(take_answer hfits hreading).1 hstops] at hleft
            obtain ⟨hleft, -⟩ := List.append_eq_nil_iff.mp hleft
            exact (List.append_eq_nil_iff.mp hleft).symm
          · cases hrest
        · rw [hline, stopsBefore] at hrest
          split at hrest
          · cases hrest
            exact ⟨hend heof, rfl⟩
          · cases hrest
        · rw [hline] at hrest
          cases hrest
        · rw [hline] at hrest
          cases hrest
      · rw [hpassed] at hstep
        obtain ⟨y, hy, hstep⟩ := Option.bind_eq_some_iff.mp hstep
        obtain ⟨d, -, hstep⟩ := Option.bind_eq_some_iff.mp hstep
        rw [hx] at hy
        cases hy
        rw [act, if_neg (by rw [hreading]; decide)] at hstep
        cases hstep

/-! ### The steps -/

theorem Paced.initial : ({} : RigctldTransport).Paced where
  fresh _ hx := by cases hx
  position _ _ hx := by cases hx

theorem Paced.idle (h : s.exchange = none) : s.Paced where
  fresh x hx := by
    rw [h] at hx
    cases hx
  position x _ hx := by
    rw [h] at hx
    cases hx

/-- The connection in place is another one, or none is. -/
theorem Paced.unset (h : s.Paced) {current : Option Nat}
    (hcurrent : ∀ x, s.exchange = some x → current ≠ some x.connection ∨ current = s.current)
    {connections : List Connection}
    (hget : ∀ x, s.exchange = some x → ∀ c, connections[x.connection]? = some c →
      s.connections[x.connection]? = some c) :
    ({ s with current, connections } : RigctldTransport).Paced where
  fresh := h.fresh
  position x c hx hstage hplace hc := by
    rcases hcurrent x hx with hother | hsame
    · exact absurd hplace hother
    · exact h.position x c hx hstage (hsame ▸ hplace) (hget x hx c hc)

/-- Something happens to one connection. -/
theorem Paced.put (h : s.Paced) (hk : s.connections[k]? = some c) {c' : Connection}
    (hposition : ∀ x, s.exchange = some x → x.stage ≠ .draining → k = x.connection →
      Position x c → Position x c') : (s.put k c').Paced where
  fresh := h.fresh
  position x d hx hstage hcurrent hd := by
    rcases put_get hk hd with ⟨hsame, rfl⟩ | ⟨-, hd⟩
    · exact hposition x hx hstage hsame.symm (h.position x c hx hstage hcurrent (hsame ▸ hk))
    · exact h.position x d hx hstage hcurrent hd

/-- The bytes of the answer move from the wire to the buffer. -/
theorem Position.deliver (h : Position x c) (count : Nat) :
    Position x { c with buffer := c.buffer ++ c.wire.take count, wire := c.wire.drop count } := by
  cases h with
  | asked hone hwire hbuffer hlines hstage =>
      refine .asked hone ?_ ?_ hlines hstage
      · simp only [hwire, List.drop_nil]
      · simp only [hwire, hbuffer, List.take_nil, List.append_nil]
  | spent hnone hwire hbuffer =>
      refine .spent hnone ?_ ?_
      · simp only [hwire, List.drop_nil]
      · simp only [hwire, hbuffer, List.take_nil, List.append_nil]
  | answered pending cut hnone hstage hfits hne hbytes hend =>
      refine .answered pending cut hnone hstage hfits hne ?_ fun heof => ?_
      · rw [← hbytes]
        simp only [List.append_assoc]
        rw [← List.append_assoc (c.wire.take count), List.take_append_drop]
      · simp only [hend heof, List.drop_nil]

/-- The server closes the connection: what has not arrived is cut off. -/
theorem Position.close (h : Position x c) :
    Position x { c with unanswered := [], wire := [], eof := true } := by
  cases h with
  | asked _ _ hbuffer => exact .spent rfl rfl hbuffer
  | spent _ _ hbuffer => exact .spent rfl rfl hbuffer
  | answered pending cut _ hstage hfits hne hbytes _ =>
      refine .answered pending (c.wire ++ cut) rfl hstage hfits hne ?_ fun _ => rfl
      rw [List.append_nil, ← List.append_assoc]
      exact hbytes

/-- The server answers the exchange. -/
theorem Position.answer {id : Nat} {ids : List Nat} {lines : List (List UInt8)}
    (h : Position x c) (hids : c.unanswered = id :: ids) (heof : c.eof = false)
    (hfits : c.unanswered.head? = some x.id → Fits x.kind lines) :
    Position x { c with unanswered := ids, wire := c.wire ++ answer id lines } := by
  cases h with
  | asked hone hwire hbuffer hlines hstage =>
      rw [hone] at hids hfits
      cases hids
      have howed : owed x = x.kind := by
        rw [owed, hlines]
        cases x.kind with
        | query n => rfl
        | command => rfl
      by_cases hne : lines = []
      · refine .spent rfl ?_ hbuffer
        rw [hne, hwire]
        rfl
      · refine .answered lines [] rfl hstage (howed ▸ hfits rfl) hne ?_ fun htrue => ?_
        · simp only [hwire, hbuffer, List.nil_append, List.append_nil]
        · rw [heof] at htrue
          cases htrue
  | spent hnone => rw [hnone] at hids; cases hids
  | answered _ _ hnone => rw [hnone] at hids; cases hids

theorem Paced.reads (h : s.Paced) (hx : s.exchange = some x)
    (hc : s.connections[x.connection]? = some c) (hstage : x.stage ≠ .draining)
    (hstep : s.reads x c = some s') : s'.Paced := by
  rw [RigctldTransport.reads] at hstep
  split at hstep
  · rename_i raw rest hline
    obtain ⟨hid, hconnection, hstage', -⟩ := x.take_spec raw
    cases htake : x.take raw with
    | mk y o =>
        rw [htake] at hstep hid hconnection hstage'
        cases o with
        | some outcome =>
            cases hstep
            exact .idle rfl
        | none =>
            cases hstep
            constructor
            · intro z hz hdraining
              cases hz
              exact absurd hdraining (hstage' hstage)
            · intro z d hz _ hcurrent hd
              cases hz
              have hself : d = { c with buffer := rest } := by
                rcases put_get hc (hconnection ▸ hd) with ⟨-, hself⟩ | ⟨hother, -⟩
                · exact hself
                · exact absurd rfl hother
              subst hself
              have hread := (readline_line hline).2
              cases h.position x c hx hstage (hconnection ▸ hcurrent) hc with
              | asked _ _ hbuffer => exact absurd hbuffer hread
              | spent _ _ hbuffer => exact absurd hbuffer hread
              | answered pending cut hnone hreading hfits hne hbytes hend =>
                  obtain ⟨line, lines, rfl⟩ := List.exists_cons_of_ne_nil hne
                  have hplain : Plain line := by
                    generalize owed x = kind at hfits
                    cases hfits with
                    | values hvalues => exact (hvalues line List.mem_cons_self).1
                    | status hplain _ => exact hplain
                  rcases readline_answer hplain hbytes with
                    ⟨left, hwhole, hleft⟩ | ⟨heof, part, hpart⟩ | hnext | hnext
                  · rw [hline, ReadLine.line.injEq] at hwhole
                    obtain ⟨rfl, rfl⟩ := hwhole
                    have hgoes := (take_answer hfits hreading).2
                    rw [htake] at hgoes
                    obtain ⟨hfits', hne', hreading'⟩ := hgoes rfl
                    exact .answered lines cut hnone hreading' hfits' hne' (hid ▸ hleft) hend
                  · rw [hline, ReadLine.line.injEq] at hpart
                    exact .spent hnone (hend heof) hpart.2
                  · rw [hline] at hnext
                    cases hnext
                  · rw [hline] at hnext
                    cases hnext
  · cases hstep
    exact .idle rfl
  · cases hstep
    exact .idle rfl
  · cases hstep

theorem Paced.act (h : s.Paced) (hok : s.Ok) (hx : s.exchange = some x)
    (hc : s.connections[x.connection]? = some c) {action : Action}
    (hstep : s.act x c action = some s') : s'.Paced := by
  rw [RigctldTransport.act.eq_def] at hstep
  split at hstep
  · split at hstep
    · cases hstep
    rename_i hdraining
    rw [not_not] at hdraining
    split at hstep
    · cases hstep
      refine h.put hc fun y hy hstage _ _ => ?_
      rw [hx] at hy
      cases hy
      exact absurd hdraining hstage
    split at hstep
    · cases hstep
      exact .idle rfl
    · cases hstep
  · split at hstep
    · rename_i hwrites
      obtain ⟨hdraining, hcurrent⟩ := hwrites
      cases hstep
      have hclean := hok.idle _ c hcurrent hc fun y hy _ => by
        rw [hx] at hy
        cases hy
        exact hdraining
      constructor
      · intro y hy hstage
        cases hy
        cases hstage
      · intro y d hy _ _ hd
        cases hy
        have hself : d = { c with unanswered := c.unanswered ++ [x.id] } := by
          rcases put_get hc hd with ⟨-, hself⟩ | ⟨hother, -⟩
          · exact hself
          · exact absurd rfl hother
        subst hself
        refine .asked ?_ hclean.wire hclean.buffer (h.fresh x hx hdraining) rfl
        simp only [hclean.unanswered, List.nil_append]
    · cases hstep
  · split at hstep
    · cases hstep
      exact .idle rfl
    · cases hstep
  · split at hstep
    · rename_i hstage
      exact h.reads hx hc hstage hstep
    · cases hstep
  · split at hstep
    · cases hstep
      exact .idle rfl
    · cases hstep
  · cases hstep
    exact .idle rfl
  · cases hstep
    exact .idle rfl
  · cases hstep

theorem Paced.step (h : s.Paced) (hok : s.Ok) {action : Action} (hserving : s.Serving action)
    (hstep : s.step action = some s') : s'.Paced := by
  have hact :
      (s.exchange.bind fun x => s.connections[x.connection]?.bind fun c => s.act x c action) =
        some s' → s'.Paced := by
    intro hbind
    obtain ⟨x, hx, hbind⟩ := Option.bind_eq_some_iff.mp hbind
    obtain ⟨c, hc, hbind⟩ := Option.bind_eq_some_iff.mp hbind
    exact h.act hok hx hc hbind
  cases action with
  | connect =>
      rw [RigctldTransport.step] at hstep
      split at hstep
      · cases hstep
        exact h
      · cases hstep
        refine h.unset (fun x hx => .inl fun hplace => ?_) fun x hx c hc => ?_
        · have hlt := hok.exchange x hx
          rw [← Option.some.inj hplace] at hlt
          exact absurd hlt (lt_irrefl _)
        · rwa [List.getElem?_append_left (hok.exchange x hx)] at hc
  | close =>
      cases hstep
      exact h.unset (fun _ _ => .inl (Option.some_ne_none _).symm) fun _ _ _ hc => hc
  | start kind =>
      rw [RigctldTransport.step.eq_def] at hstep
      simp only at hstep
      split at hstep
      · cases hstep
      · cases hstep
      · cases hstep
      · cases hstep
        constructor
        · intro x hx _
          cases hx
          rfl
        · intro x c hx hstage
          cases hx
          exact absurd rfl hstage
  | answered k lines =>
      obtain ⟨c, hc, hstep⟩ := Option.bind_eq_some_iff.mp hstep
      obtain ⟨heof, hanswer⟩ := hserving k lines rfl c hc
      split at hstep
      · cases hstep
      · rename_i id ids hids
        split at hstep
        · rename_i hlines
          cases hstep
          refine h.put hc fun x hx _ _ hposition => hposition.answer hids heof fun hhead => ?_
          obtain ⟨cmd, resp, hsuits, hformat⟩ := hanswer x hx hhead
          exact hsuits.fits hformat hlines
        · cases hstep
  | delivered k count =>
      obtain ⟨c, hc, rfl⟩ := Option.map_eq_some_iff.mp hstep
      exact h.put hc fun _ _ _ _ hposition => hposition.deliver count
  | serverClosed k =>
      obtain ⟨c, hc, rfl⟩ := Option.map_eq_some_iff.mp hstep
      exact h.put hc fun _ _ _ _ hposition => hposition.close
  | drained => exact hact hstep
  | written => exact hact hstep
  | refused => exact hact hstep
  | read => exact hact hstep
  | windowPassed => exact hact hstep
  | failed => exact hact hstep
  | cancelled => exact hact hstep

end RigctldTransport

open RigctldTransport

/-- Against a server that answers in the format of `format_response`, each exchange reads its own
answer only, and leaves no part of it behind on a connection that stays in place. -/
theorem served_in_step {s : RigctldTransport} {actions : List Action}
    (hrun : Runs.exec step {} actions = some s) (hserving : Runs.Along step Serving {} actions) :
    s.Safe := by
  have hinv (m : RigctldTransport) (action : Action) (m' : RigctldTransport) (hm : m.Ok ∧ m.Paced)
      (hserves : m.Serving action) (hstep : m.step action = some m') : m'.Ok ∧ m'.Paced := by
    obtain ⟨hok, hpaced⟩ := hm
    exact ⟨hok.step (hpaced.orderly hok hstep) hstep, hpaced.step hok hserves hstep⟩
  exact (Runs.exec_invariant_along hinv hrun hserving ⟨Ok.initial, Paced.initial⟩).1.safe

/-! The two exchanges of `inTurn` are answered by the handlers of `f` and `F`. -/

def frequencyRead : RigctldResponse := { values := ["14074000".toList] }

theorem frequencyRead_suits :
    Suits (.query 1) { shortCmd := "f", longCmd := "get_freq" } frequencyRead where
  isSet := by decide
  unlocked := by decide
  status := by decide
  values n hn _ := by
    cases hn
    rfl
  plain := by decide

theorem frequencySet_suits :
    Suits .command { shortCmd := "F", longCmd := "set_freq", isSet := true } {} where
  isSet := by decide
  unlocked := by decide
  status := by decide
  values n hn := by cases hn
  plain := by decide

/-- The answers of `inTurn`. -/
def InTurn (s : RigctldTransport) : Action → Prop
  | .answered k lines => ∀ c ∈ s.connections[k]?, c.eof = false ∧ ∀ x ∈ s.exchange,
      x.kind = .query 1 ∧ lines = [ascii "14074000"] ∨ x.kind = .command ∧ lines = [ascii "RPRT 0"]
  | _ => True

instance (s : RigctldTransport) : (action : Action) → Decidable (InTurn s action)
  | .answered _ _ => inferInstanceAs (Decidable (∀ _ ∈ _, _ ∧ ∀ _ ∈ _, _ ∨ _))
  | .connect | .close | .start _ | .drained | .written | .refused | .delivered _ _
  | .serverClosed _ | .read | .windowPassed | .failed | .cancelled => .isTrue trivial

theorem InTurn.serving {s : RigctldTransport} {action : Action} (h : InTurn s action) :
    s.Serving action := by
  rintro k lines rfl c hc
  obtain ⟨heof, hlines⟩ := h c hc
  refine ⟨heof, fun x hx _ => ?_⟩
  rcases hlines x hx with ⟨hkind, rfl⟩ | ⟨hkind, rfl⟩
  · exact ⟨_, _, hkind ▸ frequencyRead_suits, by decide +kernel⟩
  · exact ⟨_, _, hkind ▸ frequencySet_suits, by decide +kernel⟩

theorem served_in_turn : ∃ s, Runs.exec step {} inTurn = some s ∧
    s.ended.map Ended.outcome = [.parsed, .returned] ∧ s.Safe := by
  have hany : (Runs.exec step {} inTurn).any
      (fun s => s.ended.map Ended.outcome = [.parsed, .returned]) = true := by decide +kernel
  obtain ⟨s, hrun, hended⟩ := (Option.any_eq_true _ _).mp hany
  have halong : Runs.Along step InTurn {} inTurn := by decide +kernel
  exact ⟨s, hrun, of_decide_eq_true hended, served_in_step hrun
    (halong.mono fun _ _ h => h.serving)⟩

end Rigplane.RigctldClient
