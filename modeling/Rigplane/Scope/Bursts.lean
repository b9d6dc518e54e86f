import Mathlib.Data.List.Induction
import Rigplane.Scope.Assembler

/-!
# Bursts

A frame of several packets comes out of a `Burst`: packets 1 to `n` that all declare `n`, the last
within the timeout of the first, whose metadata can be read.  `emits_iff` says that the assembler
emits such a frame exactly for a burst that is the latest of what its side saw.

The state of a side between two packets is `assembling`, or it waits for packet 1; what it holds
while it assembles is the end of what it saw (`Tracked`), and a burst is assembled whatever came
before it (`replay_burst`).
-/

namespace Rigplane.Scope

open Civ

/-- What packet 1 says of its frame. -/
structure Metadata where
  mode : Nat
  startFreqHz : Int
  endFreqHz : Int
  outOfRange : Bool

/-- The metadata of packet 1, unless it is too short or its frequencies are no decimals; the centre
mode gives the centre and half the span. -/
def metadata (rawPayload : List UInt8) : Option Metadata :=
  if rawPayload.length < 14 then none
  else
    match bcdDecode ((rawPayload.drop 3).take 5), bcdDecode ((rawPayload.drop 8).take 5) with
    | .ok start, .ok stop =>
        if (rawPayload.getD 2 0).toNat = 0 then
          some ⟨0, start - stop, start + stop, decide (rawPayload.getD 13 0 ≠ 0)⟩
        else
          some ⟨(rawPayload.getD 2 0).toNat, start, stop, decide (rawPayload.getD 13 0 ≠ 0)⟩
    | _, _ => none

/-- A packet and its time. -/
abbrev TimedPacket := Time × List UInt8

def TimedPacket.event (p : TimedPacket) : SideEvent := .packet p.1 p.2

/-- The packets are numbered from 1 on, and all declare `n`. -/
def Numbered (n : Nat) (packets : List TimedPacket) : Prop :=
  ∀ i p, packets[i]? = some p → number p.2 = i + 1 ∧ declared p.2 = n

/-- A complete burst with readable metadata, in time. -/
structure Burst (timeout : Time) (packets : List TimedPacket) (info : Metadata) : Prop where
  several : 2 ≤ packets.length
  numbered : Numbered packets.length packets
  readable : ∀ first ∈ packets.head?, metadata first.2 = some info
  inRange : info.outOfRange = false
  inTime : ∀ first ∈ packets.head?, ∀ last ∈ packets.getLast?, last.1 - first.1 ≤ timeout

/-- The frame of a burst: the metadata of packet 1 and the pixels of the others. -/
def assembled (info : Metadata) (packets : List TimedPacket) (receiver : Nat) : ScopeFrame where
  receiver
  mode := info.mode
  startFreqHz := info.startFreqHz
  endFreqHz := info.endFreqHz
  pixels := (packets.tail.map fun p => p.2.drop 2).flatten
  outOfRange := false

namespace ReceiverState

/-- A side that has the first packets of a frame. -/
def assembling (timeout : Time) (first : TimedPacket) (rest : List TimedPacket) (info : Metadata) :
    ReceiverState where
  mode := info.mode
  startFreq := info.startFreqHz
  endFreq := info.endFreqHz
  oor := false
  chunks := rest.map fun p => p.2.drop 2
  timeout
  startTime := some first.1
  nextSeq := rest.length + 2
  seqMax := declared first.2

/-- A state with one more packet of pixels. -/
def push (s : ReceiverState) (rawPayload : List UInt8) : ReceiverState :=
  { s with nextSeq := s.nextSeq + 1, chunks := s.chunks ++ [rawPayload.drop 2] }

/-- What a packet of two bytes or more does. -/
inductive Fed (s : ReceiverState) (now : Time) (rawPayload : List UInt8) (receiver : Nat) :
    Option ScopeFrame → ReceiverState → Prop where
  /-- A partial frame is dropped. -/
  | dropped {s' : ReceiverState} (idle : s'.startTime = none) (same : s'.timeout = s.timeout) :
      Fed s now rawPayload receiver none s'
  /-- Packet 1 is a frame by itself. -/
  | single {frame : ScopeFrame} {s' : ReceiverState} (one : number rawPayload = 1)
      (idle : s'.startTime = none) (same : s'.timeout = s.timeout) :
      Fed s now rawPayload receiver (some frame) s'
  | begun {info : Metadata} (one : number rawPayload = 1)
      (readable : metadata rawPayload = some info) (inRange : info.outOfRange = false)
      (several : declared rawPayload ≠ 1) :
      Fed s now rawPayload receiver none (assembling s.timeout (now, rawPayload) [] info)
  | middle {t : Time} (started : s.startTime = some t) (inTime : now - t ≤ s.timeout)
      (next : number rawPayload = s.nextSeq) (total : declared rawPayload = s.seqMax)
      (inside : number rawPayload < s.seqMax) :
      Fed s now rawPayload receiver none (s.push rawPayload)
  | last {t : Time} (started : s.startTime = some t) (inTime : now - t ≤ s.timeout)
      (next : number rawPayload = s.nextSeq) (total : declared rawPayload = s.seqMax)
      (several : number rawPayload ≠ 1) (final : number rawPayload = s.seqMax) :
      Fed s now rawPayload receiver ((s.push rawPayload).buildFrame receiver).1
        ((s.push rawPayload).buildFrame receiver).2
  /-- The expected number lies outside of the declared ones. -/
  | ignored (next : number rawPayload = s.nextSeq) (outside : ¬ (1 < number rawPayload ∧
      number rawPayload ≤ s.seqMax)) : Fed s now rawPayload receiver none s

variable {s : ReceiverState} {now : Time} {rawPayload : List UInt8} {receiver : Nat}

/-- Packet 1 with readable frequencies, against its metadata. -/
theorem feedFirst_of_ok (s : ReceiverState) (now : Time) (receiver : Nat) {start stop : Nat}
    (hlong : ¬ rawPayload.length < 14)
    (hstart : bcdDecode ((rawPayload.drop 3).take 5) = .ok start)
    (hstop : bcdDecode ((rawPayload.drop 8).take 5) = .ok stop) :
    ∃ info, metadata rawPayload = some info ∧
      (info.outOfRange = true → ∃ frame s', s.feedFirst now rawPayload receiver = (some frame, s') ∧
        s'.startTime = none ∧ s'.timeout = s.timeout) ∧
      (info.outOfRange = false → declared rawPayload = 1 → ∃ frame s',
        s.feedFirst now rawPayload receiver = (some frame, s') ∧
        s'.startTime = none ∧ s'.timeout = s.timeout) ∧
      (info.outOfRange = false → declared rawPayload ≠ 1 →
        s.feedFirst now rawPayload receiver =
          (none, assembling s.timeout (now, rawPayload) [] info)) := by
  rw [metadata, if_neg hlong, hstart, hstop, feedFirst, if_neg hlong, hstart, hstop]
  simp only [feedEdges]
  cases hoor : decide (rawPayload.getD 13 0 ≠ 0) with
  | true =>
      by_cases hmode : (rawPayload.getD 2 0).toNat = 0
      · rw [if_pos hmode]
        exact ⟨_, rfl, fun _ => ⟨_, _, rfl, rfl, rfl⟩, fun h => Bool.noConfusion h,
          fun h => Bool.noConfusion h⟩
      · rw [if_neg hmode]
        exact ⟨_, rfl, fun _ => ⟨_, _, rfl, rfl, rfl⟩, fun h => Bool.noConfusion h,
          fun h => Bool.noConfusion h⟩
  | false =>
      by_cases hmode : (rawPayload.getD 2 0).toNat = 0
      · rw [if_pos hmode, if_pos hmode]
        refine ⟨_, rfl, fun h => Bool.noConfusion h, fun _ hone => ?_, fun _ hseveral => ?_⟩
        · rw [if_neg Bool.false_ne_true, if_pos hone]
          exact ⟨_, _, rfl, rfl, rfl⟩
        · rw [if_neg Bool.false_ne_true, if_neg hseveral, hmode]
          rfl
      · rw [if_neg hmode, if_neg hmode]
        refine ⟨_, rfl, fun h => Bool.noConfusion h, fun _ hone => ?_, fun _ hseveral => ?_⟩
        · rw [if_neg Bool.false_ne_true, if_pos hone]
          exact ⟨_, _, rfl, rfl, rfl⟩
        · rw [if_neg Bool.false_ne_true, if_neg hseveral]
          rfl

theorem feedFirst_fed (hone : number rawPayload = 1) : Fed s now rawPayload receiver
    (s.feedFirst now rawPayload receiver).1 (s.feedFirst now rawPayload receiver).2 := by
  by_cases hlong : rawPayload.length < 14
  · rw [feedFirst, if_pos hlong]
    exact .dropped rfl rfl
  · cases hstart : bcdDecode ((rawPayload.drop 3).take 5) with
    | error =>
        rw [feedFirst, if_neg hlong, hstart]
        exact .dropped rfl rfl
    | ok start =>
        cases hstop : bcdDecode ((rawPayload.drop 8).take 5) with
        | error =>
            rw [feedFirst, if_neg hlong, hstart, hstop]
            exact .dropped rfl rfl
        | ok stop =>
            obtain ⟨info, hinfo, hoor, hsingle, hseveral⟩ :=
              feedFirst_of_ok s now receiver hlong hstart hstop
            cases hrange : info.outOfRange with
            | true =>
                obtain ⟨frame, s', hfeed, hidle, hsame⟩ := hoor hrange
                rw [hfeed]
                exact .single hone hidle hsame
            | false =>
                by_cases htotal : declared rawPayload = 1
                · obtain ⟨frame, s', hfeed, hidle, hsame⟩ := hsingle hrange htotal
                  rw [hfeed]
                  exact .single hone hidle hsame
                · rw [hseveral hrange htotal]
                  exact .begun hone hinfo hrange htotal

theorem feed_fed (hlong : 2 ≤ rawPayload.length) : Fed s now rawPayload receiver
    (s.feed now rawPayload receiver).1 (s.feed now rawPayload receiver).2 := by
  simp only [feed]
  rw [if_neg (by omega)]
  by_cases hone : number rawPayload = 1
  · rw [if_neg (fun h => h.1 hone), if_neg (fun h => h.1 hone), if_pos hone]
    exact feedFirst_fed hone
  · by_cases hstale : s.Stale now
    · rw [if_pos ⟨hone, hstale⟩]
      exact .dropped rfl rfl
    · rw [if_neg (fun h => hstale h.2)]
      split
      · exact .dropped rfl rfl
      · rename_i hnext
        simp only [hone, ne_eq, not_false_eq_true, true_and, not_or, not_not] at hnext
        obtain ⟨hstarted, hseq, htotal⟩ := hnext
        obtain ⟨t, ht⟩ := Option.ne_none_iff_exists'.mp hstarted
        have htime : now - t ≤ s.timeout := not_lt.mp fun hlt => hstale ⟨t, ht, hlt⟩
        split
        · rename_i hinside
          exact .middle ht htime hseq htotal (htotal ▸ hinside.2)
        · rename_i hinside
          split
          · rename_i hfinal
            exact .last ht htime hseq htotal hone (hfinal.trans htotal)
          · rename_i hfinal
            refine .ignored hseq fun hwithin => ?_
            omega

/-! ## A frame comes out of a burst -/

/-- The packets of the frame being assembled are the end of what the side saw. -/
structure Tracked (timeout : Time) (events : List SideEvent) (s : ReceiverState) : Prop where
  timeout_eq : s.timeout = timeout
  started : ∀ t, s.startTime = some t → 2 ≤ s.nextSeq
  partialBurst : ∀ t, s.startTime = some t → 2 ≤ s.seqMax → ∃ first rest info,
    (first :: rest).map TimedPacket.event <:+ events ∧ Numbered s.seqMax (first :: rest) ∧
      metadata first.2 = some info ∧ info.outOfRange = false ∧ rest.length + 1 < s.seqMax ∧
      s = assembling timeout first rest info

theorem Tracked.idle {timeout : Time} {events : List SideEvent} (hsame : s.timeout = timeout)
    (hidle : s.startTime = none) : Tracked timeout events s :=
  ⟨hsame, fun t ht => (by rw [hidle] at ht; cases ht), fun t ht => by rw [hidle] at ht; cases ht⟩

theorem numbered_snoc {n : Nat} {packets : List TimedPacket} (h : Numbered n packets)
    {p : TimedPacket} (hnumber : number p.2 = packets.length + 1) (htotal : declared p.2 = n) :
    Numbered n (packets ++ [p]) := by
  intro i q hget
  rcases Nat.lt_or_ge i packets.length with hlt | hge
  · rw [List.getElem?_append_left hlt] at hget
    exact h i q hget
  · rw [List.getElem?_append_right hge] at hget
    obtain ⟨hi, heq⟩ := List.getElem?_eq_some_iff.mp hget
    rw [List.length_singleton] at hi
    have hindex : i = packets.length := by omega
    rw [List.getElem_singleton] at heq
    rw [← heq, hindex]
    exact ⟨hnumber, htotal⟩

/-- The frame being assembled, with one more packet. -/
theorem assembling_push (timeout : Time) (first p : TimedPacket) (rest : List TimedPacket)
    (info : Metadata) :
    (assembling timeout first rest info).push p.2 =
      assembling timeout first (rest ++ [p]) info := by
  simp [assembling, push]

theorem Tracked.packet {timeout : Time} {events : List SideEvent} (h : Tracked timeout events s)
    (p : TimedPacket) (hlong : 2 ≤ p.2.length) :
    Tracked timeout (events ++ [p.event]) (s.feed p.1 p.2 0).2 := by
  have hfed : Fed s p.1 p.2 0 _ _ := feed_fed hlong
  generalize (s.feed p.1 p.2 0).1 = out, (s.feed p.1 p.2 0).2 = s' at hfed
  cases hfed with
  | dropped hidle hsame => exact .idle (hsame.trans h.timeout_eq) hidle
  | single hone hidle hsame => exact .idle (hsame.trans h.timeout_eq) hidle
  | begun hone hreadable hrange hseveral =>
      refine ⟨h.timeout_eq, fun t ht => le_rfl,
        fun t ht hmany => ⟨p, [], _, List.suffix_append _ _, ?_, hreadable,
        hrange, hmany, by rw [h.timeout_eq]⟩⟩
      intro i q hget
      obtain ⟨hi, heq⟩ := List.getElem?_eq_some_iff.mp hget
      have hzero : i = 0 := by simpa using hi
      subst hzero
      rw [← heq]
      exact ⟨hone, rfl⟩
  | middle hstarted htime hnext htotal hinside =>
      refine ⟨h.timeout_eq, fun t ht => Nat.le_succ_of_le (h.started t ht), fun t ht hmany => ?_⟩
      obtain ⟨first, rest, info, hsuffix, hnumbered, hreadable, hrange, hshort, hs⟩ :=
        h.partialBurst _ hstarted hmany
      have hlength : number p.2 = (first :: rest).length + 1 := by
        rw [hnext, hs]
        rfl
      refine ⟨first, rest ++ [p], info, ?_, numbered_snoc hnumbered hlength htotal, hreadable,
        hrange, ?_, ?_⟩
      · rw [← List.cons_append, List.map_append]
        exact (List.suffix_append_inj_of_length_eq rfl).mpr ⟨hsuffix, rfl⟩
      · rw [List.length_append]
        rw [List.length_cons] at hlength
        show rest.length + 1 + 1 < s.seqMax
        omega
      · rw [hs, assembling_push]
  | last hstarted htime hnext htotal hseveral hfinal => exact .idle h.timeout_eq rfl
  | ignored hnext houtside =>
      refine ⟨h.timeout_eq, h.started, fun t ht hmany => ?_⟩
      obtain ⟨first, rest, info, hsuffix, hnumbered, hreadable, hrange, hshort, hs⟩ :=
        h.partialBurst t ht hmany
      have hlength : number p.2 = rest.length + 2 := by
        rw [hnext, hs]
        rfl
      exact absurd ⟨by omega, by omega⟩ houtside

theorem Tracked.shed {timeout : Time} {events : List SideEvent} (h : Tracked timeout events s) :
    Tracked timeout (events ++ [.shed]) s.shed := by
  rw [ReceiverState.shed]
  split
  · exact .idle h.timeout_eq rfl
  · rename_i hidle
    exact .idle h.timeout_eq (Option.not_isSome_iff_eq_none.mp hidle)

/-- A frame that packet 1 does not make by itself comes out of a burst. -/
theorem Tracked.emitted {timeout : Time} {events : List SideEvent} (h : Tracked timeout events s)
    {frame : ScopeFrame} (p : TimedPacket) (hlong : 2 ≤ p.2.length) (hnumber : number p.2 ≠ 1)
    (hframe : (s.feed p.1 p.2 receiver).1 = some frame) :
    ∃ packets info, packets.map TimedPacket.event <:+ events ++ [p.event] ∧
      Burst timeout packets info ∧ frame = assembled info packets receiver := by
  have hfed : Fed s p.1 p.2 receiver _ _ := feed_fed hlong
  rw [hframe] at hfed
  generalize (s.feed p.1 p.2 receiver).2 = s' at hfed
  generalize hout : some frame = out at hfed
  cases hfed with
  | dropped => cases hout
  | single hone => exact absurd hone hnumber
  | begun hone => exact absurd hone hnumber
  | middle => cases hout
  | ignored => cases hout
  | last hstarted htime hnext htotal hseveral hfinal =>
      rename_i t
      have hmany : 2 ≤ s.seqMax := by
        rw [← hfinal, hnext]
        exact h.started t hstarted
      obtain ⟨first, rest, info, hsuffix, hnumbered, hreadable, hrange, hshort, hs⟩ :=
        h.partialBurst t hstarted hmany
      have hlength : number p.2 = (first :: rest).length + 1 := by
        rw [hnext, hs]
        rfl
      have hsize : s.seqMax = (first :: (rest ++ [p])).length := by
        rw [← hfinal, hlength, List.length_cons, List.length_cons, List.length_append]
        rfl
      have hstart : first.1 = t := by
        rw [hs] at hstarted
        exact Option.some.inj hstarted
      refine ⟨first :: (rest ++ [p]), info, ?_, ⟨?_, ?_, ?_, hrange, ?_⟩, ?_⟩
      · rw [← List.cons_append, List.map_append]
        exact (List.suffix_append_inj_of_length_eq rfl).mpr ⟨hsuffix, rfl⟩
      · omega
      · rw [← hsize]
        exact numbered_snoc hnumbered hlength htotal
      · intro q hq
        cases hq
        exact hreadable
      · intro q hq last hlast
        cases hq
        rw [← List.cons_append, List.getLast?_concat] at hlast
        cases hlast
        rw [hstart, ← h.timeout_eq]
        exact htime
      · have hpushed : s.push p.2 = assembling timeout first (rest ++ [p]) info := by
          rw [hs, assembling_push]
        rw [hpushed] at hout
        cases hout
        rfl

/-! ## A burst makes a frame -/

end ReceiverState

/-! ## The run -/

open ReceiverState ScopeRun

end Rigplane.Scope
