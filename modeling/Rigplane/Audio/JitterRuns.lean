import Mathlib.Data.List.Infix
import Rigplane.Audio.JitterBuffer

/-!
# Runs of the jitter buffer

Packets are pushed, and at the end the buffer is flushed.  The first packet's number is position 0,
and every slot returned moves the expected number by one, so a packet that is accepted has a
position: the slots returned so far and its distance from the expected number.

`accepted` lists what was accepted with its position, and `returned` what the calls returned.  At
every position stands what was accepted there, less what a flush cleared (`Kept.conserved`); a run
loses nothing if and only if every flush finds the buffer straight (`returns_iff`).
-/

namespace Rigplane.Audio

open Circular

variable {D : Type}

namespace JitterBuffer

/-- No held number is farther ahead than the largest one, or than `5 * depth`. -/
def Straight (jb : JitterBuffer D) : Prop :=
  ∀ seq ∈ jb.nextSeq, ∀ maxSeq ∈ (jb.buffer.keys.map BitVec.toNat).max?, ∀ key ∈ jb.buffer.keys,
    ahead seq key ≤ ahead seq (BitVec.ofNat 16 maxSeq) ∧ ahead seq key ≤ 5 * jb.depth

/-- The packet is accepted and one too many. -/
def Overflows (jb : JitterBuffer D) (packet : AudioPacket D) : Prop :=
  jb.Accepts packet ∧ jb.maxHeld < (jb.insert packet).pending

/-- Every flush finds the buffer straight, the last one included. -/
def StraightFlushes : JitterBuffer D → List (AudioPacket D) → Prop
  | jb, [] => jb.Straight
  | jb, packet :: packets =>
      (jb.Overflows packet → (jb.insert packet).Straight) ∧
        StraightFlushes (jb.push packet).2 packets

end JitterBuffer

/-- A jitter buffer, what it accepted and what it returned. -/
structure JitterRun (D : Type) where
  jitter : JitterBuffer D
  accepted : List (Nat × AudioPacket D) := []
  returned : List (Option (AudioPacket D)) := []

namespace JitterRun

/-- The position of a packet. -/
def position (run : JitterRun D) (packet : AudioPacket D) : Nat :=
  run.returned.length + ahead (run.jitter.expected packet) packet.sendSeq

def push (run : JitterRun D) (packet : AudioPacket D) : JitterRun D where
  jitter := (run.jitter.push packet).2
  accepted :=
    if run.jitter.Accepts packet then run.accepted ++ [(run.position packet, packet)]
    else run.accepted
  returned := run.returned ++ (run.jitter.push packet).1

def flush (run : JitterRun D) : JitterRun D :=
  { run with
    jitter := run.jitter.flush.2
    returned := run.returned ++ run.jitter.flush.1 }

/-- The packets pushed into a new buffer. -/
def heard (depth : Nat) (packets : List (AudioPacket D)) : JitterRun D :=
  packets.foldl push { jitter := { depth } }

/-- The packets accepted at a position. -/
def acceptedAt (run : JitterRun D) (i : Nat) : List (AudioPacket D) :=
  (run.accepted.filter (·.1 = i)).map (·.2)

/-! ## What a run keeps -/

/-- The slots returned and those to come. -/
def line (run : JitterRun D) (seq : BitVec 16) : Stream' (Option (AudioPacket D)) :=
  run.returned ++ₛ slots run.jitter.buffer seq

/-- The number expected next. -/
def cursor (first : BitVec 16) (run : JitterRun D) : BitVec 16 :=
  first + BitVec.ofNat 16 run.returned.length

/-- What every run keeps, of which the flushes cleared so much at each position. -/
structure Kept (first : BitVec 16) (lost : Nat → List (AudioPacket D)) (run : JitterRun D) :
    Prop where
  nextSeq_eq : run.jitter.nextSeq = some (run.cursor first)
  held : ∀ key packet, run.jitter.buffer.get? key = some packet →
    packet.sendSeq = key ∧ ahead (run.cursor first) key ≤ 0x8000
  numbered : ∀ entry ∈ run.accepted, entry.2.sendSeq = first + BitVec.ofNat 16 entry.1
  conserved : ∀ i, run.acceptedAt i = lost i ++ ((run.line (run.cursor first)).get i).toList

variable {first : BitVec 16} {lost : Nat → List (AudioPacket D)} {run : JitterRun D}
  {played : Played D}

theorem Kept.begin (depth : Nat) (first : BitVec 16) :
    Kept (D := D) first (fun _ => []) { jitter := { depth, nextSeq := some first } } where
  nextSeq_eq := by
    rw [cursor]
    exact congrArg some (BitVec.add_zero first).symm
  held := fun key packet hget => by cases hget
  numbered := fun entry hmem => by cases hmem
  conserved := fun i => by
    rw [line, slots_empty]
    rfl

/-! ### Accepting -/

theorem get_line_ge (i : Nat) (seq : BitVec 16) :
    (run.line seq).get (run.returned.length + i) = (slots run.jitter.buffer seq).get i := by
  rw [line, Stream'.get_append_right]

theorem slots_set {buffer : Dict (BitVec 16) (AudioPacket D)} (seq key : BitVec 16)
    (packet : AudioPacket D) (i : Nat) : (slots (buffer.set key packet) seq).get i =
      if i = ahead seq key then some packet else (slots buffer seq).get i := by
  split
  · rename_i hi
    rw [hi, slots_ahead, Dict.get?_set_self]
  · rename_i hi
    ext other
    rw [slots_get_eq_some, slots_get_eq_some]
    refine exists_congr fun key' => and_congr_left fun hahead => ?_
    have hne : key' ≠ key := fun heq => hi (heq ▸ hahead.symm)
    rw [Dict.get?_set_ne _ _ hne]

theorem acceptedAt_snoc (run : JitterRun D) (entry : Nat × AudioPacket D) (i : Nat) :
    acceptedAt { run with accepted := run.accepted ++ [entry] } i =
      run.acceptedAt i ++ if i = entry.1 then [entry.2] else [] := by
  rw [acceptedAt, acceptedAt, List.filter_append, List.map_append]
  by_cases hi : entry.1 = i
  · rw [if_pos hi.symm, List.filter_singleton, decide_eq_true hi]
    rfl
  · rw [if_neg (Ne.symm hi), List.filter_singleton, decide_eq_false hi]
    rfl

/-- A packet takes its place in the line. -/
theorem Kept.insert (h : Kept first lost run) {packet : AudioPacket D}
    (haccepts : run.jitter.Accepts packet) : Kept first lost
      { jitter := run.jitter.insert packet
        accepted := run.accepted ++ [(run.position packet, packet)]
        returned := run.returned } := by
  obtain ⟨hfree, hnear⟩ := haccepts
  have hexpected : run.jitter.expected packet = run.cursor first := by
    rw [JitterBuffer.expected, h.nextSeq_eq]
    rfl
  rw [hexpected] at hnear
  constructor
  · exact congrArg some hexpected
  · intro key other hget
    change (run.jitter.buffer.set packet.sendSeq packet).get? key = some other at hget
    rw [Dict.get?_set] at hget
    split at hget
    · rename_i hkey
      cases hget
      rw [hkey]
      exact ⟨rfl, hnear⟩
    · exact h.held key other hget
  · intro entry hmem
    rcases List.mem_append.mp hmem with hmem | hmem
    · exact h.numbered entry hmem
    · rw [List.mem_singleton.mp hmem, position, hexpected]
      show packet.sendSeq = first + BitVec.ofNat 16 (run.returned.length + _)
      rw [BitVec.ofNat_add, ← BitVec.add_assoc]
      exact (add_ofNat_ahead (run.cursor first) packet.sendSeq).symm
  · intro i
    refine (acceptedAt_snoc run (run.position packet, packet) i).trans ?_
    rw [h.conserved i, position, hexpected, List.append_assoc]
    congr 1
    show _ = ((run.returned ++ₛ slots (run.jitter.buffer.set packet.sendSeq packet)
      (run.cursor first)).get i).toList
    rcases Nat.lt_or_ge i run.returned.length with hlt | hge
    · rw [if_neg (by omega), List.append_nil, line, Stream'.get_append_left _ _ _ hlt,
        Stream'.get_append_left _ _ _ hlt]
    · obtain ⟨j, rfl⟩ := Nat.exists_eq_add_of_le hge
      rw [get_line_ge, Stream'.get_append_right, slots_set]
      by_cases hj : j = ahead (run.cursor first) packet.sendSeq
      · rw [if_pos (by omega), if_pos hj, hj, slots_ahead, hfree]
        rfl
      · rw [if_neg (by omega), if_neg hj, List.append_nil]

/-! ### Taking slots off the line -/

/-- A loop of the buffer ran. -/
def resume (run : JitterRun D) (played : Played D) : JitterRun D :=
  { run with
    jitter := run.jitter.resume played
    returned := run.returned ++ played.result }

theorem cursor_resume (h : Advanced run.jitter.buffer (run.cursor first) played) :
    cursor first (run.resume played) = played.nextSeq := by
  rw [h.nextSeq_eq, cursor, cursor, BitVec.add_assoc, ← BitVec.ofNat_add]
  exact congrArg (fun n => first + BitVec.ofNat 16 n) List.length_append

theorem Kept.resume (h : Kept first lost run)
    (hadvanced : Advanced run.jitter.buffer (run.cursor first) played) :
    Kept first lost (run.resume played) := by
  have hcursor := cursor_resume hadvanced
  constructor
  · rw [hcursor]
    rfl
  · intro key packet hget
    obtain ⟨hheld, hahead⟩ := hadvanced.held key packet hget
    obtain ⟨hseq, hnear⟩ := h.held key packet hheld
    rw [hcursor]
    exact ⟨hseq, by omega⟩
  · exact h.numbered
  · intro i
    have hline : (run.resume played).line played.nextSeq = run.line (run.cursor first) := by
      rw [line, line, ← hadvanced.slots_eq, ← Stream'.append_append_stream]
      rfl
    rw [hcursor, hline]
    exact h.conserved i

/-! ### Clearing -/

/-- What stands at a position that was not reached. -/
def unreached (run : JitterRun D) (seq : BitVec 16) (i : Nat) : List (AudioPacket D) :=
  if i < run.returned.length then [] else ((run.line seq).get i).toList

theorem unreached_eq_nil (run : JitterRun D) (seq : BitVec 16) :
    (∀ i, run.unreached seq i = []) ↔ ∀ key, run.jitter.buffer.get? key = none := by
  constructor
  · intro hnone key
    have hslot := hnone (run.returned.length + ahead seq key)
    rw [unreached, if_neg (by omega), get_line_ge, slots_ahead] at hslot
    exact Option.toList_eq_nil_iff.mp hslot
  · intro hempty i
    rw [unreached]
    split
    · rfl
    · rename_i hge
      obtain ⟨j, rfl⟩ := Nat.exists_eq_add_of_le (Nat.le_of_not_lt hge)
      rw [get_line_ge, Option.toList_eq_nil_iff]
      by_contra hne
      obtain ⟨packet, hslot⟩ := Option.ne_none_iff_exists'.mp hne
      obtain ⟨key, hget, -⟩ := slots_eq_some hslot
      rw [hempty key] at hget
      cases hget

/-- The buffer is cleared. -/
def clear (run : JitterRun D) : JitterRun D :=
  { run with jitter := { run.jitter with buffer := .empty } }

theorem Kept.clear (h : Kept first lost run) :
    Kept first (fun i => lost i ++ run.unreached (run.cursor first) i) run.clear where
  nextSeq_eq := h.nextSeq_eq
  held := fun key packet hget => by cases hget
  numbered := h.numbered
  conserved := fun i => by
    have hline : run.clear.line (run.cursor first) = run.returned ++ₛ Stream'.const none := by
      rw [line, ← slots_empty]
      rfl
    show run.acceptedAt i = _ ++ ((run.clear.line (run.cursor first)).get i).toList
    rw [h.conserved i, hline, List.append_assoc, unreached]
    split
    · rename_i hlt
      rw [line, Stream'.get_append_left _ _ _ hlt, Stream'.get_append_left _ _ _ hlt]
      rfl
    · rename_i hge
      obtain ⟨j, rfl⟩ := Nat.exists_eq_add_of_le (Nat.le_of_not_lt hge)
      rw [Stream'.get_append_right, Stream'.get_const]
      exact congrArg _ (List.append_nil _).symm

/-! ### Flushing -/

theorem keys_near (h : Kept first lost run) : ∀ key ∈ run.jitter.buffer.keys,
    ahead (run.cursor first) key ≤ 0x8000 := fun key hkey => by
  obtain ⟨packet, hget⟩ := Dict.mem_keys.mp hkey
  exact (h.held key packet hget).2

/-- A flush reaches every held number if and only if the buffer is straight. -/
theorem flushed_buffer {jb : JitterBuffer D} {seq : BitVec 16} {maxSeq : Nat}
    (hseq : jb.nextSeq = some seq) (hmax : (jb.buffer.keys.map BitVec.toNat).max? = some maxSeq)
    (hnear : ∀ key ∈ jb.buffer.keys, ahead seq key ≤ 0x8000) :
    (∀ key, (jb.flushed seq maxSeq).buffer.get? key = none) ↔ jb.Straight := by
  obtain ⟨top, htop, rfl⟩ := List.mem_map.mp (List.max?_mem hmax)
  have hstop : ahead seq (BitVec.ofNat 16 (top.toNat + 1)) = ahead seq top + 1 := by
    have hone : ahead top (top + 1) = 1 := ahead_add_ofNat top (by decide : 1 < 2 ^ 16)
    have htop' := hnear top htop
    have hsum : ahead seq (top + 1) = ahead seq top + 1 := by
      rw [← hone]
      exact ahead_trans (by omega)
    rw [BitVec.ofNat_add, BitVec.ofNat_toNat, BitVec.setWidth_eq]
    exact hsum
  have hlength : (jb.flushed seq top.toNat).result.length =
      min (ahead seq top + 1) (5 * jb.depth + 1) := by
    rw [JitterBuffer.flushed, length_flushLoop, hstop, JitterBuffer.maxHeld]
    omega
  have hadvanced : Advanced jb.buffer seq (jb.flushed seq top.toNat) := flushLoop_spec _ _ _ _
  rw [hadvanced.buffer_eq_empty, hlength, JitterBuffer.Straight, hseq, hmax]
  constructor
  · intro hall seq' hseq' maxSeq' hmax' key hkey
    cases hseq'
    cases hmax'
    have hlt := hall key hkey
    rw [BitVec.ofNat_toNat, BitVec.setWidth_eq]
    omega
  · intro hstraight key hkey
    obtain ⟨hle, hfive⟩ := hstraight seq rfl top.toNat rfl key hkey
    rw [BitVec.ofNat_toNat, BitVec.setWidth_eq] at hle
    omega

/-- A flush loses nothing if and only if the buffer is straight. -/
theorem Kept.flush (h : Kept first lost run) : ∃ lost', Kept first lost' run.flush ∧
    ((∀ i, lost' i = []) ↔ (∀ i, lost i = []) ∧ run.jitter.Straight) ∧
    run.flush.jitter.pending = 0 := by
  have hseq := h.nextSeq_eq
  cases hmax : (run.jitter.buffer.keys.map BitVec.toNat).max? with
  | none =>
      have hempty : run.jitter.buffer.keys = [] :=
        List.map_eq_nil_iff.mp (List.max?_eq_none_iff.mp hmax)
      have hflush : run.jitter.flush = ([], run.jitter) := by
        rw [JitterBuffer.flush, JitterBuffer.flushAll, hmax]
      have hstraight : run.jitter.Straight := fun _ _ maxSeq hmem => by
        rw [hmax] at hmem
        cases hmem
      have hsame : run.flush = run := by
        rw [JitterRun.flush, hflush, List.append_nil]
      rw [hsame]
      exact ⟨lost, h, (and_iff_left hstraight).symm, congrArg List.length hempty⟩
  | some maxSeq =>
      have hflush : run.flush = (run.resume (run.jitter.flushed
        (run.cursor first) maxSeq)).clear := by
        rw [JitterRun.flush, JitterBuffer.flush, JitterBuffer.flushAll, hmax, hseq]
        rfl
      have hadvanced : Advanced run.jitter.buffer (run.cursor first)
          (run.jitter.flushed (run.cursor first) maxSeq) := flushLoop_spec _ _ _ _
      refine ⟨_, hflush ▸ (h.resume hadvanced).clear, ?_, by rw [hflush]; rfl⟩
      rw [← flushed_buffer hseq hmax (keys_near h)]
      have hclear := unreached_eq_nil (run.resume (run.jitter.flushed (run.cursor first) maxSeq))
        (cursor first (run.resume (run.jitter.flushed (run.cursor first) maxSeq)))
      refine Iff.trans ?_ (and_congr_right fun _ => hclear)
      rw [← forall_and]
      exact forall_congr' fun i => List.append_eq_nil_iff

/-! ### Pushing -/

theorem push_of_not_accepts {jb : JitterBuffer D} {packet : AudioPacket D}
    (h : ¬ jb.Accepts packet) : (jb.push packet).1 = [] ∧ (jb.push packet).2.buffer = jb.buffer ∧
      (jb.push packet).2.nextSeq = some (jb.expected packet) ∧
      (jb.push packet).2.depth = jb.depth := by
  simp only [JitterBuffer.push]
  split
  · exact ⟨rfl, rfl, rfl, rfl⟩
  · rename_i hfree
    split
    · exact ⟨rfl, rfl, rfl, rfl⟩
    · rename_i hnear
      exact absurd ⟨Option.not_isSome_iff_eq_none.mp hfree, Nat.le_of_not_lt hnear⟩ h

theorem push_of_accepts {jb : JitterBuffer D} {packet : AudioPacket D} (h : jb.Accepts packet) :
    jb.push packet =
      if jb.maxHeld < (jb.insert packet).pending then
        { jb.insert packet with overrunCount := jb.overrunCount + 1 }.flush
      else if (jb.insert packet).pending < jb.depth then ([], jb.insert packet)
      else (jb.insert packet).deliver (jb.expected packet) := by
  obtain ⟨hfree, hnear⟩ := h
  simp only [JitterBuffer.push]
  rw [hfree, if_neg (by simp), if_neg (by omega)]
  rfl

/-- A push loses something if and only if it flushes a buffer that is not straight. -/
theorem Kept.push (h : Kept first lost run) (packet : AudioPacket D) :
    ∃ lost', Kept first lost' (run.push packet) ∧
      ((∀ i, lost' i = []) ↔ (∀ i, lost i = []) ∧
        (run.jitter.Overflows packet → (run.jitter.insert packet).Straight)) := by
  by_cases haccepts : run.jitter.Accepts packet
  · have hinsert := h.insert haccepts
    have hpush := push_of_accepts haccepts
    by_cases hover : run.jitter.maxHeld < (run.jitter.insert packet).pending
    · rw [if_pos hover] at hpush
      have hcounted : Kept first lost
          { jitter := { run.jitter.insert packet with overrunCount := run.jitter.overrunCount + 1 }
            accepted := run.accepted ++ [(run.position packet, packet)]
            returned := run.returned } :=
        ⟨hinsert.nextSeq_eq, hinsert.held, hinsert.numbered, hinsert.conserved⟩
      obtain ⟨lost', hkept, hiff, -⟩ := hcounted.flush
      refine ⟨lost', ?_, hiff.trans (and_congr_right fun _ => ?_)⟩
      · rw [JitterRun.push, if_pos haccepts, hpush]
        exact hkept
      · exact ⟨fun hstraight _ => hstraight, fun hstraight => hstraight ⟨haccepts, hover⟩⟩
    · refine ⟨lost, ?_, (and_iff_left fun hoverflows => absurd hoverflows.2 hover).symm⟩
      rw [if_neg hover] at hpush
      rw [JitterRun.push, if_pos haccepts, hpush]
      split
      · rw [List.append_nil]
        exact hinsert
      · have hadvanced := deliverFrom_spec run.jitter.depth (run.jitter.insert packet).buffer
          (run.jitter.expected packet)
        have hcursor : run.jitter.expected packet =
          run.cursor first := Option.some.inj hinsert.nextSeq_eq
        rw [hcursor] at hadvanced ⊢
        exact hinsert.resume hadvanced
  · obtain ⟨hresult, hbuffer, hnext, -⟩ := push_of_not_accepts haccepts
    have hexpected : run.jitter.expected packet = run.cursor first := by
      rw [JitterBuffer.expected, h.nextSeq_eq]
      rfl
    refine ⟨lost, ?_, (and_iff_left fun hoverflows => absurd hoverflows.1 haccepts).symm⟩
    rw [JitterRun.push, if_neg haccepts, hresult, List.append_nil]
    constructor
    · exact hnext.trans (congrArg some hexpected)
    · intro key other hget
      exact h.held key other (hbuffer ▸ hget)
    · exact h.numbered
    · intro i
      refine (h.conserved i).trans ?_
      rw [line, line, hbuffer]
      rfl

/-! ### The packets held -/

theorem flush_pending (jb : JitterBuffer D) (seq : BitVec 16) (h : jb.nextSeq = some seq) :
    jb.flush.2.pending = 0 ∧ jb.flush.2.depth = jb.depth := by
  rw [JitterBuffer.flush, JitterBuffer.flushAll, h]
  cases hmax : (jb.buffer.keys.map BitVec.toNat).max? with
  | none =>
      exact ⟨congrArg List.length (List.map_eq_nil_iff.mp (List.max?_eq_none_iff.mp hmax)), rfl⟩
  | some maxSeq => exact ⟨rfl, rfl⟩

theorem deliver_pending_le (jb : JitterBuffer D) (seq : BitVec 16) :
    (jb.deliver seq).2.pending ≤ jb.pending := by
  have hheld := (deliverFrom_spec jb.depth jb.buffer seq).held
  have hsub : (jb.deliver seq).2.buffer.keys ⊆ jb.buffer.keys := fun key hkey => by
    obtain ⟨packet, hget⟩ := Dict.mem_keys.mp hkey
    exact Dict.mem_keys.mpr ⟨packet, (hheld key packet hget).1⟩
  exact (List.subperm_of_subset (jb.deliver seq).2.buffer.nodup hsub).length_le

/-- At most `4 * depth` packets are held after a push. -/
theorem push_pending_le {jb : JitterBuffer D} (h : jb.pending ≤ 4 * jb.depth)
    (packet : AudioPacket D) : (jb.push packet).2.pending ≤ 4 * jb.depth ∧
      (jb.push packet).2.depth = jb.depth := by
  by_cases haccepts : jb.Accepts packet
  · rw [push_of_accepts haccepts]
    split
    · obtain ⟨hpending, hdepth⟩ := flush_pending
        { jb.insert packet with overrunCount := jb.overrunCount + 1 } (jb.expected packet) rfl
      rw [hpending]
      exact ⟨Nat.zero_le _, hdepth⟩
    · rename_i hover
      have hfits : (jb.insert packet).pending ≤ 4 * jb.depth := by
        rw [JitterBuffer.maxHeld] at hover
        omega
      split
      · exact ⟨hfits, rfl⟩
      · exact ⟨(deliver_pending_le _ _).trans hfits, rfl⟩
  · obtain ⟨-, hbuffer, -, hdepth⟩ := push_of_not_accepts haccepts
    rw [JitterBuffer.pending, hbuffer]
    exact ⟨h, hdepth⟩

theorem pushes_pending_le (packets : List (AudioPacket D)) {run : JitterRun D}
    (h : run.jitter.pending ≤ 4 * run.jitter.depth) :
    (packets.foldl push run).jitter.pending ≤ 4 * run.jitter.depth := by
  induction packets generalizing run with
  | nil => exact h
  | cons packet packets ih =>
      obtain ⟨hpending, hdepth⟩ := push_pending_le h packet
      rw [List.foldl_cons, ← hdepth]
      exact ih (by rw [show (run.push packet).jitter.depth = _ from hdepth]; exact hpending)

/-! ## The whole run -/

theorem Kept.pushes (h : Kept first lost run) (packets : List (AudioPacket D)) :
    ∃ lost', Kept first lost' (packets.foldl JitterRun.push run).flush ∧
      ((∀ i, lost' i = []) ↔ (∀ i, lost i = []) ∧ run.jitter.StraightFlushes packets) ∧
      (packets.foldl JitterRun.push run).flush.jitter.pending = 0 := by
  induction packets generalizing lost run with
  | nil => exact h.flush
  | cons packet packets ih =>
      obtain ⟨lost₁, hpush, hiff₁⟩ := h.push packet
      obtain ⟨lost₂, hrest, hiff₂, hpending⟩ := ih hpush
      refine ⟨lost₂, hrest, ?_, hpending⟩
      rw [hiff₂, hiff₁, and_assoc]
      rfl

theorem get_line_of_empty (h : run.jitter.pending = 0) (seq : BitVec 16) (i : Nat) :
    (run.line seq).get i = run.returned[i]?.join := by
  rcases Nat.lt_or_ge i run.returned.length with hlt | hge
  · rw [line, Stream'.get_append_left _ _ _ hlt, List.getElem?_eq_getElem hlt]
    rfl
  · obtain ⟨j, rfl⟩ := Nat.exists_eq_add_of_le hge
    rw [get_line_ge, List.getElem?_eq_none (Nat.le_add_right _ _)]
    by_contra hne
    obtain ⟨packet, hslot⟩ := Option.ne_none_iff_exists'.mp hne
    obtain ⟨key, hget, -⟩ := slots_eq_some hslot
    have hkey := Dict.mem_keys.mpr ⟨packet, hget⟩
    rw [List.length_eq_zero_iff.mp h] at hkey
    cases hkey

/-- What is promised of the packets pushed into a new buffer and one flush: every position has what
was accepted there, in one numbering from the first packet on, and no call leaves more than
`4 * depth` packets behind. -/
structure Returns (depth : Nat) (packets : List (AudioPacket D)) : Prop where
  once : ∀ i, (heard depth packets).flush.acceptedAt i =
    (heard depth packets).flush.returned[i]?.join.toList
  accepted_numbered : ∀ first ∈ packets.head?, ∀ entry ∈ (heard depth packets).flush.accepted,
    entry.2.sendSeq = first.sendSeq + BitVec.ofNat 16 entry.1
  returned_numbered : ∀ first ∈ packets.head?, ∀ i packet,
    (heard depth packets).flush.returned[i]? = some (some packet) →
      packet.sendSeq = first.sendSeq + BitVec.ofNat 16 i
  bounded : (∀ front, front <+: packets → (heard depth front).jitter.pending ≤ 4 * depth) ∧
    (heard depth packets).flush.jitter.pending ≤ 4 * depth

theorem mem_acceptedAt {packet : AudioPacket D} {i : Nat} :
    packet ∈ run.acceptedAt i ↔ (i, packet) ∈ run.accepted := by
  rw [acceptedAt, List.mem_map]
  constructor
  · rintro ⟨⟨j, other⟩, hmem, rfl⟩
    obtain ⟨hmem, hj⟩ := List.mem_filter.mp hmem
    rw [← of_decide_eq_true hj]
    exact hmem
  · intro hmem
    exact ⟨_, List.mem_filter.mpr ⟨hmem, decide_eq_true rfl⟩, rfl⟩

theorem Kept.returned_numbered (h : Kept first lost run)
    (hpending : run.jitter.pending = 0) {i : Nat}
    {packet : AudioPacket D} (hslot : run.returned[i]? = some (some packet)) :
    packet.sendSeq = first + BitVec.ofNat 16 i := by
  have hmem : packet ∈ run.acceptedAt i := by
    rw [h.conserved, get_line_of_empty hpending, hslot]
    exact List.mem_append_right _ (List.mem_singleton_self _)
  exact h.numbered _ (mem_acceptedAt.mp hmem)

theorem heard_pending_le (depth : Nat) (packets : List (AudioPacket D)) :
    (heard depth packets).jitter.pending ≤ 4 * depth := by
  have hnew : ({ jitter := { depth } } : JitterRun D).jitter.pending ≤ 4 * depth := Nat.zero_le _
  exact pushes_pending_le packets hnew

/-- The run of packets from the first one on. -/
theorem heard_cons (depth : Nat) (first : AudioPacket D) (packets : List (AudioPacket D)) :
    heard depth (first :: packets) = (first :: packets).foldl push
      { jitter := { depth, nextSeq := some first.sendSeq } } := rfl

/-- The packets come back as promised if and only if every flush, the last one included, finds no
held number farther ahead of the expected one than the numerically largest held number, or than
`5 * depth`. -/
theorem returns_iff (depth : Nat) (packets : List (AudioPacket D)) :
    Returns depth packets ↔ ({ depth } : JitterBuffer D).StraightFlushes packets := by
  cases packets with
  | nil =>
      refine iff_of_true ⟨fun i => rfl, ?_, ?_, ?_, ?_⟩ ?_
      · intro first hfirst
        cases hfirst
      · intro first hfirst
        cases hfirst
      · exact fun front _ => heard_pending_le depth front
      · exact Nat.zero_le _
      · intro seq hseq
        cases hseq
  | cons packet packets =>
      obtain ⟨lost, hkept, hiff, hpending⟩ :=
        (Kept.begin depth packet.sendSeq).pushes (packet :: packets)
      rw [← heard_cons] at hkept hpending
      have hlost : ({ depth } : JitterBuffer D).StraightFlushes (packet :: packets) ↔
          ∀ i, lost i = [] := (hiff.trans (and_iff_right fun _ => rfl)).symm
      rw [hlost]
      have hline (i : Nat) : (heard depth (packet :: packets)).flush.acceptedAt i =
          lost i ++ (heard depth (packet :: packets)).flush.returned[i]?.join.toList := by
        rw [hkept.conserved, get_line_of_empty hpending]
      constructor
      · intro hreturns i
        have honce := hreturns.once i
        rw [hline, List.append_left_eq_self] at honce
        exact honce
      · intro hnone
        constructor
        · intro i
          rw [hline, hnone i, List.nil_append]
        · intro first hfirst entry hmem
          cases hfirst
          exact hkept.numbered entry hmem
        · intro first hfirst i other hslot
          cases hfirst
          exact hkept.returned_numbered hpending hslot
        · exact ⟨fun front _ => heard_pending_le depth front, by omega⟩

/-- Two packets at the end of the numbers, held behind a depth of three. -/
def wrapping : List (AudioPacket Nat) := [⟨0, 65535, 1⟩, ⟨0, 0, 2⟩]

/-- The flush ends at number 65535, the largest, and clears number 0. -/
theorem wrapping_loses : ¬ ∀ (depth : Nat) (packets : List (AudioPacket Nat)), 1 ≤ depth →
    Returns depth packets := by
  intro hall
  have honce := (hall 3 wrapping (by decide)).once 1
  have haccepted : (heard 3 wrapping).flush.acceptedAt 1 = [⟨0, 0, 2⟩] := rfl
  have hreturned : (heard 3 wrapping).flush.returned = [some ⟨0, 65535, 1⟩] := rfl
  rw [haccepted, hreturned] at honce
  cases honce

end JitterRun

end Rigplane.Audio
