import Mathlib.Data.Stream.Init
import Rigplane.Lib.Circular
import Rigplane.Lib.Dict

/-!
# The jitter buffer

`JitterBuffer` of `audio/lan_stream.py`.  The packets it holds and the numbers it expects next are
one stream of slots (`ahead`): the slot of every number from the expected one on.  A loop that
delivers takes slots off the front of the stream and leaves the rest as it is, so what it returned
in front of what is left is the stream that it found (`deliverFrom_spec`, `flushLoop_spec`).

`_flush_all` ends at the largest held number, after at most `5 * depth + 1` slots, and then clears
the buffer.  It loses nothing if and only if no held number is farther ahead than that
(`flushLoop_buffer`).
-/

namespace Rigplane.Audio

open Circular Stream'

structure AudioPacket (D : Type) where
  ident : Nat
  sendSeq : BitVec 16
  data : D

structure JitterBuffer (D : Type) where
  depth : Nat
  buffer : Dict (BitVec 16) (AudioPacket D) := .empty
  nextSeq : Option (BitVec 16) := none
  duplicatesDropped : Nat := 0
  stalePacketsDropped : Nat := 0
  gapCount : Nat := 0
  underrunCount : Nat := 0
  overrunCount : Nat := 0

variable {D : Type}

/-! ## Distances -/

theorem ahead_next {seq key : BitVec 16} (h : seq ≠ key) :
    ahead (seq + 1) key + 1 = ahead seq key := by
  have hpos : ahead seq key ≠ 0 := fun hzero => h (ahead_eq_zero.mp hzero)
  have hone : ahead seq (seq + 1) = 1 := ahead_add_ofNat seq (by decide : 1 < 2 ^ 16)
  rw [ahead_sub (by omega : ahead seq (seq + 1) ≤ ahead seq key), hone]
  omega

/-- How far the held numbers are ahead of the expected one, all together. -/
def span (buffer : Dict (BitVec 16) (AudioPacket D)) (seq : BitVec 16) : Nat :=
  (buffer.keys.map fun key => ahead seq key + 1).sum

theorem span_filter_le (seq : BitVec 16) (keys : List (BitVec 16)) :
    ((keys.filter (· ≠ seq)).map fun key => ahead (seq + 1) key + 1).sum + keys.length ≤
      (keys.map fun key => ahead seq key + 1).sum := by
  induction keys with
  | nil => simp
  | cons key keys ih =>
      rw [List.filter_cons]
      split
      · rename_i hkey
        have hstep := ahead_next (Ne.symm (of_decide_eq_true hkey))
        simp only [List.map_cons, List.sum_cons, List.length_cons]
        omega
      · simp only [List.map_cons, List.sum_cons, List.length_cons]
        omega

/-- Each turn of the loop brings the held numbers nearer. -/
theorem span_erase_lt {buffer : Dict (BitVec 16) (AudioPacket D)} (h : buffer.keys ≠ [])
    (seq : BitVec 16) : span (buffer.erase seq) (seq + 1) < span buffer seq := by
  have hle := span_filter_le seq buffer.keys
  have hlen := List.length_pos_iff.mpr h
  rw [span, span, Dict.keys_erase]
  omega

/-! ## Delivery -/

/-- What a loop returned and where it ended. -/
structure Played (D : Type) where
  result : List (Option (AudioPacket D)) := []
  buffer : Dict (BitVec 16) (AudioPacket D)
  nextSeq : BitVec 16
  gaps : Nat := 0
  underruns : Nat := 0

/-- One more turn before those of a loop: a packet, or `None` for a gap. -/
def Played.after (slot : Option (AudioPacket D)) (played : Played D) : Played D :=
  { played with
    result := slot :: played.result
    gaps := if slot.isNone then played.gaps + 1 else played.gaps }

/-- `ahead_count`. -/
def aheadCount (buffer : Dict (BitVec 16) (AudioPacket D)) (seq : BitVec 16) : Nat :=
  buffer.keys.countP fun key => 0 < ahead seq key ∧ ahead seq key < 0x8000

/-- The loop of `_deliver`. -/
def deliverFrom (depth : Nat) (buffer : Dict (BitVec 16) (AudioPacket D)) (seq : BitVec 16) :
    Played D :=
  if _ : buffer.keys = [] then { buffer, nextSeq := seq }
  else
    match hget : buffer.get? seq with
    | some packet => (deliverFrom depth (buffer.erase seq) (seq + 1)).after (some packet)
    | none =>
        if depth ≤ aheadCount buffer seq then (deliverFrom depth buffer (seq + 1)).after none
        else { buffer, nextSeq := seq, underruns := 1 }
termination_by span buffer seq
decreasing_by
  · exact span_erase_lt ‹_› seq
  · have hlt := span_erase_lt ‹buffer.keys ≠ []› seq
    rw [Dict.erase_of_get?_eq_none hget] at hlt
    exact hlt

/-- The loop of `_flush_all`, which ends at a number or after so many turns. -/
def flushLoop (stop : BitVec 16) (buffer : Dict (BitVec 16) (AudioPacket D)) (seq : BitVec 16) :
    Nat → Played D
  | 0 => { buffer, nextSeq := seq }
  | turns + 1 =>
      if seq = stop then { buffer, nextSeq := seq }
      else (flushLoop stop (buffer.erase seq) (seq + 1) turns).after (buffer.get? seq)

namespace JitterBuffer

/-- `_max_held`. -/
def maxHeld (jb : JitterBuffer D) : Nat := jb.depth * 4

def pending (jb : JitterBuffer D) : Nat := jb.buffer.keys.length

/-- What a loop leaves. -/
def resume (jb : JitterBuffer D) (played : Played D) : JitterBuffer D :=
  { jb with
    buffer := played.buffer
    nextSeq := some played.nextSeq
    gapCount := jb.gapCount + played.gaps
    underrunCount := jb.underrunCount + played.underruns }

def deliver (jb : JitterBuffer D) (seq : BitVec 16) :
    List (Option (AudioPacket D)) × JitterBuffer D :=
  let played := deliverFrom jb.depth jb.buffer seq
  (played.result, jb.resume played)

/-- The turns of `_flush_all` before it clears what is left. -/
def flushed (jb : JitterBuffer D) (seq : BitVec 16) (maxSeq : Nat) : Played D :=
  flushLoop (BitVec.ofNat 16 (maxSeq + 1)) jb.buffer seq (jb.maxHeld + jb.depth + 1)

def flushAll (jb : JitterBuffer D) : List (Option (AudioPacket D)) × JitterBuffer D :=
  match (jb.buffer.keys.map BitVec.toNat).max?, jb.nextSeq with
  | some maxSeq, some seq =>
      let played := jb.flushed seq maxSeq
      (played.result, { jb.resume played with buffer := .empty })
  | _, _ => ([], jb)

def flush (jb : JitterBuffer D) : List (Option (AudioPacket D)) × JitterBuffer D := jb.flushAll

/-- The number expected next, which the first packet sets. -/
def expected (jb : JitterBuffer D) (packet : AudioPacket D) : BitVec 16 :=
  jb.nextSeq.getD packet.sendSeq

/-- The buffer with the packet. -/
def insert (jb : JitterBuffer D) (packet : AudioPacket D) : JitterBuffer D :=
  { jb with
    nextSeq := some (jb.expected packet)
    buffer := jb.buffer.set packet.sendSeq packet }

def push (jb : JitterBuffer D) (packet : AudioPacket D) :
    List (Option (AudioPacket D)) × JitterBuffer D :=
  let seq := jb.expected packet
  if (jb.buffer.get? packet.sendSeq).isSome then
    ([], { jb with nextSeq := some seq, duplicatesDropped := jb.duplicatesDropped + 1 })
  else if 0x8000 < ahead seq packet.sendSeq then
    ([], { jb with nextSeq := some seq, stalePacketsDropped := jb.stalePacketsDropped + 1 })
  else
    let jb := jb.insert packet
    if jb.maxHeld < jb.pending then { jb with overrunCount := jb.overrunCount + 1 }.flushAll
    else if jb.pending < jb.depth then ([], jb)
    else jb.deliver seq

/-- A packet that is neither a duplicate nor stale. -/
def Accepts (jb : JitterBuffer D) (packet : AudioPacket D) : Prop :=
  jb.buffer.get? packet.sendSeq = none ∧ ahead (jb.expected packet) packet.sendSeq ≤ 0x8000

instance (jb : JitterBuffer D) (packet : AudioPacket D) : Decidable (jb.Accepts packet) :=
  inferInstanceAs (Decidable (_ = none ∧ _))

end JitterBuffer

/-! ## The stream of slots -/

/-- The slots of the numbers from one on. -/
def slots (buffer : Dict (BitVec 16) (AudioPacket D)) (seq : BitVec 16) :
    Stream' (Option (AudioPacket D)) := fun i =>
  if i < 2 ^ 16 then buffer.get? (seq + BitVec.ofNat 16 i) else none

variable {buffer : Dict (BitVec 16) (AudioPacket D)} {seq : BitVec 16} {played : Played D}

theorem slots_ahead (key : BitVec 16) : (slots buffer seq).get (ahead seq key) =
    buffer.get? key := by
  show (if ahead seq key < 2 ^ 16 then _ else _) = _
  rw [if_pos (ahead_lt seq key), add_ofNat_ahead]

theorem slots_eq_some {i : Nat} {packet : AudioPacket D}
    (h : (slots buffer seq).get i = some packet) :
    ∃ key, buffer.get? key = some packet ∧ ahead seq key = i := by
  change (if i < 2 ^ 16 then buffer.get? (seq + BitVec.ofNat 16 i) else none) = _ at h
  split at h
  · rename_i hi
    exact ⟨_, h, ahead_add_ofNat seq hi⟩
  · cases h

/-- A held number comes at its distance from the expected one. -/
theorem slots_get_eq_some {i : Nat} {packet : AudioPacket D} :
    (slots buffer seq).get i = some packet ↔
      ∃ key, buffer.get? key = some packet ∧ ahead seq key = i := by
  constructor
  · exact slots_eq_some
  · rintro ⟨key, hget, rfl⟩
    rw [slots_ahead, hget]

theorem slots_empty : slots (D := D) .empty seq = const none := by
  ext i packet
  show (if i < 2 ^ 16 then none else none) = some packet ↔ none = some packet
  rw [ite_self]

theorem slots_eq_cons (buffer : Dict (BitVec 16) (AudioPacket D)) (seq : BitVec 16) :
    slots buffer seq = buffer.get? seq :: slots (buffer.erase seq) (seq + 1) := by
  ext i packet
  cases i with
  | zero =>
      have hslot : (slots buffer seq).get (ahead seq seq) = buffer.get? seq := slots_ahead seq
      rw [get_zero_cons, ← hslot, ahead_self]
  | succ i =>
      rw [get_succ_cons, slots_get_eq_some, slots_get_eq_some]
      constructor
      · rintro ⟨key, hget, hahead⟩
        have hne : seq ≠ key := fun heq => by rw [heq, ahead_self] at hahead; omega
        have hnext := ahead_next hne
        refine ⟨key, ?_, by omega⟩
        rw [Dict.get?_erase, if_neg (Ne.symm hne), hget]
      · rintro ⟨key, hget, hahead⟩
        rw [Dict.get?_erase] at hget
        split at hget
        · cases hget
        · rename_i hne
          have hnext := ahead_next (Ne.symm hne)
          exact ⟨key, hget, by omega⟩

/-- A loop took slots off the front of the stream. -/
structure Advanced (buffer : Dict (BitVec 16) (AudioPacket D)) (seq : BitVec 16)
    (played : Played D) : Prop where
  slots_eq : played.result ++ₛ slots played.buffer played.nextSeq = slots buffer seq
  nextSeq_eq : played.nextSeq = seq + BitVec.ofNat 16 played.result.length
  held : ∀ key packet, played.buffer.get? key = some packet →
    buffer.get? key = some packet ∧
      ahead seq key = played.result.length + ahead played.nextSeq key

theorem Advanced.here {gaps underruns : Nat} : Advanced buffer seq
    { buffer, nextSeq := seq, gaps, underruns } where
  slots_eq := rfl
  nextSeq_eq := (BitVec.add_zero seq).symm
  held := fun key packet hget => ⟨hget, by simp⟩

theorem Advanced.after (h : Advanced (buffer.erase seq) (seq + 1) played) :
    Advanced buffer seq (played.after (buffer.get? seq)) where
  slots_eq := by
    show (buffer.get? seq :: played.result) ++ₛ slots played.buffer played.nextSeq = _
    rw [cons_append_stream, h.slots_eq, ← slots_eq_cons]
  nextSeq_eq := by
    show played.nextSeq = seq + BitVec.ofNat 16 (played.result.length + 1)
    rw [h.nextSeq_eq, Nat.add_comm, BitVec.ofNat_add, BitVec.add_assoc]
    rfl
  held := fun key packet hget => by
    obtain ⟨hheld, hahead⟩ := h.held key packet hget
    rw [Dict.get?_erase] at hheld
    split at hheld
    · cases hheld
    · rename_i hne
      have hnext := ahead_next (Ne.symm hne)
      refine ⟨hheld, ?_⟩
      show ahead seq key = (played.result.length + 1) + ahead played.nextSeq key
      omega

theorem deliverFrom_spec (depth : Nat) (buffer : Dict (BitVec 16) (AudioPacket D))
    (seq : BitVec 16) : Advanced buffer seq (deliverFrom depth buffer seq) := by
  induction buffer, seq using deliverFrom.induct depth with
  | case1 buffer seq hempty =>
      rw [deliverFrom, dif_pos hempty]
      exact .here
  | case2 buffer seq hempty packet hget ih =>
      rw [deliverFrom, dif_neg hempty]
      split
      · rename_i packet' hget'
        rw [← hget']
        exact ih.after
      · rename_i hnone
        rw [hnone] at hget
        cases hget
  | case3 buffer seq hempty hget hahead ih =>
      rw [deliverFrom, dif_neg hempty]
      split
      · rename_i packet' hget'
        rw [hget'] at hget
        cases hget
      · have hsame : Advanced (buffer.erase seq) (seq + 1)
          (deliverFrom depth buffer (seq + 1)) := by
          rw [Dict.erase_of_get?_eq_none hget]
          exact ih
        rw [if_pos hahead, ← hget]
        exact hsame.after
  | case4 buffer seq hempty hget hahead =>
      rw [deliverFrom, dif_neg hempty]
      split
      · rename_i packet' hget'
        rw [hget'] at hget
        cases hget
      · rw [if_neg hahead]
        exact .here

theorem flushLoop_spec (stop : BitVec 16) (turns : Nat) (buffer : Dict (BitVec 16) (AudioPacket D))
    (seq : BitVec 16) : Advanced buffer seq (flushLoop stop buffer seq turns) := by
  induction turns generalizing buffer seq with
  | zero => exact .here
  | succ turns ih =>
      rw [flushLoop]
      split
      · exact .here
      · exact (ih (buffer.erase seq) (seq + 1)).after

theorem length_flushLoop (stop : BitVec 16) (turns : Nat)
    (buffer : Dict (BitVec 16) (AudioPacket D)) (seq : BitVec 16) :
    (flushLoop stop buffer seq turns).result.length = min (ahead seq stop) turns := by
  induction turns generalizing buffer seq with
  | zero => exact (Nat.min_zero _).symm
  | succ turns ih =>
      rw [flushLoop]
      split
      · rename_i heq
        rw [heq, ahead_self, Nat.zero_min]
        rfl
      · rename_i hne
        have hnext := ahead_next hne
        show (flushLoop stop _ (seq + 1) turns).result.length + 1 = _
        rw [ih]
        omega

/-- A loop leaves the held numbers that it did not reach. -/
theorem Advanced.buffer_eq_empty (h : Advanced buffer seq played) :
    (∀ key, played.buffer.get? key = none) ↔
      ∀ key ∈ buffer.keys, ahead seq key < played.result.length := by
  constructor
  · intro hempty key hkey
    obtain ⟨packet, hget⟩ := Dict.mem_keys.mp hkey
    by_contra hfar
    obtain ⟨i, hi⟩ := Nat.exists_eq_add_of_le (Nat.le_of_not_lt hfar)
    have hslot : (played.result ++ₛ slots played.buffer played.nextSeq).get (ahead seq key) =
        some packet := by rw [h.slots_eq, slots_ahead, hget]
    rw [hi, get_append_right] at hslot
    obtain ⟨key', hget', -⟩ := slots_eq_some hslot
    rw [hempty key'] at hget'
    cases hget'
  · intro hall key
    by_contra hne
    obtain ⟨packet, hget⟩ := Option.ne_none_iff_exists'.mp hne
    obtain ⟨hheld, hahead⟩ := h.held key packet hget
    have hlt := hall key (Dict.mem_keys.mpr ⟨packet, hheld⟩)
    omega

end Rigplane.Audio
