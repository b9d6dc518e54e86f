import Rigplane.Lib.BigEndian
import Rigplane.Lib.Recency
import Rigplane.Transport.OrderedIngress

/-!
# Retransmission of sent packets

The outbound side of `IcomTransport` in `core/transport.py`.  `_track_sent` keeps the last `BUFSIZE`
packets by their numbers, and the guards of those that have one in a table of its own.  A rollover
to number 0 clears both.  A retransmit request names one number, or ranges of numbers.

A guard is a caller's predicate, which may answer differently each time, so a request comes with the
answers of the guards at each number it serves.  `sent` lists what `_raw_send` got here.  `tracked`
is not in the source: it lists what was tracked since the last `connect` or rollover.
-/

namespace Rigplane.Transport

/-- `BUFSIZE`. -/
def bufsize : Nat := 500

/-- `CONTROL_SIZE`. -/
def controlSize : Nat := 16

/-- What calling a guard comes to. -/
inductive GuardAnswer where
  | true
  | false
  | raised
deriving DecidableEq

/-- The outbound side of `IcomTransport`. -/
structure TxSide (γ : Type) where
  myId : BitVec 32
  remoteId : BitVec 32
  txBuffer : Dict Int (List UInt8) := .empty
  txGuards : Dict Int γ := .empty
  sent : List (List UInt8) := []
  /-- The number, packet and guard of each call since the last `connect` or rollover,
  oldest first. -/
  tracked : List (Int × List UInt8 × Option γ) := []

/-- `struct.pack` of a little-endian number. -/
def packLe (width n : Nat) : List UInt8 := (BigEndian.bytes width n).reverse

/-- `struct.unpack` of two bytes, the low one first. -/
def unpackH (low high : UInt8) : Nat := low.toNat + 256 * high.toNat

/-- The `<HH` pairs of a payload: a trailing partial pair carries no range. -/
def unpackRanges : List UInt8 → List (Nat × Nat)
  | a :: b :: c :: d :: rest => (unpackH a b, unpackH c d) :: unpackRanges rest
  | _ => []

namespace TxSide

variable {γ : Type}

/-- `_build_control`. -/
def buildControl (t : TxSide γ) (ptype seq : Nat) : List UInt8 :=
  packLe 4 controlSize ++ packLe 2 ptype ++ packLe 2 seq ++ packLe 4 t.myId.toNat ++
    packLe 4 t.remoteId.toNat

/-- `_raw_send`. -/
def rawSend (t : TxSide γ) (data : List UInt8) : TxSide γ := { t with sent := t.sent ++ [data] }

/-- What `connect` does to the tables, and a rollover. -/
def clear (t : TxSide γ) : TxSide γ :=
  { t with txBuffer := .empty, txGuards := .empty, tracked := [] }

/-- `popitem(last=False)`, and the guard of the item. -/
def popFirst (t : TxSide γ) : TxSide γ :=
  match t.txBuffer.items with
  | [] => t
  | (evicted, _) :: _ =>
      { t with txBuffer := t.txBuffer.erase evicted, txGuards := t.txGuards.erase evicted }

/-- A number that is tracked again loses its packet and its guard. -/
def forget (t : TxSide γ) (seq : Int) : TxSide γ :=
  { t with
    txBuffer := if (t.txBuffer.get? seq).isSome then t.txBuffer.erase seq else t.txBuffer
    txGuards := t.txGuards.erase seq }

/-- A full buffer loses its first packet. -/
def makeRoom (t : TxSide γ) : TxSide γ :=
  if bufsize ≤ t.txBuffer.items.length then t.popFirst else t

def store (t : TxSide γ) (seq : Int) (data : List UInt8) (isCurrent : Option γ) : TxSide γ :=
  { t with
    txBuffer := t.txBuffer.set seq data
    txGuards :=
      match isCurrent with
      | some guard => t.txGuards.set seq guard
      | none => t.txGuards
    tracked := t.tracked ++ [(seq, data, isCurrent)] }

/-- `_track_sent`. -/
def trackSent (t : TxSide γ) (seq : Int) (data : List UInt8) (isCurrent : Option γ) : TxSide γ :=
  (((if seq = 0 then t.clear else t).forget seq).makeRoom).store seq data isCurrent

/-- `_retransmit`. -/
def retransmit (t : TxSide γ) (answers : γ → GuardAnswer) (seq : Nat) : TxSide γ :=
  let seq := seq % 0x10000
  match t.txBuffer.get? seq with
  | none => t.rawSend (t.buildControl 0 seq)
  | some data =>
      match t.txGuards.get? seq with
      | none => t.rawSend data
      | some isCurrent =>
          match answers isCurrent with
          | .true => t.rawSend data
          | .false => t.rawSend (t.buildControl 0 seq)
          | .raised => t.rawSend (t.buildControl 0 seq)

/-- The numbers of one range that are served. -/
def servedOf (range : Nat × Nat) : List Nat :=
  let span := (range.2 + 0x10000 - range.1) % 0x10000
  if 0x8000 ≤ span then []
  else (List.range (min (span + 1) maxMissing)).map fun offset => (range.1 + offset) % 0x10000

/-- The numbers that a request serves, in turn. -/
def served (data : List UInt8) (length seq : Nat) : List Nat :=
  if length = controlSize ∧ data.length = controlSize then [seq]
  else (unpackRanges (data.drop controlSize)).flatMap servedOf

/-- The turns of a request from the `i`-th on. -/
def retransmitEach (answers : Nat → γ → GuardAnswer) : Nat → List Nat → TxSide γ → TxSide γ
  | _, [], t => t
  | i, seq :: rest, t => retransmitEach answers (i + 1) rest (t.retransmit (answers i) seq)

/-- `_handle_retransmit_packet`. -/
def handleRetransmitPacket (t : TxSide γ) (answers : Nat → γ → GuardAnswer) (data : List UInt8)
    (length seq : Nat) : TxSide γ :=
  retransmitEach answers 0 (served data length seq) t

/-! ## What is kept -/

/-- The entries of the numbers tracked last, with their guards. -/
def kept (t : TxSide γ) : List (Int × List UInt8 × Option γ) :=
  Recency.last bufsize (Recency.entries t.tracked)

variable {t t' : TxSide γ} {seq : Int} {data : List UInt8} {isCurrent : Option γ}

theorem nodup_kept (t : TxSide γ) : (t.kept.map Prod.fst).Nodup :=
  Recency.nodup_last (Recency.nodup_entries _) _

/-- Under a policy of last come, last kept, `_track_sent` evicts what the table may not hold. -/
theorem kept_concat (h : t'.tracked = t.tracked ++ [(seq, data, isCurrent)]) : kept t' =
    Recency.evict bufsize (t.kept.filter (·.1 ≠ seq)) ++ [(seq, data, isCurrent)] := by
  have hpos : 0 < bufsize := Nat.succ_pos 499
  rw [kept, kept, h, Recency.entries_concat, Recency.last_touch (Recency.nodup_entries _) hpos]

/-- The tables hold these entries. -/
structure Holds (t : TxSide γ) (entries : List (Int × List UInt8 × Option γ)) : Prop where
  buffer : t.txBuffer.items = entries.map fun e => (e.1, e.2.1)
  guards : ∀ seq, t.txGuards.get? seq = (Dict.find seq entries).bind Prod.snd

variable {entries : List (Int × List UInt8 × Option γ)}

theorem Holds.get? (h : t.Holds entries) (seq : Int) :
    t.txBuffer.get? seq = (Dict.find seq entries).map Prod.fst := by
  rw [Dict.get?, h.buffer]
  exact Recency.find_map Prod.fst

theorem Holds.forget (h : t.Holds entries) (seq : Int) :
    (t.forget seq).Holds (entries.filter (·.1 ≠ seq)) where
  buffer := by
    have herase : (t.forget seq).txBuffer.items = t.txBuffer.items.filter (·.1 ≠ seq) := by
      rw [TxSide.forget]
      split
      · rfl
      · rename_i habsent
        have hnot := Dict.get?_eq_none.mp (Option.not_isSome_iff_eq_none.mp habsent)
        exact (Recency.filter_ne_of_not_mem hnot).symm
    rw [herase, h.buffer, List.filter_map]
    rfl
  guards other := by
    rw [TxSide.forget, Dict.get?_erase, Dict.find_filter_ne, h.guards]
    split <;> rfl

theorem Holds.popFirst (h : t.Holds entries) (hnodup : (entries.map Prod.fst).Nodup) :
    t.popFirst.Holds entries.tail := by
  rw [TxSide.popFirst]
  cases entries with
  | nil =>
      rw [h.buffer]
      exact h
  | cons e rest =>
      rw [h.buffer]
      simp only [List.map_cons]
      have hpresent : (t.txBuffer.get? e.1).isSome := by
        rw [h.get?, Dict.find, if_pos rfl]
        rfl
      have hforget := h.forget e.1
      rw [Recency.filter_head e hnodup, TxSide.forget, if_pos hpresent] at hforget
      exact hforget

theorem Holds.makeRoom (h : t.Holds entries) (hnodup : (entries.map Prod.fst).Nodup) :
    t.makeRoom.Holds (Recency.evict bufsize entries) := by
  rw [TxSide.makeRoom, Recency.evict, h.buffer, List.length_map]
  split
  · exact h.popFirst hnodup
  · exact h

theorem Holds.store (h : t.Holds entries) (hnew : Dict.find seq entries = none) (data : List UInt8)
    (isCurrent : Option γ) :
    (t.store seq data isCurrent).Holds (entries ++ [(seq, data, isCurrent)]) where
  buffer := by
    have hgone : Dict.find seq t.txBuffer.items = none := by
      rw [h.buffer, Recency.find_map Prod.fst, hnew]
      rfl
    show Dict.assign seq data t.txBuffer.items = _
    rw [Dict.assign_of_find_none hgone, h.buffer, List.map_append]
    rfl
  guards other := by
    rw [Recency.find_concat hnew, TxSide.store.eq_def]
    cases isCurrent with
    | some guard =>
        rw [Dict.get?_set, h.guards]
        split <;> rfl
    | none =>
        rw [h.guards]
        split
        · rename_i hsame
          rw [hsame, hnew]
          rfl
        · rfl

theorem makeRoom_tracked (t : TxSide γ) : t.makeRoom.tracked = t.tracked := by
  rw [makeRoom]
  split
  · rw [popFirst]
    split <;> rfl
  · rfl

theorem Holds.clear (t : TxSide γ) : t.clear.Holds t.clear.kept := by
  have hnone : t.clear.kept = [] := by
    rw [kept, Recency.last]
    exact List.drop_nil
  rw [hnone]
  exact ⟨rfl, fun _ => rfl⟩

theorem Holds.track (h : t.Holds t.kept) (seq : Int) (data : List UInt8) (isCurrent : Option γ) :
    (((t.forget seq).makeRoom).store seq data isCurrent).Holds
      (((t.forget seq).makeRoom).store seq data isCurrent).kept := by
  have hnodup : ((t.kept.filter (·.1 ≠ seq)).map Prod.fst).Nodup :=
    (List.Sublist.map _ List.filter_sublist).nodup t.nodup_kept
  have hnew : Dict.find seq (Recency.evict bufsize (t.kept.filter (·.1 ≠ seq))) = none := by
    have hgone : Dict.find seq (t.kept.filter (·.1 ≠ seq)) = none := by
      rw [Dict.find_filter_ne, if_pos rfl]
    rw [Dict.find_eq_none] at hgone ⊢
    rw [Recency.evict]
    split
    · exact fun hmem => hgone (((List.tail_sublist _).map Prod.fst).subset hmem)
    · exact hgone
  have htracked : (((t.forget seq).makeRoom).store seq data isCurrent).tracked =
      t.tracked ++ [(seq, data, isCurrent)] := by
    rw [TxSide.store.eq_def, makeRoom_tracked]
    rfl
  rw [kept_concat htracked]
  exact ((h.forget seq).makeRoom hnodup).store hnew data isCurrent

/-- `_track_sent` keeps the tables in step with what is kept. -/
theorem Holds.trackSent (h : t.Holds t.kept) (seq : Int) (data : List UInt8)
    (isCurrent : Option γ) :
    (t.trackSent seq data isCurrent).Holds (t.trackSent seq data isCurrent).kept := by
  rw [TxSide.trackSent.eq_def]
  split
  · exact (Holds.clear t).track seq data isCurrent
  · exact h.track seq data isCurrent

/-! ## Replies -/

/-- The packet and guard that were tracked last under a number, since the last `connect` or
rollover. -/
def lastTracked (t : TxSide γ) (seq : Nat) : Option (List UInt8 × Option γ) :=
  (t.tracked.reverse.find? (·.1 = (seq : Int))).map Prod.snd

/-- An idle packet with a number. -/
def idle (t : TxSide γ) (seq : Nat) : List UInt8 := t.buildControl 0 seq

/-- What a number is owed: the packet that was tracked last under it, while it is buffered and its
guard answers `True`, and an idle packet otherwise. -/
def reply (t : TxSide γ) (answers : γ → GuardAnswer) (seq : Nat) : List UInt8 :=
  match t.lastTracked seq with
  | none => t.idle seq
  | some (data, isCurrent) =>
      if (t.txBuffer.get? (seq : Int)).isSome ∧ ∀ guard ∈ isCurrent, answers guard = .true then data
      else t.idle seq

theorem lastTracked_of_kept {seq : Nat} {e : List UInt8 × Option γ}
    (h : Dict.find (seq : Int) t.kept = some e) : t.lastTracked seq = some e := by
  rw [lastTracked, ← Recency.find_entries]
  exact Recency.find_last (Recency.nodup_entries _) h

theorem retransmit_eq (h : t.Holds t.kept) (answers : γ → GuardAnswer) (seq : Nat) :
    t.retransmit answers seq = t.rawSend (t.reply answers (seq % 0x10000)) := by
  rw [retransmit, reply, h.get?, h.guards]
  cases hfind : Dict.find ((seq % 0x10000 : Nat) : Int) t.kept with
  | none =>
      cases t.lastTracked (seq % 0x10000) with
      | none => rfl
      | some e => simp [idle]
  | some e =>
      obtain ⟨data, isCurrent⟩ := e
      rw [lastTracked_of_kept hfind]
      cases isCurrent with
      | none => simp
      | some guard => cases hanswer : answers guard <;> simp [hanswer, idle]

theorem Holds.rawSend (h : t.Holds t.kept) (packet : List UInt8) :
    (t.rawSend packet).Holds (t.rawSend packet).kept := ⟨h.buffer, h.guards⟩

theorem retransmitEach_eq (h : t.Holds t.kept) (answers : Nat → γ → GuardAnswer) (i : Nat)
    (seqs : List Nat) : retransmitEach answers i seqs t = { t with
      sent := t.sent ++ (seqs.zipIdx i).map fun turn => t.reply (answers turn.2)
        (turn.1 % 0x10000) } := by
  induction seqs generalizing t i with
  | nil =>
      rw [retransmitEach, List.zipIdx_nil, List.map_nil, List.append_nil]
  | cons seq rest ih =>
      rw [retransmitEach, retransmit_eq h, ih (h.rawSend _) (i + 1), List.zipIdx_cons,
        List.map_cons,
        TxSide.rawSend, List.append_assoc]
      rfl

theorem retransmitEach_holds (h : t.Holds t.kept) (answers : Nat → γ → GuardAnswer) (i : Nat)
    (seqs : List Nat) :
    (retransmitEach answers i seqs t).Holds (retransmitEach answers i seqs t).kept := by
  rw [retransmitEach_eq h]
  exact ⟨h.buffer, h.guards⟩

/-- An idle packet is sixteen bytes, of type 0, and carries its number. -/
theorem idle_carries (t : TxSide γ) {seq : Nat} (h : seq < 0x10000) :
    (t.idle seq).length = 16 ∧ unpackH ((t.idle seq).getD 4 0) ((t.idle seq).getD 5 0) = 0 ∧
      unpackH ((t.idle seq).getD 6 0) ((t.idle seq).getD 7 0) = seq := by
  have hbytes : t.idle seq = [16, 0, 0, 0, 0, 0, UInt8.ofNat seq, UInt8.ofNat (seq / 256)] ++
      packLe 4 t.myId.toNat ++ packLe 4 t.remoteId.toNat := by
    simp [idle, buildControl, packLe, BigEndian.bytes, controlSize]
  rw [hbytes]
  refine ⟨by simp [packLe], by rfl, ?_⟩
  show unpackH (UInt8.ofNat seq) (UInt8.ofNat (seq / 256)) = seq
  rw [unpackH, UInt8.toNat_ofNat', UInt8.toNat_ofNat']
  omega

/-- A range is served forward in the circular order, up to the limit. -/
theorem servedOf_eq (first last : Seq) : servedOf (first.toNat, last.toNat) =
    if Circular.ahead first last < 0x8000 then
      (List.range (min (Circular.ahead first last + 1) maxMissing)).map fun offset =>
        (first + BitVec.ofNat 16 offset).toNat
    else [] := by
  have hspan : (last.toNat + 0x10000 - first.toNat) % 0x10000 = Circular.ahead first last := by
    have hfirst := first.isLt
    have hlast := last.isLt
    rw [Circular.ahead_eq]
    split <;> omega
  rw [servedOf, hspan]
  by_cases hforward : Circular.ahead first last < 0x8000
  · rw [if_neg (by omega), if_pos hforward]
    refine List.map_congr_left fun offset _ => ?_
    rw [BitVec.toNat_add, BitVec.toNat_ofNat, Nat.add_mod_mod]
  · rw [if_pos (by omega), if_neg hforward]

end TxSide

/-! ## Runs -/

/-- A call of `connect`, of `_track_sent`, or a retransmit request with the
answers of the guards. -/
inductive TxCall (γ : Type) where
  | connect (myId remoteId : BitVec 32)
  | track (seq : Int) (data : List UInt8) (isCurrent : Option γ)
  | request (answers : Nat → γ → GuardAnswer) (data : List UInt8) (length seq : Nat)

namespace TxSide

variable {γ : Type}

def step (t : TxSide γ) : TxCall γ → TxSide γ
  | .connect myId remoteId => { t.clear with myId, remoteId }
  | .track seq data isCurrent => t.trackSent seq data isCurrent
  | .request answers data length seq => t.handleRetransmitPacket answers data length seq

def run (t : TxSide γ) (calls : List (TxCall γ)) : TxSide γ := calls.foldl step t

/-- What is tracked since the last `connect` or rollover, with one more call. -/
def noteTracked (tracked : List (Int × List UInt8 × Option γ)) :
    TxCall γ → List (Int × List UInt8 × Option γ)
  | .connect _ _ => []
  | .track seq data isCurrent => (if seq = 0 then [] else tracked) ++ [(seq, data, isCurrent)]
  | .request _ _ _ _ => tracked

theorem trackSent_tracked (t : TxSide γ) (seq : Int) (data : List UInt8) (isCurrent : Option γ) :
    (t.trackSent seq data isCurrent).tracked =
      (if seq = 0 then [] else t.tracked) ++ [(seq, data, isCurrent)] := by
  rw [TxSide.trackSent.eq_def, TxSide.store.eq_def, makeRoom_tracked]
  split
  · rfl
  · rfl

theorem retransmit_tracked (t : TxSide γ) (answers : γ → GuardAnswer) (seq : Nat) :
    (t.retransmit answers seq).tracked = t.tracked := by
  rw [TxSide.retransmit]
  split
  · rfl
  · split
    · rfl
    · split <;> rfl

theorem retransmitEach_tracked (answers : Nat → γ → GuardAnswer) (i : Nat) (seqs : List Nat)
    (t : TxSide γ) : (retransmitEach answers i seqs t).tracked = t.tracked := by
  induction seqs generalizing t i with
  | nil => rfl
  | cons seq rest ih =>
      rw [retransmitEach, ih, retransmit_tracked]

theorem step_tracked (t : TxSide γ) (call : TxCall γ) :
    (t.step call).tracked = noteTracked t.tracked call := by
  cases call with
  | connect myId remoteId => rfl
  | track seq data isCurrent => exact trackSent_tracked t seq data isCurrent
  | request answers data length seq => exact retransmitEach_tracked answers 0 _ t

theorem run_tracked (t : TxSide γ) (calls : List (TxCall γ)) :
    (t.run calls).tracked = calls.foldl noteTracked t.tracked := by
  induction calls generalizing t with
  | nil => rfl
  | cons call rest ih => exact (ih (t.step call)).trans (by rw [step_tracked, List.foldl_cons])

theorem step_holds {t : TxSide γ} (h : t.Holds t.kept) (call : TxCall γ) :
    (t.step call).Holds (t.step call).kept := by
  cases call with
  | connect myId remoteId =>
      obtain ⟨hbuffer, hguards⟩ := Holds.clear t
      exact ⟨hbuffer, hguards⟩
  | track seq data isCurrent => exact h.trackSent seq data isCurrent
  | request answers data length seq => exact retransmitEach_holds h answers 0 _

theorem run_holds {t : TxSide γ} (h : t.Holds t.kept) (calls : List (TxCall γ)) :
    (t.run calls).Holds (t.run calls).kept := by
  induction calls generalizing t with
  | nil => exact h
  | cons call calls ih => exact ih (step_holds h call)

theorem initial_holds (myId remoteId : BitVec 32) :
    Holds ({ myId, remoteId } : TxSide γ) (kept { myId, remoteId }) :=
  Holds.clear { myId, remoteId }

/-- Whatever was sent and asked for: the buffer holds the packets tracked last since the last
`connect` or rollover, at most `BUFSIZE` of them, guards stand for buffered numbers only, and a
request is answered number by number, with one datagram each. -/
theorem requests_answered (myId remoteId : BitVec 32) (calls : List (TxCall γ)) :
    let t : TxSide γ := run { myId, remoteId } calls
    t.tracked = calls.foldl noteTracked [] ∧
    t.txBuffer.items = (Recency.last bufsize (Recency.entries t.tracked)).map
      (fun e => (e.1, e.2.1)) ∧
    t.txBuffer.items.length ≤ bufsize ∧
    (∀ seq, (t.txGuards.get? seq).isSome → (t.txBuffer.get? seq).isSome) ∧
    (∀ seq : Nat, (t.txBuffer.get? seq).isSome → (t.lastTracked seq).isSome) ∧
    (∀ answers data length seq, (t.handleRetransmitPacket answers data length seq).sent = t.sent ++
      (served data length seq).zipIdx.map fun turn => t.reply (answers turn.2) (turn.1 % 0x10000)) ∧
    (∀ seq < 0x10000, (t.idle seq).length = 16 ∧
      unpackH ((t.idle seq).getD 4 0) ((t.idle seq).getD 5 0) = 0 ∧
      unpackH ((t.idle seq).getD 6 0) ((t.idle seq).getD 7 0) = seq) ∧
    ∀ first last : Seq, servedOf (first.toNat, last.toNat) =
      if Circular.ahead first last < 0x8000 then
        (List.range (min (Circular.ahead first last + 1) maxMissing)).map fun offset =>
          (first + BitVec.ofNat 16 offset).toNat
      else [] := by
  intro t
  have h : t.Holds t.kept := run_holds (initial_holds myId remoteId) calls
  refine ⟨run_tracked _ calls, h.buffer, ?_, ?_, ?_, ?_, fun seq hseq => idle_carries t hseq,
    servedOf_eq⟩
  · rw [h.buffer, List.length_map]
    exact Recency.length_last_le _ _
  · intro seq hguard
    rw [h.guards] at hguard
    rw [h.get?]
    cases hfind : Dict.find seq t.kept with
    | none =>
        rw [hfind] at hguard
        cases hguard
    | some e => rfl
  · intro seq hbuffered
    rw [h.get?, Option.isSome_map] at hbuffered
    obtain ⟨e, he⟩ := Option.isSome_iff_exists.mp hbuffered
    rw [lastTracked_of_kept he]
    rfl
  · intro answers data length seq
    rw [handleRetransmitPacket, retransmitEach_eq h]

end TxSide

end Rigplane.Transport
