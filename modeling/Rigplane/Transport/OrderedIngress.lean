import Rigplane.Lib.Circular
import Rigplane.Lib.Dict
import Rigplane.Lib.Runs

/-!
# Ordered ingress of the LAN transport

`core/transport.py` numbers data packets with 16 bits.  `_record_rx_seq` notes which numbers
are missing below the newest one, and the retransmit loop asks for them.  Where the
transport orders its ingress (`IcomCivTransport`), `_accept_in_order` holds a packet until
the number before it has been routed or given up, and `_release_in_order` routes what is in
order.

`routed` lists what `_route_data_packet` got.  It is a history that nothing here reads, as
are the four counters.
-/

namespace Rigplane.Transport

open Circular

/-- A sequence number. -/
abbrev Seq := BitVec 16

/-- `MAX_MISSING`. -/
def maxMissing : Nat := 50

/-- `REORDER_WINDOW`. -/
def reorderWindow : Nat := 256

/-- `_HeldPacket`. -/
structure HeldPacket where
  data : List UInt8
  ptype : Nat
  seq : Seq
  senderId : Nat
deriving DecidableEq

/-- The inbound side of `IcomTransport`. -/
structure IcomTransport where
  orderedIngress : Bool
  rxLastSeq : Option Seq := none
  /-- The missing numbers, with how often each was asked for. -/
  rxMissing : Dict Seq Nat := .empty
  rxNext : Option Seq := none
  rxHeld : Dict Seq HeldPacket := .empty
  /-- A deque of at most `reorderWindow` numbers, oldest first. -/
  rxGivenUp : List Seq := []
  rxReordered : Nat := 0
  rxDuplicate : Nat := 0
  rxLost : Nat := 0
  rxLate : Nat := 0
  routed : List HeldPacket := []

namespace IcomTransport

/-! ## Gaps -/

/-- The numbers that are one to `count` above `last` are missing. -/
def noteMissing (last : Seq) (count : Nat) (missing : Dict Seq Nat) : Dict Seq Nat :=
  (List.range' 1 count).foldl (fun missing offset =>
    let seq := last + BitVec.ofNat 16 offset
    if (missing.get? seq).isSome then missing else missing.set seq 0) missing

/-- `_record_rx_seq`. -/
def recordRxSeq (t : IcomTransport) (seq : Seq) : IcomTransport :=
  let t := { t with rxMissing := t.rxMissing.erase seq }
  match t.rxLastSeq with
  | none => { t with rxLastSeq := some seq }
  | some last =>
      let delta := ahead last seq
      if 1 ≤ delta ∧ delta ≤ 0x7FFF then
        if delta > maxMissing then { t with rxMissing := .empty, rxLastSeq := some seq }
        else { t with rxMissing := noteMissing last (delta - 1) t.rxMissing, rxLastSeq := some seq }
      else t

/-! ## Release -/

/-- `_route_data_packet`. -/
def routeDataPacket (t : IcomTransport) (packet : HeldPacket) : IcomTransport :=
  { t with routed := t.routed ++ [packet] }

/-- The number of a list that is the least ahead, the first of several. -/
def nearest (nxt : Seq) : Seq → List Seq → Seq
  | best, [] => best
  | best, seq :: rest => nearest nxt (if ahead nxt seq < ahead nxt best then seq else best) rest

/-- `deque.append`. -/
def giveUp (givenUp : List Seq) (seq : Seq) : List Seq :=
  (givenUp ++ [seq]).drop (givenUp.length + 1 - reorderWindow)

/-- The gap of `skipped` numbers from `nxt` on is given up. -/
def skipGap (t : IcomTransport) (nxt : Seq) (skipped : Nat) : IcomTransport :=
  { t with
    rxMissing := (List.range skipped).foldl
      (fun missing offset => missing.erase (nxt + BitVec.ofNat 16 offset)) t.rxMissing
    rxGivenUp := (List.range' (skipped - reorderWindow) (skipped - (skipped - reorderWindow))).foldl
      (fun givenUp offset => giveUp givenUp (nxt + BitVec.ofNat 16 offset)) t.rxGivenUp
    rxLost := t.rxLost + skipped }

/-- The gap at the next number still waits for its retransmission. -/
def Waits (t : IcomTransport) (nxt : Seq) : Prop :=
  (t.rxMissing.get? nxt).isSome = true ∧ ahead nxt (t.rxLastSeq.getD nxt) ≤ reorderWindow

instance (t : IcomTransport) (nxt : Seq) : Decidable (t.Waits nxt) :=
  inferInstanceAs (Decidable ((t.rxMissing.get? nxt).isSome = true ∧ _))

/-- One round of the loop of `_release_in_order`, or `none` where the loop ends. -/
def releaseRound (t : IcomTransport) (nxt : Seq) : Option (IcomTransport × Seq) :=
  match t.rxHeld.keys with
  | [] => none
  | key :: keys =>
      match t.rxHeld.get? nxt with
      | some packet =>
          some (routeDataPacket { t with rxHeld := t.rxHeld.erase nxt } packet, nxt + 1)
      | none =>
          if t.Waits nxt then none
          else
            let firstHeld := nearest nxt key keys
            some (t.skipGap nxt (ahead nxt firstHeld), firstHeld)

/-- The loop, for at most so many rounds. -/
def releaseLoop : Nat → IcomTransport → Seq → IcomTransport × Seq
  | 0, t, nxt => (t, nxt)
  | rounds + 1, t, nxt =>
      match t.releaseRound nxt with
      | none => (t, nxt)
      | some (t, nxt) => releaseLoop rounds t nxt

/-- `_release_in_order`.  A held packet takes at most two rounds. -/
def releaseInOrder (t : IcomTransport) : IcomTransport :=
  match t.rxNext with
  | none => t
  | some nxt =>
      let (t, nxt) := releaseLoop (2 * t.rxHeld.keys.length + 1) t nxt
      { t with rxNext := some nxt }

/-! ## Arrival -/

/-- `_accept_in_order`. -/
def acceptInOrder (t : IcomTransport) (packet : HeldPacket) (arrivedAfterLater : Bool) :
    IcomTransport :=
  let seq := packet.seq
  let nxt := t.rxNext.getD seq
  let behind := ahead seq nxt
  if 0 < behind ∧ behind < 0x8000 then
    if seq ∈ t.rxGivenUp then { t with rxLate := t.rxLate + 1 }
    else { t with rxDuplicate := t.rxDuplicate + 1 }
  else if (t.rxHeld.get? seq).isSome then { t with rxDuplicate := t.rxDuplicate + 1 }
  else
    releaseInOrder { t with
      rxReordered := if arrivedAfterLater then t.rxReordered + 1 else t.rxReordered
      rxHeld := t.rxHeld.set seq packet
      rxNext := some nxt }

/-- `_handle_data_packet`. -/
def handleDataPacket (t : IcomTransport) (packet : HeldPacket) : IcomTransport :=
  if packet.ptype = 0 ∧ (packet.seq ≠ 0 ∨ t.orderedIngress) then
    let arrivedAfterLater : Bool :=
      t.rxLastSeq.any fun last => 0 < ahead packet.seq last ∧ ahead packet.seq last < 0x8000
    let t := t.recordRxSeq packet.seq
    if t.orderedIngress then t.acceptInOrder packet arrivedAfterLater
    else t.routeDataPacket packet
  else t.routeDataPacket packet

/-- One period of `_retransmit_loop`, after its requests are sent. -/
def retransmitTick (t : IcomTransport) : IcomTransport :=
  let toDelete : List Seq := (t.rxMissing.items.filter fun item => item.2 ≥ 4).map Prod.fst
  let asked := t.rxMissing.items.foldl (fun missing item =>
    if item.2 ≥ 4 then missing else missing.set item.1 (item.2 + 1)) t.rxMissing
  let t : IcomTransport := { t with rxMissing := toDelete.foldl Dict.erase asked }
  if toDelete ≠ [] ∧ t.rxHeld.keys ≠ [] then t.releaseInOrder else t

/-- What happens to the inbound side. -/
inductive Action where
  /-- A numbered data packet arrives. -/
  | arrives (data : List UInt8) (seq : Seq) (senderId : Nat)
  | retransmit
deriving DecidableEq

/-- The packet of an arrival. -/
def Action.packet? : Action → Option HeldPacket
  | .arrives data seq senderId => some ⟨data, 0, seq, senderId⟩
  | .retransmit => none

def step (t : IcomTransport) : Action → Option IcomTransport
  | .arrives data seq senderId => some (t.handleDataPacket ⟨data, 0, seq, senderId⟩)
  | .retransmit => some t.retransmitTick

/-- A transport that orders its ingress, before any packet. -/
def initial : IcomTransport := { orderedIngress := true }

end IcomTransport

end Rigplane.Transport
