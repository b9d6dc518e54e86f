import Mathlib.Data.List.Chain
import Mathlib.Data.List.Perm.Subperm
import Rigplane.Transport.OrderedIngress

/-!
# Packets are delivered in order

The held numbers lie in the window ahead of the next number, so a release hands them over by
their distance from it.  Distances are taken from the number `base` a release starts at and
never reach a whole turn, so `Releasing` and `Released` speak of natural numbers.

A packet that is accepted is at most `0x8000` ahead of the next number.  Two of these
distances, `0x7FFF` and `0x8000`, are `0x8000` and more from the packet routed last, which is
no longer newer.  Where something is held, one of the held packets goes first and nothing is
wrong, so the packets are routed in order if and only if no such packet arrives while nothing
is held (`delivered_iff`).
-/

namespace Rigplane.Transport

open Circular

namespace IcomTransport

variable {t t' : IcomTransport} {base nxt nxt' : Seq} {reach k k' : Nat}

/-! ## Gaps -/

theorem noteMissing_get? {last seq : Seq} (count : Nat) {missing : Dict Seq Nat}
    (hnone : missing.get? seq = none)
    (hfar : ∀ offset, 1 ≤ offset → offset ≤ count → last + BitVec.ofNat 16 offset ≠ seq) :
    (noteMissing last count missing).get? seq = none := by
  have hfold : ∀ (offsets : List Nat) (missing : Dict Seq Nat), missing.get? seq = none →
      (∀ offset ∈ offsets, last + BitVec.ofNat 16 offset ≠ seq) →
      (offsets.foldl (fun missing offset =>
        if (missing.get? (last + BitVec.ofNat 16 offset)).isSome then missing
        else missing.set (last + BitVec.ofNat 16 offset) 0) missing).get? seq = none := by
    intro offsets
    induction offsets with
    | nil => exact fun missing h _ => h
    | cons offset rest ih =>
        intro missing h hne
        refine ih _ ?_ fun o ho => hne o (List.mem_cons_of_mem _ ho)
        dsimp only
        split
        · exact h
        · rw [Dict.get?_set_ne _ _ (Ne.symm (hne offset List.mem_cons_self))]
          exact h
  refine hfold _ _ hnone fun offset hmem => ?_
  obtain ⟨h1, h2⟩ := List.mem_range'_1.mp hmem
  exact hfar offset h1 (by omega)

/-- The newest number is not missing. -/
def LastKnown (t : IcomTransport) : Prop :=
  ∀ last, t.rxLastSeq = some last → t.rxMissing.get? last = none

/-- What recording a number leaves: it is the newest, or not newer than the newest. -/
structure Recorded (t : IcomTransport) (seq : Seq) (t' : IcomTransport) : Prop where
  newest : ∃ last, t'.rxLastSeq = some last ∧ (last = seq ∨ ahead seq last ≤ 0x8000)
  lastKnown : t'.LastKnown
  ordered : t'.orderedIngress = t.orderedIngress
  next : t'.rxNext = t.rxNext
  held : t'.rxHeld = t.rxHeld
  lost : t'.rxLost = t.rxLost
  routed : t'.routed = t.routed

theorem recordRxSeq_spec (ht : t.LastKnown) (seq : Seq) : Recorded t seq (t.recordRxSeq seq) := by
  have herased : (t.rxMissing.erase seq).get? seq = none := by
    rw [Dict.get?_erase, if_pos rfl]
  rw [recordRxSeq]
  cases hlast : t.rxLastSeq with
  | none =>
      refine ⟨⟨seq, rfl, .inl rfl⟩, fun last h => ?_, rfl, rfl, rfl, rfl, rfl⟩
      cases h
      exact herased
  | some last =>
      dsimp only
      split
      · rename_i hforward
        split
        · exact ⟨⟨seq, rfl, .inl rfl⟩, fun _ _ => rfl, rfl, rfl, rfl, rfl, rfl⟩
        · refine ⟨⟨seq, rfl, .inl rfl⟩, fun newest h => ?_, rfl, rfl, rfl, rfl, rfl⟩
          cases h
          refine noteMissing_get? _ herased fun offset h1 h2 heq => ?_
          have hdist := ahead_add_ofNat last (k := offset) (by omega)
          rw [heq] at hdist
          omega
      · rename_i hback
        refine ⟨⟨last, rfl, ?_⟩, fun newest h => ?_, rfl, rfl, rfl, rfl, rfl⟩
        · by_cases hsame : last = seq
          · exact .inl hsame
          · have hswap := ahead_swap hsame
            have hpos : ahead last seq ≠ 0 := fun h => hsame (ahead_eq_zero.mp h)
            exact .inr (by omega)
        · cases h
          change (t.rxMissing.erase seq).get? last = none
          rw [Dict.get?_erase]
          split
          · rfl
          · exact ht last hlast

/-! ## One round of the release -/

theorem nearest_spec (nxt : Seq) (best : Seq) (seqs : List Seq) :
    nearest nxt best seqs ∈ best :: seqs ∧
      ∀ seq ∈ best :: seqs, ahead nxt (nearest nxt best seqs) ≤ ahead nxt seq := by
  induction seqs generalizing best with
  | nil => simp [nearest]
  | cons seq rest ih =>
      rw [nearest]
      obtain ⟨hmem, hle⟩ := ih (if ahead nxt seq < ahead nxt best then seq else best)
      have hbest := hle _ List.mem_cons_self
      generalize
        nearest nxt (if ahead nxt seq < ahead nxt best then seq else best) rest = first at *
      refine ⟨?_, fun other hother => ?_⟩
      · rcases List.mem_cons.mp hmem with h | h
        · rw [h]
          split <;> simp
        · exact List.mem_cons_of_mem _ (List.mem_cons_of_mem _ h)
      · rcases List.mem_cons.mp hother with rfl | hother
        · split at hbest <;> omega
        · rcases List.mem_cons.mp hother with rfl | hother
          · split at hbest <;> omega
          · exact hle other (List.mem_cons_of_mem _ hother)

/-- A release has moved `k` numbers on from `base`, and what is held lies ahead of it, at
most `reach` from the base. -/
structure Releasing (base : Seq) (reach k : Nat) (t : IcomTransport) (nxt : Seq) : Prop where
  next : nxt = base + BitVec.ofNat 16 k
  moved : k ≤ reach + 1
  held : ∀ seq packet, t.rxHeld.get? seq = some packet →
    packet.seq = seq ∧ k ≤ ahead base seq ∧ ahead base seq ≤ reach

/-- The distance of a held number from the next one. -/
theorem Releasing.ahead_next (h : Releasing base reach k t nxt) (hreach : reach ≤ 0x8000) :
    ahead base nxt = k := by
  have hmoved := h.moved
  rw [h.next]
  exact ahead_add_ofNat base (by omega)

theorem Releasing.ahead_held (h : Releasing base reach k t nxt) (hreach : reach ≤ 0x8000)
    {seq : Seq} {packet : HeldPacket} (hheld : t.rxHeld.get? seq = some packet) :
    ahead nxt seq = ahead base seq - k := by
  have hnext := h.ahead_next hreach
  have hsub := ahead_sub (a := base) (b := nxt) (c := seq)
    (by rw [hnext]; exact (h.held seq packet hheld).2.1)
  rw [hsub, hnext]

/-- What one round of the loop does. -/
inductive Round (base : Seq) (reach k : Nat) (t : IcomTransport) (nxt : Seq) :
    IcomTransport → Seq → Prop
  /-- The packet of the next number is routed. -/
  | route {packet : HeldPacket} (hheld : t.rxHeld.get? nxt = some packet)
      (hafter : Releasing base reach (k + 1)
        (routeDataPacket { t with rxHeld := t.rxHeld.erase nxt } packet) (nxt + 1)) :
      Round base reach k t nxt
        (routeDataPacket { t with rxHeld := t.rxHeld.erase nxt } packet) (nxt + 1)
  /-- The gap up to the next held packet is given up. -/
  | skip {skipped : Nat} {first : Seq} {packet : HeldPacket} (hpos : 0 < skipped)
      (hnone : t.rxHeld.get? nxt = none) (hheld : t.rxHeld.get? first = some packet)
      (hafter : Releasing base reach (k + skipped) (t.skipGap nxt skipped) first) :
      Round base reach k t nxt (t.skipGap nxt skipped) first

theorem releaseRound_spec (h : Releasing base reach k t nxt) (hreach : reach ≤ 0x8000)
    (hround : t.releaseRound nxt = some (t', nxt')) : Round base reach k t nxt t' nxt' := by
  have hnext := h.ahead_next hreach
  rw [releaseRound] at hround
  split at hround
  · cases hround
  · rename_i key keys hkeys
    split at hround
    · rename_i packet hheld
      cases hround
      obtain ⟨hseq, hlow, hhigh⟩ := h.held nxt packet hheld
      rw [hnext] at hhigh
      refine .route hheld ⟨?_, by omega, fun seq other hother => ?_⟩
      · rw [h.next, BitVec.add_assoc, BitVec.ofNat_add]
        rfl
      · change (t.rxHeld.erase nxt).get? seq = some other at hother
        rw [Dict.get?_erase] at hother
        split at hother
        · cases hother
        · rename_i hne
          obtain ⟨hother_seq, hother_low, hother_high⟩ := h.held seq other hother
          refine ⟨hother_seq, ?_, hother_high⟩
          have hdist : ahead base seq ≠ k := fun heq =>
            hne (ahead_inj (heq.trans hnext.symm))
          omega
    · rename_i hnone
      split at hround
      · cases hround
      · cases hround
        obtain ⟨hmem, hleast⟩ := nearest_spec nxt key keys
        rw [← hkeys] at hmem hleast
        obtain ⟨packet, hheld⟩ := Dict.mem_keys.mp hmem
        have hdist := h.ahead_held hreach hheld
        obtain ⟨-, hlow, hhigh⟩ := h.held _ packet hheld
        refine .skip (Nat.pos_of_ne_zero fun hzero => ?_) hnone hheld ⟨?_, by omega, ?_⟩
        · rw [← ahead_eq_zero.mp hzero, hnone] at hheld
          cases hheld
        · refine ahead_inj (a := base) ?_
          rw [ahead_add_ofNat base (by omega)]
          omega
        · intro seq other hother
          have hother_dist := h.ahead_held hreach hother
          obtain ⟨hother_seq, hother_low, hother_high⟩ := h.held seq other hother
          have hle := hleast seq (Dict.mem_keys.mpr ⟨other, hother⟩)
          exact ⟨hother_seq, by omega, hother_high⟩

/-! ## The whole release -/

/-- The loop has ended: nothing is held, or the gap at the next number waits. -/
def Ended (t : IcomTransport) (nxt : Seq) : Prop :=
  t.rxHeld.keys = [] ∨ t.rxHeld.get? nxt = none ∧ t.Waits nxt

theorem ended_of_releaseRound (h : t.releaseRound nxt = none) : t.Ended nxt := by
  rw [releaseRound] at h
  split at h
  · rename_i hkeys
    exact .inl hkeys
  · split at h
    · cases h
    · rename_i hnone
      split at h
      · rename_i hwaits
        exact .inr ⟨hnone, hwaits⟩
      · cases h

/-- What a release that had moved `k` on from `base` in `t` has done since: it routed
`packets` and gave `lost` numbers up. -/
structure Released (base : Seq) (reach k : Nat) (t : IcomTransport) (packets : List HeldPacket)
    (lost k' : Nat) (t' : IcomTransport) (nxt' : Seq) : Prop where
  releasing : Releasing base reach k' t' nxt'
  routed : t'.routed = t.routed ++ packets
  held : t.rxHeld.values.Perm (packets ++ t'.rxHeld.values)
  gaveUp : t'.rxLost = t.rxLost + lost
  moved : k' = k + packets.length + lost
  increasing : packets.Pairwise fun p q => ahead base p.seq < ahead base q.seq
  between : ∀ p ∈ packets, k ≤ ahead base p.seq ∧ ahead base p.seq < k'
  /-- It stands after the packet routed last, unless it has not moved or is to route. -/
  stands : k' = k ∧ packets = [] ∨ (t'.rxHeld.get? nxt').isSome ∨
    ∃ p, packets.getLast? = some p ∧ ahead base p.seq + 1 = k'
  newest : t'.rxLastSeq = t.rxLastSeq
  ordered : t'.orderedIngress = t.orderedIngress
  missing : ∀ seq, t.rxMissing.get? seq = none → t'.rxMissing.get? seq = none

variable {packets : List HeldPacket} {lost : Nat}

theorem Released.refl (h : Releasing base reach k t nxt) :
    Released base reach k t [] 0 k t nxt where
  releasing := h
  routed := (List.append_nil _).symm
  held := List.Perm.refl _
  gaveUp := rfl
  moved := rfl
  increasing := List.Pairwise.nil
  between := fun _ hp => absurd hp List.not_mem_nil
  stands := .inl ⟨rfl, rfl⟩
  newest := rfl
  ordered := rfl
  missing := fun _ hnone => hnone

/-- A round that routes, and the rest of the release. -/
theorem Released.route {packet : HeldPacket} (hheld : t.rxHeld.get? nxt = some packet)
    (hdist : ahead base packet.seq = k)
    (h : Released base reach (k + 1)
      (routeDataPacket { t with rxHeld := t.rxHeld.erase nxt } packet) packets lost k' t' nxt') :
    Released base reach k t (packet :: packets) lost k' t' nxt' where
  releasing := h.releasing
  routed := by
    rw [h.routed]
    exact List.append_assoc _ [packet] packets
  held := (Dict.values_perm_erase hheld).trans (h.held.cons packet)
  gaveUp := h.gaveUp
  moved := by
    have := h.moved
    rw [List.length_cons]
    omega
  increasing := List.pairwise_cons.mpr ⟨fun q hq => by
    have := (h.between q hq).1
    omega, h.increasing⟩
  between := fun p hp => by
    have hmoved := h.moved
    rcases List.mem_cons.mp hp with rfl | hp
    · omega
    · have := h.between p hp
      omega
  stands := by
    rcases h.stands with ⟨hk, rfl⟩ | hnext | ⟨p, hlast, hp⟩
    · exact .inr (.inr ⟨packet, rfl, by omega⟩)
    · exact .inr (.inl hnext)
    · refine .inr (.inr ⟨p, ?_, hp⟩)
      rw [List.getLast?_cons, hlast]
      rfl
  newest := h.newest
  ordered := h.ordered
  missing := h.missing

/-- A round that gives a gap up, and the rest of the release. -/
theorem Released.skip {skipped : Nat} (hpos : 0 < skipped) (hmissing : ∀ seq,
      t.rxMissing.get? seq = none → (t.skipGap nxt skipped).rxMissing.get? seq = none)
    (h : Released base reach (k + skipped) (t.skipGap nxt skipped) packets lost k' t' nxt')
    (hheld : k' = k + skipped ∧ packets = [] → (t'.rxHeld.get? nxt').isSome) :
    Released base reach k t packets (skipped + lost) k' t' nxt' where
  releasing := h.releasing
  routed := h.routed
  held := h.held
  gaveUp := h.gaveUp.trans (Nat.add_assoc _ _ _)
  moved := by
    have := h.moved
    omega
  increasing := h.increasing
  between := fun p hp => by
    have := h.between p hp
    omega
  stands := by
    rcases h.stands with hstill | hnext | hlast
    · exact .inr (.inl (hheld hstill))
    · exact .inr (.inl hnext)
    · exact .inr (.inr hlast)
  newest := h.newest
  ordered := h.ordered
  missing := fun seq hnone => h.missing seq (hmissing seq hnone)

/-- A packet that was held is routed or held still. -/
theorem Released.kept (h : Released base reach k t packets lost k' t' nxt') {seq : Seq}
    {packet : HeldPacket} (hheld : t.rxHeld.get? seq = some packet) :
    packet ∈ packets ∨ ∃ key, t'.rxHeld.get? key = some packet := by
  have hmem := h.held.mem_iff.mp (Dict.mem_values.mpr ⟨seq, hheld⟩)
  rcases List.mem_append.mp hmem with hrouted | hstill
  · exact .inl hrouted
  · exact .inr (Dict.mem_values.mp hstill)

/-- A release that did nothing still holds the packet of the number it stands at. -/
theorem Released.still (h : Released base reach k t [] lost k t' nxt') {packet : HeldPacket}
    {reach' : Nat} (hheld : t.rxHeld.get? nxt = some packet)
    (hbefore : Releasing base reach' k t nxt) :
    (t'.rxHeld.get? nxt').isSome := by
  obtain hmem | ⟨key, hkey⟩ := h.kept hheld
  · cases hmem
  · have hkey_seq := (h.releasing.held _ _ hkey).1
    have hseq := (hbefore.held _ _ hheld).1
    have hnext : nxt' = key := by
      rw [h.releasing.next, ← hbefore.next, ← hseq, hkey_seq]
    rw [hnext, hkey]
    rfl

/-- A packet that is routed was held. -/
theorem Released.was_held (h : Released base reach k t packets lost k' t' nxt')
    {packet : HeldPacket} (hmem : packet ∈ packets) : ∃ seq, t.rxHeld.get? seq = some packet :=
  Dict.mem_values.mp (h.held.mem_iff.mpr (List.mem_append_left _ hmem))

theorem erase_all_none {seqs : List Seq} {missing : Dict Seq Nat} {seq : Seq}
    (h : missing.get? seq = none) : (seqs.foldl Dict.erase missing).get? seq = none := by
  induction seqs generalizing missing with
  | nil => exact h
  | cons s rest ih =>
      refine ih ?_
      rw [Dict.get?_erase]
      split
      · rfl
      · exact h

theorem skipGap_missing {skipped : Nat} {seq : Seq} (h : t.rxMissing.get? seq = none) :
    (t.skipGap nxt skipped).rxMissing.get? seq = none := by
  have hmap : (t.skipGap nxt skipped).rxMissing =
      ((List.range skipped).map fun offset => nxt + BitVec.ofNat 16 offset).foldl
        Dict.erase t.rxMissing := by
    rw [List.foldl_map]
    rfl
  rw [hmap]
  exact erase_all_none h

/-- How many rounds the loop still takes, at most. -/
def roundsLeft (t : IcomTransport) (nxt : Seq) : Nat :=
  2 * t.rxHeld.keys.length - if (t.rxHeld.get? nxt).isSome then 1 else 0

theorem Round.rounds (h : Round base reach k t nxt t' nxt') :
    t'.roundsLeft nxt' < t.roundsLeft nxt := by
  have hpos : ∀ (seq : Seq) packet, t.rxHeld.get? seq = some packet → 0 < t.rxHeld.keys.length :=
    fun seq packet hheld => List.length_pos_of_mem (Dict.mem_keys.mpr ⟨packet, hheld⟩)
  cases h with
  | route hheld hafter =>
      have hlen := Dict.length_keys_erase hheld
      change 2 * (t.rxHeld.erase nxt).keys.length - _ < _
      rw [roundsLeft, hheld, Option.isSome_some, if_pos rfl]
      omega
  | skip hskipped hnone hheld hafter =>
      have := hpos _ _ hheld
      rw [roundsLeft, roundsLeft, hnone]
      change 2 * t.rxHeld.keys.length - (if (t.rxHeld.get? nxt').isSome then 1 else 0) < _
      rw [hheld, Option.isSome_some, if_pos rfl, Option.isSome_none, if_neg Bool.false_ne_true]
      omega

/-- The loop of a release, with enough rounds. -/
theorem releaseLoop_spec {rounds : Nat} (h : Releasing base reach k t nxt)
    (hreach : reach ≤ 0x8000) (hrounds : t.roundsLeft nxt < rounds) :
    ∃ packets lost k', Released base reach k t packets lost k' (releaseLoop rounds t nxt).1
        (releaseLoop rounds t nxt).2 ∧
      (releaseLoop rounds t nxt).1.Ended (releaseLoop rounds t nxt).2 := by
  induction rounds generalizing t nxt k with
  | zero => omega
  | succ rounds ih =>
      rw [releaseLoop]
      cases hround : t.releaseRound nxt with
      | none => exact ⟨[], 0, k, .refl h, ended_of_releaseRound hround⟩
      | some next =>
          obtain ⟨t₁, nxt₁⟩ := next
          have hspec := releaseRound_spec h hreach hround
          have hless := hspec.rounds
          cases hspec with
          | @route packet hheld hafter =>
              obtain ⟨packets, lost, k', hrest, hended⟩ := ih hafter (by omega)
              have hdist : ahead base packet.seq = k := by
                rw [(h.held _ _ hheld).1, h.ahead_next hreach]
              exact ⟨packet :: packets, lost, k', .route hheld hdist hrest, hended⟩
          | @skip skipped _ packet hpos hnone hheld hafter =>
              obtain ⟨packets, lost, k', hrest, hended⟩ := ih hafter (by omega)
              refine ⟨packets, skipped + lost, k',
                .skip hpos (fun _ => skipGap_missing) hrest ?_, hended⟩
              rintro ⟨hstill, rfl⟩
              subst hstill
              exact hrest.still hheld hafter

/-- A release from the next number on. -/
theorem releaseInOrder_spec (hnext : t.rxNext = some base) (h : Releasing base reach 0 t base)
    (hreach : reach ≤ 0x8000) :
    ∃ packets lost k' t' nxt', Released base reach 0 t packets lost k' t' nxt' ∧
      t'.Ended nxt' ∧ t.releaseInOrder = { t' with rxNext := some nxt' } := by
  have hrounds : t.roundsLeft base < 2 * t.rxHeld.keys.length + 1 := by
    rw [roundsLeft]
    omega
  obtain ⟨packets, lost, k', hreleased, hended⟩ := releaseLoop_spec h hreach hrounds
  refine ⟨packets, lost, k', _, _, hreleased, hended, ?_⟩
  rw [releaseInOrder, hnext]

theorem releaseInOrder_of_none (hnext : t.rxNext = none) : t.releaseInOrder = t := by
  rw [releaseInOrder, hnext]

/-! ## The invariant -/

/-- What holds between two actions of a transport that orders its ingress. -/
structure Ok (t : IcomTransport) : Prop where
  ordered : t.orderedIngress = true
  lastKnown : t.LastKnown
  /-- Before the first packet there is nothing. -/
  fresh : t.rxNext = none → t.rxHeld.values = [] ∧ t.routed = []
  window : ∀ nxt, t.rxNext = some nxt → ∀ seq packet, t.rxHeld.get? seq = some packet →
    packet.seq = seq ∧ 0 < ahead nxt seq ∧ ahead nxt seq ≤ reorderWindow
  /-- The next number is the one after the packet routed last. -/
  last : ∀ nxt, t.rxNext = some nxt → ∃ packet, t.routed.getLast? = some packet ∧
    packet.seq + 1 = nxt

theorem initial_ok : initial.Ok where
  ordered := rfl
  lastKnown := fun _ h => by cases h
  fresh := fun _ => ⟨rfl, rfl⟩
  window := fun _ h => by cases h
  last := fun _ h => by cases h

/-- The next packet is newer than the one before. -/
def Newer (previous next : HeldPacket) : Prop :=
  0 < ahead previous.seq next.seq ∧ ahead previous.seq next.seq < 0x8000

instance (previous next : HeldPacket) : Decidable (Newer previous next) :=
  inferInstanceAs (Decidable (_ ∧ _))

/-- No packet arrives at one of the two distances that are not newer, unless an earlier one
is held. -/
def Straight (t : IcomTransport) : Action → Prop
  | .arrives _ seq _ => t.rxHeld.keys = [] → ∀ nxt, t.rxNext = some nxt →
      ahead nxt seq ≠ 0x7FFF ∧ ahead nxt seq ≠ 0x8000
  | .retransmit => True

instance (t : IcomTransport) : ∀ action, Decidable (t.Straight action)
  | .retransmit => .isTrue trivial
  | .arrives _ seq _ =>
      match h : t.rxNext with
      | none => .isTrue fun _ nxt hnext => by
          rw [h] at hnext
          cases hnext
      | some nxt =>
          decidable_of_iff (t.rxHeld.keys = [] → ahead nxt seq ≠ 0x7FFF ∧
            ahead nxt seq ≠ 0x8000) <| by
            refine forall_congr' fun _ => ⟨fun hne _ hnext => ?_, fun hall => hall nxt h⟩
            cases h.symm.trans hnext
            exact hne

/-- How far an action moves the next number, from the first number of all on. -/
def advance (t : IcomTransport) (action : Action) (t' : IcomTransport) : Nat :=
  match t.rxNext.or (action.packet?.map HeldPacket.seq), t'.rxNext with
  | some before, some after => ahead before after
  | _, _ => 0

/-- What a step does with the packets. -/
structure Delivered (t : IcomTransport) (action : Action) (t' : IcomTransport) : Prop where
  ok : t'.Ok
  /-- What is routed or held was held before, or arrives. -/
  kept : (t'.routed ++ t'.rxHeld.values).Subperm
    (t.routed ++ t.rxHeld.values ++ action.packet?.toList)
  newer : t'.routed.IsChain Newer ↔ t.routed.IsChain Newer ∧ t.Straight action
  moved : advance t action t' + t.routed.length + t.rxLost = t'.routed.length + t'.rxLost

/-! ## A release keeps the invariant -/

/-- What a release starts from: all that is held is in the window, except a packet that has
just arrived. -/
structure Prepared (base arriving : Seq) (t : IcomTransport) : Prop where
  ordered : t.orderedIngress = true
  lastKnown : t.LastKnown
  next : t.rxNext = some base
  near : ahead base arriving ≤ 0x8000
  newest : (∃ packet, t.rxHeld.get? arriving = some packet) →
    ∃ last, t.rxLastSeq = some last ∧ (last = arriving ∨ ahead arriving last ≤ 0x8000)
  held : ∀ seq packet, t.rxHeld.get? seq = some packet → packet.seq = seq ∧
    (seq = arriving ∨ 0 < ahead base seq ∧ ahead base seq ≤ reorderWindow)
  last : (t.rxHeld.get? base).isSome ∨
    ∃ packet, t.routed.getLast? = some packet ∧ packet.seq + 1 = base

variable {arriving : Seq}

theorem Prepared.releasing (h : Prepared base arriving t) :
    Releasing base (max reorderWindow (ahead base arriving)) 0 t base where
  next := (BitVec.add_zero base).symm
  moved := Nat.zero_le _
  held := by
    intro seq packet hheld
    obtain ⟨hseq, rfl | ⟨-, hwindow⟩⟩ := h.held seq packet hheld
    · exact ⟨hseq, Nat.zero_le _, le_max_right _ _⟩
    · exact ⟨hseq, Nat.zero_le _, hwindow.trans (le_max_left _ _)⟩

/-- Where the gap at the next number waits, what is held still is in the window: the newest
number is, and no held number is beyond it. -/
theorem Prepared.window (h : Prepared base arriving t)
    (hreleased : Released base reach 0 t packets lost k' t' nxt') (hreach : reach ≤ 0x8000)
    (hended : t'.Ended nxt') {seq : Seq} {packet : HeldPacket}
    (hheld : t'.rxHeld.get? seq = some packet) :
    0 < ahead nxt' seq ∧ ahead nxt' seq ≤ reorderWindow := by
  obtain hempty | ⟨hnone, hmissing, hnear⟩ := hended
  · exact absurd (Dict.mem_keys.mpr ⟨packet, hheld⟩) (by simp [hempty])
  refine ⟨Nat.pos_of_ne_zero fun hzero => ?_, ?_⟩
  · rw [ahead_eq_zero.mp hzero, hheld] at hnone
    cases hnone
  obtain ⟨hseq, -, -⟩ := hreleased.releasing.held seq packet hheld
  have hdist := hreleased.releasing.ahead_held hreach hheld
  have hmem : packet ∈ t.rxHeld.values :=
    hreleased.held.mem_iff.mpr (List.mem_append_right _ (Dict.mem_values.mpr ⟨seq, hheld⟩))
  obtain ⟨key, hkey⟩ := Dict.mem_values.mp hmem
  obtain ⟨hkey_seq, harriving⟩ := h.held key packet hkey
  rw [← hkey_seq, hseq] at harriving
  obtain rfl | ⟨-, hwindow⟩ := harriving
  · obtain ⟨last, hlast, hclose⟩ := h.newest ⟨packet, by rw [← hseq, hkey_seq, hkey]⟩
    have hlast' := hreleased.newest.trans hlast
    rw [hlast', Option.getD_some] at hnear
    have hknown := hreleased.missing last (h.lastKnown last hlast)
    have hne : nxt' ≠ last := by
      rintro rfl
      rw [hknown] at hmissing
      cases hmissing
    obtain rfl | hclose := hclose
    · exact hnear
    · have hbound := h.near
      by_cases hturn : ahead nxt' seq + ahead seq last < 2 ^ 16
      · have hsum := ahead_trans hturn
        omega
      · refine absurd (ahead_inj (a := seq) ?_).symm hne
        have hpos : ahead nxt' seq ≠ 0 := fun hzero => by
          rw [ahead_eq_zero.mp hzero, hheld] at hnone
          cases hnone
        rw [ahead_swap (a := nxt') (b := seq) fun heq => hpos (ahead_eq_zero.mpr heq)]
        have hhigh := ahead_lt seq last
        omega
  · omega

theorem Prepared.release_ok (h : Prepared base arriving t)
    (hreleased : Released base reach 0 t packets lost k' t' nxt') (hreach : reach ≤ 0x8000)
    (hended : t'.Ended nxt') : Ok { t' with rxNext := some nxt' } where
  ordered := hreleased.ordered.trans h.ordered
  lastKnown := fun last hlast =>
    hreleased.missing last (h.lastKnown last (hreleased.newest.symm.trans hlast))
  fresh := fun hnone => by cases hnone
  window := by
    intro nxt hnxt seq packet hheld
    cases hnxt
    exact ⟨(hreleased.releasing.held seq packet hheld).1, h.window hreleased hreach hended hheld⟩
  last := by
    intro nxt hnxt
    cases hnxt
    have hnone : (t'.rxHeld.get? nxt').isSome = false := by
      obtain hempty | ⟨hnone, -⟩ := hended
      · rw [Dict.get?_eq_none.mpr (by simp [hempty])]
        rfl
      · rw [hnone]
        rfl
    change ∃ packet, t'.routed.getLast? = some packet ∧ _
    rw [hreleased.routed]
    obtain ⟨hstill, rfl⟩ | hnext | ⟨p, hlast, hp⟩ := hreleased.stands
    · have hnext : nxt' = base := by
        rw [hreleased.releasing.next, hstill]
        exact BitVec.add_zero base
      rw [List.append_nil, hnext]
      obtain hsome | hbefore := h.last
      · obtain ⟨packet, hpacket⟩ := Option.isSome_iff_exists.mp hsome
        rw [hstill] at hreleased
        rw [hreleased.still hpacket h.releasing] at hnone
        cases hnone
      · exact hbefore
    · rw [hnone] at hnext
      cases hnext
    · refine ⟨p, by rw [List.getLast?_append, hlast]; rfl, ?_⟩
      rw [hreleased.releasing.next, ← hp, BitVec.ofNat_add, ← BitVec.add_assoc, add_ofNat_ahead]
      rfl

/-! ## The order of what a release routes -/

theorem Prepared.routed_dist (h : Prepared base arriving t)
    (hreleased : Released base reach 0 t packets lost k' t' nxt') {packet : HeldPacket}
    (hmem : packet ∈ packets) : packet.seq = arriving ∨
      0 < ahead base packet.seq ∧ ahead base packet.seq ≤ reorderWindow := by
  obtain ⟨seq, hheld⟩ := hreleased.was_held hmem
  obtain ⟨hseq, hdist⟩ := h.held seq packet hheld
  rw [hseq]
  exact hdist

theorem Prepared.chain (h : Prepared base arriving t)
    (hreleased : Released base reach 0 t packets lost k' t' nxt') : packets.IsChain Newer := by
  refine List.Pairwise.isChain (hreleased.increasing.imp_of_mem fun {p q} hp hq hless => ?_)
  have hsub := ahead_sub (a := base) (b := p.seq) (c := q.seq) hless.le
  have hnear := h.near
  have hp_dist := h.routed_dist hreleased hp
  have hq_dist := h.routed_dist hreleased hq
  rw [reorderWindow] at hp_dist hq_dist
  rw [Newer, hsub]
  refine ⟨by omega, ?_⟩
  obtain hq_arriving | hq_window := hq_dist
  · obtain hp_arriving | hp_window := hp_dist
    · rw [hp_arriving, hq_arriving] at hless
      exact absurd hless (lt_irrefl _)
    · rw [hq_arriving]
      omega
  · omega

/-- From the packet routed last to one ahead of the next number. -/
theorem newer_iff {last packet : HeldPacket} (hlast : last.seq + 1 = base)
    (hdist : ahead base packet.seq ≤ 0x8000) :
    Newer last packet ↔ ahead base packet.seq ≠ 0x7FFF ∧ ahead base packet.seq ≠ 0x8000 := by
  have hone : ahead last.seq base = 1 := by
    rw [← hlast]
    exact ahead_add_ofNat last.seq (k := 1) (by omega)
  have hsum := ahead_trans (a := last.seq) (b := base) (c := packet.seq) (by omega)
  rw [Newer, hsum, hone]
  omega

/-- What a release routes continues what was routed, if its first packet does. -/
theorem Prepared.newer (h : Prepared base arriving t)
    (hreleased : Released base reach 0 t packets lost k' t' nxt') :
    t'.routed.IsChain Newer ↔ t.routed.IsChain Newer ∧
      ∀ last, t.routed.getLast? = some last → ∀ first, packets.head? = some first →
        Newer last first := by
  rw [hreleased.routed, List.isChain_append]
  constructor
  · rintro ⟨hbefore, -, hlink⟩
    exact ⟨hbefore, fun last hlast first hfirst => hlink last hlast first hfirst⟩
  · rintro ⟨hbefore, hlink⟩
    exact ⟨hbefore, h.chain hreleased, fun last hlast first hfirst => hlink last hlast first hfirst⟩

/-- Where a packet of the window is held, the first packet routed is in the window. -/
theorem Prepared.first_near (h : Prepared base arriving t)
    (hreleased : Released base reach 0 t packets lost k' t' nxt') {seq : Seq}
    {held first : HeldPacket}
    (hheld : t.rxHeld.get? seq = some held) (hnear : ahead base seq ≤ reorderWindow)
    (hfirst : packets.head? = some first) : ahead base first.seq ≤ reorderWindow := by
  obtain ⟨rest, rfl⟩ := List.head?_eq_some_iff.mp hfirst
  have hseq := (h.held seq held hheld).1
  obtain hrouted | ⟨key, hkey⟩ := hreleased.kept hheld
  · rcases List.mem_cons.mp hrouted with rfl | hrest
    · rw [hseq]
      exact hnear
    · have hless := (List.pairwise_cons.mp hreleased.increasing).1 held hrest
      rw [hseq] at hless
      omega
  · obtain ⟨hkey_seq, hlow, -⟩ := hreleased.releasing.held key held hkey
    have hbefore := (hreleased.between first List.mem_cons_self).2
    rw [← hkey_seq, hseq] at hlow
    omega

/-! ## One step -/

variable {action : Action}

/-- A step that neither holds, routes nor gives up anything. -/
theorem Delivered.unmoved (ht : t.Ok) (ordered : t'.orderedIngress = t.orderedIngress)
    (lastKnown : t'.LastKnown) (next : t'.rxNext = t.rxNext) (held : t'.rxHeld = t.rxHeld)
    (lost : t'.rxLost = t.rxLost) (routed : t'.routed = t.routed) (straight : t.Straight action) :
    Delivered t action t' where
  ok :=
    { ordered := ordered.trans ht.ordered
      lastKnown := lastKnown
      fresh := by
        rw [next, held, routed]
        exact ht.fresh
      window := by
        rw [next, held]
        exact ht.window
      last := by
        rw [next, routed]
        exact ht.last }
  kept := by
    rw [held, routed]
    exact (List.sublist_append_left _ _).subperm
  newer := by
    rw [routed]
    exact ⟨fun h => ⟨h, straight⟩, And.left⟩
  moved := by
    have hstill : advance t action t' = 0 := by
      rw [advance, next]
      cases t.rxNext with
      | none =>
          cases action.packet? <;> rfl
      | some nxt => exact ahead_self nxt
    rw [hstill, routed, lost]
    omega

/-- A step that ends in a release. -/
theorem Delivered.released {before : IcomTransport} (hbase : t.rxNext.or
      (action.packet?.map HeldPacket.seq) = some base) (hprepared : Prepared base arriving before)
    (hreleased : Released base reach 0 before packets lost k' t' nxt') (hreach : reach ≤ 0x8000)
    (hended : t'.Ended nxt') (hheld : before.rxHeld.values =
    t.rxHeld.values ++ action.packet?.toList)
    (hlost : before.rxLost = t.rxLost) (hrouted : before.routed = t.routed)
    (hstraight : (∀ last, t.routed.getLast? = some last → ∀ first, packets.head? = some first →
      Newer last first) ↔ t.Straight action) :
    Delivered t action { t' with rxNext := some nxt' } where
  ok := hprepared.release_ok hreleased hreach hended
  kept := by
    have hperm := hreleased.held
    rw [hheld] at hperm
    change (t'.routed ++ t'.rxHeld.values).Subperm _
    rw [hreleased.routed, hrouted, List.append_assoc, List.append_assoc]
    exact (hperm.symm.append_left t.routed).subperm
  newer := by
    rw [← hstraight, ← hrouted]
    change t'.routed.IsChain Newer ↔ _
    exact hprepared.newer hreleased
  moved := by
    have hdist := hreleased.releasing.ahead_next hreach
    have hmoved := hreleased.moved
    have hgave := hreleased.gaveUp
    rw [advance, hbase]
    change ahead base nxt' + _ + _ = t'.routed.length + t'.rxLost
    rw [hdist, hreleased.routed, List.length_append, hgave, hrouted, hlost]
    omega

theorem askAgain_none {items : List (Seq × Nat)} {missing : Dict Seq Nat} {seq : Seq}
    (h : missing.get? seq = none) (hitems : ∀ item ∈ items, item.1 ≠ seq) :
    (items.foldl (fun missing item =>
      if item.2 ≥ 4 then missing else missing.set item.1 (item.2 + 1)) missing).get? seq =
        none := by
  induction items generalizing missing with
  | nil => exact h
  | cons item rest ih =>
      refine ih ?_ fun other hother => hitems other (List.mem_cons_of_mem _ hother)
      dsimp only
      split
      · exact h
      · rw [Dict.get?_set_ne _ _ (Ne.symm (hitems item List.mem_cons_self))]
        exact h

theorem retransmitTick_spec (ht : t.Ok) : Delivered t .retransmit t.retransmitTick := by
  have hknown : ∀ (seqs : List Seq) last, t.rxLastSeq = some last →
      (seqs.foldl Dict.erase (t.rxMissing.items.foldl (fun missing item =>
        if item.2 ≥ 4 then missing else missing.set item.1 (item.2 + 1)) t.rxMissing)).get? last =
          none := by
    intro seqs last hlast
    have hnone := ht.lastKnown last hlast
    refine erase_all_none (askAgain_none hnone fun item hitem heq => ?_)
    rw [Dict.mem_items.mp (by rw [← heq]; exact hitem)] at hnone
    cases hnone
  rw [retransmitTick]
  dsimp only
  have hknown := hknown ((t.rxMissing.items.filter fun item => item.2 ≥ 4).map Prod.fst)
  generalize List.foldl (Dict.erase (κ := Seq)) _ _ = missing at *
  split
  · obtain hnext | ⟨base, hnext⟩ := Option.eq_none_or_eq_some t.rxNext
    · rw [releaseInOrder_of_none (by exact hnext)]
      exact .unmoved ht rfl hknown rfl rfl rfl rfl trivial
    · have hprepared : Prepared base base { t with rxMissing := missing } :=
        { ordered := ht.ordered
          lastKnown := hknown
          next := hnext
          near := by simp
          newest := fun ⟨packet, hheld⟩ => by
            have hpos := (ht.window base hnext base packet hheld).2.1
            rw [ahead_self] at hpos
            omega
          held := fun seq packet hheld => by
            obtain ⟨hseq, hwindow⟩ := ht.window base hnext seq packet hheld
            exact ⟨hseq, .inr hwindow⟩
          last := .inr (ht.last base hnext) }
      obtain ⟨packets, lost, k', t', nxt', hreleased, hended, heq⟩ :=
        releaseInOrder_spec hprepared.next hprepared.releasing (by simp [reorderWindow])
      rw [heq]
      refine .released (by rw [hnext]; rfl) hprepared hreleased (by simp [reorderWindow]) hended
        (List.append_nil _).symm rfl rfl (iff_of_true (fun last hlast first hfirst => ?_) trivial)
      obtain ⟨before, hbefore, hseq⟩ := ht.last base hnext
      cases hbefore.symm.trans hlast
      have hdist : ahead base first.seq ≤ reorderWindow := by
        obtain hsame | hwindow := hprepared.routed_dist hreleased (List.mem_of_mem_head? hfirst)
        · rw [hsame, ahead_self]
          exact Nat.zero_le _
        · exact hwindow.2
      rw [reorderWindow] at hdist
      exact (newer_iff hseq (by omega)).mpr (by omega)
  · exact .unmoved ht rfl hknown rfl rfl rfl rfl trivial

/-- The number of an accepted packet is at most half a turn ahead. -/
theorem ahead_of_accepted {seq nxt : Seq} (h : ¬ (0 < ahead seq nxt ∧ ahead seq nxt < 0x8000)) :
    ahead nxt seq ≤ 0x8000 := by
  by_cases hsame : seq = nxt
  · rw [hsame, ahead_self]
    exact Nat.zero_le _
  · have hpos : ahead seq nxt ≠ 0 := fun hzero => hsame (ahead_eq_zero.mp hzero)
    rw [ahead_swap hsame]
    omega

/-- What an accepted packet is released from. -/
theorem Recorded.prepared {recorded : IcomTransport} (packet : HeldPacket) (reordered : Nat)
    (h : Recorded t packet.seq recorded) (ht : t.Ok) (hbase : t.rxNext.getD packet.seq = base)
    (hnear : ahead base packet.seq ≤ 0x8000) :
    Prepared base packet.seq { recorded with
      rxReordered := reordered
      rxHeld := recorded.rxHeld.set packet.seq packet
      rxNext := some base } where
  ordered := h.ordered.trans ht.ordered
  lastKnown := h.lastKnown
  next := rfl
  near := hnear
  newest := fun _ => h.newest
  held := by
    intro seq held hheld
    change (recorded.rxHeld.set packet.seq packet).get? seq = some held at hheld
    rw [Dict.get?_set, h.held] at hheld
    split at hheld
    · rename_i hsame
      cases hheld
      exact ⟨hsame.symm, .inl hsame⟩
    · obtain hnext | ⟨nxt, hnext⟩ := Option.eq_none_or_eq_some t.rxNext
      · have hmem := Dict.mem_values.mpr ⟨seq, hheld⟩
        rw [(ht.fresh hnext).1] at hmem
        cases hmem
      · rw [hnext, Option.getD_some] at hbase
        obtain ⟨hseq, hwindow⟩ := ht.window nxt hnext seq held hheld
        rw [hbase] at hwindow
        exact ⟨hseq, .inr hwindow⟩
  last := by
    obtain hnext | ⟨nxt, hnext⟩ := Option.eq_none_or_eq_some t.rxNext
    · rw [hnext, Option.getD_none] at hbase
      rw [hbase]
      exact .inl (by rw [Dict.get?_set_self]; rfl)
    · rw [hnext, Option.getD_some] at hbase
      change _ ∨ ∃ packet, recorded.routed.getLast? = some packet ∧ _
      rw [h.routed, ← hbase]
      exact .inr (ht.last nxt hnext)

/-- An accepted packet continues what was routed if and only if it arrives straight. -/
theorem Prepared.straight_iff {before : IcomTransport} {packet : HeldPacket}
    (ht : t.Ok) (h : Prepared base packet.seq before) (hbase : t.rxNext.getD packet.seq = base)
    (hreleased : Released base reach 0 before packets lost k' t' nxt') (hreach : reach ≤ 0x8000)
    (hended : t'.Ended nxt') (hheld : before.rxHeld = t.rxHeld.set packet.seq packet)
    (hrouted : before.routed = t.routed)
    (hnone : t.rxHeld.get? packet.seq = none) (data : List UInt8) (senderId : Nat) :
    (∀ last, t.routed.getLast? = some last → ∀ first, packets.head? = some first →
      Newer last first) ↔ t.Straight (.arrives data packet.seq senderId) := by
  obtain hnext | ⟨nxt, hnext⟩ := Option.eq_none_or_eq_some t.rxNext
  · refine iff_of_true (fun last hlast => ?_) fun _ nxt hnxt => ?_
    · rw [(ht.fresh hnext).2] at hlast
      cases hlast
    · rw [hnext] at hnxt
      cases hnxt
  rw [hnext, Option.getD_some] at hbase
  subst hbase
  obtain ⟨last, hlast, hseq⟩ := ht.last nxt hnext
  obtain hempty | hne := eq_or_ne t.rxHeld.keys []
  · -- nothing was held: the packet is the only one that can be routed
    have honly : before.rxHeld.values = [packet] := by
      have hvalues : t.rxHeld.values = [] := by
        rw [Dict.values, List.map_eq_nil_iff]
        exact List.map_eq_nil_iff.mp hempty
      rw [hheld, Dict.values_set_of_none hnone, hvalues, List.nil_append]
    have hget : before.rxHeld.get? packet.seq = some packet := by
      rw [hheld, Dict.get?_set_self]
    cases packets with
    | nil =>
        -- it is held still, so it lies in the window
        refine iff_of_true (fun _ _ first hfirst => ?_) fun _ base hbase => ?_
        · cases hfirst
        · have hok := h.release_ok hreleased hreach hended
          obtain ⟨other, hother, hother_seq⟩ := hok.last nxt' rfl
          obtain hmem | ⟨key, hkey⟩ := hreleased.kept hget
          · cases hmem
          · obtain ⟨hkey_seq, -, hwindow⟩ := hok.window nxt' rfl key packet hkey
            change t'.routed.getLast? = some other at hother
            rw [hreleased.routed, List.append_nil, hrouted, hlast] at hother
            cases hother
            cases hnext.symm.trans hbase
            rw [← hother_seq, hseq, ← hkey_seq, reorderWindow] at hwindow
            omega
    | cons first rest =>
        have hfirst : first = packet := by
          obtain ⟨key, hkey⟩ := hreleased.was_held (List.mem_cons_self : first ∈ first :: rest)
          have hmem := Dict.mem_values.mpr ⟨key, hkey⟩
          rw [honly, List.mem_singleton] at hmem
          exact hmem
        subst hfirst
        have hiff : Newer last first ↔ _ := newer_iff hseq h.near
        constructor
        · intro hnewer _ base hbase
          cases hnext.symm.trans hbase
          exact hiff.mp (hnewer last hlast first rfl)
        · intro hstraight other hother other_first hother_first
          cases hlast.symm.trans hother
          cases hother_first
          exact hiff.mpr (hstraight hempty nxt hnext)
  · -- a packet of the window goes first
    obtain ⟨key, hkey⟩ := List.exists_mem_of_ne_nil _ hne
    obtain ⟨held, hget⟩ := Dict.mem_keys.mp hkey
    have hkept : before.rxHeld.get? key = some held := by
      rw [hheld, Dict.get?_set_ne _ _ fun heq => ?_]
      · exact hget
      · rw [heq, hnone] at hget
        cases hget
    refine iff_of_true (fun other hother first hfirst => ?_) fun hempty => ?_
    · cases hlast.symm.trans hother
      have hwindow := (ht.window nxt hnext key held hget).2.2
      have hnear := h.first_near hreleased hkept hwindow hfirst
      rw [reorderWindow] at hnear
      exact (newer_iff hseq (by omega)).mpr (by omega)
    · exact absurd hempty hne

theorem handleDataPacket_spec (ht : t.Ok) (data : List UInt8) (seq : Seq) (senderId : Nat) :
    Delivered t (.arrives data seq senderId) (t.handleDataPacket ⟨data, 0, seq, senderId⟩) := by
  have hrecorded := recordRxSeq_spec ht.lastKnown seq
  rw [handleDataPacket, if_pos ⟨rfl, .inr ht.ordered⟩]
  dsimp only
  generalize t.recordRxSeq seq = recorded at *
  generalize (t.rxLastSeq.any fun last => decide (0 < ahead seq last ∧
    ahead seq last < 0x8000)) = later at *
  rw [hrecorded.ordered, if_pos ht.ordered, acceptInOrder]
  dsimp only
  rw [hrecorded.next, hrecorded.held]
  have hdropped : ∀ dropped : IcomTransport, dropped.orderedIngress = recorded.orderedIngress →
      dropped.LastKnown → dropped.rxNext = t.rxNext → dropped.rxHeld = t.rxHeld →
      dropped.rxLost = recorded.rxLost → dropped.routed = recorded.routed →
      t.Straight (.arrives data seq senderId) →
      Delivered t (.arrives data seq senderId) dropped :=
    fun dropped hordered hknown hnext hheld hlost hrouted hstraight =>
      .unmoved ht (hordered.trans hrecorded.ordered) hknown hnext hheld
        (hlost.trans hrecorded.lost) (hrouted.trans hrecorded.routed)
        hstraight
  split
  · -- behind the next number
    rename_i hbehind
    have hstraight : t.Straight (.arrives data seq senderId) := by
      intro _ nxt hnext
      rw [hnext, Option.getD_some] at hbehind
      have hne : seq ≠ nxt := fun heq => by
        rw [heq, ahead_self] at hbehind
        omega
      rw [ahead_swap hne]
      omega
    split <;> exact hdropped _ rfl hrecorded.lastKnown rfl rfl rfl rfl hstraight
  · rename_i haccepted
    split
    · -- held already
      rename_i hheld
      obtain ⟨packet, hpacket⟩ := Option.isSome_iff_exists.mp hheld
      refine hdropped _ rfl hrecorded.lastKnown rfl rfl rfl rfl fun hempty => ?_
      have hmem := Dict.mem_keys.mpr ⟨packet, hpacket⟩
      rw [hempty] at hmem
      cases hmem
    · rename_i hheld
      have hnone : t.rxHeld.get? seq = none := Option.not_isSome_iff_eq_none.mp hheld
      have hnear := ahead_of_accepted haccepted
      have hprepared := Recorded.prepared ⟨data, 0, seq, senderId⟩
        (if later then recorded.rxReordered + 1 else recorded.rxReordered) hrecorded ht rfl hnear
      have hreach : max reorderWindow (ahead (t.rxNext.getD seq) seq) ≤ 0x8000 :=
        max_le (by simp [reorderWindow]) hnear
      obtain ⟨packets, lost, k', t', nxt', hreleased, hended, heq⟩ :=
        releaseInOrder_spec rfl hprepared.releasing hreach
      have hset : recorded.rxHeld.set seq ⟨data, 0, seq, senderId⟩ =
          t.rxHeld.set seq ⟨data, 0, seq, senderId⟩ := by rw [hrecorded.held]
      have hstraight := hprepared.straight_iff ht rfl hreleased hreach hended hset
        hrecorded.routed hnone data senderId
      rw [hrecorded.held] at heq
      rw [heq]
      refine .released ?_ hprepared hreleased hreach hended ?_ hrecorded.lost hrecorded.routed
        hstraight
      · cases t.rxNext <;> rfl
      · rw [hset]
        exact Dict.values_set_of_none hnone _

theorem step_spec (ht : t.Ok) (hstep : step t action = some t') : Delivered t action t' := by
  cases action with
  | arrives data seq senderId =>
      cases hstep
      exact handleDataPacket_spec ht data seq senderId
  | retransmit =>
      cases hstep
      exact retransmitTick_spec ht

/-! ## Whole runs -/

/-- How far a run moves the next number. -/
def totalAdvance : IcomTransport → List Action → Nat
  | _, [] => 0
  | t, action :: actions =>
      match step t action with
      | none => 0
      | some t' => advance t action t' + totalAdvance t' actions

/-- The packets of a run's arrivals. -/
def arrivals (actions : List Action) : List HeldPacket := actions.filterMap Action.packet?

/-- A run from the initial state delivers in order. -/
structure InOrder (actions : List Action) (t : IcomTransport) : Prop where
  /-- Each packet routed is newer than the one before. -/
  newer : t.routed.IsChain Newer
  /-- No arrival is routed twice, nor routed and held. -/
  once : (t.routed ++ t.rxHeld.values).Subperm (arrivals actions)
  held : ∀ seq packet, t.rxHeld.get? seq = some packet → packet.seq = seq ∧
    ∃ nxt, t.rxNext = some nxt ∧ 0 < ahead nxt seq ∧ ahead nxt seq ≤ reorderWindow
  counted : totalAdvance initial actions = t.routed.length + t.rxLost

/-- What a run adds to the state it starts from. -/
structure Adds (t : IcomTransport) (actions : List Action) (t' : IcomTransport) : Prop where
  ok : t'.Ok
  kept : (t'.routed ++ t'.rxHeld.values).Subperm
    (t.routed ++ t.rxHeld.values ++ arrivals actions)
  newer : t'.routed.IsChain Newer ↔
    t.routed.IsChain Newer ∧ Runs.Along step Straight t actions
  moved : totalAdvance t actions + t.routed.length + t.rxLost = t'.routed.length + t'.rxLost

theorem exec_adds {actions : List Action} (ht : t.Ok) (h : Runs.exec step t actions = some t') :
    Adds t actions t' := by
  induction actions generalizing t with
  | nil =>
      cases h
      refine ⟨ht, ?_, ⟨fun h => ⟨h, trivial⟩, And.left⟩, by rw [totalAdvance]; omega⟩
      rw [arrivals, List.filterMap_nil, List.append_nil]
  | cons action actions ih =>
      obtain ⟨m, hstep, hrest⟩ := Runs.exec_cons_eq_some.mp h
      have hspec := step_spec ht hstep
      have hadds := ih hspec.ok hrest
      refine ⟨hadds.ok, hadds.kept.trans ?_, ?_, ?_⟩
      · have harrivals : arrivals (action :: actions) =
          action.packet?.toList ++ arrivals actions := by
          rw [arrivals, List.filterMap_cons]
          cases action.packet? <;> rfl
        rw [harrivals, ← List.append_assoc]
        exact (List.subperm_append_right _).mpr hspec.kept
      · rw [hadds.newer, hspec.newer, and_assoc]
        refine and_congr_right fun _ => ?_
        constructor
        · rintro ⟨hstraight, halong⟩
          refine ⟨hstraight, fun m' hm' => ?_⟩
          cases hstep.symm.trans hm'
          exact halong
        · exact fun halong => halong.cons hstep
      · have hmoved := hadds.moved
        have hfirst := hspec.moved
        rw [totalAdvance, hstep]
        dsimp only
        omega

/-- A run delivers in order if and only if no packet arrives `0x7FFF` or `0x8000` ahead of
the next number while nothing is held. -/
theorem delivered_iff (actions : List Action) (t : IcomTransport)
    (h : Runs.exec step initial actions = some t) :
    InOrder actions t ↔ Runs.Along step Straight initial actions := by
  have hadds := exec_adds initial_ok h
  have hchain : t.routed.IsChain Newer ↔ Runs.Along step Straight initial actions := by
    rw [hadds.newer]
    exact and_iff_right List.IsChain.nil
  refine ⟨fun horder => hchain.mp horder.newer,
    fun halong => ⟨hchain.mpr halong, hadds.kept, ?_, ?_⟩⟩
  · intro seq packet hheld
    obtain hnext | ⟨nxt, hnext⟩ := Option.eq_none_or_eq_some t.rxNext
    · have hmem := Dict.mem_values.mpr ⟨seq, hheld⟩
      rw [(hadds.ok.fresh hnext).1] at hmem
      cases hmem
    · obtain ⟨hseq, hwindow⟩ := hadds.ok.window nxt hnext seq packet hheld
      exact ⟨hseq, nxt, hnext, hwindow⟩
  · have hmoved := hadds.moved
    change totalAdvance initial actions + 0 + 0 = _ at hmoved
    omega

/-- Three packets, the second of which is overtaken. -/
theorem delivered_iff_overtaken :
    ∃ t, Runs.exec step initial [.arrives [] 0xFFFF 0, .arrives [] 1 0, .arrives [] 0 0] = some t ∧
      t.routed.map HeldPacket.seq = [0xFFFF, 0, 1] ∧
      InOrder [.arrives [] 0xFFFF 0, .arrives [] 1 0, .arrives [] 0 0] t :=
  ⟨_, rfl, by decide, (delivered_iff _ _ rfl).mpr (by decide)⟩

/-- A packet half a turn behind the next number is routed: it is not newer. -/
theorem half_turn_behind_is_delivered :
    ¬ ∀ actions t, Runs.exec step initial actions = some t → InOrder actions t := by
  intro h
  have horder := h [.arrives [] 1 0, .arrives [] 0x8002 0] _ rfl
  exact absurd horder.newer (by decide)

end IcomTransport

end Rigplane.Transport
