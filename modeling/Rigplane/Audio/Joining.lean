import Rigplane.Audio.SessionSafety

/-!
# What a new subscription of the audio session joins

The operations of `AudioSession` again, where the stops of the radio fail as well as its starts and
the session is not alone: other clients join the bus and leave it, the poller re-arms RX, and the
TX leg comes up and goes down apart from the session.  Where the stops return and nobody else is
there, the orderly runs are those of the session of before (`exec_session`).

`subscribe_rx` starts the new subscription in `_arm_rx` alone, and which branch of the
reconciliation is taken depends on what is up (`ArmsRx`).  On the others it stays inactive.
-/

namespace Rigplane.Audio

/-- What each call of the radio does. -/
structure AudioTransport extends Transport where
  stopRx : Nat → Outcome
  stopTx : Nat → Outcome

namespace Joining

open AudioSession Program

section

variable (radio : AudioTransport)

/-! ## The calls of the radio -/

def stopRx : Operation Unit := do
  let n ← read (·.count .stopRx)
  update (record .stopRx)
  answer (radio.stopRx n)

/-- `stop_tx`. -/
def stopTx : Operation Unit := do
  let n ← read (·.count .stopTx)
  update (record .stopTx)
  answer (radio.stopTx n)
  update (setTxLive false)

/-- `_disarm_tx`; a leg whose stop fails stays as it was. -/
def disarmTx : Operation Unit := (stopTx radio).handle fun _ => return

/-! ## The reconciliation -/

/-- `_enter_rx_tx`. -/
def enterRxTx (order : SetupOrder) (recover : Bool) : Operation Unit := do
  let txLive ← read txLive
  let rxLive ← read fun s => s.rxActive && !recover
  let arm := if recover then rearmRx radio.toTransport else armRx radio.toTransport
  if txLive = true ∧ rxLive = true then
    armRx radio.toTransport
    update (setState .rxTx)
  else if txLive = true then
    disarmTx radio
    arm
    startTx radio.toTransport
    update (setState .rxTx)
  else if rxLive = false then
    if order = .rxFirst then
      arm
      if ← tryStartTx radio.toTransport then update (setState .rxTx) else update (setState .rxOnly)
    else if ← tryStartTx radio.toTransport then
      arm.handle fun e => do
        disarmTx radio
        raise e
      update (setState .rxTx)
    else
      arm
      update (setState .rxOnly)
  else if order = .rxFirst then
    startTx radio.toTransport
    update (setState .rxTx)
  else
    stopRx radio
    (startTx radio.toTransport).andFinally (restartRx radio.toTransport)
    update (setState .rxTx)

/-- The calls of `_converge` for `RX_ONLY`. -/
def rxOnlyLegs (txUp recover : Bool) : Operation Unit :=
  if txUp then do
    disarmTx radio
    restartRx radio.toTransport
  else if recover then rearmRx radio.toTransport
  else armRx radio.toTransport

/-- `_converge`. -/
def converge (closing : Option Nat) (recover txActive : Bool) : Operation Unit := do
  let desired ← read fun s => s.desired (txActive || recover)
  let order ← read setupOrder
  let txUp ← read txUp
  match desired with
  | .idle =>
      onlyIf (txUp = true) (disarmTx radio)
      dropRx closing
      update (setState .idle)
  | .txOnly =>
      let subs ← read rxSubs
      onlyIf (subs ≠ [] ∨ closing ≠ none) do
        onlyIf (txUp = true) (disarmTx radio)
        dropRx closing
      ensureTxLive radio.toTransport
      update (setState .txOnly)
  | .rxOnly =>
      rxOnlyLegs radio txUp recover
      update (setState .rxOnly)
  | _ => enterRxTx radio order recover

/-- `_apply`. -/
def apply (closing : Option Nat) : Operation Unit :=
  (converge radio closing false false).andFinally (update syncWatchdog)

/-! ## The operations -/

/-- `subscribe_rx`; an `AudioSubscription` is made inactive. -/
def subscribeRx : Operation Unit := do
  let sub ← read next
  update fun s => s.claimId.setActive sub false
  let subs ← read rxSubs
  update (setRxSubs (subs ++ [sub]))
  (apply radio none).handle fun e => do
    let subs ← read rxSubs
    update (setRxSubs (subs.erase sub))
    aclose sub
    raise e

/-- `acquire_tx`. -/
def acquireTx : Operation Unit := do
  let lease ← read next
  update claimId
  let leases ← read txLeases
  update (setTxLeases (leases ++ [lease]))
  (apply radio none).handle fun e => do
    let leases ← read txLeases
    update (setTxLeases (leases.erase lease))
    raise e

/-- `_release_rx`. -/
def releaseRx (sub : Nat) : Operation Unit := do
  let subs ← read rxSubs
  if sub ∉ subs then return
  update (setRxSubs (subs.erase sub))
  (apply radio (some sub)).andFinally (aclose sub)

/-- `_release_tx`. -/
def releaseTx (lease : Nat) : Operation Unit := do
  let leases ← read txLeases
  if lease ∉ leases then return
  update (setTxLeases (leases.erase lease))
  apply radio none

/-- `_converge_for_push`. -/
def convergeForPush : Operation Unit := do
  let leases ← read txLeases
  let live ← read txLive
  onlyIf (leases ≠ [] ∧ live = false) do
    converge radio none false true
    update syncWatchdog

/-- `TxLease.push`; the guard or the admission admits it or not. -/
def push (lease : Nat) (admitted : Bool) : Operation Unit := do
  let leases ← read txLeases
  onlyIf (lease ∉ leases) (raise .released)
  convergeForPush radio
  onlyIf (admitted = true) (update (record .pushTx))

/-- `reestablish`. -/
def reestablish : Operation Unit := do
  converge radio none true false
  update fun s => syncWatchdog { s with rxArmedAt := s.now }

/-- `subscribe` and `start`, by another client of the bus. -/
def join : Operation Unit := do
  let sub ← read next
  update fun s => s.claimId.setActive sub false
  startSubscription radio.toTransport sub

/-! ## Runs -/

inductive Action where
  | session (a : SessionAction)
  | join
  /-- A client of the bus closes its subscription. -/
  | leave (sub : Nat)
  /-- `restart_rx`, by the poller. -/
  | restartRx
  /-- The TX leg comes up apart from the session. -/
  | txStarted
deriving DecidableEq

def operation : Action → Operation Unit
  | .session .subscribeRx => subscribeRx radio
  | .session (.releaseRx sub) => releaseRx radio sub
  | .session .acquireTx => acquireTx radio
  | .session (.releaseTx lease) => releaseTx radio lease
  | .session (.push lease admitted) => push radio lease admitted
  | .session .reestablish => reestablish radio
  | .session a => AudioSession.operation radio.toTransport a
  | .join => join radio
  | .leave sub => aclose sub
  | .restartRx => restartRx radio.toTransport
  | .txStarted => update (setTxLive true)

/-- An operation runs to its end, and may raise. -/
def step (s : AudioSession) (a : Action) : Option AudioSession := some (operation radio a s).2

end

/-- Whom `_on_opus_packet` delivers a frame to. -/
def receivers (s : AudioSession) : List Nat := s.subscribers.filter s.active

/-- The action closes the subscription. -/
def Closes (sub : Nat) (a : Action) : Prop := a = .session (.releaseRx sub) ∨ a = .leave sub

/-! ## The session of before -/

section

variable {radio : AudioTransport}

theorem stopRx_eq (h : ∀ n, radio.stopRx n = .returns) : stopRx radio = AudioSession.stopRx := by
  funext s
  simp only [stopRx, read_bind, update_bind, h]
  rfl

theorem disarmTx_eq (h : ∀ n, radio.stopTx n = .returns) :
    disarmTx radio = AudioSession.disarmTx := by
  funext s
  simp only [disarmTx, stopTx, handle, read_bind, update_bind, h]
  rfl

theorem enterRxTx_eq (hrx : ∀ n, radio.stopRx n = .returns)
    (htx : ∀ n, radio.stopTx n = .returns) :
    enterRxTx radio = AudioSession.enterRxTx radio.toTransport := by
  funext order recover
  simp only [enterRxTx, AudioSession.enterRxTx, stopRx_eq hrx, disarmTx_eq htx]

theorem rxOnlyLegs_eq (htx : ∀ n, radio.stopTx n = .returns) :
    rxOnlyLegs radio = AudioSession.rxOnlyLegs radio.toTransport := by
  funext txUp recover
  rw [rxOnlyLegs, AudioSession.rxOnlyLegs, disarmTx_eq htx]

/-- Where the stops return, the reconciliation is that of `AudioSession`. -/
theorem converge_eq (hrx : ∀ n, radio.stopRx n = .returns) (htx : ∀ n, radio.stopTx n = .returns) :
    converge radio = AudioSession.converge radio.toTransport := by
  funext closing recover txActive
  unfold converge
  rw [enterRxTx_eq hrx htx, rxOnlyLegs_eq htx, disarmTx_eq htx]
  rfl

theorem apply_eq (hrx : ∀ n, radio.stopRx n = .returns) (htx : ∀ n, radio.stopTx n = .returns) :
    apply radio = AudioSession.apply radio.toTransport := by
  funext closing
  rw [apply, AudioSession.apply, converge_eq hrx htx]

/-- The next subscription is inactive before it is made so. -/
theorem step_session {s : AudioSession} (hrx : ∀ n, radio.stopRx n = .returns)
    (htx : ∀ n, radio.stopTx n = .returns) (hfresh : s.active s.next = false)
    (a : SessionAction) :
    step radio s (.session a) = AudioSession.step radio.toTransport s a := by
  have happly := apply_eq hrx htx
  have hconverge := converge_eq hrx htx
  rw [step, AudioSession.step]
  refine congrArg some (congrArg Prod.snd ?_)
  cases a with
  | subscribeRx =>
      have hclaim : s.claimId.setActive s.next false = s.claimId := by
        rw [setActive, claimId, Function.update_eq_self_iff.mpr hfresh.symm]
      rw [operation, AudioSession.operation, subscribeRx, AudioSession.subscribeRx, happly,
        read_bind, read_bind, update_bind, update_bind, hclaim]
  | releaseRx sub =>
      rw [operation, AudioSession.operation, releaseRx, AudioSession.releaseRx, happly]
  | acquireTx =>
      rw [operation, AudioSession.operation, acquireTx, AudioSession.acquireTx, happly]
  | releaseTx lease =>
      rw [operation, AudioSession.operation, releaseTx, AudioSession.releaseTx, happly]
  | push lease admitted =>
      rw [operation, AudioSession.operation, push, AudioSession.push, convergeForPush,
        AudioSession.convergeForPush, hconverge]
  | reestablish =>
      rw [operation, AudioSession.operation, reestablish, AudioSession.reestablish, hconverge]
  | check => rfl
  | frame => rfl
  | advance d => rfl
  | txLost => rfl

/-- Where the stops return, the orderly runs of the session alone are those of before. -/
theorem exec_session (hrx : ∀ n, radio.stopRx n = .returns) (htx : ∀ n, radio.stopTx n = .returns)
    {s : AudioSession} (hs : s.Ok) {actions : List SessionAction}
    (ho : Runs.Along (AudioSession.step radio.toTransport) (Orderly radio.toTransport) s actions) :
    Runs.exec (step radio) s (actions.map .session) =
      Runs.exec (AudioSession.step radio.toTransport) s actions := by
  induction actions generalizing s with
  | nil => rfl
  | cons a rest ih =>
      have hfresh : s.active s.next = false := by
        rw [← Bool.not_eq_true, hs.active]
        exact fun hmem => lt_irrefl s.next (hs.fresh _ hmem)
      rw [List.map_cons, Runs.exec_cons, Runs.exec_cons, step_session hrx htx hfresh a]
      exact ih (hs.step ho.1 rfl) (ho.2 _ rfl)

end

/-! ## What the operations do to the subscriptions -/

/-- A condition that the calls of the radio keep. -/
structure OfSubs (P : AudioSession → Prop) : Prop where
  record : ∀ s call, P s → P (s.record call)
  setTxLive : ∀ s live, P s → P (s.setTxLive live)
  setState : ∀ s state, P s → P (s.setState state)

section

variable {transport : Transport} {radio : AudioTransport} {P : AudioSession → Prop}
  {s t u : AudioSession} {sub : Nat}

theorem startTx_keeps (hP : OfSubs P) :
    Triple P (startTx transport) (fun _ => P) (fun _ => P) := by
  refine .bind (Q := fun _ => P) (.read fun _ hs => hs) fun n => ?_
  refine .bind (Q := fun _ => P) (.update fun s hs => hP.record s _ hs) fun _ => ?_
  refine .bind (Q := fun _ => P) (answer_spec _) fun _ => ?_
  exact .update fun s hs => hP.setTxLive s true hs

theorem tryStartTx_keeps (hP : OfSubs P) :
    Triple P (tryStartTx transport) (fun _ => P) (fun _ _ => False) := by
  refine .handle (M := fun _ => P) (.bind (startTx_keeps hP) fun _ => ?_) fun _ => ?_
  · exact .ret fun _ hs => hs
  · exact .ret fun _ hs => hs

theorem stopRx_keeps (hP : OfSubs P) : Triple P (stopRx radio) (fun _ => P) (fun _ => P) := by
  refine .bind (Q := fun _ => P) (.read fun _ hs => hs) fun n => ?_
  refine .bind (Q := fun _ => P) (.update fun s hs => hP.record s _ hs) fun _ => ?_
  exact answer_spec _

theorem disarmTx_keeps (hP : OfSubs P) :
    Triple P (disarmTx radio) (fun _ => P) (fun _ _ => False) := by
  refine .handle (M := fun _ => P) ?_ fun _ => .ret fun _ hs => hs
  refine .bind (Q := fun _ => P) (.read fun _ hs => hs) fun n => ?_
  refine .bind (Q := fun _ => P) (.update fun s hs => hP.record s _ hs) fun _ => ?_
  refine .bind (Q := fun _ => P) (answer_spec _) fun _ => ?_
  exact .update fun s hs => hP.setTxLive s false hs

theorem startRx_keeps (hP : OfSubs P) :
    Triple P (startRx transport) (fun _ => P) (fun _ => P) := by
  refine .bind (Q := fun _ => P) (.read fun _ hs => hs) fun n => ?_
  refine .bind (Q := fun _ => P) (.update fun s hs => hP.record s _ hs) fun _ => ?_
  exact answer_spec _

theorem restartRx_keeps (hP : OfSubs P) (hrx : ∀ s rx, P s → P (s.setRxActive rx)) :
    Triple P (restartRx transport) (fun _ => P) (fun _ _ => False) := by
  refine .bind (Q := fun _ => P) (.read fun _ hs => hs) fun subs => ?_
  refine .ite (fun _ => .ret fun _ hs => hs) fun _ => ?_
  refine .bind (Q := fun _ => P) (.handle (M := fun _ => P) ?_ fun _ => ?_) fun rx => ?_
  · exact .bind (startRx_keeps hP) fun _ => .ret fun _ hs => hs
  · exact .ret fun _ hs => hs
  · exact .update fun s hs => hrx s rx hs

/-! ## Arming -/

/-- Subscriptions are started, and a started one is registered. -/
structure Grows (s t : AudioSession) : Prop where
  rxSubs : t.rxSubs = s.rxSubs
  next : t.next = s.next
  active : ∀ n, s.active n = true → t.active n = true
  subscribers : s.subscribers ⊆ t.subscribers
  registered : ∀ n, t.active n = true → s.active n = true ∨ n ∈ t.subscribers

@[refl]
theorem Grows.refl (s : AudioSession) : Grows s s :=
  ⟨rfl, rfl, fun _ h => h, List.Subset.refl _, fun _ h => .inl h⟩

theorem Grows.trans (h : Grows s t) (h' : Grows t u) : Grows s u where
  rxSubs := h'.rxSubs.trans h.rxSubs
  next := h'.next.trans h.next
  active n hn := h'.active n (h.active n hn)
  subscribers := List.Subset.trans h.subscribers h'.subscribers
  registered n hn := by
    rcases h'.registered n hn with hn | hn
    · exact (h.registered n hn).imp_right (h'.subscribers ·)
    · exact .inr hn

theorem OfSubs.grows (s : AudioSession) : OfSubs (Grows s) where
  record _ _ h := { h with }
  setTxLive _ _ h := { h with }
  setState _ _ h := { h with }

theorem Grows.setRxActive (h : Grows s t) (rx : Bool) : Grows s (t.setRxActive rx) := { h with }

/-- The bus has these subscribers, and the session is as it was. -/
structure Registers (s : AudioSession) (subs : List Nat) (t : AudioSession) : Prop where
  rxSubs : t.rxSubs = s.rxSubs
  next : t.next = s.next
  active : t.active = s.active
  subscribers : t.subscribers = subs

theorem OfSubs.registers (s : AudioSession) (subs : List Nat) : OfSubs (Registers s subs) where
  record _ _ h := { h with }
  setTxLive _ _ h := { h with }
  setState _ _ h := { h with }

theorem busStartRx_keeps {subs : List Nat} :
    Triple (Registers s subs) (busStartRx transport) (fun _ => Registers s subs)
      (fun _ => Registers s subs) := by
  refine .bind (Q := fun _ => Registers s subs) (.read fun _ hs => hs) fun rx => ?_
  refine .ite (fun _ => .ret fun _ hs => hs) fun _ => ?_
  refine .bind (Q := fun _ => Registers s subs)
    (.handle (startRx_keeps (.registers s subs)) fun _ => ?_)
    fun _ => .update fun t ht => { ht with }
  exact .raise fun _ hs => hs

/-- A subscriber is registered once, and not at all where RX does not come up. -/
theorem addSubscriber_spec (sub : Nat) :
    Triple (fun t => t = s) (addSubscriber transport sub)
      (fun _ => Registers s (if sub ∈ s.subscribers then s.subscribers else s.subscribers ++ [sub]))
      (fun _ => Registers s s.subscribers) := by
  refine .bind_read fun subs => ?_
  refine .assuming (φ := subs = s.subscribers) ?_ ?_
  · rintro t ⟨rfl, hsubs⟩
    exact hsubs.symm
  rintro rfl
  generalize hjoined : (if sub ∈ s.subscribers then s.subscribers else s.subscribers ++ [sub])
    = joined
  refine .bind (Q := fun _ => Registers s joined) (.onlyIf (fun hnew => ?_) fun hmem => ?_)
    fun _ => ?_
  · rw [if_neg hnew] at hjoined
    subst hjoined
    refine .update ?_
    rintro t ⟨rfl, -⟩
    exact ⟨rfl, rfl, rfl, rfl⟩
  · rw [if_pos (not_not.mp hmem)] at hjoined
    subst hjoined
    rintro t ⟨rfl, -⟩
    exact ⟨rfl, rfl, rfl, rfl⟩
  refine .bind (Q := fun _ => Registers s joined) (.read fun _ hs => hs) fun rx => ?_
  refine .onlyIf (fun _ => ?_) fun _ _ hs => hs
  refine .handle busStartRx_keeps fun e => ?_
  refine .bind (Q := fun _ => Registers s s.subscribers) (.onlyIf (fun hnew => ?_) fun hmem => ?_)
    fun _ => .raise fun _ hs => hs
  · exact .update fun t ht => { ht with subscribers := rfl }
  · rw [if_pos (not_not.mp hmem)] at hjoined
    subst hjoined
    exact fun _ hs => hs

theorem startSubscription_spec (n : Nat) :
    Triple (fun t => t = s) (startSubscription transport n)
      (fun _ t => Grows s t ∧ t.active n = true) (fun _ => Grows s) := by
  refine .bind_read fun active => ?_
  refine .assuming (φ := active = s.active) ?_ ?_
  · rintro t ⟨rfl, hactive⟩
    exact hactive.symm
  rintro rfl
  refine .ite (fun hactive => .ret ?_) fun hinactive => ?_
  · rintro t ⟨rfl, -⟩
    exact ⟨.refl t, hactive⟩
  refine .bind (Q := fun _ t => t = s.setActive n true) (.update ?_) fun _ => ?_
  · rintro t ⟨rfl, -⟩
    rfl
  refine .handle ((addSubscriber_spec n).consequence (fun _ hs => hs) (fun _ t ht => ?_)
    fun _ _ ht => ht) fun e => ?_
  · have hself : t.active n = true := by rw [ht.active]; exact Function.update_self ..
    refine ⟨⟨ht.rxSubs, ht.next, fun m hm => ?_, ?_, fun m hm => ?_⟩, hself⟩
    · by_cases hmn : m = n
      · rw [hmn]
        exact hself
      · rw [ht.active]
        exact (Function.update_of_ne hmn ..).trans hm
    · rw [ht.subscribers]
      split
      · exact List.Subset.refl _
      · exact List.subset_append_left ..
    · by_cases hmn : m = n
      · right
        rw [ht.subscribers, hmn]
        split
        · assumption
        · exact List.mem_append_right _ (List.mem_singleton_self n)
      · rw [ht.active] at hm
        exact .inl ((Function.update_of_ne hmn ..).symm.trans hm)
  · refine .bind (Q := fun _ => Grows s) (.update fun t ht => ?_) fun _ => .raise fun _ hs => hs
    have hactive : (t.setActive n false).active = s.active := by
      show Function.update t.active n false = s.active
      rw [ht.active]
      show Function.update (Function.update s.active n true) n false = s.active
      rw [Function.update_idem, Function.update_eq_self_iff]
      exact (Bool.eq_false_of_not_eq_true hinactive).symm
    refine ⟨ht.rxSubs, ht.next, fun m hm => ?_, ?_, fun m hm => ?_⟩
    · rw [hactive]
      exact hm
    · exact fun m hm => ht.subscribers.symm ▸ hm
    · rw [hactive] at hm
      exact .inl hm

theorem each_starts (subs : List Nat) :
    Triple (fun t => t = s) (each subs (startSubscription transport))
      (fun _ t => Grows s t ∧ ∀ n ∈ subs, t.active n = true) (fun _ => Grows s) := by
  induction subs generalizing s with
  | nil =>
      rintro t rfl
      exact ⟨.refl t, nofun⟩
  | cons n subs ih =>
      refine .bind (startSubscription_spec n) fun _ => ?_
      refine .pointwise fun t ht => ?_
      refine ih.consequence (fun _ hs => hs) (fun _ u hu => ?_) fun _ u hu => ht.1.trans hu
      refine ⟨ht.1.trans hu.1, ?_⟩
      intro m hm
      rcases List.mem_cons.mp hm with rfl | hm
      · exact hu.1.active m ht.2
      · exact hu.2 m hm

/-- RX is armed: every subscription of the session is started, and RX is up. -/
structure Armed (s t : AudioSession) : Prop extends Grows s t where
  started : ∀ n ∈ s.rxSubs, t.active n = true
  rxActive : s.rxSubs ≠ [] → t.rxActive = true

theorem OfSubs.armed (s : AudioSession) : OfSubs (Armed s) where
  record _ _ h := { h with }
  setTxLive _ _ h := { h with }
  setState _ _ h := { h with }

theorem armRx_spec :
    Triple (Grows s) (armRx transport) (fun _ => Armed s) (fun _ => Grows s) := by
  refine .pointwise fun t ht => ?_
  refine .bind_read fun subs => ?_
  refine .assuming (φ := subs = s.rxSubs) ?_ ?_
  · rintro u ⟨rfl, hsubs⟩
    exact hsubs.symm.trans ht.rxSubs
  rintro rfl
  refine .bind (((each_starts s.rxSubs).of_imp fun _ hs => hs.1).weaken fun _ _ hs => ht.trans hs)
    fun _ => ?_
  refine .bind_read fun rx => ?_
  refine .onlyIf (fun _ => .raise fun u hu => ht.trans hu.1.1) fun hup u hu => ?_
  refine { ht.trans hu.1.1 with started := hu.1.2, rxActive := fun hsubs => ?_ }
  rw [hu.2]
  exact Bool.eq_true_of_not_eq_false fun hdown => hup ⟨hsubs, hdown⟩

theorem rearmRx_spec :
    Triple (Grows s) (rearmRx transport) (fun _ => Grows s) (fun _ => Grows s) := by
  refine .bind (restartRx_keeps (.grows s) fun _ rx h => h.setRxActive rx).of_total fun _ => ?_
  refine .bind (Q := fun _ => Grows s) (.read fun _ hs => hs) fun subs => ?_
  refine .bind (Q := fun _ => Grows s) (.read fun _ hs => hs) fun rx => ?_
  exact .onlyIf (fun _ => .raise fun _ hs => hs) fun _ _ hs => hs

end

end Joining

end Rigplane.Audio
