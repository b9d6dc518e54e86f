import Rigplane.Audio.Joining

/-!
# A subscription of the audio session is served, or it is not

While the session has a subscription the reconciliation only ever starts subscriptions
(`converge_grows`), so that one that has joined stays registered until it is closed (`Kept`).  A new
one has joined when `subscribe_rx` returns if and only if the branch taken arms RX (`joins_iff`).
-/

namespace Rigplane.Audio.Joining

open AudioSession Program

section

variable {radio : AudioTransport} {P : AudioSession → Prop} {s t u : AudioSession} {sub : Nat}

/-! ## The reconciliation -/

theorem Grows.syncWatchdog (h : Grows s t) : Grows s t.syncWatchdog := by
  rw [AudioSession.syncWatchdog]
  split
  · split
    · exact h
    · exact { h with }
  · exact { h with }

theorem syncWatchdog_active (s : AudioSession) : s.syncWatchdog.active = s.active := by
  rw [AudioSession.syncWatchdog]
  split
  · split
    · rfl
    · rfl
  · rfl

theorem syncWatchdog_rxActive (s : AudioSession) : s.syncWatchdog.rxActive = s.rxActive := by
  rw [AudioSession.syncWatchdog]
  split
  · split
    · rfl
    · rfl
  · rfl

theorem Armed.syncWatchdog (h : Armed s t) : Armed s t.syncWatchdog where
  toGrows := h.toGrows.syncWatchdog
  started n hn := by
    rw [syncWatchdog_active]
    exact h.started n hn
  rxActive hsubs := by
    rw [syncWatchdog_rxActive]
    exact h.rxActive hsubs

theorem arm_grows (recover : Bool) :
    Triple (Grows s) (if recover then rearmRx radio.toTransport else armRx radio.toTransport)
      (fun _ => Grows s) (fun _ => Grows s) :=
  .ite (fun _ => rearmRx_spec) fun _ =>
    armRx_spec.consequence (fun _ hs => hs) (fun _ _ hs => hs.toGrows) fun _ _ hs => hs

theorem restartRx_grows {transport : Transport} :
    Triple (Grows s) (restartRx transport) (fun _ => Grows s) (fun _ => Grows s) :=
  (restartRx_keeps (.grows s) fun _ rx h => h.setRxActive rx).of_total

theorem setState_keeps (hP : OfSubs P) (state : AudioSessionState)
    {R : AudioFault → AudioSession → Prop} :
    Triple P (update (setState state)) (fun _ => P) R := .update fun s hs => hP.setState s state hs

theorem enterRxTx_grows (order : SetupOrder) (recover : Bool) :
    Triple (Grows s) (enterRxTx radio order recover) (fun _ => Grows s) (fun _ => Grows s) := by
  have hP := OfSubs.grows s
  refine .bind (Q := fun _ => Grows s) (.read fun _ hs => hs) fun txLive => ?_
  refine .bind (Q := fun _ => Grows s) (.read fun _ hs => hs) fun rxLive => ?_
  refine .ite (fun _ => ?_) fun _ => .ite (fun _ => ?_) fun _ => .ite (fun _ => ?_) fun _ => ?_
  · refine .bind (armRx_spec.consequence (fun _ hs => hs) (fun _ _ hs => hs.toGrows)
      fun _ _ hs => hs) fun _ => setState_keeps hP _
  · refine .bind (disarmTx_keeps hP).of_total fun _ => ?_
    refine .bind (arm_grows recover) fun _ => ?_
    exact .bind (startTx_keeps hP) fun _ => setState_keeps hP _
  · refine .ite (fun _ => ?_) fun _ => ?_
    · refine .bind (arm_grows recover) fun _ => ?_
      refine .bind (tryStartTx_keeps hP).of_total fun started => ?_
      exact .ite (fun _ => setState_keeps hP _) fun _ => setState_keeps hP _
    · refine .bind (tryStartTx_keeps hP).of_total fun started => ?_
      refine .ite (fun _ => ?_) fun _ => .bind (arm_grows recover) fun _ => setState_keeps hP _
      refine .bind (.handle (arm_grows recover) fun e => ?_) fun _ => setState_keeps hP _
      exact .bind (disarmTx_keeps hP).of_total fun _ => .raise fun _ hs => hs
  · refine .ite (fun _ => .bind (startTx_keeps hP) fun _ => setState_keeps hP _) fun _ => ?_
    refine .bind (stopRx_keeps hP) fun _ => ?_
    refine .bind ?_ fun _ => setState_keeps hP _
    exact .andFinally (startTx_keeps hP) (fun _ => restartRx_grows) fun _ => restartRx_grows

theorem rxOnlyLegs_grows (txUp recover : Bool) :
    Triple (Grows s) (rxOnlyLegs radio txUp recover) (fun _ => Grows s) (fun _ => Grows s) := by
  refine .ite (fun _ => ?_) fun _ => arm_grows recover
  exact .bind (disarmTx_keeps (.grows s)).of_total fun _ => restartRx_grows

theorem desired_of_rxSubs (h : s.rxSubs ≠ []) (txActive : Bool) :
    s.desired txActive = if s.txLeases ≠ [] then .rxTx else .rxOnly := if_pos h

/-- With a subscription RX is not given up. -/
theorem converge_grows (hsubs : s.rxSubs ≠ []) (closing : Option Nat) (recover txActive : Bool) :
    Triple (Grows s) (converge radio closing recover txActive) (fun _ => Grows s)
      (fun _ => Grows s) := by
  refine .bind (Q := fun desired t => Grows s t ∧ (desired = .rxTx ∨ desired = .rxOnly))
    (.read fun t ht => ⟨ht, ?_⟩) fun desired => ?_
  · rw [desired_of_rxSubs (ht.rxSubs ▸ hsubs)]
    split
    · exact .inl rfl
    · exact .inr rfl
  refine .assuming (fun t ht => ht.2) fun hdesired => .of_imp (P := Grows s) ?_ fun t ht => ht.1
  refine .bind (Q := fun _ => Grows s) (.read fun _ hs => hs) fun order => ?_
  refine .bind (Q := fun _ => Grows s) (.read fun _ hs => hs) fun txUp => ?_
  rcases hdesired with rfl | rfl
  · exact enterRxTx_grows order recover
  · exact .bind (rxOnlyLegs_grows txUp recover) fun _ => setState_keeps (.grows s) _

theorem apply_grows (hsubs : s.rxSubs ≠ []) (closing : Option Nat) :
    Triple (Grows s) (apply radio closing) (fun _ => Grows s) (fun _ => Grows s) :=
  .andFinally (converge_grows hsubs closing false false)
    (fun _ => .update fun _ ht => ht.syncWatchdog) fun _ => .update fun _ ht => ht.syncWatchdog

/-! ## A subscription that has joined -/

/-- The subscription is active, and registered with the bus, and RX is up. -/
structure Joined (sub : Nat) (s : AudioSession) : Prop where
  active : s.active sub = true
  registered : sub ∈ s.subscribers
  rxActive : s.rxActive = true

structure Kept (sub : Nat) (s : AudioSession) : Prop where
  active : s.active sub = true
  registered : sub ∈ s.subscribers
  demanded : sub ∈ s.rxSubs
  next : sub < s.next

theorem Kept.receives (h : Kept sub s) : sub ∈ receivers s :=
  List.mem_filter.mpr ⟨h.registered, h.active⟩

theorem Kept.grows (h : Kept sub s) (ht : Grows s t) : Kept sub t where
  active := ht.active sub h.active
  registered := ht.subscribers h.registered
  demanded := ht.rxSubs ▸ h.demanded
  next := ht.next ▸ h.next

theorem OfSubs.kept (sub : Nat) : OfSubs (Kept sub) where
  record _ _ h := { h with }
  setTxLive _ _ h := { h with }
  setState _ _ h := { h with }

/-- What only starts subscriptions keeps one that has joined. -/
theorem kept_of_grows {m : Operation Unit}
    (h : ∀ s, s.rxSubs ≠ [] → Triple (Grows s) m (fun _ => Grows s) (fun _ => Grows s)) :
    Triple (Kept sub) m (fun _ => Kept sub) (fun _ => Kept sub) := by
  refine .pointwise fun s hs => ?_
  refine (h s (List.ne_nil_of_mem hs.demanded)).consequence ?_ (fun _ _ ht => hs.grows ht)
    fun _ _ ht => hs.grows ht
  rintro t rfl
  exact .refl t

theorem restartRx_kept {transport : Transport} :
    Triple (Kept sub) (restartRx transport) (fun _ => Kept sub) (fun _ => Kept sub) :=
  (restartRx_keeps (.kept sub) fun _ _ h => { h with }).of_total

theorem claimId_kept (h : Kept sub s) : Kept sub (s.claimId.setActive s.next false) where
  active := (Function.update_of_ne h.next.ne ..).trans h.active
  registered := h.registered
  demanded := h.demanded
  next := h.next.trans (Nat.lt_succ_self _)

theorem aclose_kept {n : Nat} (hn : n ≠ sub) :
    Triple (Kept sub) (aclose n) (fun _ => Kept sub) (fun _ => Kept sub) := by
  refine .bind (Q := fun _ => Kept sub) (.read fun _ hs => hs) fun active => ?_
  refine .ite (fun _ => .ret fun _ hs => hs) fun _ => ?_
  refine .bind (Q := fun _ => Kept sub) (.update fun s hs => ?_) fun _ => ?_
  · exact { hs with active := (Function.update_of_ne hn.symm ..).trans hs.active }
  refine .bind_read fun subs => ?_
  refine .bind (Q := fun _ => Kept sub) (.update ?_) fun _ => ?_
  · rintro s ⟨hs, rfl⟩
    exact { hs with registered := (List.mem_erase_of_ne hn.symm).mpr hs.registered }
  refine .bind (Q := fun _ => Kept sub) (.read fun _ hs => hs) fun rx => ?_
  refine .onlyIf (fun _ => ?_) fun _ _ hs => hs
  refine .bind (Q := fun _ => Kept sub) (.read fun _ hs => hs) fun rx => ?_
  refine .ite (fun _ => .ret fun _ hs => hs) fun _ => ?_
  refine .bind (Q := fun _ => Kept sub) (.update fun s hs => { hs with }) fun _ => ?_
  exact .update fun s hs => { hs with }

theorem subscribeRx_kept :
    Triple (Kept sub) (subscribeRx radio) (fun _ => Kept sub) (fun _ => Kept sub) := by
  refine .bind_read fun n => ?_
  refine .bind (Q := fun _ s => Kept sub s ∧ n ≠ sub) (.update ?_) fun _ => ?_
  · rintro s ⟨hs, rfl⟩
    exact ⟨claimId_kept hs, hs.next.ne'⟩
  refine .assuming (φ := n ≠ sub) (fun s hs => hs.2) fun hn => ?_
  refine .of_imp (P := Kept sub) ?_ fun s hs => hs.1
  refine .bind_read fun subs => ?_
  refine .bind (Q := fun _ => Kept sub) (.update ?_) fun _ => ?_
  · rintro s ⟨hs, rfl⟩
    exact { hs with demanded := List.mem_append_left _ hs.demanded }
  refine .handle (M := fun _ => Kept sub) (kept_of_grows fun s hs => apply_grows hs none)
    fun e => ?_
  refine .bind_read fun subs => ?_
  refine .bind (Q := fun _ => Kept sub) (.update ?_) fun _ => ?_
  · rintro s ⟨hs, rfl⟩
    exact { hs with demanded := (List.mem_erase_of_ne hn.symm).mpr hs.demanded }
  exact .bind (aclose_kept hn) fun _ => .raise fun _ hs => hs

theorem acquireTx_kept :
    Triple (Kept sub) (acquireTx radio) (fun _ => Kept sub) (fun _ => Kept sub) := by
  refine .bind (Q := fun _ => Kept sub) (.read fun _ hs => hs) fun lease => ?_
  refine .bind (Q := fun _ => Kept sub) (.update fun s hs => ?_) fun _ => ?_
  · exact { hs with next := hs.next.trans (Nat.lt_succ_self _) }
  refine .bind (Q := fun _ => Kept sub) (.read fun _ hs => hs) fun leases => ?_
  refine .bind (Q := fun _ => Kept sub) (.update fun s hs => { hs with }) fun _ => ?_
  refine .handle (M := fun _ => Kept sub) (kept_of_grows fun s hs => apply_grows hs none)
    fun e => ?_
  refine .bind (Q := fun _ => Kept sub) (.read fun _ hs => hs) fun leases => ?_
  refine .bind (Q := fun _ => Kept sub) (.update fun s hs => { hs with }) fun _ => ?_
  exact .raise fun _ hs => hs

theorem releaseRx_kept {n : Nat} (hn : n ≠ sub) :
    Triple (Kept sub) (releaseRx radio n) (fun _ => Kept sub) (fun _ => Kept sub) := by
  refine .bind_read fun subs => ?_
  refine .ite (fun _ => .ret fun _ hs => hs.1) fun _ => ?_
  refine .bind (Q := fun _ => Kept sub) (.update ?_) fun _ => ?_
  · rintro s ⟨hs, rfl⟩
    exact { hs with demanded := (List.mem_erase_of_ne hn.symm).mpr hs.demanded }
  exact .andFinally (kept_of_grows fun s hs => apply_grows hs (some n)) (fun _ => aclose_kept hn)
    fun _ => aclose_kept hn

theorem releaseTx_kept (lease : Nat) :
    Triple (Kept sub) (releaseTx radio lease) (fun _ => Kept sub) (fun _ => Kept sub) := by
  refine .bind (Q := fun _ => Kept sub) (.read fun _ hs => hs) fun leases => ?_
  refine .ite (fun _ => .ret fun _ hs => hs) fun _ => ?_
  refine .bind (Q := fun _ => Kept sub) (.update fun s hs => { hs with }) fun _ => ?_
  exact kept_of_grows fun s hs => apply_grows hs none

theorem Kept.syncWatchdog (h : Kept sub s) : Kept sub s.syncWatchdog :=
  h.grows (Grows.refl s).syncWatchdog

theorem push_kept (lease : Nat) (admitted : Bool) :
    Triple (Kept sub) (push radio lease admitted) (fun _ => Kept sub) (fun _ => Kept sub) := by
  refine .bind (Q := fun _ => Kept sub) (.read fun _ hs => hs) fun leases => ?_
  refine .bind (Q := fun _ => Kept sub)
    (.onlyIf (fun _ => .raise fun _ hs => hs) fun _ _ hs => hs) fun _ => ?_
  refine .bind (Q := fun _ => Kept sub) ?_ fun _ => ?_
  · refine .bind (Q := fun _ => Kept sub) (.read fun _ hs => hs) fun leases => ?_
    refine .bind (Q := fun _ => Kept sub) (.read fun _ hs => hs) fun live => ?_
    refine .onlyIf (fun _ => ?_) fun _ _ hs => hs
    refine .bind (kept_of_grows fun s hs => converge_grows hs none false true) fun _ => ?_
    exact .update fun s hs => hs.syncWatchdog
  · exact .onlyIf (fun _ => .update fun s hs => { hs with }) fun _ _ hs => hs

theorem reestablish_kept :
    Triple (Kept sub) (reestablish radio) (fun _ => Kept sub) (fun _ => Kept sub) := by
  refine .bind (kept_of_grows fun s hs => converge_grows hs none true false) fun _ => ?_
  exact .update fun s hs => Kept.syncWatchdog { hs with }

theorem join_kept :
    Triple (Kept sub) (join radio) (fun _ => Kept sub) (fun _ => Kept sub) := by
  refine .bind_read fun n => ?_
  refine .bind (Q := fun _ => Kept sub) (.update ?_) fun _ => ?_
  · rintro s ⟨hs, rfl⟩
    exact claimId_kept hs
  refine .pointwise fun s hs => ?_
  exact (startSubscription_spec n).consequence (fun _ ht => ht) (fun _ _ ht => hs.grows ht.1)
    fun _ _ ht => hs.grows ht

theorem checkLiveness_kept (h : Kept sub s) : Kept sub s.checkLiveness := by
  rw [checkLiveness]
  split
  · dsimp only
    split
    · split
      · exact { h with }
      · exact h
    · split
      · exact { h with }
      · exact h
  · split
    · split
      · exact h
      · split
        · exact { h with }
        · exact h
    · exact h

theorem operation_kept {a : Action} (ha : ¬ Closes sub a) :
    Triple (Kept sub) (operation radio a) (fun _ => Kept sub) (fun _ => Kept sub) := by
  cases a with
  | session a =>
      cases a with
      | subscribeRx => exact subscribeRx_kept
      | releaseRx n => exact releaseRx_kept fun hn => ha (.inl (hn ▸ rfl))
      | acquireTx => exact acquireTx_kept
      | releaseTx lease => exact releaseTx_kept lease
      | push lease admitted => exact push_kept lease admitted
      | reestablish => exact reestablish_kept
      | check =>
          refine .update fun s hs => ?_
          split
          · exact checkLiveness_kept hs
          · exact hs
      | frame => exact .update fun s hs => { hs with }
      | advance d => exact .update fun s hs => { hs with }
      | txLost => exact .update fun s hs => { hs with }
  | join => exact join_kept
  | leave n => exact aclose_kept fun hn => ha (.inr (hn ▸ rfl))
  | restartRx => exact restartRx_kept
  | txStarted => exact .update fun s hs => { hs with }

theorem Kept.step {a : Action} (h : Kept sub s) (ha : ¬ Closes sub a)
    (hstep : step radio s a = some t) : Kept sub t := by
  cases hstep
  have hkept : Triple (Kept sub) (operation radio a) (fun _ => Kept sub) fun _ => Kept sub :=
    operation_kept ha
  have hrun := hkept s h
  split at hrun
  · rename_i heq
    rw [heq]
    exact hrun
  · rename_i heq
    rw [heq]
    exact hrun

/-- A subscription that has joined receives every frame until it is closed. -/
theorem Kept.run {actions : List Action} (h : Kept sub s)
    (hrun : Runs.exec (Joining.step radio) s actions = some t)
    (hopen : ∀ a ∈ actions, ¬ Closes sub a) : Kept sub t := by
  have halong : Runs.Along (Joining.step radio) (fun _ a => ¬ Closes sub a) s actions :=
    .of_forall fun a ha _ => hopen a ha
  exact Runs.exec_invariant_along (fun _ _ _ hs ha hstep => hs.step ha hstep) hrun halong h

/-! ## Which branch arms RX -/

/-- No lease is held and TX is down, or one is held and TX is up or RX is down. -/
def ArmsRx (s : AudioSession) : Prop :=
  s.txLeases = [] ∧ s.txUp = false ∨ s.txLeases ≠ [] ∧ (s.txLive = true ∨ s.rxActive = false)

instance (s : AudioSession) : Decidable (ArmsRx s) := inferInstanceAs (Decidable (_ ∨ _))

/-- The reconciliation of a demand edge, with a subscription. -/
theorem converge_cases {Q : Unit → AudioSession → Prop} {R : AudioFault → AudioSession → Prop}
    (hsubs : s.rxSubs ≠ [])
    (honly : s.txLeases = [] → Triple (fun t => t = s)
      (rxOnlyLegs radio s.txUp false >>= fun _ => update (setState .rxOnly)) Q R)
    (hboth : s.txLeases ≠ [] → Triple (fun t => t = s) (enterRxTx radio s.setupOrder false) Q R) :
    Triple (fun t => t = s) (converge radio none false false) Q R := by
  rintro t rfl
  have hdesired := desired_of_rxSubs hsubs false
  simp only [converge, read_bind, Bool.or_false, hdesired]
  by_cases hleases : t.txLeases = []
  · rw [if_neg (not_not.mpr hleases)]
    exact honly hleases t rfl
  · rw [if_pos hleases]
    exact hboth hleases t rfl

theorem armRx_armed :
    Triple (Grows s) (armRx radio.toTransport) (fun _ => Armed s) (fun _ _ => True) :=
  armRx_spec.weaken fun _ _ _ => trivial

/-- Where RX is armed, the new subscription is started. -/
theorem converge_arms (hsubs : s.rxSubs ≠ []) (harms : ArmsRx s) :
    Triple (fun t => t = s) (converge radio none false false) (fun _ => Armed s)
      (fun _ _ => True) := by
  have hP := OfSubs.armed s
  have hgrows : ∀ t, t = s → Grows s t := by
    rintro t rfl
    exact .refl t
  have hdisarm : Triple (fun t => t = s) (disarmTx radio) (fun _ => Grows s) (fun _ _ => True) :=
    (disarmTx_keeps (.grows s)).of_total.of_imp hgrows
  refine converge_cases hsubs (fun hleases => ?_) fun hleases => ?_
  · have hdown : s.txUp = false := by
      rcases harms with h | h
      · exact h.2
      · exact absurd hleases h.1
    rw [hdown]
    exact .bind (armRx_armed.of_imp hgrows) fun _ => setState_keeps hP _
  refine .bind_read fun txLive => ?_
  refine .bind_read fun rxLive => ?_
  refine .assuming (φ := txLive = s.txLive ∧ rxLive = s.rxActive) ?_ ?_
  · rintro t ⟨⟨rfl, rfl⟩, rfl⟩
    exact ⟨rfl, Bool.and_true _⟩
  rintro ⟨rfl, rfl⟩
  refine .of_imp (P := fun t => t = s) ?_ fun t ht => ht.1.1
  refine .ite (fun _ => ?_) fun hnot => .ite (fun _ => ?_) fun htx => .ite
    (fun _ => ?_) fun hrx => ?_
  · exact .bind (armRx_armed.of_imp hgrows) fun _ => setState_keeps hP _
  · refine .bind hdisarm fun _ => ?_
    refine .bind armRx_armed fun _ => ?_
    exact .bind ((startTx_keeps hP).weaken fun _ _ _ => trivial) fun _ => setState_keeps hP _
  · refine .ite (fun _ => ?_) fun _ => ?_
    · refine .bind (armRx_armed.of_imp hgrows) fun _ => ?_
      refine .bind (tryStartTx_keeps hP).of_total fun started => ?_
      exact .ite (fun _ => setState_keeps hP _) fun _ => setState_keeps hP _
    · refine .bind ((tryStartTx_keeps (.grows s)).of_total.of_imp hgrows) fun started => ?_
      refine .ite (fun _ => ?_) fun _ => .bind armRx_armed fun _ => setState_keeps hP _
      refine .bind (.handle (M := fun _ => Grows s) ?_ fun e => ?_) fun _ => setState_keeps hP _
      · exact armRx_spec
      · exact .bind (disarmTx_keeps (.grows s)).of_total fun _ => .raise fun _ _ => trivial
  · have hdown := harms.resolve_left fun h => hleases h.1
    rcases hdown.2 with hlive | hdown
    · exact absurd hlive htx
    · exact absurd hdown hrx

/-! ## The branches that do not -/

/-- A radio that does what it is asked. -/
def willing : AudioTransport where
  startRx _ := .returns
  startTx _ := .returns
  stopRx _ := .returns
  stopTx _ := .returns

theorem startTx_willing (hP : OfSubs P) :
    Triple P (startTx willing.toTransport) (fun _ => P) (fun _ _ => False) := by
  refine .bind (Q := fun _ => P) (.read fun _ hs => hs) fun n => ?_
  refine .bind (Q := fun _ => P) (.update fun s hs => hP.record s _ hs) fun _ => ?_
  refine .bind (Q := fun _ => P) (.ret fun _ hs => hs) fun _ => ?_
  exact .update fun s hs => hP.setTxLive s true hs

theorem stopRx_willing (hP : OfSubs P) :
    Triple P (stopRx willing) (fun _ => P) (fun _ _ => False) := by
  refine .bind (Q := fun _ => P) (.read fun _ hs => hs) fun n => ?_
  refine .bind (Q := fun _ => P) (.update fun s hs => hP.record s _ hs) fun _ => ?_
  exact .ret fun _ hs => hs

theorem OfSubs.inactive (sub : Nat) : OfSubs (fun s => s.active sub = false) where
  record _ _ h := h
  setTxLive _ _ h := h
  setState _ _ h := h

/-- Where RX is not armed, an inactive subscription stays inactive and nothing is raised. -/
theorem converge_inactive (hsubs : s.rxSubs ≠ []) (harms : ¬ ArmsRx s)
    (hinactive : s.active sub = false) :
    Triple (fun t => t = s) (converge willing none false false)
      (fun _ t => t.active sub = false) (fun _ _ => False) := by
  have hP := OfSubs.inactive sub
  have hrestart : Triple (fun t => t.active sub = false) (restartRx willing.toTransport)
      (fun _ t => t.active sub = false) (fun _ _ => False) := restartRx_keeps hP fun _ _ h => h
  have hstart : ∀ t, t = s → t.active sub = false := by
    rintro t rfl
    exact hinactive
  refine converge_cases hsubs (fun hleases => ?_) fun hleases => ?_
  · have hup : s.txUp = true := Bool.eq_true_of_not_eq_false fun hdown => harms
      (.inl ⟨hleases, hdown⟩)
    rw [hup]
    refine .bind (.bind ((disarmTx_keeps hP).of_imp hstart) fun _ => hrestart) fun _ => ?_
    exact setState_keeps hP _
  have htx : ¬ s.txLive = true := fun hlive => harms (.inr ⟨hleases, .inl hlive⟩)
  have hrx : ¬ s.rxActive = false := fun hdown => harms (.inr ⟨hleases, .inr hdown⟩)
  refine .bind_read fun txLive => ?_
  refine .bind_read fun rxLive => ?_
  refine .assuming (φ := txLive = s.txLive ∧ rxLive = s.rxActive) ?_ ?_
  · rintro t ⟨⟨rfl, rfl⟩, rfl⟩
    exact ⟨rfl, Bool.and_true _⟩
  rintro ⟨rfl, rfl⟩
  refine .of_imp (P := fun t => t.active sub = false) ?_ fun t ht => hstart t ht.1.1
  refine .ite (fun hboth => absurd hboth.1 htx) fun _ => .ite (fun hlive => absurd hlive htx)
    fun _ => .ite (fun hdown => absurd hdown hrx) fun _ => .ite (fun _ => ?_) fun _ => ?_
  · exact .bind (startTx_willing hP) fun _ => setState_keeps hP _
  · refine .bind (stopRx_willing hP) fun _ => ?_
    refine .bind ?_ fun _ => setState_keeps hP _
    exact .andFinally (M := fun _ _ => False) (startTx_willing hP) (fun _ => hrestart)
      fun _ _ hs => hs.elim

/-! ## A new subscription -/

/-- The state in which `subscribe_rx` reconciles. -/
def demand (s : AudioSession) : AudioSession :=
  setRxSubs (s.rxSubs ++ [s.next]) (s.claimId.setActive s.next false)

theorem demand_rxSubs (s : AudioSession) : (demand s).rxSubs ≠ [] :=
  List.append_ne_nil_of_right_ne_nil _ (List.cons_ne_nil _ _)

theorem demand_inactive (s : AudioSession) : (demand s).active s.next = false :=
  Function.update_self ..

/-- `subscribe_rx` is its reconciliation, and raises where that does. -/
theorem subscribeRx_spec {Q : AudioSession → Prop} {E : AudioFault → AudioSession → Prop}
    (h : Triple (fun t => t = demand s) (apply radio none) (fun _ => Q) E) :
    Triple (fun t => t = s) (subscribeRx radio) (fun _ => Q) (fun _ _ => ∃ e t, E e t) := by
  rintro t rfl
  simp only [subscribeRx, read_bind, update_bind]
  refine Triple.handle h (fun e => ?_) (demand t) rfl
  refine .assuming (φ := ∃ e t, E e t) (fun u hu => ⟨e, u, hu⟩) fun hraises => ?_
  refine .bind (Q := fun _ _ => True) (.read fun _ _ => trivial) fun subs => ?_
  refine .bind (Q := fun _ _ => True) (.update fun _ _ => trivial) fun _ => ?_
  exact .bind (Triple.anyway.weaken fun _ _ _ => hraises) fun _ => .raise fun _ _ => hraises

theorem demand_arms (harms : ArmsRx s) : ArmsRx (demand s) := harms

/-- A new subscription that is started has joined. -/
theorem subscribeRx_armed (harms : ArmsRx s) :
    Triple (fun t => t = s) (subscribeRx radio) (fun _ => Armed (demand s)) (fun _ _ => True) := by
  refine (subscribeRx_spec (E := fun _ _ => True) ?_).weaken fun _ _ _ => trivial
  exact .andFinally (converge_arms (demand_rxSubs s) (demand_arms harms))
    (fun _ => .update fun _ ht => ht.syncWatchdog) fun _ => .update fun _ _ => trivial

theorem subscribeRx_inactive (harms : ¬ ArmsRx s) :
    Triple (fun t => t = s) (subscribeRx willing) (fun _ t => t.active s.next = false)
      (fun _ _ => False) := by
  refine (subscribeRx_spec (E := fun _ _ => False) ?_).weaken fun _ _ ⟨_, _, h⟩ => h.elim
  refine .andFinally (M := fun _ _ => False)
    (converge_inactive (demand_rxSubs s) harms (demand_inactive s))
    (fun _ => .update fun t ht => ?_)
    fun _ _ ht => ht.elim
  rw [syncWatchdog_active]
  exact ht

theorem Armed.started_next (h : Armed (demand s) t) : t.active s.next = true :=
  h.started s.next (List.mem_append_right _ (List.mem_singleton_self _))

theorem Armed.registered_next (h : Armed (demand s) t) : s.next ∈ t.subscribers := by
  rcases h.registered s.next h.started_next with hactive | hmem
  · rw [demand_inactive] at hactive
    cases hactive
  · exact hmem

theorem Armed.joined (h : Armed (demand s) t) : Joined s.next t where
  active := h.started_next
  registered := h.registered_next
  rxActive := h.rxActive (demand_rxSubs s)

theorem Armed.kept (h : Armed (demand s) t) : Kept s.next t where
  active := h.started_next
  registered := h.registered_next
  demanded := h.rxSubs ▸ List.mem_append_right _ (List.mem_singleton_self _)
  next := h.next ▸ Nat.lt_succ_self _

/-- A `subscribe_rx` that returns has its subscription join, and until the subscription is closed
every frame is delivered to it. -/
def Joins (radio : AudioTransport) (s : AudioSession) : Prop :=
  ∀ t, subscribeRx radio s = (.ok (), t) →
    Joined s.next t ∧ ∀ actions u, Runs.exec (Joining.step radio) t actions = some u →
      (∀ a ∈ actions, ¬ Closes s.next a) → s.next ∈ receivers u

end

/-- In every state `subscribe_rx` has its subscription join, whatever the radio does, if and only if
it arms RX there. -/
theorem joins_iff (s : AudioSession) : (∀ radio, Joins radio s) ↔ ArmsRx s := by
  constructor
  · intro hjoins
    by_contra harms
    have hrun := subscribeRx_inactive harms s rfl
    split at hrun
    · rename_i t heq
      have hactive := (hjoins willing t heq).1.active
      rw [hrun] at hactive
      cases hactive
    · exact hrun.elim
  · intro harms radio t hrun
    have harmed := (subscribeRx_armed harms).ok rfl hrun
    exact ⟨harmed.joined, fun actions u hexec hopen => (harmed.kept.run hexec hopen).receives⟩

/-- A client has joined the bus and a lease is held when the session's subscription is made: RX is
up, so that TX is started and nothing else. -/
theorem subscribed_inactive :
    ¬ ∀ (radio : AudioTransport) (order : SetupOrder) (actions : List Action) (s : AudioSession),
      Runs.exec (step radio) (init order) actions = some s → Joins radio s := by
  intro hjoins
  have hrun : Runs.exec (step willing) (init .rxFirst) [.join, .session .acquireTx] = some _ := rfl
  have hactive := (hjoins willing .rxFirst _ _ hrun _ rfl).1.active
  revert hactive
  decide

end Rigplane.Audio.Joining
