import Mathlib.Data.List.Nodup
import Rigplane.Audio.Session

/-!
# The audio session keeps TX down where RX changes

Within one operation only a few things change: the registered subscriptions, the TX leg and the RX
leg.  `Held` fixes the rest, and each part of the reconciliation has a triple over it.

The subscriptions of the session are those of the bus (`Ok`), but for one that a `subscribe_rx` adds
and one that a release removes.  A subscription that is added while RX is up and TX is to be started
is never registered, so that runs are followed in which this does not happen (`Orderly`).
-/

namespace Rigplane.Audio

namespace AudioSession

open Program

/-! ## The calls -/

/-- RX changes while the TX leg is down. -/
structure Quiet (order : SetupOrder) (call : TransportCall × Bool) : Prop where
  stop : call.1 = .stopRx → call.2 = false
  start : order = .rxFirst → call.1 = .startRx → call.2 = false

/-- What an operation keeps of the state `s₀`, with the registered subscriptions and the TX leg. -/
structure Held (s₀ : AudioSession) (subs : List Nat) (live : Bool) (s : AudioSession) : Prop where
  order : s.setupOrder = s₀.setupOrder
  state : s.state = s₀.state
  rxSubs : s.rxSubs = s₀.rxSubs
  txLeases : s.txLeases = s₀.txLeases
  next : s.next = s₀.next
  subscribers : s.subscribers = subs
  nodup : subs.Nodup
  active : ∀ n, s.active n = true ↔ n ∈ subs
  txLive : s.txLive = live
  quiet : ∀ call ∈ s.calls, Quiet s₀.setupOrder call

section

variable {radio : Transport} {s₀ s : AudioSession} {subs armed : List Nat} {live : Bool}

theorem Held.record (h : Held s₀ subs live s) {call : TransportCall}
    (hquiet : Quiet s₀.setupOrder (call, live)) : Held s₀ subs live (s.record call) := by
  refine { h with quiet := ?_ }
  intro c hc
  rcases List.mem_append.mp hc with hc | hc
  · exact h.quiet c hc
  · rw [List.mem_singleton] at hc
    rw [hc, h.txLive]
    exact hquiet

theorem Held.setTxLive (h : Held s₀ subs live s) (live' : Bool) :
    Held s₀ subs live' (s.setTxLive live') := { h with txLive := rfl }

theorem Held.setRxActive (h : Held s₀ subs live s) (rx : Bool) :
    Held s₀ subs live (s.setRxActive rx) := { h with }

theorem Held.setState (h : Held s₀ subs live s) (state : AudioSessionState) :
    Held (s₀.setState state) subs live (s.setState state) := { h with state := rfl }

theorem quiet_stopTx (order : SetupOrder) (live : Bool) :
    Quiet order (.stopTx, live) := ⟨nofun, nofun⟩

theorem quiet_startTx (order : SetupOrder) (live : Bool) : Quiet order (.startTx, live) :=
  ⟨nofun, nofun⟩

theorem quiet_stopRx (order : SetupOrder) : Quiet order (.stopRx, false) := ⟨fun _ => rfl, nofun⟩

/-- RX may be started. -/
def MayStart (order : SetupOrder) (live : Bool) : Prop := order = .rxFirst → live = false

theorem quiet_startRx {order : SetupOrder} (h : MayStart order live) :
    Quiet order (.startRx, live) :=
  ⟨nofun, fun horder _ => h horder⟩

theorem mayStart_down (order : SetupOrder) : MayStart order false := fun _ => rfl

/-! ## The calls of the radio -/

theorem startRx_spec (hmay : MayStart s₀.setupOrder live) :
    Triple (Held s₀ subs live) (startRx radio) (fun _ => Held s₀ subs live)
      (fun _ => Held s₀ subs live) :=
  .bind (Q := fun _ => Held s₀ subs live) (.read fun _ hs => hs) fun _ =>
    .bind (Q := fun _ => Held s₀ subs live)
      (.update fun _ hs => hs.record (quiet_startRx hmay)) fun _ => answer_spec _

theorem startTx_spec :
    Triple (Held s₀ subs live) (startTx radio) (fun _ => Held s₀ subs true)
      (fun _ => Held s₀ subs live) :=
  .bind (Q := fun _ => Held s₀ subs live) (.read fun _ hs => hs) fun _ =>
    .bind (Q := fun _ => Held s₀ subs live)
      (.update fun _ hs => hs.record (quiet_startTx _ _)) fun _ =>
        .bind (answer_spec _) fun _ => .update fun _ hs => hs.setTxLive true

theorem disarmTx_spec :
    Triple (Held s₀ subs live) disarmTx (fun _ => Held s₀ subs false) (fun _ _ => False) :=
  .bind (Q := fun _ => Held s₀ subs live) (.update fun _ hs => hs.record
    (quiet_stopTx _ _)) fun _ =>
    .update fun _ hs => hs.setTxLive false

theorem tryStartTx_spec :
    Triple (Held s₀ subs live) (tryStartTx radio)
      (fun returned => Held s₀ subs (returned || live)) (fun _ _ => False) := by
  refine .handle (M := fun _ => Held s₀ subs live) (.bind startTx_spec fun _ => ?_) fun _ => ?_
  · exact .ret fun _ hs => hs
  · exact .ret fun _ hs => hs

/-! ## The bus -/

theorem busStopRx_spec :
    Triple (Held s₀ subs false) busStopRx (fun _ => Held s₀ subs false) (fun _ _ => False) := by
  refine .bind (Q := fun _ => Held s₀ subs false) (.read fun _ hs => hs) fun rx => ?_
  refine .ite (fun _ => .ret fun _ hs => hs) fun _ => ?_
  exact .bind (Q := fun _ => Held s₀ subs false) (.update fun _ hs => hs.setRxActive false) fun _ =>
    .update fun _ hs => hs.record (quiet_stopRx _)

theorem restartRx_spec (hmay : MayStart s₀.setupOrder live) :
    Triple (Held s₀ subs live) (restartRx radio) (fun _ => Held s₀ subs live)
      (fun _ _ => False) := by
  refine .bind (Q := fun _ => Held s₀ subs live) (.read fun _ hs => hs) fun rx => ?_
  refine .ite (fun _ => .ret fun _ hs => hs) fun _ => ?_
  refine .bind (Q := fun _ => Held s₀ subs live)
    (.handle (M := fun _ => Held s₀ subs live) (.bind (startRx_spec hmay) fun _ => ?_) fun _ => ?_)
    fun rx => .update fun _ hs => hs.setRxActive rx
  · exact .ret fun _ hs => hs
  · exact .ret fun _ hs => hs

/-- A closed subscription is not registered; RX stops with the last one. -/
theorem aclose_spec {n : Nat} (hlast : n ∈ subs → subs.erase n = [] → live = false) :
    Triple (Held s₀ subs live) (aclose n) (fun _ => Held s₀ (subs.erase n) live)
      (fun _ _ => False) := by
  refine .bind_read fun active => ?_
  refine .ite (fun hinactive => ?_) fun hactive => ?_
  · refine .ret fun s hs => ?_
    obtain ⟨hs, rfl⟩ := hs
    have hnot : n ∉ subs := fun hmem => by
      rw [(hs.active n).mpr hmem] at hinactive
      cases hinactive
    rw [List.erase_of_not_mem hnot]
    exact hs
  · refine .assuming (φ := n ∈ subs) (fun s hs => ?_) fun hmem => ?_
    · obtain ⟨hs, rfl⟩ := hs
      exact (hs.active n).mp (by simpa using hactive)
    have hinactive : ∀ s, Held s₀ subs live s →
        Held s₀ (subs.erase n) live (setSubscribers (subs.erase n) (s.setActive n false)) := by
      intro s hs
      refine { hs with subscribers := rfl, nodup := hs.nodup.erase n, active := fun m => ?_ }
      rw [hs.nodup.mem_erase_iff]
      change Function.update s.active n false m = true ↔ _
      by_cases hm : m = n
      · rw [hm, Function.update_self]
        simp
      · rw [Function.update_of_ne hm, hs.active m]
        simp only [ne_eq, hm, not_false_eq_true, true_and]
    refine .bind (Q := fun _ s => s.subscribers = subs ∧
      Held s₀ (subs.erase n) live (s.setSubscribers (subs.erase n)))
      (.update fun s hs => ⟨hs.1.subscribers, hinactive s hs.1⟩) fun _ => ?_
    refine .bind_read fun subscribers => ?_
    refine .assuming (φ := subscribers = subs) (fun s hs => hs.2.symm.trans hs.1.1) fun hsubs => ?_
    subst hsubs
    refine .bind (Q := fun _ => Held s₀ (subscribers.erase n) live)
      (.update fun _ hs => hs.1.2) fun _ => ?_
    refine .bind (Q := fun _ => Held s₀ (subscribers.erase n) live)
      (.read fun _ hs => hs) fun rx => ?_
    refine .ite (fun hstop => ?_) fun _ => .ret fun _ hs => hs
    rw [hlast hmem hstop.2]
    exact busStopRx_spec

/-- Between the two halves of `start` a subscription is active and not yet registered. -/
theorem Held.activate {n : Nat} (hs : Held s₀ subs live s) (hnew : n ∉ subs) :
    Held s₀ (subs ++ [n]) live (setSubscribers (subs ++ [n]) (s.setActive n true)) := by
  refine { hs with subscribers := rfl, nodup := ?_, active := fun m => ?_ }
  · exact hs.nodup.append (List.nodup_singleton n) fun m hm hm' =>
      hnew (List.mem_singleton.mp hm' ▸ hm)
  · rw [List.mem_append, List.mem_singleton]
    change Function.update s.active n true m = true ↔ _
    by_cases hm : m = n
    · rw [hm, Function.update_self]
      simp
    · rw [Function.update_of_ne hm, hs.active m]
      simp only [hm, or_false]

theorem Held.deactivate {n : Nat} (hs : Held s₀ (subs ++ [n]) live s) (hnodup : subs.Nodup)
    (hnew : n ∉ subs) : Held s₀ subs live ((s.setSubscribers subs).setActive n false) := by
  refine { hs with subscribers := rfl, nodup := hnodup, active := fun m => ?_ }
  change Function.update s.active n false m = true ↔ _
  by_cases hm : m = n
  · rw [hm, Function.update_self]
    simp [hnew]
  · rw [Function.update_of_ne hm, hs.active m, List.mem_append, List.mem_singleton]
    simp only [hm, or_false]

theorem busStartRx_spec (hmay : MayStart s₀.setupOrder live) :
    Triple (Held s₀ subs live) (busStartRx radio)
      (fun _ s => Held s₀ subs live s ∧ s.rxActive = true) (fun _ => Held s₀ subs live) := by
  refine .bind_read fun rx => ?_
  refine .ite (fun hrx => .ret fun s hs => ⟨hs.1, hs.2.trans hrx⟩) fun _ => ?_
  refine .bind (Q := fun _ => Held s₀ subs live)
    (.handle (M := fun _ => Held s₀ subs live) ?_ fun _ => .raise fun _ hs => hs)
    fun _ => .update fun s hs => ⟨hs.setRxActive true, rfl⟩
  exact (startRx_spec hmay).of_imp fun _ hs => hs.1

/-- A subscription is registered, and RX is up; or neither. -/
theorem startSubscription_spec {n : Nat} {rx : Bool} (hnew : n ∉ subs)
    (hmay : rx = true ∨ MayStart s₀.setupOrder live) :
    Triple (fun s => Held s₀ subs live s ∧ s.rxActive = rx) (startSubscription radio n)
      (fun _ s => Held s₀ (subs ++ [n]) live s ∧ s.rxActive = true)
      (fun _ s => Held s₀ subs live s ∧ rx = false) := by
  refine .assuming (φ := subs.Nodup) (fun s hs => hs.1.nodup) fun hnodup => ?_
  refine .bind_read fun active => ?_
  refine .ite (fun hactive => ?_) fun _ => ?_
  · refine .ret fun s hs => ?_
    obtain ⟨⟨hs, -⟩, rfl⟩ := hs
    exact absurd ((hs.active n).mp hactive) hnew
  refine .bind (Q := fun _ s => s.rxActive = rx ∧ s.subscribers = subs ∧
    Held s₀ (subs ++ [n]) live (s.setSubscribers (subs ++ [n])))
    (.update fun s hs => ⟨hs.1.2, hs.1.1.subscribers, hs.1.1.activate hnew⟩) fun _ => ?_
  refine .handle (M := fun _ s => rx = false ∧ Held s₀ subs live (s.setActive n false))
    ?_ fun e => ?_
  · refine .bind_read fun subscribers => ?_
    refine .assuming (φ := subscribers = subs)
      (fun s hs => hs.2.symm.trans hs.1.2.1) fun hsubs => ?_
    subst hsubs
    refine .bind (Q := fun _ s => Held s₀ (subscribers ++ [n]) live s ∧ s.rxActive = rx)
      (.onlyIf (fun _ => .update fun s hs => ⟨hs.1.2.2, hs.1.1⟩) fun hmem => absurd hnew hmem)
      fun _ => ?_
    refine .bind_read fun rxActive => ?_
    refine .assuming (φ := rxActive = rx) (fun s hs => hs.2.symm.trans hs.1.2) fun hrx => ?_
    subst hrx
    refine .onlyIf (fun hdown => ?_) fun hup s hs => ⟨hs.1.1, hs.2.trans
      (Bool.eq_true_of_not_eq_false hup)⟩
    have hmay : MayStart s₀.setupOrder live := hmay.resolve_left (by simp [hdown])
    refine .handle (M := fun _ => Held s₀ (subscribers ++ [n]) live)
      ((busStartRx_spec hmay).of_imp fun _ hs => hs.1.1) fun e => ?_
    refine .bind (Q := fun _ s => Held s₀ subscribers live (s.setActive n false))
      (.onlyIf (fun _ => .update fun s hs => hs.deactivate hnodup hnew)
        fun hmem => absurd hnew hmem) fun _ => ?_
    exact .raise fun s hs => ⟨hdown, hs⟩
  · refine .bind (Q := fun _ s => Held s₀ subs live s ∧ rx = false)
      (.update fun s hs => ⟨hs.2, hs.1⟩) fun _ => ?_
    exact .raise fun s hs => hs

/-! ## The reconciliation -/

/-- The subscriptions that are registered once RX is armed: those before, and one that joins. -/
inductive Arms (subs : List Nat) : List Nat → List Nat → Prop where
  | steady {rxSubs} : (∀ n ∈ rxSubs, n ∈ subs) → Arms subs rxSubs subs
  | joins {n} : n ∉ subs → Arms subs (subs ++ [n]) (subs ++ [n])

theorem each_active {P : AudioSession → Prop} {R : AudioFault → AudioSession → Prop} {xs : List Nat}
    (h : ∀ s, P s → ∀ n ∈ xs, s.active n = true) :
    Triple P (each xs (startSubscription radio)) (fun _ => P) R := by
  refine .each fun n hn => ?_
  refine .bind_read fun active => ?_
  refine .ite (fun _ => .ret fun s hs => hs.1) fun hinactive => ?_
  refine .assuming (φ := active n = true) (fun s hs => ?_) fun hactive => absurd hactive hinactive
  rw [← hs.2]
  exact h s hs.1 n hn

theorem each_arms (harms : Arms subs s₀.rxSubs armed) {rx : Bool}
    (hmay : rx = true ∨ MayStart s₀.setupOrder live) :
    Triple (fun s => Held s₀ subs live s ∧ s.rxActive = rx)
      (each s₀.rxSubs (startSubscription radio))
      (fun _ s => Held s₀ armed live s ∧ (s.rxActive = false → armed = subs ∧ rx = false))
      (fun _ s => Held s₀ subs live s ∧ rx = false) := by
  generalize s₀.rxSubs = rxSubs at harms
  cases harms with
  | steady hall =>
      refine (each_active ?_).consequence (fun _ hs => hs)
        (fun _ s hs => ⟨hs.1, fun hrx => ⟨rfl, hs.2.symm.trans hrx⟩⟩) fun _ _ hs => hs
      exact fun s hs n hn => (hs.1.active n).mpr (hall n hn)
  | @joins n hnew =>
      rw [each_append]
      refine .bind (each_active fun s hs m hm => (hs.1.active m).mpr hm) fun _ => ?_
      refine .bind (startSubscription_spec hnew hmay) fun _ => ?_
      refine .ret fun s hs => ⟨hs.1, fun hrx => ?_⟩
      rw [hs.2] at hrx
      cases hrx

theorem armRx_spec (harms : Arms subs s₀.rxSubs armed) {rx : Bool}
    (hmay : rx = true ∨ MayStart s₀.setupOrder live) :
    Triple (fun s => Held s₀ subs live s ∧ s.rxActive = rx) (armRx radio)
      (fun _ => Held s₀ armed live) (fun _ s => Held s₀ subs live s ∧ rx = false) := by
  refine .bind_read fun rxSubs => ?_
  refine .assuming (φ := rxSubs = s₀.rxSubs) (fun s hs => hs.2.symm.trans hs.1.1.rxSubs) ?_
  rintro rfl
  refine .bind ((each_arms harms hmay).of_imp fun _ hs => hs.1) fun _ => ?_
  refine .bind_read fun rxActive => ?_
  refine .onlyIf (fun hdown => ?_) fun _ s hs => hs.1.1
  refine .raise fun s hs => ?_
  obtain ⟨hsame, hrx⟩ := hs.1.2 (hs.2.trans hdown.2)
  rw [← hsame]
  exact ⟨hs.1.1, hrx⟩

theorem rearmRx_spec (hmay : MayStart s₀.setupOrder live) :
    Triple (Held s₀ subs live) (rearmRx radio) (fun _ => Held s₀ subs live)
      (fun _ => Held s₀ subs live) := by
  refine .bind (restartRx_spec hmay).of_total fun _ => ?_
  refine .bind (Q := fun _ => Held s₀ subs live) (.read fun _ hs => hs) fun rxSubs => ?_
  refine .bind (Q := fun _ => Held s₀ subs live) (.read fun _ hs => hs) fun rx => ?_
  exact .onlyIf (fun _ => .raise fun _ hs => hs) fun _ _ hs => hs

theorem dropRx_spec {closing : Option Nat} (hnone : s₀.rxSubs = [])
    (hsubs : subs = closing.toList) :
    Triple (Held s₀ subs false) (dropRx closing) (fun _ => Held s₀ [] false)
      (fun _ _ => False) := by
  refine .bind (Q := fun rxSubs s => rxSubs = [] ∧ Held s₀ subs false s)
    (.read fun s hs => ⟨hs.rxSubs.trans hnone, hs⟩) fun rxSubs => ?_
  refine .assuming (φ := rxSubs = []) (fun s hs => hs.1) ?_
  rintro rfl
  refine .bind (Q := fun _ => Held s₀ subs false) (.ret fun s hs => hs.2) fun _ => ?_
  refine .bind (Q := fun _ => Held s₀ subs false)
    (.update fun s hs => { hs with rxSubs := hnone.symm }) fun _ => ?_
  rw [hsubs]
  cases closing with
  | none => exact .ret fun s hs => hs
  | some sub =>
      refine .bind (aclose_spec fun _ _ => rfl) fun _ => .ret fun s hs => ?_
      rw [Option.toList_some, List.erase_cons_head] at hs
      exact hs

/-- The state after an operation that ends well. -/
def Settled (s₀ : AudioSession) (subs : List Nat) (s : AudioSession) : Prop :=
  ∃ state live, Held (s₀.setState state) subs live s ∧
    (live = true → s₀.txLeases ≠ []) ∧
    (state = .rxTx ∨ state = .txOnly → s₀.txLeases ≠ [])

theorem Settled.of_leases (hleases : s₀.txLeases ≠ []) {state : AudioSessionState}
    (hs : Held s₀ subs live s) : Settled s₀ subs (s.setState state) :=
  ⟨state, live, hs.setState state, fun _ => hleases, fun _ => hleases⟩

/-- The state after one that raises: TX is down, and the subscription that joins is registered or
not. -/
def Failed (s₀ : AudioSession) (subs armed : List Nat) (s : AudioSession) : Prop :=
  (s₀.txLeases = [] → s₀.txUp = false) ∧
    ∃ registered, Held s₀ registered false s ∧ (registered = subs ∨ registered = armed)

theorem startTx_raises (hraises : radio.startTx (s₀.count .startTx) ≠ .returns)
    {t : AudioSession} (hcount : t.count .startTx = s₀.count .startTx) (ht : Held s₀ subs live t) :
    Triple (fun s => s = t) (startTx radio) (fun _ _ => False) (fun _ => Held s₀ subs live) := by
  refine .bind_read fun n => ?_
  refine .assuming (φ := n = s₀.count .startTx) (fun s hs => ?_) ?_
  · rw [← hs.2, hs.1, hcount]
  rintro rfl
  refine .bind (Q := fun _ => Held s₀ subs live) (.update fun s hs => ?_) fun _ => ?_
  · rw [hs.1]
    exact ht.record (quiet_startTx _ _)
  refine .bind (Q := fun _ _ => False) ?_ fun _ _ hs => hs.elim
  cases hanswer : radio.startTx (s₀.count .startTx) with
  | returns => exact absurd hanswer hraises
  | alreadyStarted => exact fun s hs => hs
  | fails => exact fun s hs => hs

/-- No subscription joins where RX is up, TX is down and `start_tx` will return. -/
def MayEnter (radio : Transport) (s₀ : AudioSession) (subs armed : List Nat) : Prop :=
  armed = subs ∨
    ¬ (s₀.rxActive = true ∧ s₀.txLive = false ∧ radio.startTx (s₀.count .startTx) = .returns)

theorem enterRxTx_spec {recover : Bool} (hheld : Held s₀ subs live s₀)
    (hleases : s₀.txLeases ≠ []) (harms : Arms subs s₀.rxSubs armed)
    (hrecover : recover = true → armed = subs) (henter : MayEnter radio s₀ subs armed) :
    Triple (fun s => s = s₀) (enterRxTx radio s₀.setupOrder recover) (fun _ => Settled s₀ armed)
      (fun _ => Failed s₀ subs armed) := by
  have harm : ∀ live, MayStart s₀.setupOrder live →
      Triple (Held s₀ subs live) (if recover then rearmRx radio else armRx radio)
        (fun _ => Held s₀ armed live) (fun _ => Held s₀ subs live) := by
    intro live hmay
    cases hr : recover with
    | true =>
        rw [hrecover hr]
        exact rearmRx_spec hmay
    | false =>
        refine .fixing (f := rxActive) fun rx => ?_
        exact (armRx_spec harms (.inr hmay)).consequence (fun _ hs => hs) (fun _ _ hs => hs)
          fun _ _ hs => hs.1
  have hdown : ∀ s, Held s₀ subs false s → Failed s₀ subs armed s :=
    fun s hs => ⟨(absurd · hleases), subs, hs, .inl rfl⟩
  have hdown' : ∀ s, Held s₀ armed false s → Failed s₀ subs armed s :=
    fun s hs => ⟨(absurd · hleases), armed, hs, .inr rfl⟩
  refine .bind_read fun txLive => ?_
  refine .bind_read fun rxLive => ?_
  refine .assuming (φ := txLive = s₀.txLive ∧ rxLive = (s₀.rxActive && !recover))
    (fun s hs => ?_) ?_
  · obtain ⟨⟨rfl, htx⟩, hrx⟩ := hs
    exact ⟨htx.symm, hrx.symm⟩
  rintro ⟨rfl, rfl⟩
  refine .of_imp (P := fun s => s = s₀) ?_ fun s hs => hs.1.1
  have hlive := hheld.txLive
  refine .ite (fun hboth => ?_) fun hnot => ?_
  · -- both legs are up
    have hrx : s₀.rxActive = true := (Bool.and_eq_true_iff.mp hboth.2).1
    refine .bind (Q := fun _ => Held s₀ armed live) ?_ fun _ =>
      .update fun s hs => .of_leases hleases hs
    refine (armRx_spec harms (.inl rfl)).consequence (fun s hs => ?_)
      (fun _ _ hs => hs) fun _ s hs => ?_
    · rw [hs]
      exact ⟨hheld, hrx⟩
    · cases hs.2
  refine .ite (fun htx => ?_) fun htx => ?_
  · -- TX goes down, RX comes up, TX comes up again
    refine .bind (disarmTx_spec.of_total.of_imp fun s hs => by rw [hs]; exact hheld) fun _ => ?_
    refine .bind ((harm false (mayStart_down _)).weaken fun _ => hdown) fun _ => ?_
    refine .bind (startTx_spec.weaken fun _ => hdown') fun _ => ?_
    exact .update fun s hs => .of_leases hleases hs
  obtain rfl : live = false := by
    rw [← hlive]
    exact Bool.eq_false_of_not_eq_true htx
  refine .ite (fun hrx => ?_) fun hrx => ?_
  · refine .of_imp (P := Held s₀ subs false) ?_ fun s hs => by rw [hs]; exact hheld
    refine .ite (fun _ => ?_) fun hlater => ?_
    · refine .bind ((harm false (mayStart_down _)).weaken fun _ => hdown) fun _ => ?_
      refine .bind tryStartTx_spec.of_total fun returned => ?_
      refine .ite (fun _ => ?_) fun _ => ?_
      · exact .update fun s hs => .of_leases hleases hs
      · exact .update fun s hs => .of_leases hleases hs
    · refine .bind tryStartTx_spec.of_total fun returned => ?_
      refine .ite (fun hreturned => ?_) fun hreturned => ?_
      · rw [hreturned, Bool.true_or]
        refine .bind (Q := fun _ => Held s₀ armed true)
          (.handle (harm true fun horder => absurd horder hlater) fun e => ?_)
          fun _ => .update fun s hs => .of_leases hleases hs
        exact .bind disarmTx_spec.of_total fun _ => .raise hdown
      · rw [Bool.eq_false_of_not_eq_true hreturned, Bool.false_or]
        refine .bind ((harm false (mayStart_down _)).weaken fun _ => hdown) fun _ => ?_
        exact .update fun s hs => .of_leases hleases hs
  -- RX stays up while TX is started: nothing joins, or the start raises
  have hup : s₀.rxActive = true :=
    (Bool.and_eq_true_iff.mp (Bool.eq_true_of_not_eq_false hrx)).1
  have hstart : ∀ t, Held s₀ subs false t → t.count .startTx = s₀.count .startTx →
      Triple (fun s => s = t) (startTx radio) (fun _ => Held s₀ armed true)
        (fun _ => Held s₀ subs false) := by
    intro t ht hcount
    rcases henter with rfl | hno
    · refine startTx_spec.of_imp ?_
      rintro s rfl
      exact ht
    · refine (startTx_raises (fun hreturns => ?_) hcount ht).consequence (fun _ hs => hs)
        (fun _ _ hs => hs.elim) fun _ _ hs => hs
      exact hno ⟨hup, hlive, hreturns⟩
  refine .ite (fun _ => ?_) fun hlater => ?_
  · refine .bind ((hstart s₀ hheld rfl).weaken fun _ => hdown) fun _ => ?_
    exact .update fun s hs => .of_leases hleases hs
  · have hcount : (s₀.record .stopRx).count .startTx = s₀.count .startTx := by
      rw [count, AudioSession.record, List.filter_append, List.length_append]
      rfl
    have hstopped := hheld.record (quiet_stopRx s₀.setupOrder)
    refine .bind (Q := fun _ s => s = s₀.record .stopRx)
      (.update fun s hs => by rw [hs]) fun _ => ?_
    refine .bind (Q := fun _ => Held s₀ armed true)
      (.andFinally (hstart _ hstopped hcount) (fun _ => ?_) fun _ => ?_)
      fun _ => .update fun s hs => .of_leases hleases hs
    · exact (restartRx_spec fun horder => absurd horder hlater).of_total
    · exact ((restartRx_spec (mayStart_down _)).consequence (fun _ hs => hs) (fun _ => hdown)
        fun _ _ hs => hs.elim)

theorem disarm_if_up (h : live = true → s₀.txUp = true) :
    Triple (Held s₀ subs live) (onlyIf (s₀.txUp = true) disarmTx) (fun _ => Held s₀ subs false)
      (fun _ _ => False) := by
  refine .onlyIf (fun _ => disarmTx_spec) fun hnot s hs => ?_
  have hdown : live = false := Bool.eq_false_of_not_eq_true fun hlive => hnot (h hlive)
  rw [hdown] at hs
  exact hs

theorem ensureTxLive_spec :
    Triple (Held s₀ subs live) (ensureTxLive radio) (fun _ s => ∃ live, Held s₀ subs live s)
      (fun _ => Held s₀ subs false) := by
  refine .bind_read fun txLive => ?_
  refine .ite (fun _ => .ret fun s hs => ⟨live, hs.1⟩) fun hdown => ?_
  refine .handle (M := fun _ => Held s₀ subs false) ?_ fun e => ?_
  · refine startTx_spec.consequence (fun s hs => ?_) (fun _ _ hs => ⟨true, hs⟩) fun _ _ hs => hs
    have hlive : s.txLive = false := by
      rw [hs.2]
      exact Bool.eq_false_of_not_eq_true hdown
    exact { hs.1 with txLive := hlive }
  · exact .ite (fun _ => .ret fun s hs => ⟨false, hs⟩) fun _ => .raise fun s hs => hs

/-- The subscriptions that are left registered: none without RX demand. -/
def final (s₀ : AudioSession) (armed : List Nat) : List Nat := if s₀.rxSubs = [] then [] else armed

theorem rxOnlyLegs_spec {recover : Bool} (hheld : Held s₀ subs live s₀)
    (harms : Arms subs s₀.rxSubs armed) (hrecover : recover = true → armed = subs)
    (hjoin : s₀.txUp = true → armed = subs) :
    Triple (fun s => s = s₀) (rxOnlyLegs radio s₀.txUp recover) (fun _ => Held s₀ armed false)
      (fun _ s => Held s₀ subs false s ∧ s₀.txUp = false) := by
  refine .of_imp (P := Held s₀ subs live) ?_ fun s hs => by rw [hs]; exact hheld
  refine .ite (fun hup => ?_) fun hdown => ?_
  · rw [hjoin hup]
    exact .bind disarmTx_spec.of_total fun _ => (restartRx_spec (mayStart_down _)).of_total
  obtain rfl : live = false := by
    rw [← hheld.txLive]
    simp only [txUp, Bool.or_eq_true, not_or, Bool.not_eq_true] at hdown
    exact hdown.1.1
  have hnot : s₀.txUp = false := Bool.eq_false_of_not_eq_true hdown
  refine .ite (fun hr => ?_) fun _ => ?_
  · rw [hrecover hr]
    exact (rearmRx_spec (mayStart_down _)).weaken fun _ _ hs => ⟨hs, hnot⟩
  · refine .fixing (f := rxActive) fun rx => ?_
    exact (armRx_spec harms (.inr (mayStart_down _))).weaken fun _ _ hs => ⟨hs.1, hnot⟩

theorem converge_spec {closing : Option Nat} {recover txActive : Bool}
    (hheld : Held s₀ subs live s₀) (harms : Arms subs s₀.rxSubs armed)
    (hclosing : s₀.rxSubs = [] → subs = closing.toList)
    (hrecover : recover = true → armed = subs)
    (hjoin : s₀.txUp = true → s₀.txLeases = [] → armed = subs)
    (henter : MayEnter radio s₀ subs armed ∨ s₀.txLeases = []) :
    Triple (fun s => s = s₀) (converge radio closing recover txActive)
      (fun _ => Settled s₀ (final s₀ armed)) (fun _ => Failed s₀ subs (final s₀ armed)) := by
  have hup : live = true → s₀.txUp = true := by
    rintro rfl
    simp only [txUp, hheld.txLive, Bool.true_or]
  refine .bind_read fun desired => ?_
  refine .bind_read fun order => ?_
  refine .bind_read fun txUp => ?_
  refine .assuming (φ := desired = s₀.desired (txActive || recover) ∧ order = s₀.setupOrder ∧
    txUp = s₀.txUp) (fun s hs => ?_) ?_
  · obtain ⟨⟨⟨rfl, hdesired⟩, horder⟩, htxUp⟩ := hs
    exact ⟨hdesired.symm, horder.symm, htxUp.symm⟩
  rintro ⟨rfl, rfl, rfl⟩
  refine .of_imp (P := fun s => s = s₀) ?_ fun s hs => hs.1.1.1
  have hstart : ∀ s, s = s₀ → Held s₀ subs live s := by
    rintro s rfl
    exact hheld
  by_cases hrx : s₀.rxSubs = []
  · have hfinal : final s₀ armed = [] := if_pos hrx
    rw [hfinal]
    by_cases htx : s₀.txLeases ≠ [] ∧ (txActive || recover || s₀.txLive) = true ∧
        s₀.setupOrder = .rxFirst
    · -- TX demand alone
      have hdesired : s₀.desired (txActive || recover) = .txOnly := by
        rw [AudioSession.desired, if_neg (not_not.mpr hrx), if_pos htx]
      rw [hdesired]
      refine .bind_read fun rxSubs => ?_
      refine .assuming (φ := rxSubs = []) (fun s hs => ?_) ?_
      · rw [← hs.2, hs.1, hrx]
      rintro rfl
      refine .of_imp (P := Held s₀ subs live) ?_ fun s hs => hstart s hs.1
      refine .bind (Q := fun _ s => ∃ live, Held s₀ [] live s)
        (.onlyIf (fun _ => ?_) fun hnone s hs => ⟨live, ?_⟩) fun _ => ?_
      · refine .bind (disarm_if_up hup).of_total fun _ => ?_
        exact (dropRx_spec hrx (hclosing hrx)).of_total.consequence (fun _ hs => hs)
          (fun _ _ hs => ⟨false, hs⟩) fun _ _ hs => hs
      · have hnil : closing = none := by simpa using hnone
        rw [hclosing hrx, hnil] at hs
        exact hs
      · rintro s ⟨live', hs⟩
        refine Triple.bind (P := Held s₀ [] live') (S := fun _ => Settled s₀ [])
          (ensureTxLive_spec.weaken fun _ s hs => ⟨(absurd · htx.1), [], hs, .inr rfl⟩)
          (fun _ => ?_) s hs
        rintro s ⟨live, hs⟩
        exact .of_leases htx.1 hs
    · have hdesired : s₀.desired (txActive || recover) = .idle := by
        rw [AudioSession.desired, if_neg (not_not.mpr hrx), if_neg htx]
      rw [hdesired]
      refine .of_imp (P := Held s₀ subs live) ?_ hstart
      refine .bind (disarm_if_up hup).of_total fun _ => ?_
      refine .bind (dropRx_spec hrx (hclosing hrx)).of_total fun _ => ?_
      exact .update fun s hs => ⟨.idle, false, hs.setState .idle, nofun, by simp⟩
  · have hfinal : final s₀ armed = armed := if_neg hrx
    rw [hfinal]
    by_cases htx : s₀.txLeases = []
    · have hdesired : s₀.desired (txActive || recover) = .rxOnly := by
        rw [AudioSession.desired, if_pos hrx, if_neg (not_not.mpr htx)]
      rw [hdesired]
      refine .bind (((rxOnlyLegs_spec hheld harms hrecover fun hup => hjoin hup htx)).weaken
        fun _ s hs => ⟨fun _ => hs.2, subs, hs.1, .inl rfl⟩) fun _ => ?_
      exact .update fun s hs => ⟨.rxOnly, false, hs.setState .rxOnly, nofun, by simp⟩
    · have hdesired : s₀.desired (txActive || recover) = .rxTx := by
        rw [AudioSession.desired, if_pos hrx, if_pos htx]
      rw [hdesired]
      exact enterRxTx_spec hheld htx harms hrecover (henter.resolve_right htx)

theorem Held.syncWatchdog (h : Held s₀ subs live s) : Held s₀ subs live s.syncWatchdog := by
  rw [AudioSession.syncWatchdog]
  split
  · split
    · exact h
    · exact { h with }
  · exact { h with }

theorem apply_spec {closing : Option Nat} (hheld : Held s₀ subs live s₀)
    (harms : Arms subs s₀.rxSubs armed) (hclosing : s₀.rxSubs = [] → subs = closing.toList)
    (hjoin : s₀.txUp = true → s₀.txLeases = [] → armed = subs)
    (henter : MayEnter radio s₀ subs armed ∨ s₀.txLeases = []) :
    Triple (fun s => s = s₀) (apply radio closing) (fun _ => Settled s₀ (final s₀ armed))
      (fun _ => Failed s₀ subs (final s₀ armed)) := by
  refine .andFinally (converge_spec hheld harms hclosing nofun hjoin henter)
    (fun _ => ?_) fun _ => ?_
  · exact .update fun s ⟨state, live, hs, hlive, hstate⟩ =>
      ⟨state, live, hs.syncWatchdog, hlive, hstate⟩
  · exact .update fun s ⟨hup, registered, hs, hregistered⟩ =>
      ⟨hup, registered, hs.syncWatchdog, hregistered⟩

end

/-! ## Between the operations -/

structure Ok (s : AudioSession) : Prop where
  same : s.subscribers = s.rxSubs
  nodup : s.rxSubs.Nodup
  active : ∀ n, s.active n = true ↔ n ∈ s.rxSubs
  fresh : ∀ n ∈ s.rxSubs, n < s.next
  leased : ∀ n ∈ s.txLeases, n < s.next
  quiet : ∀ call ∈ s.calls, Quiet s.setupOrder call
  lease : s.txLive = true → s.txLeases ≠ []
  bearing : s.state = .rxTx ∨ s.state = .txOnly → s.txLeases ≠ []

section

variable {radio : Transport} {s t : AudioSession}

theorem Ok.init (setupOrder : SetupOrder) : (init setupOrder).Ok where
  same := rfl
  nodup := List.nodup_nil
  active := by simp [AudioSession.init]
  fresh := nofun
  leased := nofun
  quiet := nofun
  lease := nofun
  bearing := by simp [AudioSession.init]

theorem Ok.held (h : s.Ok) : Held s s.rxSubs s.txLive s :=
  ⟨rfl, rfl, rfl, rfl, rfl, h.same, h.nodup, h.active, rfl, h.quiet⟩

theorem Ok.not_up (h : s.Ok) (hnone : s.txLeases = []) : s.txUp = false := by
  have hlive : s.txLive = false := Bool.eq_false_of_not_eq_true fun hlive => h.lease hlive hnone
  have hstate : ¬ (s.state = .rxTx ∨ s.state = .txOnly) := fun hstate => h.bearing hstate hnone
  rw [not_or] at hstate
  simp [txUp, hlive, hstate.1, hstate.2]

/-- The demand that an operation works for. -/
structure Demand (s₀ : AudioSession) : Prop where
  fresh : ∀ n ∈ s₀.rxSubs, n < s₀.next
  leased : ∀ n ∈ s₀.txLeases, n < s₀.next

theorem Ok.of_held {s₀ : AudioSession} {live : Bool} (hs : Held s₀ s₀.rxSubs live s)
    (hdemand : Demand s₀) (hlease : live = true → s₀.txLeases ≠ [])
    (hbearing : s₀.state = .rxTx ∨ s₀.state = .txOnly → s₀.txLeases ≠ []) : s.Ok where
  same := hs.subscribers.trans hs.rxSubs.symm
  nodup := by
    rw [hs.rxSubs]
    exact hs.nodup
  active := by
    rw [hs.rxSubs]
    exact hs.active
  fresh := by
    rw [hs.rxSubs, hs.next]
    exact hdemand.fresh
  leased := by
    rw [hs.txLeases, hs.next]
    exact hdemand.leased
  quiet := by
    rw [hs.order]
    exact hs.quiet
  lease := by
    rw [hs.txLive, hs.txLeases]
    exact hlease
  bearing := by
    rw [hs.state, hs.txLeases]
    exact hbearing

theorem Settled.ok {s₀ : AudioSession} {subs : List Nat} (h : Settled s₀ subs s)
    (hsubs : subs = s₀.rxSubs) (hdemand : Demand s₀) : s.Ok := by
  obtain ⟨state, live, hs, hlive, hstate⟩ := h
  subst hsubs
  exact .of_held hs ⟨hdemand.fresh, hdemand.leased⟩ hlive hstate

theorem final_rxSubs (s₀ : AudioSession) : final s₀ s₀.rxSubs = s₀.rxSubs := by
  rw [final]
  split
  · rename_i hnil
    exact hnil.symm
  · rfl

/-- What an operation leaves that raises. -/
structure Unwound (s t : AudioSession) : Prop where
  ok : t.Ok
  rxSubs : t.rxSubs = s.rxSubs
  txLeases : t.txLeases = s.txLeases
  subscribers : t.subscribers = s.subscribers

/-- No subscription is added while a lease is held, RX is up, TX is down and `start_tx` will
return. -/
def Orderly (radio : Transport) (s : AudioSession) (a : SessionAction) : Prop :=
  a = .subscribeRx → s.txLeases ≠ [] → s.rxActive = true → s.txLive = false →
    radio.startTx (s.count .startTx) ≠ .returns

instance (s : AudioSession) (a : SessionAction) : Decidable (Orderly radio s a) :=
  inferInstanceAs (Decidable (_ → _ → _ → _ → _))

theorem Ok.subscribeRx (h : s.Ok) (ho : Orderly radio s .subscribeRx) :
    Triple (fun t => t = s) (subscribeRx radio) (fun _ => Ok) (fun _ => Unwound s) := by
  have hnew : s.next ∉ s.rxSubs := fun hmem => Nat.lt_irrefl _ (h.fresh _ hmem)
  have herase : (s.rxSubs ++ [s.next]).erase s.next = s.rxSubs := by
    rw [List.erase_append_right _ hnew, List.erase_cons_head, List.append_nil]
  let s₁ := setRxSubs (s.rxSubs ++ [s.next]) s.claimId
  have hdemand : Demand s₁ := by
    refine ⟨fun n hn => ?_, fun n hn => Nat.lt_succ_of_lt (h.leased n hn)⟩
    rcases List.mem_append.mp hn with hn | hn
    · exact Nat.lt_succ_of_lt (h.fresh n hn)
    · rw [List.mem_singleton.mp hn]
      exact Nat.lt_succ_self _
  have hheld : Held s₁ s.rxSubs s.txLive s₁ := { h.held with next := rfl, rxSubs := rfl }
  have hnil : s₁.rxSubs ≠ [] := List.append_ne_nil_of_right_ne_nil _ (List.cons_ne_nil _ _)
  have hfinal : final s₁ (s.rxSubs ++ [s.next]) = s₁.rxSubs := if_neg hnil
  refine .bind_read fun sub => ?_
  refine .assuming (φ := sub = s.next) (fun t ht => ht.2.symm.trans (congrArg next ht.1)) ?_
  rintro rfl
  refine .bind (Q := fun _ t => t = s.claimId) (.update fun t ht => by rw [ht.1]) fun _ => ?_
  refine .bind_read fun subs => ?_
  refine .assuming (φ := subs = s.rxSubs) (fun t ht => ht.2.symm.trans (by rw [ht.1]; rfl)) ?_
  rintro rfl
  refine .bind (Q := fun _ t => t = s₁) (.update fun t ht => by rw [ht.1]) fun _ => ?_
  refine .handle (M := fun _ => Failed s₁ s.rxSubs s₁.rxSubs) ?_ fun e => ?_
  · rw [← hfinal]
    refine (apply_spec hheld (.joins hnew) (absurd · hnil) ?_ ?_).consequence (fun _ ht => ht)
      (fun _ _ ht => ht.ok hfinal hdemand) fun _ _ ht => ht
    · intro hup hnone
      have hdown : s.txUp = false := h.not_up hnone
      exact absurd (hup.symm.trans hdown) (by decide)
    · by_cases hnone : s.txLeases = []
      · exact .inr hnone
      · exact .inl (.inr fun ⟨hrx, htx, hreturns⟩ => ho rfl hnone hrx htx hreturns)
  · refine .bind_read fun subs => ?_
    refine .assuming (φ := subs = s.rxSubs ++ [s.next]) (fun t ht => ?_) ?_
    · obtain ⟨⟨-, _, ht, -⟩, hsubs⟩ := ht
      exact hsubs.symm.trans ht.rxSubs
    rintro rfl
    rw [herase]
    let s₂ := setRxSubs s.rxSubs s₁
    rintro t ⟨⟨-, registered, ht, hregistered⟩, -⟩
    have hleft : registered.erase s.next = s.rxSubs := by
      rcases hregistered with rfl | rfl
      · exact List.erase_of_not_mem hnew
      · exact herase
    refine Triple.bind (P := fun u => u = t) (Q := fun _ => Held s₂ registered false)
      (S := fun _ => Ok) (R := fun _ => Unwound s) (.update ?_) (fun _ => ?_) t rfl
    · rintro u rfl
      exact { ht with rxSubs := rfl }
    refine .bind (aclose_spec fun _ _ => rfl).of_total fun _ => ?_
    rw [hleft]
    refine .raise fun u hu => ⟨?_, hu.rxSubs, hu.txLeases, hu.subscribers.trans h.same.symm⟩
    exact .of_held hu ⟨fun n hn => Nat.lt_succ_of_lt (h.fresh n hn), hdemand.leased⟩ nofun h.bearing

theorem Ok.acquireTx (h : s.Ok) :
    Triple (fun t => t = s) (acquireTx radio) (fun _ => Ok) (fun _ => Unwound s) := by
  have hnew : s.next ∉ s.txLeases := fun hmem => Nat.lt_irrefl _ (h.leased _ hmem)
  have herase : (s.txLeases ++ [s.next]).erase s.next = s.txLeases := by
    rw [List.erase_append_right _ hnew, List.erase_cons_head, List.append_nil]
  let s₁ := setTxLeases (s.txLeases ++ [s.next]) s.claimId
  have hdemand : Demand s₁ := by
    refine ⟨fun n hn => Nat.lt_succ_of_lt (h.fresh n hn), fun n hn => ?_⟩
    rcases List.mem_append.mp hn with hn | hn
    · exact Nat.lt_succ_of_lt (h.leased n hn)
    · rw [List.mem_singleton.mp hn]
      exact Nat.lt_succ_self _
  have hheld : Held s₁ s.rxSubs s.txLive s₁ := { h.held with next := rfl, txLeases := rfl }
  have hfinal : final s₁ s.rxSubs = s₁.rxSubs := final_rxSubs s₁
  refine .bind_read fun lease => ?_
  refine .assuming (φ := lease = s.next) (fun t ht => ht.2.symm.trans (congrArg next ht.1)) ?_
  rintro rfl
  refine .bind (Q := fun _ t => t = s.claimId) (.update fun t ht => by rw [ht.1]) fun _ => ?_
  refine .bind_read fun leases => ?_
  refine .assuming (φ := leases = s.txLeases) (fun t ht => ht.2.symm.trans (by rw [ht.1]; rfl)) ?_
  rintro rfl
  refine .bind (Q := fun _ t => t = s₁) (.update fun t ht => by rw [ht.1]) fun _ => ?_
  refine .handle (M := fun _ => Failed s₁ s.rxSubs s₁.rxSubs) ?_ fun e => ?_
  · refine (apply_spec hheld (.steady fun _ hn => hn) id (fun _ _ => rfl)
      (.inl (.inl rfl))).consequence
      (fun _ ht => ht) (fun _ _ ht => ht.ok hfinal hdemand) fun _ _ ht => ?_
    rw [hfinal] at ht
    exact ht
  · refine .bind_read fun leases => ?_
    refine .assuming (φ := leases = s.txLeases ++ [s.next]) (fun t ht => ?_) ?_
    · obtain ⟨⟨-, _, ht, -⟩, hleases⟩ := ht
      exact hleases.symm.trans ht.txLeases
    rintro rfl
    rw [herase]
    let s₂ := setTxLeases s.txLeases s₁
    refine .bind (Q := fun _ => Held s₂ s.rxSubs false) (.update ?_) fun _ => ?_
    · rintro t ⟨⟨-, registered, ht, hregistered⟩, -⟩
      rcases hregistered with rfl | rfl
      · exact { ht with txLeases := rfl }
      · exact { ht with txLeases := rfl }
    · refine .raise fun t ht => ⟨?_, ht.rxSubs, ht.txLeases, ht.subscribers.trans h.same.symm⟩
      exact .of_held ht ⟨hdemand.fresh, fun n hn => Nat.lt_succ_of_lt
        (h.leased n hn)⟩ nofun h.bearing

/-- A subscription that is the only one. -/
theorem eq_singleton_of_erase {subs : List Nat} {n : Nat} (hmem : n ∈ subs)
    (h : subs.erase n = []) :
    subs = [n] := by
  have hlength := List.length_erase_of_mem hmem
  rw [h, List.length_nil] at hlength
  cases subs with
  | nil => cases hmem
  | cons m subs =>
      rw [List.length_cons, Nat.add_sub_cancel] at hlength
      rw [List.eq_nil_of_length_eq_zero hlength.symm] at hmem ⊢
      rw [List.mem_singleton.mp hmem]

theorem Ok.releaseRx (h : s.Ok) (sub : Nat) :
    Triple (fun t => t = s) (releaseRx radio sub) (fun _ => Ok) (fun _ => Ok) := by
  refine .bind_read fun subs => ?_
  refine .assuming (φ := subs = s.rxSubs) (fun t ht => ht.2.symm.trans (congrArg rxSubs ht.1)) ?_
  rintro rfl
  refine .ite (fun _ => .ret fun t ht => by rw [ht.1]; exact h) fun hmem => ?_
  rw [not_not] at hmem
  let s₁ := setRxSubs (s.rxSubs.erase sub) s
  have hdemand : Demand s₁ := ⟨fun n hn => h.fresh n (List.mem_of_mem_erase hn), h.leased⟩
  have hheld : Held s₁ s.rxSubs s.txLive s₁ := { h.held with rxSubs := rfl }
  have hleft : ∀ registered, (registered = s.rxSubs ∨ registered = final s₁ s.rxSubs) →
      registered.erase sub = s₁.rxSubs := by
    rintro registered (rfl | rfl)
    · rfl
    · rw [final]
      split
      · rename_i hnil
        exact hnil.symm
      · rfl
  -- RX stops with this subscription where it was the last one, which the session has closed before
  have hlast : sub ∈ final s₁ s.rxSubs → (final s₁ s.rxSubs).erase sub ≠ [] := by
    intro hsub hnil
    rw [hleft _ (.inr rfl)] at hnil
    rw [final, if_pos hnil] at hsub
    cases hsub
  refine .bind (Q := fun _ t => t = s₁) (.update fun t ht => by rw [ht.1]) fun _ => ?_
  refine .andFinally (apply_spec hheld (.steady fun _ hn => List.mem_of_mem_erase hn)
    (fun hnil => eq_singleton_of_erase hmem hnil) (fun _ _ => rfl) (.inl (.inl rfl)))
    (fun _ => ?_) fun _ => ?_
  · rintro t ⟨state, live, ht, hlive, hstate⟩
    refine ((aclose_spec fun hsub hnil => absurd hnil (hlast hsub)).of_total.consequence
      (fun _ hu => hu) (fun _ u hu => ?_) fun _ _ hu => hu) t ht
    rw [hleft _ (.inr rfl)] at hu
    exact .of_held hu ⟨hdemand.fresh, hdemand.leased⟩ hlive hstate
  · rintro t ⟨-, registered, ht, hregistered⟩
    refine ((aclose_spec fun _ _ => rfl).of_total.consequence (fun _ hu => hu)
      (fun _ u hu => ?_) fun _ _ hu => hu) t ht
    rw [hleft registered hregistered] at hu
    exact .of_held hu hdemand nofun h.bearing

/-- An operation that changes no demand but a lease given up. -/
theorem Failed.ok {s₀ : AudioSession} (h : Failed s₀ s₀.rxSubs s₀.rxSubs t) (hdemand : Demand s₀) :
    t.Ok := by
  obtain ⟨hup, registered, ht, hregistered⟩ := h
  obtain rfl : registered = s₀.rxSubs := by
    rcases hregistered with rfl | rfl <;> rfl
  refine .of_held ht hdemand nofun fun hstate hnone => ?_
  have hdown := hup hnone
  rw [txUp, Bool.or_eq_false_iff, Bool.or_eq_false_iff, beq_eq_false_iff_ne,
    beq_eq_false_iff_ne] at hdown
  rcases hstate with hstate | hstate
  · exact hdown.1.2 hstate
  · exact hdown.2 hstate

theorem Ok.releaseTx (h : s.Ok) (lease : Nat) :
    Triple (fun t => t = s) (releaseTx radio lease) (fun _ => Ok) (fun _ => Ok) := by
  refine .bind_read fun leases => ?_
  refine .assuming (φ := leases = s.txLeases)
    (fun t ht => ht.2.symm.trans (congrArg txLeases ht.1)) ?_
  rintro rfl
  refine .ite (fun _ => .ret fun t ht => by rw [ht.1]; exact h) fun _ => ?_
  let s₁ := setTxLeases (s.txLeases.erase lease) s
  have hdemand : Demand s₁ := ⟨h.fresh, fun n hn => h.leased n (List.mem_of_mem_erase hn)⟩
  have hheld : Held s₁ s.rxSubs s.txLive s₁ := { h.held with txLeases := rfl }
  have hfinal : final s₁ s.rxSubs = s₁.rxSubs := final_rxSubs s₁
  refine .bind (Q := fun _ t => t = s₁) (.update fun t ht => by rw [ht.1]) fun _ => ?_
  refine (apply_spec hheld (.steady fun _ hn => hn) id (fun _ _ => rfl)
    (.inl (.inl rfl))).consequence
    (fun _ ht => ht) (fun _ _ ht => ht.ok hfinal hdemand) fun _ _ ht => ?_
  rw [hfinal] at ht
  exact ht.ok hdemand

theorem Ok.converge (h : s.Ok) (recover txActive : Bool) :
    Triple (fun t => t = s) (converge radio none recover txActive) (fun _ => Ok) (fun _ => Ok) := by
  refine (converge_spec h.held (.steady fun _ hn => hn) id (fun _ => rfl) (fun _ _ => rfl)
    (.inl (.inl rfl))).consequence (fun _ ht => ht)
    (fun _ _ ht => ht.ok (final_rxSubs s) ⟨h.fresh, h.leased⟩) fun _ _ ht => ?_
  rw [final_rxSubs] at ht
  exact ht.ok ⟨h.fresh, h.leased⟩

theorem Ok.syncWatchdog (h : s.Ok) : s.syncWatchdog.Ok :=
  .of_held h.held.syncWatchdog ⟨h.fresh, h.leased⟩ h.lease h.bearing

theorem Ok.push (h : s.Ok) (lease : Nat) (admitted : Bool) :
    Triple (fun t => t = s) (push radio lease admitted) (fun _ => Ok) (fun _ => Ok) := by
  refine .bind_read fun leases => ?_
  refine .bind (Q := fun _ t => t = s) (.onlyIf (fun _ => .raise ?_) fun _ t ht => ht.1) fun _ => ?_
  · rintro t ⟨rfl, -⟩
    exact h
  refine .bind (Q := fun _ => Ok) ?_ fun _ => ?_
  · refine .bind_read fun leases => ?_
    refine .bind_read fun live => ?_
    refine .onlyIf (fun _ => ?_) ?_
    · refine .bind ((h.converge false true).of_imp fun _ ht => ht.1.1) fun _ => ?_
      exact .update fun _ ht => ht.syncWatchdog
    · rintro - t ⟨⟨rfl, -⟩, -⟩
      exact h
  · refine .onlyIf (fun _ => .update fun t ht => ?_) fun _ _ ht => ht
    exact .of_held (ht.held.record ⟨nofun, nofun⟩) ⟨ht.fresh, ht.leased⟩ ht.lease ht.bearing

theorem Ok.reestablish (h : s.Ok) :
    Triple (fun t => t = s) (reestablish radio) (fun _ => Ok) (fun _ => Ok) := by
  refine .bind (h.converge true false) fun _ => .update fun t ht => ?_
  have hmeasured : Ok { t with rxArmedAt := t.now } := { ht with }
  exact hmeasured.syncWatchdog

theorem Ok.checkLiveness (h : s.Ok) : s.checkLiveness.Ok := by
  have hstate : ∀ state : AudioSessionState,
      (state = .rxTx ∨ state = .txOnly → s.txLeases ≠ []) → Ok { s with state := state } :=
    fun state hbearing => { h with bearing := hbearing }
  rw [AudioSession.checkLiveness]
  split
  · have hsilent : ∀ ref : Time, Ok (if rxLivenessTimeout ≤ s.now - ref then
        { s with state := .recovering } else s) := by
      intro ref
      split
      · exact hstate .recovering (by simp)
      · exact h
    exact hsilent _
  · split
    · split
      · exact h
      · split
        · refine hstate _ fun hdesired hnone => ?_
          rw [desired] at hdesired
          split at hdesired <;> simp [hnone] at hdesired
        · exact h
    · exact h

/-- Each operation keeps the session in order; one that adds demand and raises takes it back. -/
theorem Ok.operation (h : s.Ok) {a : SessionAction} (ho : Orderly radio s a) :
    Triple (fun t => t = s) (operation radio a) (fun _ => Ok)
      (fun _ t => t.Ok ∧ (a = .subscribeRx ∨ a = .acquireTx → Unwound s t)) := by
  cases a with
  | subscribeRx => exact (h.subscribeRx ho).weaken fun _ _ ht => ⟨ht.ok, fun _ => ht⟩
  | acquireTx => exact h.acquireTx.weaken fun _ _ ht => ⟨ht.ok, fun _ => ht⟩
  | releaseRx sub => exact (h.releaseRx sub).weaken fun _ _ ht => ⟨ht, by simp⟩
  | releaseTx lease => exact (h.releaseTx lease).weaken fun _ _ ht => ⟨ht, by simp⟩
  | push lease admitted => exact (h.push lease admitted).weaken fun _ _ ht => ⟨ht, by simp⟩
  | reestablish => exact h.reestablish.weaken fun _ _ ht => ⟨ht, by simp⟩
  | check =>
      refine .update ?_
      rintro t rfl
      split
      · exact h.checkLiveness
      · exact h
  | frame =>
      refine .update ?_
      rintro t rfl
      exact { h with }
  | advance d =>
      refine .update ?_
      rintro t rfl
      exact { h with }
  | txLost =>
      refine .update ?_
      rintro t rfl
      exact { h with lease := nofun }

/-! ## Runs -/

theorem Ok.step (h : s.Ok) {a : SessionAction} (ho : Orderly radio s a)
    (hstep : step radio s a = some t) : t.Ok := by
  cases hstep
  have hrun := h.operation ho s rfl
  split at hrun
  · rename_i heq
    rw [heq]
    exact hrun
  · rename_i heq
    rw [heq]
    exact hrun.1

/-- RX changes while TX is down, TX is up under a lease only, and an operation that adds demand and
raises leaves the demand and the subscriptions as they were. -/
structure Safe (radio : Transport) (s : AudioSession) : Prop where
  stop : ∀ call ∈ s.calls, call.1 = .stopRx → call.2 = false
  start : s.setupOrder = .rxFirst → ∀ call ∈ s.calls, call.1 = .startRx → call.2 = false
  lease : s.txLive = true → s.txLeases ≠ []
  unwinds : ∀ a e t, a = .subscribeRx ∨ a = .acquireTx → Orderly radio s a →
    operation radio a s = (.error e, t) →
      t.rxSubs = s.rxSubs ∧ t.txLeases = s.txLeases ∧ t.subscribers = s.subscribers

theorem Ok.safe (h : s.Ok) : Safe radio s where
  stop call hcall := (h.quiet call hcall).stop
  start horder call hcall := (h.quiet call hcall).start horder
  lease := h.lease
  unwinds a e t ha ho hrun := by
    have hunwound := ((h.operation ho).error rfl hrun).2 ha
    exact ⟨hunwound.rxSubs, hunwound.txLeases, hunwound.subscribers⟩

end

/-- In every run in which no subscription is added while a lease is held, RX is up, TX is down and
`start_tx` will return, each state is safe. -/
theorem session_safe_of_orderly {radio : Transport} {setupOrder : SetupOrder} {s : AudioSession}
    {actions : List SessionAction}
    (hrun : Runs.exec (step radio) (init setupOrder) actions = some s)
    (ho : Runs.Along (step radio) (Orderly radio) (init setupOrder) actions) : Safe radio s :=
  (Runs.exec_invariant_along (fun _ _ _ h hok hstep => h.step hok hstep) hrun ho
    (Ok.init setupOrder)).safe

/-- Starts that all return. -/
def willing : Transport := ⟨fun _ => .returns, fun _ => .returns⟩

/-- Both legs come up, and RX is given up under a lease. -/
theorem session_safe_of_orderly_transmitting :
    ∃ s, Runs.exec (step willing) (init .rxFirst)
        [.subscribeRx, .acquireTx, .push 1 true, .releaseRx 0] = some s ∧
      s.txLive = true ∧ s.calls.length = 6 ∧ Safe willing s := by
  have hrun : Runs.exec (step willing) (init .rxFirst)
      [.subscribeRx, .acquireTx, .push 1 true, .releaseRx 0] = some _ := rfl
  exact ⟨_, hrun, by decide +kernel, by decide +kernel,
    session_safe_of_orderly hrun (by decide +kernel)⟩

/-- The first start of TX fails, the second returns, and that of a `reestablish` fails. -/
def faltering : Transport :=
  ⟨fun _ => .returns, fun n => if n = 0 ∨ n = 2 then .fails else .returns⟩

/-- A subscription is added while a lease is held, RX is up and TX is down: it is not registered, so
that RX stops with the other one, under a live TX leg. -/
theorem stops_while_live :
    ¬ ∀ (radio : Transport) (setupOrder : SetupOrder) (actions : List SessionAction)
      (s : AudioSession), Runs.exec (step radio) (init setupOrder) actions = some s →
        Safe radio s := by
  intro hall
  have hsafe := hall faltering .rxFirst
    [.acquireTx, .subscribeRx, .subscribeRx, .reestablish, .releaseRx 1] _ rfl
  exact absurd (hsafe.stop (.stopRx, true) (by decide +kernel) rfl) (by decide)

end AudioSession

end Rigplane.Audio
