import Mathlib.Data.List.Nodup
import Rigplane.Audio.Bus

/-!
# Who is registered when the bus is at rest

The requests of a subscription take effect in the order of the lock, so that what it ends as is
known while they are pending.  Each operation leaves that in agreement with `active`, as long as no
request ends without its effect while a later one does not make up for it.
-/

namespace Rigplane.Audio

/-- Whether a subscription is registered once the requests of the kinds have run. -/
def outcome (registered : Bool) : List RequestKind → Bool
  | [] => registered
  | kind :: rest => outcome (kind == .add) rest

theorem outcome_append (registered : Bool) (kinds kinds' : List RequestKind) :
    outcome registered (kinds ++ kinds') = outcome (outcome registered kinds) kinds' := by
  induction kinds generalizing registered with
  | nil => rfl
  | cons kind rest ih => exact ih (kind == .add)

theorem outcome_removals {registered : Bool} {kinds : List RequestKind}
    (h : ∀ kind ∈ kinds, kind = .remove) :
    outcome registered kinds = if kinds = [] then registered else false := by
  induction kinds generalizing registered with
  | nil => rfl
  | cons kind rest ih =>
      obtain rfl := h kind List.mem_cons_self
      simp only [outcome, reduceCtorEq, if_false]
      rw [ih fun kind hk => h kind (List.mem_cons_of_mem _ hk)]
      split
      · rfl
      · rfl

/-- The kinds of the requests of a subscription. -/
def kindsOf (requests : List Request) (sub : Nat) : List RequestKind :=
  (requests.filter fun r => r.sub == sub).map (·.kind)

theorem kindsOf_append (requests requests' : List Request) (sub : Nat) :
    kindsOf (requests ++ requests') sub = kindsOf requests sub ++ kindsOf requests' sub := by
  simp only [kindsOf, List.filter_append, List.map_append]

theorem kindsOf_cons_self (r : Request) (requests : List Request) :
    kindsOf (r :: requests) r.sub = r.kind :: kindsOf requests r.sub := by
  simp [kindsOf]

theorem kindsOf_cons_ne {r : Request} {sub : Nat} (requests : List Request) (h : sub ≠ r.sub) :
    kindsOf (r :: requests) sub = kindsOf requests sub := by
  simp [kindsOf, h.symm]

theorem kindsOf_erase {r : Request} {sub : Nat} (requests : List Request) (h : sub ≠ r.sub) :
    kindsOf (requests.erase r) sub = kindsOf requests sub := by
  induction requests with
  | nil => rfl
  | cons q rest ih =>
      by_cases hq : q = r
      · subst hq
        rw [List.erase_cons_head, kindsOf_cons_ne rest h]
      · rw [List.erase_cons_tail (by simpa using hq)]
        simp only [kindsOf, List.filter_cons] at ih ⊢
        split
        · simpa using ih
        · exact ih

namespace AudioBus

/-! ## When an operation leaves the bus in order -/

/-- What a subscription ends as once its pending requests have run. -/
def outcome (s : AudioBus) (sub : Nat) : Bool :=
  Audio.outcome (decide (sub ∈ s.subscribers)) (kindsOf s.requests sub)

/-- Whether a subscription is registered if the request ends now. -/
def registeredWithout (s : AudioBus) (r : Request) : Bool :=
  -- a start that fails takes its registration back
  if s.holder = some (.starting r true) then false else decide (r.sub ∈ s.subscribers)

/-- What the subscription of a request ends as if the request ends now. -/
def outcomeWithout (s : AudioBus) (r : Request) : Bool :=
  Audio.outcome (s.registeredWithout r) (kindsOf (s.requests.erase r) r.sub)

/-- A radio call under the lock, or of an `AudioBus.stop` other than `id`, stops the radio. -/
def OtherStop (s : AudioBus) (id : Nat) : Prop :=
  (∃ r, s.holder = some (.stopping r)) ∨ ∃ b ∈ s.busStops, b.id ≠ id ∧ b.stopping = true

/-- The radio does not go on sending if a stop of it does not complete. -/
def StopLost (s : AudioBus) : Prop :=
  s.completed.getLast? = some .start → ∃ b ∈ s.busStops, b.stopping = true

def BusStopLost (s : AudioBus) (id : Nat) : Prop :=
  s.completed.getLast? = some .start → s.rxActive = true ∨ s.OtherStop id

/-- The request may end without its effect: its subscription ends as it is left. -/
def Withdrawable (s : AudioBus) (r : Request) : Prop :=
  match r.kind with
  | .add => s.outcomeWithout r = false
  | .remove =>
      s.outcomeWithout r = s.active r.sub ∧ (s.holder = some (.stopping r) → s.StopLost)

/-- No removal of the subscription is yet to begin. -/
def Begun (s : AudioBus) (sub : Nat) : Prop := ∀ r ∈ s.created, r.sub ≠ sub

/-- An `aclose` that awaits the close task finds the subscription on its way out. -/
def Closable (s : AudioBus) (sub : Nat) : Prop :=
  s.active sub = true → (s.closeTask sub).isSome = true → s.outcome sub = false

/-- The step does not deactivate a subscription that stays registered, activate one that is about
to be removed, or lose a stop of the radio. -/
def Orderly (s : AudioBus) : Action → Prop
  | .start sub => s.active sub = false → s.closing sub = none → s.Begun sub
  | .resumeStart id => ∀ w ∈ s.starts, w.id = id → s.Begun w.sub
  | .stop sub => s.active sub = true → (s.closing sub).isSome = true → s.outcome sub = false
  | .aclose sub _ => s.Closable sub
  | .cancel id => ∀ r ∈ s.requests, r.id = id → s.Withdrawable r
  | .cancelStart id =>
      ∀ w ∈ s.starts, w.id = id → ∀ r ∈ s.requests, r.id = w.task → s.Withdrawable r
  | .cancelBus id =>
      ∀ b ∈ s.busStops, b.id = id →
        (∀ task, b.waits = some (task, false) → ∀ r ∈ s.requests, r.id = task →
          Withdrawable { s with busStops := s.busStops.erase b } r) ∧
        (b.stopping = true → s.BusStopLost b.id)
  | .radioStartFailed => ∀ r added, s.holder = some (.starting r added) → s.Withdrawable r
  | .radioStopFailed => s.StopLost
  | .busStep id => ∀ b ∈ s.busStops, b.id = id → ∀ sub, b.rest.head? = some sub → s.Closable sub
  | .busStopFailed id => s.BusStopLost id
  | _ => True

/-- The registered subscriptions are the active ones, and where there is none the radio is off. -/
structure InOrder (s : AudioBus) : Prop where
  registered : ∀ sub, sub ∈ s.subscribers ↔ s.active sub = true
  stopped : s.subscribers = [] → s.rxActive = false ∧ s.completed.getLast? ≠ some .start

/-! ## The invariant -/

/-- The bus is in order once the listed requests have run. -/
structure Ok (s : AudioBus) (requests : List Request) : Prop where
  agree : ∀ sub,
    Audio.outcome (decide (sub ∈ s.subscribers)) (kindsOf requests sub) = s.active sub
  distinct : requests.Nodup
  old : ∀ r ∈ requests, r.id < s.next
  once : s.subscribers.Nodup
  removals : ∀ r ∈ s.created, r.kind = .remove
  starting : ∀ r added, s.holder = some (.starting r added) →
    r.kind = .add ∧ r.sub ∈ s.subscribers ∧ s.rxActive = false
  stopping : ∀ r, s.holder = some (.stopping r) → r.kind = .remove ∧ s.subscribers = []
  receiving : s.rxActive = true → s.subscribers ≠ []
  stops : s.completed.getLast? = some .start → s.rxActive = true ∨
    (∃ r, s.holder = some (.stopping r)) ∨ ∃ b ∈ s.busStops, b.stopping = true

theorem Ok.init (eager : Bool) : Ok (init eager) (init eager).requests := by
  constructor <;> simp [AudioBus.init, requests, kindsOf, Audio.outcome]

theorem Ok.inOrder {s : AudioBus} (h : Ok s s.requests) (hq : s.Quiescent) : s.InOrder where
  registered := by
    intro sub
    have hagree := h.agree sub
    rw [hq.requests] at hagree
    rw [← hagree]
    simp [kindsOf, Audio.outcome]
  stopped := by
    intro hnone
    have hoff : s.rxActive = false := by
      cases hrx : s.rxActive with
      | false => rfl
      | true => exact absurd hnone (h.receiving hrx)
    refine ⟨hoff, fun hlast => ?_⟩
    rcases h.stops hlast with hrx | ⟨r, hr⟩ | ⟨b, hb, -⟩
    · rw [hoff] at hrx
      cases hrx
    · have hreq := hq.requests
      simp [requests, hr] at hreq
    · rw [hq.busStops] at hb
      cases hb

/-- Only what the invariant reads. -/
theorem Ok.congr {s t : AudioBus} {requests : List Request} (h : Ok s requests)
    (hsubs : t.subscribers = s.subscribers) (hrx : t.rxActive = s.rxActive)
    (hactive : t.active = s.active) (hholder : t.holder = s.holder)
    (hcreated : t.created = s.created) (hnext : s.next ≤ t.next)
    (hcompleted : t.completed = s.completed)
    (hstops : (∃ b ∈ s.busStops, b.stopping = true) → ∃ b ∈ t.busStops, b.stopping = true) :
    Ok t requests where
  agree := by rw [hsubs, hactive]; exact h.agree
  distinct := h.distinct
  old := fun r hr => Nat.lt_of_lt_of_le (h.old r hr) hnext
  once := by rw [hsubs]; exact h.once
  removals := by rw [hcreated]; exact h.removals
  starting := by rw [hholder, hsubs, hrx]; exact h.starting
  stopping := by rw [hholder, hsubs]; exact h.stopping
  receiving := by rw [hrx, hsubs]; exact h.receiving
  stops := by
    rw [hcompleted, hrx, hholder]
    intro hlast
    exact (h.stops hlast).imp_right (Or.imp_right hstops)

/-! ## The lock -/

theorem requests_of_free {s : AudioBus} (h : s.holder = none) :
    s.requests = s.waiters ++ s.created := by
  simp [requests, h]

/-- The request is served at once, or awaits the radio. -/
theorem enter_holder (s : AudioBus) (r : Request) :
    (s.enter r).holder = none ∨
    (r.kind = .add ∧ (∃ added, (s.enter r).holder = some (.starting r added)) ∧
      (s.enter r).rxActive = false) ∨
    (r.kind = .remove ∧ (s.enter r).holder = some (.stopping r) ∧
    (s.enter r).subscribers = []) := by
  cases hkind : r.kind with
  | add =>
      simp only [AudioBus.enter, hkind]
      generalize (if decide (r.sub ∉ s.subscribers) = true then s.subscribers ++ [r.sub]
        else s.subscribers) = subscribers
      cases hrx : s.rxActive with
      | true => exact .inl rfl
      | false =>
          cases hsubs : subscribers.isEmpty with
          | true => exact .inl rfl
          | false => exact .inr (.inl ⟨trivial, ⟨_, rfl⟩, rfl⟩)
  | remove =>
      simp only [AudioBus.enter, hkind]
      generalize s.subscribers.erase r.sub = subscribers
      cases hrx : s.rxActive with
      | false => exact .inl rfl
      | true =>
          cases hsubs : subscribers.isEmpty with
          | false => exact .inl rfl
          | true => exact .inr (.inr ⟨trivial, rfl, List.isEmpty_iff.mp hsubs⟩)

theorem enter_requests {s : AudioBus} (hfree : s.holder = none) (r : Request) :
    (s.enter r).requests = s.requests ∨ (s.enter r).requests = r :: s.requests := by
  have hrest : (s.enter r).waiters = s.waiters ∧ (s.enter r).created = s.created := by
    cases hkind : r.kind <;> simp only [AudioBus.enter, hkind, and_self]
  rw [requests_of_free hfree, requests, hrest.1, hrest.2]
  rcases enter_holder s r with hh | ⟨-, ⟨added, hh⟩, -⟩ | ⟨-, hh, -⟩ <;> rw [hh]
  · exact .inl rfl
  · exact .inr rfl
  · exact .inr rfl

theorem mem_enter_self {s : AudioBus} (r : Request) (honce : s.subscribers.Nodup) :
    r.sub ∈ (s.enter r).subscribers ↔ r.kind = .add := by
  cases hkind : r.kind with
  | add =>
      simp only [AudioBus.enter, hkind, decide_eq_true_eq, iff_true]
      split
      · exact List.mem_append_right _ List.mem_cons_self
      · exact Decidable.not_not.mp ‹_›
  | remove =>
      simp only [AudioBus.enter, hkind, reduceCtorEq, iff_false]
      exact honce.not_mem_erase

theorem mem_enter_ne {s : AudioBus} {r : Request} {sub : Nat} (h : sub ≠ r.sub) :
    sub ∈ (s.enter r).subscribers ↔ sub ∈ s.subscribers := by
  cases hkind : r.kind with
  | add =>
      simp only [AudioBus.enter, hkind]
      split
      · simp [h]
      · rfl
  | remove =>
      simp only [AudioBus.enter, hkind]
      exact List.mem_erase_of_ne h

theorem enter_once {s : AudioBus} (r : Request) (honce : s.subscribers.Nodup) :
    (s.enter r).subscribers.Nodup := by
  cases hkind : r.kind with
  | add =>
      simp only [AudioBus.enter, hkind, decide_eq_true_eq]
      split
      · exact honce.append (List.nodup_singleton _) (by simpa using ‹_›)
      · exact honce
  | remove =>
      simp only [AudioBus.enter, hkind]
      exact honce.erase _

theorem Ok.enter {s : AudioBus} {r : Request} (hfree : s.holder = none)
    (h : Ok s (r :: s.requests)) : Ok (s.enter r) (s.enter r).requests := by
  have hmem : ∀ q ∈ (s.enter r).requests, q ∈ r :: s.requests := by
    intro q hq
    rcases enter_requests hfree r with he | he <;> rw [he] at hq
    · exact List.mem_cons_of_mem _ hq
    · exact hq
  have hactive : (s.enter r).active = s.active := by
    cases hkind : r.kind <;> simp only [AudioBus.enter, hkind]
  have hnext : (s.enter r).next = s.next := by
    cases hkind : r.kind <;> simp only [AudioBus.enter, hkind]
  have hcreated : (s.enter r).created = s.created := by
    cases hkind : r.kind <;> simp only [AudioBus.enter, hkind]
  constructor
  · intro sub
    rw [hactive, ← h.agree sub]
    rcases eq_or_ne sub r.sub with rfl | hne
    · have hself : decide (r.sub ∈ (s.enter r).subscribers) = (r.kind == .add) := by
        rw [Bool.eq_iff_iff, decide_eq_true_iff, mem_enter_self r h.once, beq_iff_eq]
      rw [hself, kindsOf_cons_self]
      rcases enter_requests hfree r with he | he <;> rw [he]
      · rfl
      · rw [kindsOf_cons_self]
        rfl
    · rw [decide_eq_decide.mpr (mem_enter_ne hne), kindsOf_cons_ne _ hne]
      rcases enter_requests hfree r with he | he <;> rw [he]
      rw [kindsOf_cons_ne _ hne]
  · rcases enter_requests hfree r with he | he <;> rw [he]
    · exact h.distinct.of_cons
    · exact h.distinct
  · intro q hq
    rw [hnext]
    exact h.old q (hmem q hq)
  · exact enter_once r h.once
  · rw [hcreated]
    exact h.removals
  · intro q added hq
    rcases enter_holder s r with hh | ⟨hkind, ⟨added', hh⟩, hrx⟩ | ⟨-, hh, -⟩ <;>
      rw [hh] at hq <;> cases hq
    exact ⟨hkind, (mem_enter_self r h.once).mpr hkind, hrx⟩
  · intro q hq
    rcases enter_holder s r with hh | ⟨-, ⟨added, hh⟩, -⟩ | ⟨hkind, hh, hnil⟩ <;>
      rw [hh] at hq <;> cases hq
    exact ⟨hkind, hnil⟩
  · cases hkind : r.kind with
    | add =>
        have hself := (mem_enter_self r h.once).mpr hkind
        exact fun _ => List.ne_nil_of_mem hself
    | remove =>
        simp only [AudioBus.enter, hkind]
        intro hrx hnil
        simp [hnil] at hrx
  · have hstops := h.stops
    rw [hfree] at hstops
    cases hkind : r.kind with
    | add =>
        simp only [AudioBus.enter, hkind]
        intro hlast
        rcases hstops hlast with hrx | ⟨q, hq⟩ | hb
        · exact .inl hrx
        · cases hq
        · exact .inr (.inr hb)
    | remove =>
        simp only [AudioBus.enter, hkind]
        intro hlast
        split
        · exact .inr (.inl ⟨r, rfl⟩)
        · rcases hstops hlast with hrx | ⟨q, hq⟩ | hb
          · exact .inl hrx
          · cases hq
          · exact .inr (.inr hb)

/-- The requests when one that is new to the lock stands before the tasks that have not begun. -/
def requestsWith (s : AudioBus) (r : Request) : List Request :=
  (s.holder.map Holder.request).toList ++ s.waiters ++ r :: s.created

theorem Ok.request {s : AudioBus} {r : Request} (h : Ok s (s.requestsWith r)) :
    Ok (s.request r) (s.request r).requests := by
  by_cases hfree : s.holder = none ∧ s.waiters = []
  · rw [AudioBus.request, if_pos hfree]
    refine Ok.enter hfree.1 ?_
    have he : s.requestsWith r = r :: s.requests := by
      simp [requestsWith, requests, hfree.1, hfree.2]
    rw [← he]
    exact h
  · rw [AudioBus.request, if_neg hfree]
    have he : { s with waiters := s.waiters ++ [r] }.requests = s.requestsWith r := by
      simp [requestsWith, requests]
    rw [he]
    exact h.congr rfl rfl rfl rfl rfl (Nat.le_refl _) rfl id

/-! ## Subscriptions -/

/-- A request joins the ones of its subscription as the last of them, and `active` is set to what
it does. -/
theorem Ok.join {s t : AudioBus} {requests : List Request} {r : Request} (h : Ok s s.requests)
    (hperm : requests.Perm (r :: s.requests))
    (hself : Audio.outcome (decide (r.sub ∈ s.subscribers)) (kindsOf requests r.sub) =
      (r.kind == .add))
    (hothers : ∀ sub, sub ≠ r.sub → kindsOf requests sub = kindsOf s.requests sub)
    (hid : r.id = s.next) (hnext : t.next = s.next + 1)
    (hactive : t.active = Function.update s.active r.sub (r.kind == .add))
    (hsubs : t.subscribers = s.subscribers) (hrx : t.rxActive = s.rxActive)
    (hholder : t.holder = s.holder) (hremovals : ∀ q ∈ t.created, q.kind = .remove)
    (hcompleted : t.completed = s.completed) (hbus : t.busStops = s.busStops) :
    Ok t requests where
  agree := by
    intro sub
    rw [hsubs, hactive]
    rcases eq_or_ne sub r.sub with rfl | hne
    · rw [hself, Function.update_self]
    · rw [hothers sub hne, Function.update_of_ne hne, h.agree sub]
  distinct := by
    refine hperm.nodup_iff.mpr (List.nodup_cons.mpr ⟨fun hr => ?_, h.distinct⟩)
    exact absurd (h.old r hr) (by omega)
  old := by
    intro q hq
    rw [hnext]
    rcases List.mem_cons.mp (hperm.mem_iff.mp hq) with rfl | hq
    · omega
    · exact Nat.lt_succ_of_lt (h.old q hq)
  once := by rw [hsubs]; exact h.once
  removals := hremovals
  starting := by rw [hholder, hsubs, hrx]; exact h.starting
  stopping := by rw [hholder, hsubs]; exact h.stopping
  receiving := by rw [hrx, hsubs]; exact h.receiving
  stops := by rw [hcompleted, hrx, hholder, hbus]; exact h.stops

theorem requestsWith_perm (s : AudioBus) (r : Request) :
    (s.requestsWith r).Perm (r :: s.requests) := List.perm_middle

theorem kindsOf_requestsWith_ne {s : AudioBus} {r : Request} {sub : Nat} (h : sub ≠ r.sub) :
    kindsOf (s.requestsWith r) sub = kindsOf s.requests sub := by
  rw [requestsWith, requests, kindsOf_append, kindsOf_append _ s.created, kindsOf_cons_ne _ h]

/-- The removals that have not begun leave the subscription unregistered. -/
theorem outcome_requestsWith {s : AudioBus} {r : Request}
    (hremovals : ∀ q ∈ s.created, q.kind = .remove) (hadd : r.kind = .add → s.Begun r.sub)
    (registered : Bool) :
    Audio.outcome registered (kindsOf (s.requestsWith r) r.sub) = (r.kind == .add) := by
  rw [requestsWith, kindsOf_append, kindsOf_cons_self, outcome_append, Audio.outcome,
    outcome_removals]
  · split
    · rfl
    · rename_i hne
      cases hkind : r.kind with
      | remove => rfl
      | add =>
          refine absurd ?_ hne
          simp only [kindsOf, List.map_eq_nil_iff, List.filter_eq_nil_iff, beq_iff_eq]
          exact hadd hkind
  · intro kind hk
    obtain ⟨q, hq, rfl⟩ := List.mem_map.mp hk
    exact hremovals q (List.mem_of_mem_filter hq)

theorem Ok.activate {s : AudioBus} {sub : Nat} (h : Ok s s.requests) (hbegun : s.Begun sub) :
    Ok (s.activate sub) (s.activate sub).requests :=
  Ok.request (h.join (s.requestsWith_perm _) (outcome_requestsWith h.removals (fun _ => hbegun) _)
    (fun _ => kindsOf_requestsWith_ne) rfl rfl rfl rfl rfl rfl h.removals rfl rfl)

theorem Ok.start {s : AudioBus} {sub : Nat} (h : Ok s s.requests)
    (hok : s.Orderly (.start sub)) : Ok (s.start sub) (s.start sub).requests := by
  rw [AudioBus.start]
  split
  · exact h
  · rename_i hactive
    split
    · exact h.congr rfl rfl rfl rfl rfl (Nat.le_succ _) rfl id
    · rename_i hclosing
      exact h.activate (hok (by simpa using hactive) hclosing)

/-- A subscription is deactivated where it ends unregistered. -/
theorem Ok.deactivate {s : AudioBus} {requests : List Request} {sub : Nat} (h : Ok s requests)
    (hout : s.active sub = true →
      Audio.outcome (decide (sub ∈ s.subscribers)) (kindsOf requests sub) = false) :
    Ok (s.setActive sub false) requests := by
  have hactive : (s.setActive sub false).active = s.active := by
    refine Function.update_eq_self_iff.mpr ?_
    cases ha : s.active sub with
    | false => rfl
    | true =>
        rw [← hout ha]
        exact (h.agree sub).trans ha
  exact h.congr rfl rfl hactive rfl rfl (Nat.le_refl _) rfl id

/-- A removal is created, and its subscription deactivated. -/
theorem Ok.create {s t : AudioBus} {sub : Nat} (h : Ok s s.requests)
    (hcreated : t.created = s.created ++ [s.newRequest .remove sub])
    (hwaiters : t.waiters = s.waiters) (hnext : t.next = s.next + 1)
    (hactive : t.active = Function.update s.active sub false)
    (hsubs : t.subscribers = s.subscribers) (hrx : t.rxActive = s.rxActive)
    (hholder : t.holder = s.holder) (hcompleted : t.completed = s.completed)
    (hbus : t.busStops = s.busStops) : Ok t t.requests := by
  have hreq : t.requests = s.requests ++ [s.newRequest .remove sub] := by
    rw [requests, hholder, hwaiters, hcreated, requests, List.append_assoc, List.append_assoc,
      List.append_assoc]
  rw [hreq]
  refine h.join (r := s.newRequest .remove sub) (List.perm_append_singleton _ _) ?_ ?_ rfl hnext
    hactive hsubs hrx hholder ?_ hcompleted hbus
  · rw [kindsOf_append, outcome_append, kindsOf_cons_self]
    rfl
  · intro other hne
    rw [kindsOf_append, kindsOf_cons_ne _ hne]
    exact List.append_nil _
  · intro q hq
    rw [hcreated] at hq
    rcases List.mem_append.mp hq with hq | hq
    · exact h.removals q hq
    · rw [List.mem_singleton.mp hq]
      rfl

theorem Ok.stop {s : AudioBus} {sub : Nat} (h : Ok s s.requests) (hok : s.Orderly (.stop sub)) :
    Ok (s.stop sub) (s.stop sub).requests := by
  rw [AudioBus.stop]
  split
  · exact h
  · rename_i hactive
    rw [AudioBus.scheduleClose]
    split
    · exact h.deactivate fun ha => hok ha ‹_›
    · exact h.create rfl rfl rfl rfl rfl rfl rfl rfl rfl

theorem Ok.aclose {s : AudioBus} {sub : Nat} (timeout : Bool) (h : Ok s s.requests)
    (hok : s.Closable sub) : Ok (s.aclose sub timeout).1 (s.aclose sub timeout).1.requests := by
  rw [AudioBus.aclose]
  split
  · exact h
  · split
    · rename_i task htask
      exact h.deactivate fun ha => hok ha (by rw [htask]; rfl)
    · dsimp only
      split
      · exact h.create rfl rfl rfl rfl rfl rfl rfl rfl rfl
      · refine Ok.request (h.join (s.requestsWith_perm _) ?_ ?_ rfl rfl rfl rfl rfl rfl h.removals
          rfl rfl)
        · exact outcome_requestsWith h.removals (fun hkind => by cases hkind) _
        · exact fun _ => kindsOf_requestsWith_ne

/-! ## Requests that end without their effect -/

/-- A request has ended, and the radio did not start for it or is not stopped by it. -/
theorem Ok.withdraw {s t : AudioBus} {r : Request} (h : Ok s s.requests)
    (hreq : t.requests = s.requests.erase r)
    (hself : Audio.outcome (decide (r.sub ∈ t.subscribers))
      (kindsOf (s.requests.erase r) r.sub) = t.active r.sub)
    (hactive : ∀ sub, sub ≠ r.sub → t.active sub = s.active sub)
    (hsubs : t.subscribers = s.subscribers ∨
      (t.subscribers = s.subscribers.erase r.sub ∧ t.holder = none ∧ s.rxActive = false))
    (hrx : t.rxActive = s.rxActive) (hholder : t.holder = s.holder ∨ t.holder = none)
    (hcreated : t.created.Sublist s.created) (hnext : t.next = s.next)
    (hstops : t.completed.getLast? = some .start → t.rxActive = true ∨
      (∃ r, t.holder = some (.stopping r)) ∨ ∃ b ∈ t.busStops, b.stopping = true) :
    Ok t t.requests where
  agree := by
    intro sub
    rw [hreq]
    rcases eq_or_ne sub r.sub with rfl | hne
    · exact hself
    · have hmem : sub ∈ t.subscribers ↔ sub ∈ s.subscribers := by
        rcases hsubs with he | ⟨he, -, -⟩ <;> rw [he]
        exact List.mem_erase_of_ne hne
      rw [kindsOf_erase _ hne, hactive sub hne, ← h.agree sub, decide_eq_decide.mpr hmem]
  distinct := by rw [hreq]; exact h.distinct.erase r
  old := by
    intro q hq
    rw [hreq] at hq
    rw [hnext]
    exact h.old q (List.mem_of_mem_erase hq)
  once := by
    rcases hsubs with he | ⟨he, -, -⟩ <;> rw [he]
    · exact h.once
    · exact h.once.erase _
  removals := fun q hq => h.removals q (hcreated.subset hq)
  starting := by
    intro q added hq
    rcases hholder with he | he
    · rcases hsubs with hs | ⟨-, hnone, -⟩
      · rw [hs, hrx]
        exact h.starting q added (he ▸ hq)
      · rw [hnone] at hq
        cases hq
    · rw [he] at hq
      cases hq
  stopping := by
    intro q hq
    rcases hholder with he | he
    · rcases hsubs with hs | ⟨-, hnone, -⟩
      · rw [hs]
        exact h.stopping q (he ▸ hq)
      · rw [hnone] at hq
        cases hq
    · rw [he] at hq
      cases hq
  receiving := by
    rw [hrx]
    intro hon
    rcases hsubs with hs | ⟨-, -, hoff⟩
    · rw [hs]
      exact h.receiving hon
    · rw [hon] at hoff
      cases hoff
  stops := hstops

theorem requests_held {s : AudioBus} {holder : Holder} (h : s.holder = some holder) :
    s.requests = holder.request :: (s.waiters ++ s.created) := by
  simp [requests, h]

theorem registeredWithout_remove {s : AudioBus} {r : Request} (h : Ok s s.requests)
    (hkind : r.kind = .remove) : s.registeredWithout r = decide (r.sub ∈ s.subscribers) := by
  rw [registeredWithout, if_neg]
  intro hstart
  rw [(h.starting r true hstart).1] at hkind
  cases hkind

/-- The start of the radio under the lock raises, or is cancelled. -/
theorem Ok.failStart {s : AudioBus} {r : Request} {added : Bool} (h : Ok s s.requests)
    (hholder : s.holder = some (.starting r added)) (hok : s.Withdrawable r) :
    Ok (s.failStart r added) (s.failStart r added).requests := by
  obtain ⟨hkind, hsub, hrx⟩ := h.starting r added hholder
  rw [Withdrawable, hkind] at hok
  refine h.withdraw (r := r) ?_ ?_ ?_ ?_ rfl (.inr rfl) (List.Sublist.refl _) rfl ?_
  · rw [requests_held hholder, Holder.request, List.erase_cons_head]
    rfl
  · refine Eq.trans ?_ (hok.trans (Function.update_self r.sub false s.active).symm)
    rw [outcomeWithout, registeredWithout, hholder]
    cases added with
    | true => simp [AudioBus.failStart, h.once.not_mem_erase]
    | false => simp [AudioBus.failStart]
  · exact fun sub hne => Function.update_of_ne hne _ _
  · cases added with
    | true => exact .inr ⟨rfl, rfl, hrx⟩
    | false => exact .inl rfl
  · intro hlast
    rcases h.stops hlast with hon | ⟨q, hq⟩ | hb
    · rw [hrx] at hon
      cases hon
    · rw [hholder] at hq
      cases hq
    · exact .inr (.inr hb)

/-- The stop of the radio under the lock raises, or is cancelled. -/
theorem Ok.failStop {s : AudioBus} {r : Request} (h : Ok s s.requests)
    (hholder : s.holder = some (.stopping r)) (hlost : s.StopLost) :
    Ok { s with holder := none } (AudioBus.requests { s with holder := none }) := by
  obtain ⟨hkind, hnil⟩ := h.stopping r hholder
  have hreq := requests_held hholder
  refine h.withdraw (r := r) ?_ ?_ (fun _ _ => rfl) (.inl rfl) rfl (.inr rfl)
    (List.Sublist.refl _) rfl fun hlast => .inr (.inr (hlost hlast))
  · rw [hreq, Holder.request, List.erase_cons_head]
    rfl
  · have hagree := h.agree r.sub
    rw [hreq, Holder.request, kindsOf_cons_self, hkind] at hagree
    rw [hreq, Holder.request, List.erase_cons_head, ← hagree]
    rw [hnil]
    rfl

/-- A task is cancelled before it begins. -/
theorem Ok.withdrawCreated {s : AudioBus} {r : Request} (h : Ok s s.requests)
    (hr : r ∈ s.created) (hok : s.Withdrawable r) :
    Ok { s with created := s.created.erase r }
      (AudioBus.requests { s with created := s.created.erase r }) := by
  have hkind := h.removals r hr
  rw [Withdrawable, hkind] at hok
  have hreq : s.requests.erase r =
      (s.holder.map Holder.request).toList ++ s.waiters ++ s.created.erase r := by
    refine List.erase_append_right _ fun hbefore => ?_
    exact (List.nodup_append.mp h.distinct).2.2 r hbefore r hr rfl
  refine h.withdraw (r := r) hreq.symm ?_ (fun _ _ => rfl) (.inl rfl) rfl (.inl rfl)
    List.erase_sublist rfl h.stops
  rw [← registeredWithout_remove h hkind]
  exact hok.1

/-- A request is cancelled while it waits for the lock. -/
theorem Ok.withdrawWaiting {s t : AudioBus} {r : Request} (h : Ok s s.requests)
    (hr : r ∈ s.waiters) (hok : s.Withdrawable r)
    (ht : t = match r.kind with
      | .add => { s with waiters := s.waiters.erase r }.setActive r.sub false
      | .remove => { s with waiters := s.waiters.erase r }) :
    Ok t t.requests := by
  have hdistinct := (List.nodup_append.mp h.distinct).1
  have hheld : r ∉ (s.holder.map Holder.request).toList := fun hheld =>
    (List.nodup_append.mp hdistinct).2.2 r hheld r hr rfl
  have hreq : s.requests.erase r =
      (s.holder.map Holder.request).toList ++ s.waiters.erase r ++ s.created := by
    rw [requests, List.erase_append_left _ (List.mem_append_right _ hr),
      List.erase_append_right _ hheld]
  have hwithout : s.registeredWithout r = decide (r.sub ∈ s.subscribers) := by
    rw [registeredWithout, if_neg]
    intro hstart
    exact hheld (by rw [hstart]; exact List.mem_singleton.mpr rfl)
  rw [Withdrawable, outcomeWithout, hwithout] at hok
  cases hkind : r.kind with
  | add =>
      rw [hkind] at hok ht
      subst ht
      refine h.withdraw (r := r) hreq.symm ?_ ?_ (.inl rfl) rfl (.inl rfl)
        (List.Sublist.refl _) rfl h.stops
      · exact hok.trans (Function.update_self r.sub false s.active).symm
      · exact fun sub hne => Function.update_of_ne hne _ _
  | remove =>
      rw [hkind] at hok ht
      subst ht
      exact h.withdraw (r := r) hreq.symm hok.1 (fun _ _ => rfl) (.inl rfl) rfl (.inl rfl)
        (List.Sublist.refl _) rfl h.stops

theorem Ok.cancel {s t : AudioBus} {id : Nat} (h : Ok s s.requests)
    (hok : ∀ r ∈ s.requests, r.id = id → s.Withdrawable r) (hstep : s.cancel id = some t) :
    Ok t t.requests := by
  have h' : Ok { s with starts := s.starts.filter fun w => w.task ≠ id } s.requests :=
    h.congr rfl rfl rfl rfl rfl (Nat.le_refl _) rfl fun hb => hb
  rw [AudioBus.cancel] at hstep
  dsimp only at hstep
  split at hstep
  · rename_i r hfind
    cases hstep
    have hr := List.mem_of_find?_eq_some hfind
    exact h'.withdrawCreated hr
      (hok r (List.mem_append_right _ hr) (by simpa using List.find?_some hfind))
  · split at hstep
    · rename_i r hfind
      cases hstep
      have hr := List.mem_of_find?_eq_some hfind
      have hmem : r ∈ s.requests := List.mem_append_left _ (List.mem_append_right _ hr)
      exact h'.withdrawWaiting hr (hok r hmem (by simpa using List.find?_some hfind)) rfl
    · split at hstep
      · rename_i r added hholder
        split at hstep
        · rename_i hid
          cases hstep
          have hw := hok r (by rw [requests_held hholder]; exact List.mem_cons_self) hid
          exact h'.failStart hholder hw
        · cases hstep
      · rename_i r hholder
        split at hstep
        · rename_i hid
          cases hstep
          have hw := hok r (by rw [requests_held hholder]; exact List.mem_cons_self) hid
          rw [Withdrawable, (h.stopping r hholder).1] at hw
          exact h'.failStop hholder (hw.2 hholder)
        · cases hstep
      · cases hstep

/-! ## Steps -/

/-- A task begins: its removal goes before the ones that have not begun. -/
theorem Ok.begin {s : AudioBus} {r : Request} (h : Ok s s.requests) (hr : r ∈ s.created) :
    Ok ({ s with created := s.created.erase r }.request r)
      ({ s with created := s.created.erase r }.request r).requests := by
  have hkind := h.removals r hr
  have hremovals : ∀ q ∈ s.created.erase r, q.kind = .remove := fun q hq =>
    h.removals q (List.mem_of_mem_erase hq)
  have hperm : ({ s with created := s.created.erase r }.requestsWith r).Perm s.requests :=
    (List.perm_cons_erase hr).symm.append_left _
  refine Ok.request ⟨?_, hperm.nodup_iff.mpr h.distinct, ?_, h.once, hremovals, h.starting,
    h.stopping, h.receiving, h.stops⟩
  · intro sub
    rw [← h.agree sub]
    rcases eq_or_ne sub r.sub with rfl | hne
    · have hlast : kindsOf s.created r.sub ≠ [] := by
        simp only [kindsOf, ne_eq, List.map_eq_nil_iff, List.filter_eq_nil_iff, beq_iff_eq]
        exact fun hnone => hnone r hr rfl
      rw [outcome_requestsWith hremovals (fun hadd => by rw [hkind] at hadd; cases hadd), requests,
        kindsOf_append, outcome_append, outcome_removals, if_neg hlast, hkind]
      · rfl
      · intro kind hk
        obtain ⟨q, hq, rfl⟩ := List.mem_map.mp hk
        exact h.removals q (List.mem_of_mem_filter hq)
    · rw [kindsOf_requestsWith_ne hne, requests, requests, kindsOf_append,
        kindsOf_append _ s.created,
        kindsOf_erase _ hne]
  · exact fun q hq => h.old q (hperm.mem_iff.mp hq)

/-- The first waiter gets the lock. -/
theorem Ok.acquire {s : AudioBus} {r : Request} {rest : List Request} (h : Ok s s.requests)
    (hfree : s.holder = none) (hwaiters : s.waiters = r :: rest) :
    Ok ({ s with waiters := rest }.enter r) ({ s with waiters := rest }.enter r).requests := by
  refine Ok.enter hfree ?_
  have hreq : s.requests = r :: AudioBus.requests { s with waiters := rest } := by
    simp [requests, hfree, hwaiters]
  rw [← hreq]
  exact h.congr rfl rfl rfl rfl rfl (Nat.le_refl _) rfl fun hb => hb

/-- The call of the radio under the lock returns. -/
theorem Ok.radioStarted {s : AudioBus} {r : Request} {added : Bool} (h : Ok s s.requests)
    (hholder : s.holder = some (.starting r added)) :
    Ok { s with rxActive := true, holder := none, completed := s.completed ++ [.start] }
      (s.waiters ++ s.created) := by
  obtain ⟨hkind, hsub, -⟩ := h.starting r added hholder
  have hreq := requests_held hholder
  refine ⟨?_, ?_, ?_, h.once, h.removals, fun _ _ hq => (by cases hq), fun _ hq => (by cases hq),
    fun _ => List.ne_nil_of_mem hsub, fun _ => .inl rfl⟩
  · intro sub
    rw [← h.agree sub, hreq, Holder.request]
    rcases eq_or_ne sub r.sub with rfl | hne
    · rw [kindsOf_cons_self, hkind, decide_eq_true hsub]
      rfl
    · rw [kindsOf_cons_ne _ hne]
  · rw [hreq] at h
    exact h.distinct.of_cons
  · exact fun q hq => h.old q (by rw [hreq]; exact List.mem_cons_of_mem _ hq)

theorem Ok.radioStopped {s : AudioBus} {r : Request} (h : Ok s s.requests)
    (hholder : s.holder = some (.stopping r)) :
    Ok { s with holder := none, completed := s.completed ++ [.stop] }
      (s.waiters ++ s.created) := by
  obtain ⟨hkind, hnil⟩ := h.stopping r hholder
  have hreq := requests_held hholder
  refine ⟨?_, ?_, ?_, h.once, h.removals, fun _ _ hq => (by cases hq), fun _ hq => (by cases hq),
    h.receiving, fun hlast => ?_⟩
  · intro sub
    rw [← h.agree sub, hreq, Holder.request]
    rcases eq_or_ne sub r.sub with rfl | hne
    · rw [kindsOf_cons_self, hkind, hnil]
      rfl
    · rw [kindsOf_cons_ne _ hne]
  · rw [hreq] at h
    exact h.distinct.of_cons
  · exact fun q hq => h.old q (by rw [hreq]; exact List.mem_cons_of_mem _ hq)
  · rw [List.getLast?_concat] at hlast
    cases hlast

/-- One step of `AudioBus.stop`. -/
theorem Ok.busStep {s : AudioBus} {b : BusStop} (h : Ok s s.requests)
    (hok : ∀ sub, b.rest.head? = some sub → s.Closable sub) (hwaits : b.stopping = false) :
    Ok (s.busStep b) (s.busStep b).requests := by
  rw [AudioBus.busStep]
  split
  · rename_i sub rest hrest
    have hclosed := h.aclose true (hok sub (by rw [hrest]; rfl))
    refine hclosed.congr rfl rfl rfl rfl rfl (Nat.le_refl _) rfl ?_
    rintro ⟨c, hc, hstopping⟩
    refine ⟨c, List.mem_append_left _ ((List.mem_erase_of_ne fun he => ?_).mpr hc), hstopping⟩
    rw [he, hwaits] at hstopping
    cases hstopping
  · split
    · rename_i hon
      refine ⟨h.agree, h.distinct, h.old, h.once, h.removals, ?_, h.stopping,
        fun hoff => (by cases hoff),
        fun _ => .inr (.inr ⟨_, List.mem_append_right _ List.mem_cons_self, rfl⟩)⟩
      intro r added hholder
      exact ⟨(h.starting r added hholder).1, (h.starting r added hholder).2.1, rfl⟩
    · refine h.congr rfl rfl rfl rfl rfl (Nat.le_refl _) rfl ?_
      rintro ⟨c, hc, hstopping⟩
      refine ⟨c, (List.mem_erase_of_ne fun he => ?_).mpr hc, hstopping⟩
      rw [he, hwaits] at hstopping
      cases hstopping

/-- An `AudioBus.stop` ends without a stop of the radio. -/
theorem Ok.busEnd {s : AudioBus} {b : BusStop} (h : Ok s s.requests)
    (hlost : b.stopping = true → s.BusStopLost b.id) :
    Ok { s with busStops := s.busStops.erase b } s.requests := by
  refine ⟨h.agree, h.distinct, h.old, h.once, h.removals, h.starting, h.stopping, h.receiving, ?_⟩
  intro hlast
  cases hb : b.stopping with
  | true =>
      rcases hlost hb hlast with hon | hheld | ⟨c, hc, hne, hstopping⟩
      · exact .inl hon
      · exact .inr (.inl hheld)
      · refine .inr (.inr ⟨c, (List.mem_erase_of_ne fun he => ?_).mpr hc, hstopping⟩)
        exact hne (congrArg BusStop.id he)
  | false =>
      refine (h.stops hlast).imp_right (Or.imp_right ?_)
      rintro ⟨c, hc, hstopping⟩
      refine ⟨c, (List.mem_erase_of_ne fun he => ?_).mpr hc, hstopping⟩
      rw [he, hb] at hstopping
      cases hstopping

theorem Ok.step {s s' : AudioBus} {a : Action} (h : Ok s s.requests) (hok : s.Orderly a)
    (hstep : s.step a = some s') : Ok s' s'.requests := by
  cases a with
  | start sub =>
      cases hstep
      exact h.start hok
  | stop sub =>
      cases hstep
      exact h.stop hok
  | aclose sub timeout =>
      cases hstep
      exact h.aclose timeout hok
  | resumeStart id =>
      rw [AudioBus.step] at hstep
      split at hstep
      · rename_i w hfind
        split at hstep
        · cases hstep
        · cases hstep
          have hw := hok w (List.mem_of_find?_eq_some hfind) (by simpa using List.find?_some hfind)
          exact Ok.activate (s := { s with starts := s.starts.erase w })
            (h.congr rfl rfl rfl rfl rfl (Nat.le_refl _) rfl fun hb => hb) hw
      · cases hstep
  | «begin» id =>
      obtain ⟨r, hfind, rfl⟩ := Option.map_eq_some_iff.mp hstep
      exact h.begin (List.mem_of_find?_eq_some hfind)
  | acquire =>
      rw [AudioBus.step] at hstep
      split at hstep
      · rename_i r rest hfree hwaiters
        cases hstep
        exact h.acquire hfree hwaiters
      · cases hstep
  | radioStarted =>
      rw [AudioBus.step] at hstep
      split at hstep
      · rename_i r added hholder
        cases hstep
        exact h.radioStarted hholder
      · cases hstep
  | radioStartFailed =>
      rw [AudioBus.step] at hstep
      split at hstep
      · rename_i r added hholder
        cases hstep
        exact h.failStart hholder (hok r added hholder)
      · cases hstep
  | radioStopped =>
      rw [AudioBus.step] at hstep
      split at hstep
      · rename_i r hholder
        cases hstep
        exact h.radioStopped hholder
      · cases hstep
  | radioStopFailed =>
      rw [AudioBus.step] at hstep
      split at hstep
      · rename_i r hholder
        cases hstep
        exact h.failStop hholder hok
      · cases hstep
  | cancel id => exact h.cancel hok hstep
  | cancelStart id =>
      rw [AudioBus.step] at hstep
      split at hstep
      · rename_i w hfind
        have hw := hok w (List.mem_of_find?_eq_some hfind) (by simpa using List.find?_some hfind)
        split at hstep
        · exact h.cancel hw hstep
        · cases hstep
          exact h.congr rfl rfl rfl rfl rfl (Nat.le_refl _) rfl fun hb => hb
      · cases hstep
  | cancelBus id =>
      rw [AudioBus.step] at hstep
      split at hstep
      · rename_i b hfind
        have hb := hok b (List.mem_of_find?_eq_some hfind) (by simpa using List.find?_some hfind)
        have hend := h.busEnd hb.2
        dsimp only at hstep
        split at hstep
        · rename_i task hwaits
          split at hstep
          · exact Ok.cancel hend (hb.1 task hwaits) hstep
          · cases hstep
            exact hend
        · cases hstep
          exact hend
      · cases hstep
  | closeDone sub =>
      rw [AudioBus.step] at hstep
      split at hstep
      · cases hstep
      · cases hstep
        exact h.congr rfl rfl rfl rfl rfl (Nat.le_refl _) rfl fun hb => hb
  | busStop =>
      cases hstep
      refine h.congr rfl rfl rfl rfl rfl (Nat.le_succ _) rfl ?_
      exact fun ⟨b, hb, hstopping⟩ => ⟨b, List.mem_append_left _ hb, hstopping⟩
  | busStep id =>
      rw [AudioBus.step] at hstep
      split at hstep
      · rename_i b hfind
        split at hstep
        · cases hstep
        · rename_i hidle
          cases hstep
          have hb := hok b (List.mem_of_find?_eq_some hfind) (by simpa using List.find?_some hfind)
          exact h.busStep hb (by simp_all)
      · cases hstep
  | busStopped id =>
      rw [AudioBus.step] at hstep
      split at hstep
      · rename_i b hfind
        split at hstep
        · cases hstep
          refine ⟨h.agree, h.distinct, h.old, h.once, h.removals, h.starting, h.stopping,
            h.receiving, fun hlast => ?_⟩
          rw [List.getLast?_concat] at hlast
          cases hlast
        · cases hstep
      · cases hstep
  | busStopFailed id =>
      rw [AudioBus.step] at hstep
      split at hstep
      · rename_i b hfind
        split at hstep
        · cases hstep
          have hid : b.id = id := by simpa using List.find?_some hfind
          exact h.busEnd fun _ => hid ▸ hok
        · cases hstep
      · cases hstep

/-! ## The bus at rest -/

/-- In a run whose steps are orderly, whenever no operation is in progress the registered
subscriptions are the active ones, and where there is none the radio was stopped last. -/
theorem rest_in_order (eager : Bool) {actions : List Action} {s : AudioBus}
    (hrun : Runs.exec step (init eager) actions = some s)
    (hok : Runs.Along step Orderly (init eager) actions) (hq : s.Quiescent) : s.InOrder := by
  refine Ok.inOrder ?_ hq
  refine Runs.exec_invariant_along (I := fun s => Ok s s.requests) ?_ hrun hok (Ok.init eager)
  exact fun t a t' h ha hstep => h.step ha hstep

/-- Of two subscriptions that start, the second is cancelled while it waits for the lock; the first
stops, and the bus is at rest. -/
def cancelledStart : List Action :=
  [.start 0, .start 1, .cancel 1, .radioStarted, .stop 0, .begin 2, .radioStopped, .closeDone 0]

theorem rest_in_order_cancelledStart : ∃ s, Runs.exec step (init true) cancelledStart = some s ∧
    s.Quiescent ∧ s.InOrder := by
  have hok : Runs.Along step Orderly (init true) cancelledStart := by
    refine ⟨fun _ _ r hr => (by cases hr), fun m hm => ?_⟩
    cases hm
    refine ⟨fun _ _ r hr => (by cases hr), fun m hm => ?_⟩
    cases hm
    refine ⟨fun r hr hid => ?_, fun m hm => ?_⟩
    · -- The second start is not registered yet.
      rcases List.mem_cons.mp hr with rfl | hr
      · cases hid
      · cases List.mem_singleton.mp hr
        show outcomeWithout _ _ = false
        decide
    cases hm
    refine ⟨trivial, fun m hm => ?_⟩
    cases hm
    refine ⟨fun _ hclosing => absurd hclosing (by decide), fun m hm => ?_⟩
    cases hm
    exact ⟨trivial, fun m hm => ⟨trivial, fun m' hm' => ⟨trivial, fun _ _ => trivial⟩⟩⟩
  have hsome : (Runs.exec step (init true) cancelledStart).isSome = true := by decide
  obtain ⟨s, hrun⟩ := Option.isSome_iff_exists.mp hsome
  have hq : s.Quiescent := by
    cases hrun
    exact ⟨by decide, by decide, by decide⟩
  exact ⟨s, hrun, hq, rest_in_order true hrun hok hq⟩

/-- A subscription whose start is slow is closed; the close waits for the lock until its timeout,
and then the start ends. -/
theorem closed_in_vain :
    ¬ ∀ (eager : Bool) (actions : List Action) (s : AudioBus),
      Runs.exec step (init eager) actions = some s → s.Quiescent → s.InOrder := by
  intro hall
  obtain ⟨s, hrun⟩ := Option.isSome_iff_exists.mp (show (Runs.exec step (init true)
    [.start 0, .aclose 0 true, .cancel 1, .radioStarted]).isSome = true from by decide)
  have horder := hall true _ s hrun (by cases hrun; exact ⟨by decide, by decide, by decide⟩)
  cases hrun
  exact absurd ((horder.registered 0).mp (by decide)) (by decide)

end AudioBus

end Rigplane.Audio
