import Rigplane.Lib.Runs
import Rigplane.ManagedTx.State

/-!
# What a fold of the managed-transmit reducer preserves

`Reduces` says once what one event can do: leave the state alone, or build one of
the seven states of `State.lean`.  Everything else is read off it.

* `ManagedTxState.Ok` is the inductive invariant.  It ties the three records of an
  over: an active intent holds debt, an ON is pending only under its own intent, and
  a `FORCE_RECEIVE` only in RX with debt.  Under it the check of `ManagedTxState`
  never fires (`reduces_of_eq_ok`, `reduceManagedTx_error`), so an event raises only
  for the empty owner token that `ManagedTxIntent` refuses.
* Debt is paid by one event alone (`Reduces.paid`): the accepted settlement of the
  pending `FORCE_RECEIVE`.  A key-down needs a state without debt and leaves one with
  it, so such a settlement lies between any two ON effects.
-/

namespace Rigplane.ManagedTx

/-! ## The invariant -/

/-- What every reachable managed state satisfies. -/
structure ManagedTxState.Ok (s : ManagedTxState) : Prop where
  /-- An active intent holds debt. -/
  plan : s.Active → s.releasePlan ≠ none
  /-- An active intent has a start time. -/
  started : s.Active → s.txStartedAtMonotonic ≠ none
  /-- RX keeps no start time. -/
  noStart : ¬ s.Active → s.txStartedAtMonotonic = none
  /-- RX keeps no deadline. -/
  noDeadline : ¬ s.Active → s.totDeadlineMonotonic = none
  /-- A pending `PTT_ON` belongs to a PTT intent. -/
  pttOn : ∀ t, s.pendingEffect = some ⟨.pttOn, t⟩ → s.intent.kind = .ptt
  /-- A pending `TRANSMIT_ON` belongs to a TRANSMIT intent. -/
  transmitOn : ∀ t, s.pendingEffect = some ⟨.transmitOn, t⟩ → s.intent.kind = .transmit
  /-- A pending `FORCE_RECEIVE` belongs to RX with debt. -/
  force : ∀ t, s.pendingEffect = some ⟨.forceReceive, t⟩ →
    s.intent.kind = .rx ∧ s.releasePlan ≠ none

namespace ManagedTxState

variable {s : ManagedTxState}

theorem Ok.initial : Ok {} where
  plan h := absurd rfl h
  started h := absurd rfl h
  noStart _ := rfl
  noDeadline _ := rfl
  pttOn _ h := by cases h
  transmitOn _ h := by cases h
  force _ h := by cases h

/-- The check keeps a state that satisfies the first four clauses. -/
theorem postInit_eq_ok (hplan : s.Active → s.releasePlan ≠ none)
    (hstart : s.Active → s.txStartedAtMonotonic ≠ none)
    (hnone : ¬ s.Active → s.txStartedAtMonotonic = none ∧ s.totDeadlineMonotonic = none) :
    s.postInit = .ok s := by
  unfold postInit
  by_cases h : s.Active
  · simp [h, hplan h, hstart h]
  · simp [h, hnone h]

theorem Ok.postInit (h : s.Ok) : s.postInit = .ok s :=
  postInit_eq_ok h.plan h.started fun hn => ⟨h.noStart hn, h.noDeadline hn⟩

/-! ## The states the reducer builds satisfy it -/

theorem Ok.keyed {started : Time} {deadline : Option Time} {intent : ManagedTxIntent}
    {e : ManagedTxEffect}
    (hi : intent.kind = .ptt ∧ e.operation = .pttOn ∨
      intent.kind = .transmit ∧ e.operation = .transmitOn) :
    (s.keyed started deadline intent e).Ok := by
  have ha : (s.keyed started deadline intent e).Active := by
    rcases hi with ⟨h, -⟩ | ⟨h, -⟩ <;> simp [Active, ManagedTxState.keyed, h]
  have hop : ∀ op t, (s.keyed started deadline intent e).pendingEffect = some ⟨op, t⟩ →
      e.operation = op := fun op t h => by rw [Option.some.inj h]
  refine ⟨fun _ => by simp [ManagedTxState.keyed], fun _ => by simp [ManagedTxState.keyed],
    fun hn => absurd ha hn, fun hn => absurd ha hn, fun t ht => ?_, fun t ht => ?_, fun t ht => ?_⟩
  · rcases hi with ⟨h, -⟩ | ⟨-, h⟩
    · exact h
    · cases (hop _ t ht).symm.trans h
  · rcases hi with ⟨-, h⟩ | ⟨h, -⟩
    · cases (hop _ t ht).symm.trans h
    · exact h
  · rcases hi with ⟨-, h⟩ | ⟨-, h⟩ <;> cases (hop _ t ht).symm.trans h

theorem Ok.released {t : EffectToken} (hp : s.releasePlan ≠ none) :
    (s.released ⟨.forceReceive, t⟩).Ok where
  plan h := absurd rfl h
  started h := absurd rfl h
  noStart _ := rfl
  noDeadline _ := rfl
  pttOn _ h := by cases h
  transmitOn _ h := by cases h
  force _ _ := ⟨rfl, hp⟩

theorem Ok.retrying (h : s.Ok) {t : EffectToken} (hrx : ¬ s.Active) (hp : s.releasePlan ≠ none) :
    (s.retrying ⟨.forceReceive, t⟩).Ok where
  plan _ := hp
  started ha := absurd ha hrx
  noStart _ := h.noStart hrx
  noDeadline _ := h.noDeadline hrx
  pttOn _ h := by cases h
  transmitOn _ h := by cases h
  force _ _ := ⟨not_not.mp hrx, hp⟩

theorem Ok.forced {e : Option ManagedTxEffect} (he : ∀ x ∈ e, x.operation = .forceReceive) :
    (s.forced e).Ok where
  plan h := absurd rfl h
  started h := absurd rfl h
  noStart _ := rfl
  noDeadline _ := rfl
  pttOn t h := by cases he _ (Option.mem_def.mpr h)
  transmitOn t h := by cases he _ (Option.mem_def.mpr h)
  force _ _ := ⟨rfl, by simp [ManagedTxState.forced]⟩

theorem Ok.settled (h : s.Ok) (event : ActuationSettled) : (s.settled event).Ok where
  plan := h.plan
  started := h.started
  noStart := h.noStart
  noDeadline := h.noDeadline
  pttOn _ h := by cases h
  transmitOn _ h := by cases h
  force _ h := by cases h

theorem Ok.releaseSettled (h : s.Ok) (hrx : ¬ s.Active) (hpend : s.pendingEffect = none)
    (result : ActuationResult) (text : String) : (s.releaseSettled result text).Ok where
  plan ha := absurd ha hrx
  started ha := absurd ha hrx
  noStart _ := h.noStart hrx
  noDeadline _ := h.noDeadline hrx
  pttOn _ he := by simp [ManagedTxState.releaseSettled, hpend] at he
  transmitOn _ he := by simp [ManagedTxState.releaseSettled, hpend] at he
  force _ he := by simp [ManagedTxState.releaseSettled, hpend] at he

theorem Ok.onFailed (hpend : s.pendingEffect = none) (text : String) : (s.onFailed text).Ok where
  plan h := absurd rfl h
  started h := absurd rfl h
  noStart _ := rfl
  noDeadline _ := rfl
  pttOn _ he := by simp [ManagedTxState.onFailed, hpend] at he
  transmitOn _ he := by simp [ManagedTxState.onFailed, hpend] at he
  force _ he := by simp [ManagedTxState.onFailed, hpend] at he

/-- The fields the invariant reads are the ones that matter to it. -/
theorem Ok.congr {s' : ManagedTxState} (h : s.Ok) (hi : s'.intent = s.intent)
    (hp : s'.releasePlan = s.releasePlan)
    (hs : s'.txStartedAtMonotonic = s.txStartedAtMonotonic)
    (hd : s'.totDeadlineMonotonic = s.totDeadlineMonotonic)
    (he : s'.pendingEffect = s.pendingEffect) : s'.Ok where
  plan := by simpa only [Active, hi, hp] using h.plan
  started := by simpa only [Active, hi, hs] using h.started
  noStart := by simpa only [Active, hi, hs] using h.noStart
  noDeadline := by simpa only [Active, hi, hd] using h.noDeadline
  pttOn := by simpa only [hi, he] using h.pttOn
  transmitOn := by simpa only [hi, he] using h.transmitOn
  force := by simpa only [hi, hp, he] using h.force

end ManagedTxState

/-! ## What one event can do -/

/-- A key-down of either kind. -/
def ManagedTxEvent.IsOnRequest : ManagedTxEvent → Prop
  | .pttDown _ => True
  | .transmitOn _ => True
  | _ => False

/-- The owner token an event carries. -/
def ManagedTxEvent.ownerToken? : ManagedTxEvent → Option String
  | .pttDown event => some event.ownerToken
  | .pttUp event => some event.ownerToken
  | _ => none

/-- The transitions of the reducer, one constructor for each way it returns. -/
inductive Reduces (s : ManagedTxState) : ManagedTxEvent → ManagedTxTransition → Prop
  | held {e : ManagedTxEvent} (he : e.IsOnRequest) (ha : s.Active) : Reduces s e ⟨s, .accepted, []⟩
  | refused {e : ManagedTxEvent} : Reduces s e ⟨s, .rejected, []⟩
  | stale {e : ManagedTxEvent} : Reduces s e ⟨s, .stale, []⟩
  | pttDown (event : PttDown) (howner : event.ownerToken ≠ "") (hrx : ¬ s.Active)
      (hplan : s.releasePlan = none) :
      Reduces s (.pttDown event)
        ⟨s.keyed event.txStartedAtMonotonic event.totDeadlineMonotonic
            ⟨.ptt, some event.ownerToken, ManagedTxIntent.pttChecked howner⟩
            (s.freshEffect event.providerGeneration event.attemptId .pttOn),
          .accepted, [s.freshEffect event.providerGeneration event.attemptId .pttOn]⟩
  | transmitOn (event : TransmitOn) (hrx : ¬ s.Active) (hplan : s.releasePlan = none) :
      Reduces s (.transmitOn event)
        ⟨s.keyed event.txStartedAtMonotonic event.totDeadlineMonotonic .transmit
            (s.freshEffect event.providerGeneration event.attemptId .transmitOn),
          .accepted, [s.freshEffect event.providerGeneration event.attemptId .transmitOn]⟩
  | pttUp (event : PttUp) (hkind : s.intent.kind = .ptt)
      (howner : s.intent.ownerToken = some event.ownerToken) :
      Reduces s (.pttUp event)
        ⟨s.released ⟨.forceReceive, ⟨event.providerGeneration, s.effectEpoch, event.attemptId⟩⟩,
          .accepted,
          [⟨.forceReceive, ⟨event.providerGeneration, s.effectEpoch, event.attemptId⟩⟩]⟩
  | retry (event : RetryForceReceive) (hrx : ¬ s.Active) (hplan : s.releasePlan ≠ none)
      (hpend : s.pendingEffect = none) :
      Reduces s (.retryForceReceive event)
        ⟨s.retrying (s.freshEffect event.providerGeneration event.attemptId .forceReceive),
          .accepted, [s.freshEffect event.providerGeneration event.attemptId .forceReceive]⟩
  | forceOff (event : ForceOff) (effect : Option ManagedTxEffect)
      (heffect : effect = event.providerGeneration.map fun generation =>
        s.freshEffect generation event.attemptId .forceReceive) :
      Reduces s (.forceOff event) ⟨s.forced effect, .accepted, effect.toList⟩
  | releaseSettled (event : ActuationSettled) (hs : event.Settles s)
      (hop : event.operation = .forceReceive) :
      Reduces s (.actuationSettled event)
        ⟨(s.settled event).releaseSettled event.result event.text, .applied, []⟩
  | onSettled (event : ActuationSettled) (hs : event.Settles s)
      (hop : event.operation.IsOn) (hr : event.result = .accepted) :
      Reduces s (.actuationSettled event)
        ⟨{ s.settled event with lastError := none }, .applied, []⟩
  | onFailed (event : ActuationSettled) (hs : event.Settles s)
      (hop : event.operation.IsOn) (hr : event.result ≠ .accepted) :
      Reduces s (.actuationSettled event) ⟨(s.settled event).onFailed event.text, .applied, []⟩
  | abortFailed (event : AbortFailed) (h : some event.token = s.currentAbortToken) :
      Reduces s (.abortFailed event)
        ⟨{ s with abortErrors := s.abortErrors ++ [⟨event.operation, event.error⟩] }, .applied, []⟩

variable {s : ManagedTxState} {e : ManagedTxEvent} {t : ManagedTxTransition}

/-- Every transition keeps the invariant. -/
theorem Reduces.ok (h : Reduces s e t) (hs : s.Ok) : t.state.Ok := by
  cases h with
  | held | refused | stale => exact hs
  | pttDown => exact .keyed (.inl ⟨rfl, rfl⟩)
  | transmitOn => exact .keyed (.inr ⟨rfl, rfl⟩)
  | pttUp event hkind => exact .released (hs.plan (by simp [ManagedTxState.Active, hkind]))
  | retry event hrx hplan => exact hs.retrying hrx hplan
  | forceOff event effect heffect =>
      subst heffect
      exact .forced fun x hx => by
        obtain ⟨g, -, rfl⟩ := Option.map_eq_some_iff.mp hx
        rfl
  | releaseSettled event hset hop =>
      obtain ⟨hrx, -⟩ := hs.force event.token (by rw [← hop]; exact hset)
      exact (hs.settled event).releaseSettled (not_not.mpr hrx) rfl _ _
  | onSettled event => exact (hs.settled event).congr rfl rfl rfl rfl rfl
  | onFailed => exact .onFailed rfl _
  | abortFailed => exact hs.congr rfl rfl rfl rfl rfl

/-! ## The checks never fire -/

/-- A `replace` whose state satisfies the invariant goes through. -/
theorem ManagedTxState.Ok.bind_postInit {β : Type} (hs : s.Ok)
    (f : ManagedTxState → Except ManagedTxError β) : (s.postInit >>= f) = f s := by
  rw [hs.postInit]; rfl

theorem on_eq_ok {g : Int} {a : String} {started : Time} {deadline : Option Time}
    {intent : ManagedTxIntent} {op : ActuationOperation}
    (hi : intent.kind = .ptt ∧ op = .pttOn ∨ intent.kind = .transmit ∧ op = .transmitOn) :
    on s g a started deadline intent op =
      .ok ⟨s.keyed started deadline intent (s.freshEffect g a op), .accepted,
        [s.freshEffect g a op]⟩ := by
  have hok : (s.keyed started deadline intent (s.freshEffect g a op)).Ok := .keyed hi
  rw [on, hok.bind_postInit]
  rfl

theorem settle_reduces (hs : s.Ok) (event : ActuationSettled) :
    ∃ t, settle s event = .ok t ∧ Reduces s (.actuationSettled event) t := by
  by_cases hset : event.Settles s
  · have hsettled := hs.settled event
    by_cases hop : event.operation = .forceReceive
    · have hred := Reduces.releaseSettled event hset hop
      refine ⟨_, ?_, hred⟩
      rw [settle, if_neg (not_not.mpr hset), hsettled.bind_postInit, if_pos hop,
        (hred.ok hs).bind_postInit]
      rfl
    · by_cases hr : event.result = .accepted
      · have hred := Reduces.onSettled event hset hop hr
        refine ⟨_, ?_, hred⟩
        rw [settle, if_neg (not_not.mpr hset), hsettled.bind_postInit, if_neg hop, if_pos hr,
          (hred.ok hs).bind_postInit]
        rfl
      · have hred := Reduces.onFailed event hset hop hr
        refine ⟨_, ?_, hred⟩
        rw [settle, if_neg (not_not.mpr hset), hsettled.bind_postInit, if_neg hop, if_neg hr,
          (hred.ok hs).bind_postInit]
        rfl
  · exact ⟨⟨s, .stale, []⟩, by rw [settle, if_pos hset], .stale⟩

theorem ptt_eq_ok {owner : String} (h : owner ≠ "") :
    ManagedTxIntent.ptt owner = .ok ⟨.ptt, some owner, ManagedTxIntent.pttChecked h⟩ := by
  rw [ManagedTxIntent.ptt, dif_neg h]

/-- An event with an empty owner token raises, whatever the state. -/
theorem reduceManagedTx_empty (h : e.ownerToken? = some "") :
    reduceManagedTx s e = .error .pttNeedsOwner := by
  cases e with
  | pttDown event =>
      obtain ⟨owner, g, a, started, deadline⟩ := event
      cases h
      rfl
  | pttUp event =>
      obtain ⟨owner, g, a⟩ := event
      cases h
      rfl
  | transmitOn | forceOff | retryForceReceive | actuationSettled | abortFailed => cases h

/-- Every other event returns, and returns one of the listed transitions. -/
theorem reduceManagedTx_reduces (hs : s.Ok) (he : e.ownerToken? ≠ some "") :
    ∃ t, reduceManagedTx s e = .ok t ∧ Reduces s e t := by
  cases e with
  | pttDown event =>
      have howner : event.ownerToken ≠ "" := fun h => he (by rw [← h]; rfl)
      rw [reduceManagedTx, ptt_eq_ok howner]
      change ∃ t, (if s.intent = _ then _ else _) = _ ∧ _
      by_cases hsame : s.intent = ⟨.ptt, some event.ownerToken, ManagedTxIntent.pttChecked howner⟩
      · exact ⟨_, if_pos hsame, .held trivial (by simp [ManagedTxState.Active, hsame])⟩
      · rw [if_neg hsame]
        by_cases hbusy : s.Active ∨ s.releaseRequired
        · exact ⟨_, if_pos hbusy, .refused⟩
        · rw [if_neg hbusy]
          simp only [ManagedTxState.releaseRequired, not_or, Bool.not_eq_true,
            Option.isSome_eq_false_iff, Option.isNone_iff_eq_none] at hbusy
          exact ⟨_, on_eq_ok (.inl ⟨rfl, rfl⟩), .pttDown event howner hbusy.1 hbusy.2⟩
  | transmitOn event =>
      rw [reduceManagedTx]
      by_cases hsame : s.intent.kind = .transmit
      · exact ⟨_, if_pos hsame, .held trivial (by simp [ManagedTxState.Active, hsame])⟩
      · rw [if_neg hsame]
        by_cases hbusy : s.Active ∨ s.releaseRequired
        · exact ⟨_, if_pos hbusy, .refused⟩
        · rw [if_neg hbusy]
          simp only [ManagedTxState.releaseRequired, not_or, Bool.not_eq_true,
            Option.isSome_eq_false_iff, Option.isNone_iff_eq_none] at hbusy
          exact ⟨_, on_eq_ok (.inr ⟨rfl, rfl⟩), .transmitOn event hbusy.1 hbusy.2⟩
  | pttUp event =>
      have howner : event.ownerToken ≠ "" := fun h => he (by rw [← h]; rfl)
      rw [reduceManagedTx, ptt_eq_ok howner]
      change ∃ t, (if s.intent ≠ _ then _ else _) = _ ∧ _
      by_cases hsame : s.intent = ⟨.ptt, some event.ownerToken, ManagedTxIntent.pttChecked howner⟩
      · have hred := Reduces.pttUp (s := s) event (by rw [hsame]) (by rw [hsame])
        refine ⟨_, ?_, hred⟩
        rw [if_neg (not_not.mpr hsame)]
        exact (hred.ok hs).bind_postInit _
      · exact ⟨_, if_pos hsame, .refused⟩
  | retryForceReceive event =>
      rw [reduceManagedTx]
      by_cases hno : s.Active ∨ s.releasePlan = none ∨ s.pendingEffect ≠ none
      · exact ⟨_, if_pos hno, .refused⟩
      · rw [if_neg hno]
        simp only [not_or, ne_eq, not_not] at hno
        have hred := Reduces.retry event hno.1 hno.2.1 hno.2.2
        exact ⟨_, (hred.ok hs).bind_postInit _, hred⟩
  | forceOff event =>
      have hred := Reduces.forceOff (s := s) event _ rfl
      exact ⟨_, (hred.ok hs).bind_postInit _, hred⟩
  | actuationSettled event => exact settle_reduces hs event
  | abortFailed event =>
      rw [reduceManagedTx]
      by_cases h : some event.token = s.currentAbortToken
      · have hred := Reduces.abortFailed event h
        refine ⟨_, ?_, hred⟩
        rw [if_neg (not_not.mpr h)]
        exact (hred.ok hs).bind_postInit _
      · exact ⟨_, if_pos h, .stale⟩

/-- In a reachable state an event raises for one reason: an empty owner token. -/
theorem reduceManagedTx_error (hs : s.Ok) {err : ManagedTxError} :
    reduceManagedTx s e = .error err ↔ e.ownerToken? = some "" ∧ err = .pttNeedsOwner := by
  by_cases he : e.ownerToken? = some ""
  · rw [reduceManagedTx_empty he]
    simp [he, eq_comm]
  · obtain ⟨t, ht, -⟩ := reduceManagedTx_reduces hs he
    simp [ht, he]

theorem reduces_of_eq_ok (hs : s.Ok) (h : reduceManagedTx s e = .ok t) : Reduces s e t := by
  by_cases he : e.ownerToken? = some ""
  · rw [reduceManagedTx_empty he] at h
    cases h
  · obtain ⟨t', ht, hred⟩ := reduceManagedTx_reduces hs he
    rw [ht] at h
    cases h
    exact hred

theorem reduceStep_eq_some {s' : ManagedTxState} :
    reduceStep s e = some s' ↔ ∃ t, reduceManagedTx s e = .ok t ∧ t.state = s' := by
  rw [reduceStep]
  cases reduceManagedTx s e with
  | error err => simp [Except.toOption]
  | ok t => simp [Except.toOption]

/-! ## Folds -/

/-- Every state a fold reaches satisfies the invariant. -/
theorem Ok.of_exec {s s' : ManagedTxState} {es : List ManagedTxEvent}
    (h : Runs.exec reduceStep s es = some s') (hs : s.Ok) : s'.Ok :=
  Runs.exec_invariant (fun _ _ _ hi hstep => by
    obtain ⟨t, ht, rfl⟩ := reduceStep_eq_some.mp hstep
    exact (reduces_of_eq_ok hi ht).ok hi) h hs

/-- The one way to pay a debt: the pending `FORCE_RECEIVE` settles as accepted. -/
theorem Reduces.paid (h : Reduces s e t) (hp : s.releasePlan ≠ none)
    (hp' : t.state.releasePlan = none) :
    ∃ event, e = .actuationSettled event ∧ event.operation = .forceReceive ∧
      event.result = .accepted ∧ s.pendingEffect = some ⟨.forceReceive, event.token⟩ := by
  cases h with
  | held | refused | stale | abortFailed => exact absurd hp' hp
  | pttDown | transmitOn | forceOff | onFailed => cases hp'
  | pttUp | retry | onSettled => exact absurd hp' hp
  | releaseSettled event hset hop =>
      refine ⟨event, rfl, hop, ?_, by rw [← hop]; exact hset⟩
      by_contra hr
      refine hp ?_
      simpa [ManagedTxState.releaseSettled, ManagedTxState.settled, hr] using hp'

/-- A transition that plans an ON starts without debt and ends with it. -/
theorem Reduces.emits_on (h : Reduces s e t) {x : ManagedTxEffect} (hx : x ∈ t.effects)
    (hon : x.operation.IsOn) : s.releasePlan = none ∧ t.state.releasePlan ≠ none := by
  cases h with
  | held | refused | stale | releaseSettled | onSettled | onFailed | abortFailed => cases hx
  | pttDown event howner hrx hplan => exact ⟨hplan, by simp [ManagedTxState.keyed]⟩
  | transmitOn event hrx hplan => exact ⟨hplan, by simp [ManagedTxState.keyed]⟩
  | pttUp | retry =>
      obtain rfl := List.mem_singleton.mp hx
      exact absurd rfl hon
  | forceOff event effect heffect =>
      subst heffect
      obtain ⟨g, -, rfl⟩ := Option.map_eq_some_iff.mp (Option.mem_toList.mp hx)
      exact absurd rfl hon

/-- The transition plans a `PTT_ON` or a `TRANSMIT_ON`. -/
def ManagedTxTransition.EmitsOn (t : ManagedTxTransition) : Prop :=
  ∃ x ∈ t.effects, x.operation.IsOn

/-- The event settles, as accepted, the `FORCE_RECEIVE` that is pending in the state. -/
def ManagedTxEvent.PaysDebtOf (e : ManagedTxEvent) (s : ManagedTxState) : Prop :=
  ∃ event, e = .actuationSettled event ∧ event.operation = .forceReceive ∧
    event.result = .accepted ∧ s.pendingEffect = some ⟨.forceReceive, event.token⟩

/-- What a fold guarantees of the state it stands in and of the events that follow. -/
structure ManagedTxState.FoldSafe (s : ManagedTxState) : Prop where
  /-- An event raises only the intent's refusal of an empty owner token. -/
  raises : ∀ e err, reduceManagedTx s e = .error err ↔
    e.ownerToken? = some "" ∧ err = .pttNeedsOwner
  /-- PTT and TRANSMIT hold a release plan. -/
  plan : s.intent.kind = .ptt ∨ s.intent.kind = .transmit → s.releasePlan ≠ none
  /-- A pending `PTT_ON` is under a PTT intent. -/
  pttOn : ∀ t, s.pendingEffect = some ⟨.pttOn, t⟩ → s.intent.kind = .ptt
  /-- A pending `TRANSMIT_ON` is under a TRANSMIT intent. -/
  transmitOn : ∀ t, s.pendingEffect = some ⟨.transmitOn, t⟩ → s.intent.kind = .transmit
  /-- A pending `FORCE_RECEIVE` is under RX, with debt. -/
  force : ∀ t, s.pendingEffect = some ⟨.forceReceive, t⟩ →
    s.intent.kind = .rx ∧ s.releasePlan ≠ none
  /-- Only the accepted settlement of the pending `FORCE_RECEIVE` drops the plan. -/
  paid : ∀ e t, reduceManagedTx s e = .ok t → s.releasePlan ≠ none →
    t.state.releasePlan = none → e.PaysDebtOf s
  /-- Between an ON emitted here and any later one such a settlement occurs. -/
  separated : ∀ e t es s' e' t', reduceManagedTx s e = .ok t → t.EmitsOn →
    Runs.exec reduceStep t.state es = some s' → reduceManagedTx s' e' = .ok t' → t'.EmitsOn →
    ∃ pre x post m, es = pre ++ x :: post ∧ Runs.exec reduceStep t.state pre = some m ∧
      x.PaysDebtOf m

theorem ManagedTxState.Ok.foldSafe (hs : s.Ok) : s.FoldSafe where
  raises _ _ := reduceManagedTx_error hs
  plan hk := hs.plan (by rcases hk with h | h <;> simp [Active, h])
  pttOn := hs.pttOn
  transmitOn := hs.transmitOn
  force := hs.force
  paid _ _ h hp hp' := (reduces_of_eq_ok hs h).paid hp hp'
  separated e t es s' e' t' h hon hrun h' hon' := by
    obtain ⟨x, hx, hxon⟩ := hon
    obtain ⟨y, hy, hyon⟩ := hon'
    have hred := reduces_of_eq_ok hs h
    have hs' : s'.Ok := Ok.of_exec hrun (hred.ok hs)
    have howed := (hred.emits_on hx hxon).2
    have hpaid := ((reduces_of_eq_ok hs' h').emits_on hy hyon).1
    -- The run starts with debt and ends without, so one of its events pays it.
    obtain ⟨pre, ev, post, m, m', rfl, hpre, hev, -, hm, hm'⟩ :=
      Runs.exec_enters (P := fun s => s.releasePlan = none) hrun howed hpaid
    obtain ⟨u, hu, rfl⟩ := reduceStep_eq_some.mp hev
    have hmok : m.Ok := Ok.of_exec hpre (hred.ok hs)
    exact ⟨pre, ev, post, m, rfl, hpre, (reduces_of_eq_ok hmok hu).paid hm hm'⟩

/-- A fold from the initial state that has not raised stands in a safe state. -/
theorem fold_safe {es : List ManagedTxEvent} (h : Runs.exec reduceStep {} es = some s) :
    s.FoldSafe :=
  (Ok.of_exec h .initial).foldSafe

/-- An over: the key goes down, its ON is accepted, and the key goes up. -/
def overEvents : List ManagedTxEvent :=
  [.pttDown ⟨"a", 0, "1", 0, none⟩, .actuationSettled ⟨⟨0, 1, "1"⟩, .pttOn, .accepted, none⟩,
    .pttUp ⟨"a", 0, "2"⟩]

/-- The release of an over is owed until its `FORCE_RECEIVE` is accepted. -/
theorem fold_safe_over : ∃ s t, Runs.exec reduceStep {} overEvents = some s ∧
    reduceManagedTx s (.actuationSettled ⟨⟨0, 1, "2"⟩, .forceReceive, .accepted, none⟩) = .ok t ∧
    (s.intent.kind = .rx ∧ s.releasePlan ≠ none) ∧ t.state.releasePlan = none ∧
    (ManagedTxEvent.actuationSettled ⟨⟨0, 1, "2"⟩, .forceReceive, .accepted, none⟩).PaysDebtOf
      s := by
  have h : Runs.exec reduceStep {} overEvents = some _ := rfl
  have howed := (fold_safe h).force ⟨0, 1, "2"⟩ rfl
  exact ⟨_, _, h, rfl, howed, rfl, (fold_safe h).paid _ _ rfl howed.2 rfl⟩

/-- The reducer does raise: the empty owner token is an event's to carry and the
intent's to refuse. -/
theorem fold_raises_on_empty_owner :
    ¬ ∀ es : List ManagedTxEvent, ∃ s, Runs.exec reduceStep {} es = some s := by
  intro h
  obtain ⟨s, hs⟩ := h [.pttDown ⟨"", 0, "1", 0, none⟩]
  cases hs

end Rigplane.ManagedTx
