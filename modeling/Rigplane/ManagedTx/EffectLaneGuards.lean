import Rigplane.ManagedTx.EffectLane

/-!
# What guards a running ON

A provider call that keys the radio may outlive its claim.  Until it is over, that is
until it has finished or its generation has been poisoned, one of three things stands for
it (`Guarded`): its claim is still in `_claims`, or its isolation task is among the
displaced ones, or the newest isolation task waits for it through the chain of
predecessors (`Covers`).  The sections under the lock keep this: displacing a claim trades
the first for the other two, and a new isolation task takes the newest one as its
predecessor.

`Ok` is the invariant of the lane.  Its last part, `ReleasesOk`, says what a release has seen
so far of the calls that were started before it.
-/

namespace Rigplane.ManagedTx

/-- The driver has isolation tasks to wait for, or waited for them. -/
def Driver.Waits : Driver → Prop
  | .calling again => again = true
  | .isolating _ _ => True
  | .repeating _ => True
  | _ => False

/-- The claim has not begun to settle. -/
def Claim.Open (c : Claim) : Prop := c.result = none ∧ ∀ outcome, c.driver ≠ .finishing outcome

theorem Claim.Open.congr {c c' : Claim} (h : c.Open) (hdriver : c'.driver = c.driver)
    (hresult : c'.result = c.result) : c'.Open :=
  ⟨hresult.trans h.1, fun outcome hd => h.2 outcome (hdriver.symm.trans hd)⟩

namespace Lane

variable {s s' m : Lane} {n : Nat}

/-! ## Guards -/

/-- The isolation task waits for the provider call or poisons its generation, itself or
through its predecessors. -/
inductive Covers (s : Lane) (p : ProviderCall) : TaskId → Prop
  | own {task : TaskId} {t : Isolation} (h : s.tasks[task]? = some t)
      (claim : t.claim = p.claim) : Covers s p task
  | poison {task : TaskId} {t : Isolation} (h : s.tasks[task]? = some t)
      (poison : t.poison = true) (poisons : s.poisons = true)
      (generation : t.generation = p.generation) : Covers s p task
  | previous {task : TaskId} {t : Isolation} {previous : TaskId} (h : s.tasks[task]? = some t)
      (hprevious : t.previous = some previous) (covers : Covers s p previous) : Covers s p task

/-- The call has finished, or its generation is poisoned. -/
def Over (s : Lane) (p : ProviderCall) : Prop :=
  p.finished.isSome = true ∨ p.generation ∈ s.poisoned

/-- The claim is in `_claims`. -/
def Active (s : Lane) (id : ClaimId) : Prop :=
  ∃ c : Claim, s.made[id]? = some c ∧ s.claims.get? c.key = some id

def Guarded (s : Lane) (p : ProviderCall) : Prop :=
  s.Over p ∨ s.Active p.claim ∨ (∃ task, s.displaced.get? task = some p.claim) ∨
    ∃ newest, s.isolation = some newest ∧ s.Covers p newest.task

/-! ## The invariant -/

/-- What the provider calls and the drivers know of each other. -/
structure CallsOk (s : Lane) : Prop where
  claim : ∀ (call : CallId) (p : ProviderCall), s.calls[call]? = some p → ∃ c :
    Claim, s.made[p.claim]? = some c ∧
    c.operation = p.operation ∧ c.token.providerGeneration = p.generation ∧ c.started = true ∧
    (p.operation.IsOn → c.provider = some call)
  provider : ∀ (id : ClaimId) (c : Claim) (call : CallId), s.made[id]? = some c →
    c.provider = some call →
    ∃ p : ProviderCall, s.calls[call]? = some p ∧ p.claim = id
  started : ∀ (id : ClaimId) (c : Claim), s.made[id]? = some c → c.started = true →
    ∃ call, c.provider = some call
  calling : ∀ (id : ClaimId) (c : Claim) (again : Bool), s.made[id]? = some c →
    c.driver = .calling again → c.started = true
  /-- A driver that has not entered the provider has no call. -/
  fresh : ∀ (id : ClaimId) (c : Claim), s.made[id]? = some c → c.driver = .created ∨
    c.driver = .queued →
    c.provider = none
  /-- Only a release waits for isolation tasks. -/
  isolation : ∀ (id : ClaimId) (c : Claim), s.made[id]? = some c → c.isolation ≠ [] →
    c.operation = .forceReceive
  waits : ∀ (id : ClaimId) (c : Claim), s.made[id]? = some c → c.driver.Waits → c.isolation ≠ []
  /-- A driver that is neither over nor cancelled has not settled. -/
  running : ∀ (id : ClaimId) (c : Claim), s.made[id]? = some c → c.driver ≠ .cancelled →
    c.driver ≠ .ended →
    c.result = none

structure TaskOk (s : Lane) (t : Isolation) : Prop where
  claim : ∃ (c : Claim) (call : CallId), s.made[t.claim]? = some c ∧ c.operation.IsOn ∧
    c.provider = some call ∧
    t.generation = c.token.providerGeneration
  done : t.state = .done → s.Gathered t
  poisoned : t.poison = true → s.poisons = true → t.state = .waiting ∨ t.state = .done →
    t.generation ∈ s.poisoned
  failed : ∀ error, t.state = .failed error → t.poison = true
  poisoning : t.state = .poisoning → t.poison = true ∧ s.poisons = true

def TasksOk (s : Lane) : Prop := ∀ (task : TaskId) (t : Isolation), s.tasks[task]? = some t →
    s.TaskOk t

/-- `_isolation` and `_displaced` name the tasks they should. -/
structure SlotsOk (s : Lane) : Prop where
  isolation : ∀ newest, s.isolation = some newest → ∃ t :
    Isolation, s.tasks[newest.task]? = some t ∧
    t.generation = newest.generation ∧ t.poison = newest.poison
  displaced : ∀ task id, s.displaced.get? task = some id → ∃ t :
    Isolation, s.tasks[task]? = some t ∧
    t.claim = id ∧ t.poison = false

structure ClaimsOk (s : Lane) : Prop where
  claims : ∀ key id, s.claims.get? key = some id →
    ∃ c : Claim, s.made[id]? = some c ∧ c.key = key ∧ c.Open
  /-- The ON slot of the scope is taken by its only ON claim. -/
  scope : ∀ (id : ClaimId) (c : Claim), s.made[id]? = some c → c.operation.IsOn →
    c.token.scope < s.scope ∨
    c.token.scope = s.scope ∧ (s.slots.get? .on).isSome = true
  unique : ∀ (id id' : ClaimId) (c c' : Claim), s.made[id]? = some c → s.made[id']? = some c' →
    c.operation.IsOn →
    c'.operation.IsOn → c.token.scope = c'.token.scope → id = id'

/-- Every moment that was written down is before `n`. -/
structure TimedBy (s : Lane) (n : Nat) : Prop where
  made : ∀ (id : ClaimId) (c : Claim), s.made[id]? = some c → c.madeAt < n
  started : ∀ (call : CallId) (p : ProviderCall), s.calls[call]? = some p → p.startedAt < n
  finished : ∀ (call : CallId) (p : ProviderCall) (callEnd : CallEnd) (at' : Nat), s.calls[call]? =
    some p → p.finished = some (callEnd, at') →
    at' < n

/-- Every ON started before the claim had finished when the claim's last call started, or
its generation is poisoned. -/
def Clear (s : Lane) (c : Claim) : Prop :=
  ∀ (call : CallId) (p : ProviderCall), s.calls[call]? = some p → p.operation.IsOn →
    p.startedAt < c.madeAt →
    p.generation ∈ s.poisoned ∨ ∃ (last : CallId) (q : ProviderCall) (callEnd : CallEnd)
      (at' : Nat), c.provider = some last ∧
      s.calls[last]? = some q ∧ p.finished = some (callEnd, at') ∧ at' < q.startedAt

/-- An isolation task the release waits for has failed. -/
def Failing (s : Lane) (c : Claim) : Prop :=
  ∃ task ∈ c.isolation, ∃ t : Isolation, s.tasks[task]? = some t ∧ t.error.isSome = true

/-- What a release has seen of the calls that were started before it. -/
structure ReleaseOk (s : Lane) (c : Claim) : Prop where
  barred : ∀ (call : CallId) (p : ProviderCall), s.calls[call]? = some p → p.operation.IsOn →
    p.startedAt < c.madeAt →
    s.Over p ∨ ∃ task ∈ c.isolation, s.Covers p task
  calling : c.driver = .calling false → s.Failing c ∨ s.Clear c
  isolating : ∀ o, c.driver = .isolating false o → o.result = .accepted → s.Failing c ∨ s.Clear c
  repeating : c.driver = .repeating none → s.Clear c
  accepted : ∀ o, c.result = some o → o.result = .accepted → s.Clear c
  settling : ∀ o, c.driver ≠ .finishing o

/-- The records fit together, and every moment written down is before `n`. -/
structure Base (s : Lane) (n : Nat) : Prop where
  calls : s.CallsOk
  tasks : s.TasksOk
  slots : s.SlotsOk
  claims : s.ClaimsOk
  timed : s.TimedBy n

/-- Every call of an ON is guarded. -/
def AllGuarded (s : Lane) : Prop :=
  ∀ (call : CallId) (p : ProviderCall), s.calls[call]? = some p → p.operation.IsOn → s.Guarded p

structure Held (s : Lane) (n : Nat) : Prop where
  base : s.Base n
  guarded : s.AllGuarded

def ReleasesOk (s : Lane) : Prop :=
  ∀ (id : ClaimId) (c : Claim), s.made[id]? = some c → c.operation = .forceReceive →
    s.ReleaseOk c

/-- The invariant. -/
structure Ok (s : Lane) (n : Nat) : Prop where
  held : s.Held n
  releases : s.ReleasesOk

/-- No isolation task that failed is the predecessor of another. -/
def NoneSwallowed (s : Lane) : Prop :=
  ∀ (task : TaskId) (t : Isolation), s.tasks[task]? = some t → ∀ previous ∈ t.previous, ∀ t' :
    Isolation,
    s.tasks[previous]? = some t' → t'.error = none

theorem noneSwallowed_iff : s.NoneSwallowed ↔ ∀ t ∈ s.tasks, ∀ previous ∈ t.previous,
    ∀ t' ∈ s.tasks[previous]?, t'.error = none := by
  constructor
  · intro h t ht previous hp t' ht'
    obtain ⟨task, htask⟩ := List.mem_iff_getElem?.mp ht
    exact h task t htask previous hp t' ht'
  · intro h task t ht previous hp t' ht'
    exact h t (List.mem_of_getElem? ht) previous hp t' ht'

instance : Decidable s.NoneSwallowed := decidable_of_iff _ noneSwallowed_iff.symm

/-- An isolation task that is done, with no failure swallowed, has seen what it covers. -/
theorem Covers.over (hc : s.CallsOk) (ht : s.TasksOk) (hlost : s.NoneSwallowed)
    {call : CallId} {p : ProviderCall} (hp : s.calls[call]? = some p) (hon : p.operation.IsOn)
    {task : TaskId} (h : s.Covers p task) {t : Isolation} (htask : s.tasks[task]? = some t)
    (hdone : t.state = .done) : s.Over p := by
  induction h generalizing t with
  | own h claim =>
      cases htask.symm.trans h
      obtain ⟨⟨c, hc', call', hcall, q, hq, hfinished⟩, -⟩ := (ht _ _ h).done hdone
      obtain ⟨c', hc'', -, -, -, hprovider⟩ := hc.claim call p hp
      rw [claim] at hc'
      cases (Option.mem_def.mp hc').symm.trans hc''
      cases (Option.mem_def.mp hcall).symm.trans (hprovider hon)
      cases (Option.mem_def.mp hq).symm.trans hp
      exact .inl hfinished
  | poison h poison poisons generation =>
      cases htask.symm.trans h
      exact .inr (generation ▸ (ht _ _ h).poisoned poison poisons (.inr hdone))
  | previous h hprevious covers ih =>
      cases htask.symm.trans h
      obtain ⟨t', ht', hstate⟩ := ((ht _ _ h).done hdone).2 _ hprevious
      refine ih ht' ?_
      have herror := hlost _ _ h _ hprevious t' ht'
      cases hs : t'.state with
      | poisoning => exact absurd hs hstate.1
      | waiting => exact absurd hs hstate.2
      | done => rfl
      | failed error =>
          rw [Isolation.error, hs] at herror
          cases herror

/-! ## What the sections under the lock keep -/

/-- A claim after a section: the same, or displaced. -/
structure Kept (c c' : Claim) : Prop where
  token : c'.token = c.token
  operation : c'.operation = c.operation
  madeAt : c'.madeAt = c.madeAt
  isolation : c'.isolation = c.isolation
  provider : c'.provider = c.provider
  started : c'.started = c.started
  driver : c'.driver = c.driver ∧ c'.result = c.result ∨
    c'.driver = .cancelled ∧ ∃ o, c'.result = some o ∧ o.result ≠ .accepted

theorem Kept.refl (c : Claim) : Kept c c := ⟨rfl, rfl, rfl, rfl, rfl, rfl, .inl ⟨rfl, rfl⟩⟩

theorem Kept.trans {c₁ c₂ c₃ : Claim} (h : Kept c₁ c₂) (h' : Kept c₂ c₃) : Kept c₁ c₃ where
  token := h'.token.trans h.token
  operation := h'.operation.trans h.operation
  madeAt := h'.madeAt.trans h.madeAt
  isolation := h'.isolation.trans h.isolation
  provider := h'.provider.trans h.provider
  started := h'.started.trans h.started
  driver := by
    rcases h'.driver with ⟨hd, hr⟩ | hcancelled
    · rw [hd, hr]
      exact h.driver
    · exact .inr hcancelled

theorem Kept.key {c c' : Claim} (h : Kept c c') : c'.key = c.key := by
  rw [Claim.key, h.token, h.operation]
  rfl

/-- A driver that is not cancelled was where it is. -/
theorem Kept.driver_eq {c c' : Claim} (h : Kept c c') (hd : c'.driver ≠ .cancelled) :
    c'.driver = c.driver ∧ c'.result = c.result :=
  h.driver.resolve_right fun hcancelled => hd hcancelled.1

/-- Claims are kept, isolation tasks are only added, and nothing else changes that a
provider call or a release has seen. -/
structure Follows (s s' : Lane) : Prop where
  poisons : s'.poisons = s.poisons
  calls : s'.calls = s.calls
  poisoned : s'.poisoned = s.poisoned
  moment : s'.moment = s.moment
  length : s'.made.length = s.made.length
  made : ∀ (id : ClaimId) (c : Claim), s.made[id]? = some c →
    ∃ c', s'.made[id]? = some c' ∧ Kept c c'
  tasks : ∀ (task : TaskId) (t : Isolation), s.tasks[task]? = some t → s'.tasks[task]? = some t

theorem Follows.refl (s : Lane) : Follows s s :=
  ⟨rfl, rfl, rfl, rfl, rfl, fun _ c h => ⟨c, h, .refl c⟩, fun _ _ h => h⟩

theorem Follows.trans (h : Follows s m) (h' : Follows m s') : Follows s s' where
  poisons := h'.poisons.trans h.poisons
  calls := h'.calls.trans h.calls
  poisoned := h'.poisoned.trans h.poisoned
  moment := h'.moment.trans h.moment
  length := h'.length.trans h.length
  made id c hc := by
    obtain ⟨c', hc', hk⟩ := h.made id c hc
    obtain ⟨c'', hc'', hk'⟩ := h'.made id c' hc'
    exact ⟨c'', hc'', hk.trans hk'⟩
  tasks task t ht := h'.tasks task t (h.tasks task t ht)

/-- Every claim was there before. -/
theorem Follows.made_back (h : Follows s s') {id : ClaimId} {c' : Claim}
    (hc' : s'.made[id]? = some c') : ∃ c, s.made[id]? = some c ∧ Kept c c' := by
  obtain ⟨hlt, -⟩ := List.getElem?_eq_some_iff.mp hc'
  rw [h.length] at hlt
  obtain ⟨c'', hc'', hk⟩ := h.made id _ (List.getElem?_eq_getElem hlt)
  cases hc'.symm.trans hc''
  exact ⟨_, List.getElem?_eq_getElem hlt, hk⟩

theorem Follows.over (h : Follows s s') (p : ProviderCall) : s'.Over p ↔ s.Over p := by
  rw [Over, Over, h.poisoned]

theorem Follows.covers (h : Follows s s') {p : ProviderCall} {task : TaskId}
    (hc : s.Covers p task) : s'.Covers p task := by
  induction hc with
  | own ht claim => exact .own (h.tasks _ _ ht) claim
  | poison ht poison poisons generation =>
      exact .poison (h.tasks _ _ ht) poison (h.poisons.trans poisons) generation
  | previous ht hprevious _ ih => exact .previous (h.tasks _ _ ht) hprevious ih

theorem Follows.callDone (h : Follows s s') {call : CallId} (hd : s.CallDone call) :
    s'.CallDone call := by
  rw [CallDone, h.calls]
  exact hd

theorem Follows.gathered (h : Follows s s') {t : Isolation} (hg : s.Gathered t) :
    s'.Gathered t := by
  obtain ⟨⟨c, hc, call, hcall, hd⟩, hprevious⟩ := hg
  obtain ⟨c', hc', hk⟩ := h.made _ c hc
  refine ⟨⟨c', hc', call, hk.provider.trans hcall, h.callDone hd⟩, fun previous hp => ?_⟩
  obtain ⟨t', ht', hdone⟩ := hprevious previous hp
  exact ⟨t', h.tasks _ _ ht', hdone⟩

theorem Follows.taskOk (h : Follows s s') {t : Isolation} (ht : s.TaskOk t) : s'.TaskOk t where
  claim := by
    obtain ⟨c, call, hc, hon, hcall, hg⟩ := ht.claim
    obtain ⟨c', hc', hk⟩ := h.made _ c hc
    exact ⟨c', call, hc', hk.operation ▸ hon, hk.provider.trans hcall, by rw [hk.token, hg]⟩
  done hd := h.gathered (ht.done hd)
  poisoned := by
    rw [h.poisons, h.poisoned]
    exact ht.poisoned
  failed := ht.failed
  poisoning := by
    rw [h.poisons]
    exact ht.poisoning

theorem Follows.callsOk (h : Follows s s') (hs : s.CallsOk) : s'.CallsOk where
  claim call p hp := by
    rw [h.calls] at hp
    obtain ⟨c, hc, hop, hg, hstarted, hprovider⟩ := hs.claim call p hp
    obtain ⟨c', hc', hk⟩ := h.made _ c hc
    exact ⟨c', hc', hk.operation.trans hop, by rw [hk.token, hg], hk.started.trans hstarted,
      fun hon => hk.provider.trans (hprovider hon)⟩
  provider id c' call hc' hcall := by
    obtain ⟨c, hc, hk⟩ := h.made_back hc'
    rw [h.calls]
    exact hs.provider id c call hc (hk.provider.symm.trans hcall)
  started id c' hc' hstarted := by
    obtain ⟨c, hc, hk⟩ := h.made_back hc'
    rw [hk.provider]
    exact hs.started id c hc (hk.started.symm.trans hstarted)
  calling id c' again hc' hd := by
    obtain ⟨c, hc, hk⟩ := h.made_back hc'
    have hkept := (hk.driver_eq (by rw [hd]; simp)).1
    rw [hk.started]
    exact hs.calling id c again hc (hkept.symm.trans hd)
  fresh id c' hc' hd := by
    obtain ⟨c, hc, hk⟩ := h.made_back hc'
    have hkept := (hk.driver_eq (by rcases hd with hd | hd <;> rw [hd] <;> simp)).1
    rw [hk.provider]
    exact hs.fresh id c hc (by rwa [hkept] at hd)
  isolation id c' hc' hne := by
    obtain ⟨c, hc, hk⟩ := h.made_back hc'
    rw [hk.operation]
    exact hs.isolation id c hc (by rwa [hk.isolation] at hne)
  waits id c' hc' hd := by
    obtain ⟨c, hc, hk⟩ := h.made_back hc'
    have hkept := (hk.driver_eq fun hcancelled => by rw [hcancelled] at hd; exact hd).1
    rw [hk.isolation]
    exact hs.waits id c hc (by rwa [hkept] at hd)
  running id c' hc' hd hd' := by
    obtain ⟨c, hc, hk⟩ := h.made_back hc'
    obtain ⟨hdriver, hresult⟩ := hk.driver_eq hd
    rw [hresult]
    exact hs.running id c hc (hdriver ▸ hd) (hdriver ▸ hd')

theorem Follows.timedBy (h : Follows s s') (hs : s.TimedBy n) : s'.TimedBy n where
  made id c' hc' := by
    obtain ⟨c, hc, hk⟩ := h.made_back hc'
    rw [hk.madeAt]
    exact hs.made id c hc
  started := by
    rw [h.calls]
    exact hs.started
  finished := by
    rw [h.calls]
    exact hs.finished

theorem Follows.clear (h : Follows s s') {c c' : Claim} (hk : Kept c c') (hc : s.Clear c) :
    s'.Clear c' := by
  intro call p hp hon hlt
  rw [h.calls] at hp
  rw [hk.madeAt] at hlt
  rw [h.poisoned, h.calls, hk.provider]
  exact hc call p hp hon hlt

theorem Follows.failing (h : Follows s s') {c c' : Claim} (hk : Kept c c') (hc : s.Failing c) :
    s'.Failing c' := by
  obtain ⟨task, hmem, t, ht, herror⟩ := hc
  exact ⟨task, hk.isolation.symm ▸ hmem, t, h.tasks task t ht, herror⟩

theorem Follows.releaseOk (h : Follows s s') {c c' : Claim} (hk : Kept c c')
    (hc : s.ReleaseOk c) : s'.ReleaseOk c' where
  barred call p hp hon hlt := by
    rw [h.calls] at hp
    rw [hk.madeAt] at hlt
    rw [h.over, hk.isolation]
    exact (hc.barred call p hp hon hlt).imp_right fun ⟨task, hmem, hcovers⟩ =>
      ⟨task, hmem, h.covers hcovers⟩
  calling hd := by
    have hkept := (hk.driver_eq (by rw [hd]; simp)).1
    exact (hc.calling (hkept.symm.trans hd)).imp (h.failing hk) (h.clear hk)
  isolating o hd ho := by
    have hkept := (hk.driver_eq (by rw [hd]; simp)).1
    exact (hc.isolating o (hkept.symm.trans hd) ho).imp (h.failing hk) (h.clear hk)
  repeating hd := by
    have hkept := (hk.driver_eq (by rw [hd]; simp)).1
    exact h.clear hk (hc.repeating (hkept.symm.trans hd))
  accepted o ho haccepted := by
    rcases hk.driver with ⟨-, hresult⟩ | ⟨-, o', ho', hne⟩
    · exact h.clear hk (hc.accepted o (hresult.symm.trans ho) haccepted)
    · cases ho.symm.trans ho'
      exact absurd haccepted hne
  settling o hd := by
    have hkept := (hk.driver_eq (by rw [hd]; simp)).1
    exact hc.settling o (hkept.symm.trans hd)

/-! ## Isolation -/

/-- The elements of a list with one more at its end. -/
theorem getElem?_concat_eq_some {α : Type} {xs : List α} {x y : α} {i : Nat} :
    (xs ++ [x])[i]? = some y ↔ xs[i]? = some y ∨ i = xs.length ∧ y = x := by
  rw [List.getElem?_append]
  by_cases h : i < xs.length
  · have hne : i ≠ xs.length := by omega
    simp [h, hne]
  · have hnone : xs[i]? = none := List.getElem?_eq_none (by omega)
    rw [if_neg h, hnone]
    by_cases hi : i = xs.length
    · simp [hi, eq_comm]
    · have hne : i - xs.length ≠ 0 := by omega
      simp [hi, hne]

theorem getElem?_modifyClaim (s : Lane) (id i : ClaimId) (f : Claim → Claim) :
    (s.modifyClaim id f).made[i]? = (s.made[i]?).map fun c => if id = i then f c else c :=
  List.getElem?_modify f id s.made i

/-- A claim that is modified within what sections keep. -/
theorem Follows.modifyClaim {id : ClaimId} {f : Claim → Claim}
    (h : ∀ c, s.made[id]? = some c → Kept c (f c)) : Follows s (s.modifyClaim id f) := by
  refine { Follows.refl s with length := List.length_modify _ _ _, made := fun i c hc => ?_ }
  rw [getElem?_modifyClaim, hc]
  by_cases hi : id = i
  · subst hi
    exact ⟨f c, congrArg some (if_pos rfl), h c hc⟩
  · exact ⟨c, congrArg some (if_neg hi), .refl c⟩

/-- The same drivers are where they were, and nothing has settled. -/
def Unmoved (s s' : Lane) : Prop :=
  ∀ (id : ClaimId) (c' : Claim), s'.made[id]? = some c' →
    ∃ c, s.made[id]? = some c ∧ Kept c c' ∧ c'.driver = c.driver ∧ c'.result = c.result

theorem Unmoved.refl (s : Lane) : Unmoved s s := fun _ c hc => ⟨c, hc, .refl c, rfl, rfl⟩

theorem Unmoved.trans (h : Unmoved s m) (h' : Unmoved m s') : Unmoved s s' := by
  intro id c'' hc''
  obtain ⟨c', hc', hk', hd', hr'⟩ := h' id c'' hc''
  obtain ⟨c, hc, hk, hd, hr⟩ := h id c' hc'
  exact ⟨c, hc, hk.trans hk', hd'.trans hd, hr'.trans hr⟩

theorem markPoisoned_made (s : Lane) (id : ClaimId) (generation : Int) (i : ClaimId) :
    ∃ mark : Claim → Bool, (s.markPoisoned id generation).made[i]? =
      (s.made[i]?).map fun c => { c with poisoned := mark c } := by
  refine ⟨fun c => if i = id ∨ (i ∈ s.displaced.values ∧ c.token.providerGeneration = generation)
    then true else c.poisoned, ?_⟩
  rw [markPoisoned, List.getElem?_mapIdx]
  refine congrArg (Option.map · _) (funext fun c => ?_)
  by_cases h : i = id ∨ (i ∈ s.displaced.values ∧ c.token.providerGeneration = generation)
  · simp only [if_pos h]
  · simp only [if_neg h]

theorem Kept.marked (c : Claim) (b : Bool) : Kept c { c with poisoned := b } :=
  ⟨rfl, rfl, rfl, rfl, rfl, rfl, .inl ⟨rfl, rfl⟩⟩

theorem markPoisoned_follows (s : Lane) (id : ClaimId) (generation : Int) :
    Follows s (s.markPoisoned id generation) := by
  refine { Follows.refl s with length := List.length_mapIdx, made := fun i c hc => ?_ }
  obtain ⟨mark, h⟩ := s.markPoisoned_made id generation i
  rw [h, hc]
  exact ⟨_, rfl, .marked c _⟩

theorem markPoisoned_unmoved (s : Lane) (id : ClaimId) (generation : Int) :
    Unmoved s (s.markPoisoned id generation) := by
  intro i c' hc'
  obtain ⟨mark, h⟩ := s.markPoisoned_made id generation i
  rw [h] at hc'
  obtain ⟨c, hc, rfl⟩ := Option.map_eq_some_iff.mp hc'
  exact ⟨c, hc, .marked c _, rfl, rfl⟩

/-- What isolating a claim does: `task` is the newest isolation task, it covers the claim's
call, and whatever the newest one covered before. -/
structure Isolates (s : Lane) (id : ClaimId) (generation : Int) (poison : Bool) (task : TaskId)
    (s' : Lane) : Prop where
  follows : Follows s s'
  unmoved : Unmoved s s'
  claims : s'.claims = s.claims
  slots : s'.slots = s.slots
  scope : s'.scope = s.scope
  tasksOk : s'.TasksOk
  slotsOk : s'.SlotsOk
  newest : ∃ newest, s'.isolation = some newest ∧ newest.task = task
  covers : ∀ p : ProviderCall, p.claim = id → p.generation = generation → s'.Covers p task
  covered : ∀ (p : ProviderCall) (old : IsolationSlot), s.isolation = some old →
    s.Covers p old.task → s'.Covers p task
  displaced : s'.displaced = if poison then s.displaced else s.displaced.set task id

/-- The claim that is isolated is an ON with a provider call. -/
def Isolable (s : Lane) (id : ClaimId) (generation : Int) : Prop :=
  ∃ (c : Claim) (call : CallId), s.made[id]? = some c ∧ c.operation.IsOn ∧
    c.provider = some call ∧ generation = c.token.providerGeneration

theorem startIsolation_isolates (ht : s.TasksOk) (hs : s.SlotsOk) {id : ClaimId}
    {generation : Int} (hid : s.Isolable id generation) (poison : Bool) :
    Isolates s id generation poison (s.startIsolation id generation poison).1
      (s.startIsolation id generation poison).2 := by
  have hold : ∀ (task : TaskId) (t : Isolation), s.tasks[task]? = some t →
      (s.startIsolation id generation poison).2.tasks[task]? = some t := by
    intro task t h
    obtain ⟨hlt, -⟩ := List.getElem?_eq_some_iff.mp h
    exact (List.getElem?_append_left hlt).trans h
  have hnew : (s.startIsolation id generation poison).2.tasks[s.tasks.length]? = some
      ⟨id, generation, s.isolation.map IsolationSlot.task, poison,
        if poison && s.poisons then .poisoning else .waiting⟩ := List.getElem?_concat_length
  have hfollows : Follows s (s.startIsolation id generation poison).2 :=
    { Follows.refl s with tasks := hold }
  exact {
    follows := hfollows
    unmoved := .refl s
    claims := rfl
    slots := rfl
    scope := rfl
    tasksOk := fun task t h => by
      rcases getElem?_concat_eq_some.mp h with h | ⟨-, rfl⟩
      · exact hfollows.taskOk (ht task t h)
      · obtain ⟨c, call, hc, hon, hcall, hg⟩ := hid
        have hstate : (if poison && s.poisons then IsolationState.poisoning else .waiting) =
            if poison = true ∧ s.poisons = true then .poisoning else .waiting := by
          simp only [Bool.and_eq_true]
        refine ⟨⟨c, call, hc, hon, hcall, hg⟩, fun hdone => ?_, fun hp hps hw => ?_,
          fun error hfailed => ?_, fun hpoisoning => ?_⟩
        · rw [hstate] at hdone
          split at hdone <;> cases hdone
        · rw [hstate, if_pos ⟨hp, hps⟩] at hw
          rcases hw with hw | hw <;> cases hw
        · rw [hstate] at hfailed
          split at hfailed <;> cases hfailed
        · rw [hstate] at hpoisoning
          split at hpoisoning
          · assumption
          · cases hpoisoning
    slotsOk := {
      isolation := fun newest h => by
        cases h
        exact ⟨_, hnew, rfl, rfl⟩
      displaced := fun task i h => by
        have hkept : ∀ h : s.displaced.get? task = some i, ∃ t : Isolation,
            (s.startIsolation id generation poison).2.tasks[task]? = some t ∧ t.claim = i ∧
              t.poison = false := fun h => by
          obtain ⟨t, ht, hclaim, hpoison⟩ := hs.displaced task i h
          exact ⟨t, hold task t ht, hclaim, hpoison⟩
        cases poison with
        | true => exact hkept h
        | false =>
            change (s.displaced.set s.tasks.length id).get? task = some i at h
            rw [Dict.get?_set] at h
            by_cases htask : task = s.tasks.length
            · rw [if_pos htask] at h
              cases h
              rw [htask]
              exact ⟨_, hnew, rfl, rfl⟩
            · rw [if_neg htask] at h
              exact hkept h }
    newest := ⟨_, rfl, rfl⟩
    covers := fun p hp _ => .own hnew hp.symm
    covered := fun p old h hc => .previous hnew (by rw [h]; rfl) (hfollows.covers hc)
    displaced := rfl }

/-- An isolation task that poisons the generation already is taken as it is. -/
theorem reuse_isolates (ht : s.TasksOk) (hs : s.SlotsOk) {id : ClaimId} {newest : IsolationSlot}
    (hnewest : s.isolation = some newest) (hpoisons : s.poisons = true)
    (hpoison : newest.poison = true) :
    Isolates s id newest.generation true newest.task s := by
  obtain ⟨t, htask, hg, hp⟩ := hs.isolation newest hnewest
  exact {
    follows := .refl s
    unmoved := .refl s
    claims := rfl
    slots := rfl
    scope := rfl
    tasksOk := ht
    slotsOk := hs
    newest := ⟨newest, hnewest, rfl⟩
    covers := fun p _ hgen => .poison htask (hp.trans hpoison) hpoisons (hg.trans hgen.symm)
    covered := fun p old hold hc => by
      cases hnewest.symm.trans hold
      exact hc
    displaced := rfl }

/-- What `_isolate_locked` does once the claims are marked. -/
theorem isolateMarked_isolates (ht : s.TasksOk) (hs : s.SlotsOk) {id : ClaimId} {generation : Int}
    (hid : s.Isolable id generation) (poison : Bool) :
    Isolates s id generation poison
      (match s.isolation with
        | some newest =>
            if poison ∧ s.poisons ∧ newest.poison ∧ newest.generation = generation then
              (newest.task, s)
            else s.startIsolation id generation poison
        | none => s.startIsolation id generation poison).1
      (match s.isolation with
        | some newest =>
            if poison ∧ s.poisons ∧ newest.poison ∧ newest.generation = generation then
              (newest.task, s)
            else s.startIsolation id generation poison
        | none => s.startIsolation id generation poison).2 := by
  cases h : s.isolation with
  | none => exact startIsolation_isolates ht hs hid poison
  | some newest =>
      dsimp only
      by_cases hreuse : poison ∧ s.poisons ∧ newest.poison ∧ newest.generation = generation
      · obtain ⟨hp, hps, hnp, hg⟩ := hreuse
        rw [if_pos ⟨hp, hps, hnp, hg⟩, hp, ← hg]
        exact reuse_isolates ht hs h hps hnp
      · rw [if_neg hreuse]
        exact startIsolation_isolates ht hs hid poison

theorem isolateLocked_isolates (ht : s.TasksOk) (hs : s.SlotsOk) {id : ClaimId} {generation : Int}
    (hid : s.Isolable id generation) (poison : Bool) :
    Isolates s id generation poison (s.isolateLocked id generation poison).1
      (s.isolateLocked id generation poison).2 := by
  cases poison with
  | false => exact isolateMarked_isolates ht hs hid false
  | true =>
      have hmark := s.markPoisoned_follows id generation
      have htm : (s.markPoisoned id generation).TasksOk := fun task t h => hmark.taskOk
        (ht task t h)
      have hsm : (s.markPoisoned id generation).SlotsOk := ⟨hs.isolation, hs.displaced⟩
      have hidm : (s.markPoisoned id generation).Isolable id generation := by
        obtain ⟨c, call, hc, hon, hcall, hg⟩ := hid
        obtain ⟨c', hc', hk⟩ := hmark.made id c hc
        exact ⟨c', call, hc', hk.operation ▸ hon, hk.provider.trans hcall, by rw [hk.token, hg]⟩
      have h := isolateMarked_isolates htm hsm hidm true
      exact {
        follows := hmark.trans h.follows
        unmoved := (s.markPoisoned_unmoved id generation).trans h.unmoved
        claims := h.claims
        slots := h.slots
        scope := h.scope
        tasksOk := h.tasksOk
        slotsOk := h.slotsOk
        newest := h.newest
        covers := h.covers
        covered := fun p old hold hc => h.covered p old hold (hmark.covers hc)
        displaced := h.displaced }

theorem Follows.releases (h : Follows s s') (hs : s.ReleasesOk) : s'.ReleasesOk := by
  intro id c' hc' hop
  obtain ⟨c, hc, hk⟩ := h.made_back hc'
  exact h.releaseOk hk (hs id c hc (hk.operation.symm.trans hop))

/-- The scopes of the ON claims are those they were. -/
theorem ClaimsOk.follows (hs : s.ClaimsOk) (h : Follows s s') (hslots : s'.slots = s.slots)
    (hscope : s'.scope = s.scope)
    (hclaims : ∀ key id, s'.claims.get? key = some id → s.claims.get? key = some id ∧
      ∀ c', s'.made[id]? = some c' → c'.Open) : s'.ClaimsOk where
  claims key id hkey := by
    obtain ⟨hold, hresult⟩ := hclaims key id hkey
    obtain ⟨c, hc, hck, -⟩ := hs.claims key id hold
    obtain ⟨c', hc', hk⟩ := h.made id c hc
    exact ⟨c', hc', hk.key.trans hck, hresult c' hc'⟩
  scope id c' hc' hon := by
    obtain ⟨c, hc, hk⟩ := h.made_back hc'
    rw [hk.token, hscope, hslots]
    exact hs.scope id c hc (hk.operation ▸ hon)
  unique id id' c c' hc hc' hon hon' hsame := by
    obtain ⟨c₀, hc₀, hk⟩ := h.made_back hc
    obtain ⟨c₀', hc₀', hk'⟩ := h.made_back hc'
    rw [hk.token, hk'.token] at hsame
    exact hs.unique id id' c₀ c₀' hc₀ hc₀' (hk.operation ▸ hon) (hk'.operation ▸ hon') hsame

theorem Isolates.base {id : ClaimId} {generation : Int} {poison : Bool} {task : TaskId}
    (h : Isolates s id generation poison task s') (hs : s.Base n) : s'.Base n where
  calls := h.follows.callsOk hs.calls
  tasks := h.tasksOk
  slots := h.slotsOk
  claims := hs.claims.follows h.follows h.slots h.scope fun key i hkey => by
    rw [h.claims] at hkey
    refine ⟨hkey, fun c' hc' => ?_⟩
    obtain ⟨c, hc, -, hdriver, hresult⟩ := h.unmoved i c' hc'
    obtain ⟨c₀, hc₀, -, hopen⟩ := hs.claims.claims key i hkey
    cases hc.symm.trans hc₀
    exact hopen.congr hdriver hresult
  timed := h.follows.timedBy hs.timed

/-- Isolating a claim keeps what guards a call. -/
theorem Isolates.guarded {id : ClaimId} {generation : Int} {poison : Bool} {task : TaskId}
    (h : Isolates s id generation poison task s') (hs : s.SlotsOk) {p : ProviderCall}
    (hp : s.Guarded p) : s'.Guarded p := by
  obtain ⟨newest, hnewest, rfl⟩ := h.newest
  rcases hp with hover | ⟨c, hc, hkey⟩ | ⟨old, hold⟩ | ⟨old, hold, hcovers⟩
  · exact .inl ((h.follows.over p).mpr hover)
  · obtain ⟨c', hc', hk⟩ := h.follows.made _ c hc
    exact .inr (.inl ⟨c', hc', by rw [hk.key, h.claims]; exact hkey⟩)
  · -- Where the new task takes the place of the old, it covers the call itself.
    by_cases htask : old = newest.task
    · obtain ⟨t, ht, hclaim, -⟩ := hs.displaced old _ hold
      subst htask
      exact .inr (.inr (.inr ⟨newest, hnewest, .own (h.follows.tasks _ _ ht) hclaim⟩))
    · refine .inr (.inr (.inl ⟨old, ?_⟩))
      rw [h.displaced]
      split
      · exact hold
      · rw [Dict.get?_set_ne _ _ htask]
        exact hold
  · exact .inr (.inr (.inr ⟨newest, hnewest, h.covered p old hold hcovers⟩))

theorem Isolates.guards {id : ClaimId} {generation : Int} {poison : Bool} {task : TaskId}
    (h : Isolates s id generation poison task s') {p : ProviderCall} (hp : p.claim = id)
    (hg : p.generation = generation) : s'.Guarded p := by
  obtain ⟨newest, hnewest, rfl⟩ := h.newest
  exact .inr (.inr (.inr ⟨newest, hnewest, h.covers p hp hg⟩))

/-! ## Displacement -/

/-- What displacing some claims does, with the barriers it hands out. -/
structure Displaces (s : Lane) (ids : List ClaimId) (barriers : List TaskId) (s' : Lane)
    (n : Nat) : Prop where
  held : s'.Held n
  follows : Follows s s'
  slots : s'.slots = s.slots
  scope : s'.scope = s.scope
  claims : ∀ key id, s'.claims.get? key = some id → s.claims.get? key = some id ∧ id ∉ ids
  displaced : ∀ task id, s'.displaced.get? task = some id →
    s.displaced.get? task = some id ∨ task ∈ barriers

theorem Displaces.nothing (hs : s.Held n) {ids : List ClaimId}
    (h : ∀ key, ∀ id ∈ ids, s.claims.get? key ≠ some id) : Displaces s ids [] s n where
  held := hs
  follows := .refl s
  slots := rfl
  scope := rfl
  claims key id hkey := ⟨hkey, fun hmem => h key id hmem hkey⟩
  displaced _ _ htask := .inl htask

/-- A claim that is in `_claims` under the key of a claim of an ON is that claim. -/
theorem ClaimsOk.eq_of_key (hs : s.ClaimsOk) {id id' : ClaimId} {c c' : Claim}
    (hc : s.made[id]? = some c) (hc' : s.made[id']? = some c') (hon : c'.operation.IsOn)
    (hkey : c'.key = c.key) : id' = id := by
  obtain ⟨htoken, hop⟩ := Prod.mk.inj hkey
  exact hs.unique id' id c' c hc' hc hon (hop ▸ hon) (by rw [htoken])

/-- Taking a claim out of `_claims` leaves the other claims of ONs there. -/
theorem Guarded.erase (hs : s.ClaimsOk) {id : ClaimId} {c : Claim} (hc : s.made[id]? = some c)
    {p : ProviderCall} (hclaim : ∃ c', s.made[p.claim]? = some c' ∧ c'.operation.IsOn)
    (hp : s.Guarded p) :
    Guarded { s with claims := s.claims.erase c.key } p ∨ p.claim = id := by
  rcases hp with hover | ⟨c', hc', hkey⟩ | hdisplaced | ⟨newest, hnewest, hcovers⟩
  · exact .inl (.inl hover)
  · obtain ⟨c₀, hc₀, hon⟩ := hclaim
    cases hc'.symm.trans hc₀
    by_cases h : c'.key = c.key
    · exact .inr (hs.eq_of_key hc hc' hon h)
    · refine .inl (.inr (.inl ⟨c', hc', ?_⟩))
      rw [Dict.get?_erase, if_neg h]
      exact hkey
  · exact .inl (.inr (.inr (.inl hdisplaced)))
  · have hfollows : Follows s { s with claims := s.claims.erase c.key } := { Follows.refl s with }
    exact .inl (.inr (.inr (.inr ⟨newest, hnewest, hfollows.covers hcovers⟩)))

/-- What follows a lane with the same `_claims`, displaced tasks and newest task keeps its
guards. -/
theorem Follows.guarded (h : Follows s s') (hclaims : s'.claims = s.claims)
    (hdisplaced : s'.displaced = s.displaced) (hisolation : s'.isolation = s.isolation)
    {p : ProviderCall} (hp : s.Guarded p) : s'.Guarded p := by
  rcases hp with hover | ⟨c, hc, hkey⟩ | ⟨task, htask⟩ | ⟨newest, hnewest, hcovers⟩
  · exact .inl ((h.over p).mpr hover)
  · obtain ⟨c', hc', hk⟩ := h.made _ c hc
    exact .inr (.inl ⟨c', hc', by rw [hk.key, hclaims]; exact hkey⟩)
  · exact .inr (.inr (.inl ⟨task, hdisplaced ▸ htask⟩))
  · exact .inr (.inr (.inr ⟨newest, hisolation.trans hnewest, h.covers hcovers⟩))

theorem Base.claim_isOn (hs : s.Base n) {call : CallId} {p : ProviderCall}
    (hp : s.calls[call]? = some p) (hon : p.operation.IsOn) :
    ∃ c, s.made[p.claim]? = some c ∧ c.operation.IsOn := by
  obtain ⟨c, hc, hop, -⟩ := hs.calls.claim call p hp
  exact ⟨c, hc, hop.symm ▸ hon⟩

theorem takeOut_follows (s : Lane) (id : ClaimId) (c : Claim) {o : Outcome}
    (ho : o.result ≠ .accepted) : Follows s (s.takeOut id c o) := by
  have herased : Follows s { s with claims := s.claims.erase c.key } := { Follows.refl s with }
  exact herased.trans (.modifyClaim fun c' _ => ⟨rfl, rfl, rfl, rfl, rfl, rfl, .inr
    ⟨rfl, o, rfl, ho⟩⟩)

theorem Base.takeOut (hs : s.Base n) {id : ClaimId} {c : Claim}
    (hc : s.made[id]? = some c) {o : Outcome} (ho : o.result ≠ .accepted) :
    (s.takeOut id c o).Base n := by
  have h := s.takeOut_follows id c ho
  exact {
    calls := h.callsOk hs.calls
    tasks := fun task t ht => h.taskOk (hs.tasks task t ht)
    slots := ⟨hs.slots.isolation, hs.slots.displaced⟩
    claims := hs.claims.follows h rfl rfl fun key i hkey => by
      change (s.claims.erase c.key).get? key = some i at hkey
      rw [Dict.get?_erase] at hkey
      by_cases hk : key = c.key
      · rw [if_pos hk] at hkey
        cases hkey
      · rw [if_neg hk] at hkey
        refine ⟨hkey, fun c' hc' => ?_⟩
        obtain ⟨c₀, hc₀, hkey₀, hopen⟩ := hs.claims.claims key i hkey
        have hne : id ≠ i := by
          rintro rfl
          cases hc.symm.trans hc₀
          exact hk hkey₀.symm
        rw [Lane.takeOut, getElem?_modifyClaim, hc₀, Option.map_some, if_neg hne] at hc'
        cases hc'
        exact hopen
    timed := h.timedBy hs.timed }

/-- A claim that is taken out leaves only its own call unguarded. -/
theorem Guarded.takeOut (hs : s.Base n) {id : ClaimId} {c : Claim} (hc : s.made[id]? = some c)
    {o : Outcome} (ho : o.result ≠ .accepted) {call : CallId} {p : ProviderCall}
    (hp : s.calls[call]? = some p) (hon : p.operation.IsOn) (hguarded : s.Guarded p) :
    (s.takeOut id c o).Guarded p ∨ p.claim = id := by
  refine (hguarded.erase hs.claims hc (hs.claim_isOn hp hon)).imp_left fun h => ?_
  have hfollows : Follows { s with claims := s.claims.erase c.key } (s.takeOut id c o) :=
    .modifyClaim fun c' _ => ⟨rfl, rfl, rfl, rfl, rfl, rfl, .inr ⟨rfl, o, rfl, ho⟩⟩
  exact hfollows.guarded rfl rfl rfl h

theorem takeOut_claims (hs : s.ClaimsOk) {id : ClaimId} {c : Claim} (hc : s.made[id]? = some c)
    (o : Outcome) {key : ClaimKey} {i : ClaimId}
    (hkey : (s.takeOut id c o).claims.get? key = some i) :
    s.claims.get? key = some i ∧ i ≠ id := by
  change (s.claims.erase c.key).get? key = some i at hkey
  rw [Dict.get?_erase] at hkey
  by_cases h : key = c.key
  · rw [if_pos h] at hkey
    cases hkey
  · rw [if_neg h] at hkey
    refine ⟨hkey, ?_⟩
    rintro rfl
    obtain ⟨c', hc', hk, -⟩ := hs.claims key i hkey
    cases hc.symm.trans hc'
    exact h hk.symm

theorem displaceLocked_displaces (hs : s.Held n) (id : ClaimId) (before after : String) :
    Displaces s [id] (s.displaceLocked id before after).1.toList
      (s.displaceLocked id before after).2 n := by
  rw [displaceLocked]
  cases hc : s.made[id]? with
  | none =>
      refine .nothing hs fun key i hi hkey => ?_
      rw [List.mem_singleton.mp hi] at hkey
      obtain ⟨c, hc', -⟩ := hs.base.claims.claims key id hkey
      cases hc.symm.trans hc'
  | some c =>
      dsimp only
      by_cases hresult : c.result.isSome
      · rw [if_pos hresult]
        refine .nothing hs fun key i hi hkey => ?_
        rw [List.mem_singleton.mp hi] at hkey
        obtain ⟨c', hc', -, hopen⟩ := hs.base.claims.claims key id hkey
        cases hc.symm.trans hc'
        rw [hopen.1] at hresult
        cases hresult
      · rw [if_neg hresult]
        have ho : (displacedOutcome c before after).result ≠ .accepted := by
          rw [displacedOutcome]
          split <;> simp
        have hbase := hs.base.takeOut hc ho
        have hfollows := s.takeOut_follows id c ho
        have hclaims : ∀ key i, (s.takeOut id c (displacedOutcome c before after)).claims.get? key =
            some i → s.claims.get? key = some i ∧ i ∉ [id] := fun key i hkey => by
          rw [List.mem_singleton]
          exact takeOut_claims hs.base.claims hc _ hkey
        have hguarded : ∀ (call : CallId) (p : ProviderCall), s.calls[call]? = some p →
            p.operation.IsOn → (s.takeOut id c (displacedOutcome c before after)).Guarded p ∨
              p.claim = id :=
          fun call p hp hon => (hs.guarded call p hp hon).takeOut hs.base hc ho hp hon
        have hown : ∀ (call : CallId) (p : ProviderCall), s.calls[call]? = some p →
            p.claim = id → c.operation = p.operation ∧ c.token.providerGeneration = p.generation ∧
              c.started = true := fun call p hp hid => by
          obtain ⟨c', hc', hop, hg, hstarted, -⟩ := hs.base.calls.claim call p hp
          rw [hid] at hc'
          cases hc.symm.trans hc'
          exact ⟨hop, hg, hstarted⟩
        by_cases hisolate : c.started = true ∧ c.operation.IsOn
        · rw [if_pos hisolate]
          obtain ⟨call, hcall⟩ := hs.base.calls.started id c hc hisolate.1
          obtain ⟨c', hc', hk⟩ := hfollows.made id c hc
          have hisolable : (s.takeOut id c (displacedOutcome c before after)).Isolable id
              c.token.providerGeneration :=
            ⟨c', call, hc', hk.operation ▸ hisolate.2, hk.provider.trans hcall, by rw [hk.token]⟩
          have h := isolateLocked_isolates hbase.tasks hbase.slots hisolable false
          exact {
            held := ⟨h.base hbase, fun call p hp hon => by
              rw [(hfollows.trans h.follows).calls] at hp
              rcases hguarded call p hp hon with hp' | hid
              · exact h.guarded hbase.slots hp'
              · exact h.guards hid (hown call p hp hid).2.1.symm⟩
            follows := hfollows.trans h.follows
            slots := h.slots
            scope := h.scope
            claims := fun key i hkey => hclaims key i (h.claims ▸ hkey)
            displaced := fun task i htask => by
              rw [h.displaced] at htask
              change (s.displaced.set _ id).get? task = some i at htask
              rw [Dict.get?_set] at htask
              split at htask
              · rename_i heq
                exact .inr (List.mem_singleton.mpr heq)
              · exact .inl htask }
        · rw [if_neg hisolate]
          exact {
            held := ⟨hbase, fun call p hp hon => by
              rcases hguarded call p hp hon with hp' | hid
              · exact hp'
              · obtain ⟨hop, -, hstarted⟩ := hown call p hp hid
                exact absurd ⟨hstarted, hop ▸ hon⟩ hisolate⟩
            follows := hfollows
            slots := rfl
            scope := rfl
            claims := hclaims
            displaced := fun _ _ htask => .inl htask }

theorem Displaces.trans {ids ids' : List ClaimId} {barriers barriers' : List TaskId}
    (h : Displaces s ids barriers m n) (h' : Displaces m ids' barriers' s' n) :
    Displaces s (ids ++ ids') (barriers ++ barriers') s' n where
  held := h'.held
  follows := h.follows.trans h'.follows
  slots := h'.slots.trans h.slots
  scope := h'.scope.trans h.scope
  claims key id hkey := by
    obtain ⟨hmiddle, hnot'⟩ := h'.claims key id hkey
    obtain ⟨hold, hnot⟩ := h.claims key id hmiddle
    exact ⟨hold, fun hmem => (List.mem_append.mp hmem).elim hnot hnot'⟩
  displaced task id htask := by
    rcases h'.displaced task id htask with hmiddle | hmem
    · exact (h.displaced task id hmiddle).imp_right (List.mem_append_left _)
    · exact .inr (List.mem_append_right _ hmem)

theorem displaceEach_displaces (ids : List ClaimId) (hs : s.Held n) :
    Displaces s ids (displaceEach ids s).1 (displaceEach ids s).2 n := by
  induction ids generalizing s with
  | nil => exact .nothing hs fun _ _ h => by cases h
  | cons id rest ih =>
      have h := displaceLocked_displaces hs id "superseded before dispatch"
        "superseded after dispatch"
      exact h.trans (ih h.held)

/-- Poisoning the calls that are left keeps everything. -/
theorem poisonEach_held (tasks : List TaskId) (hs : s.Held n) :
    (poisonEach tasks s).Held n ∧ Follows s (poisonEach tasks s) ∧
    Unmoved s (poisonEach tasks s) := by
  induction tasks generalizing s with
  | nil => exact ⟨hs, .refl s, .refl s⟩
  | cons task rest ih =>
      rw [poisonEach]
      cases hdisplaced : s.displaced.get? task with
      | none => exact ih hs
      | some id =>
          dsimp only
          cases hc : s.made[id]? with
          | none => exact ih hs
          | some c =>
              dsimp only
              split
              case isFalse => exact ih hs
              case isTrue hleft =>
                obtain ⟨t, ht, hclaim, -⟩ := hs.base.slots.displaced task id hdisplaced
                obtain ⟨c', call, hc', hon, hcall, -⟩ := (hs.base.tasks task t ht).claim
                rw [hclaim] at hc'
                cases hc.symm.trans hc'
                have h := isolateLocked_isolates hs.base.tasks hs.base.slots
                  ⟨c, call, hc, hon, hcall, rfl⟩ true
                have hok : (s.isolateLocked id c.token.providerGeneration true).2.Held n :=
                  ⟨h.base hs.base, fun call p hp hon => by
                    rw [h.follows.calls] at hp
                    exact h.guarded hs.base.slots (hs.guarded call p hp hon)⟩
                obtain ⟨hok', hfollows, hunmoved⟩ := ih hok
                exact ⟨hok', h.follows.trans hfollows, h.unmoved.trans hunmoved⟩

end Lane

end Rigplane.ManagedTx
