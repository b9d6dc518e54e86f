import Rigplane.Exchange.PriorityExchange

/-!
# Ownership of the exchange slot

The slot of an active gate is owned by a call in its body, or by a call whose waiter is granted
and that has yet to run.  `Ok` ties the queues and the futures to the calls that wait for them;
with it, the first waiter that `_release` finds pending is the oldest of the most urgent calls.
-/

namespace Rigplane.Exchange

namespace PriorityExchangeGate

variable {g g' : PriorityExchangeGate}

/-- The call waits for a future that is still pending. -/
def Live (g : PriorityExchangeGate) (call : Nat) (tier : ExchangeTier) (waiter : Nat) : Prop :=
  g.calls call = .awaiting tier waiter ∧ g.futures waiter = .pending

/-- The call waits for a future that has its result. -/
def Granted (g : PriorityExchangeGate) (call : Nat) : Prop :=
  ∃ tier waiter, g.calls call = .awaiting tier waiter ∧ g.futures waiter = .result

def Owns (g : PriorityExchangeGate) (call : Nat) : Prop := g.calls call = .inside ∨ g.Granted call

/-- The event runs `_release`. -/
def Releases (g : PriorityExchangeGate) : Event → Prop
  | .leave call => g.calls call = .inside
  | .resume call => g.Granted call ∧ g.cancelling call = true
  | _ => False

/-- The call is the oldest of the live ones in the most urgent tier that has any. -/
def Next (g : PriorityExchangeGate) (call : Nat) (tier : ExchangeTier) (waiter : Nat) : Prop :=
  g.Live call tier waiter ∧
    ∀ call' tier' waiter', g.Live call' tier' waiter' →
      tier.value < tier'.value ∨ tier = tier' ∧ waiter ≤ waiter'

/-- The slot goes to the next call, or the gate is inactive and no call waits. -/
def Passes (g g' : PriorityExchangeGate) : Prop :=
  (∃ call tier waiter, g.Next call tier waiter ∧ g'.active = true ∧
      g'.calls call = .awaiting tier waiter ∧
      g'.futures = Function.update g.futures waiter .result) ∨
    (∀ call tier waiter, ¬ g.Live call tier waiter) ∧ g'.active = false ∧ g'.futures = g.futures

/-! ## What `_release` does -/

@[simp] theorem done_eq_true {future : Future} : future.done = true ↔ future ≠ .pending := by
  cases future <;> simp [Future.done]

theorem popWaiting_none {futures : Nat → Future} {queue left : List Nat}
    (h : popWaiting futures queue = (none, left)) :
    left = [] ∧ ∀ waiter ∈ queue, futures waiter ≠ .pending := by
  induction queue with
  | nil => cases h; simp
  | cons waiter queue ih =>
      rw [popWaiting] at h
      split at h
      · next hd =>
          obtain ⟨hl, hall⟩ := ih h
          exact ⟨hl, List.forall_mem_cons.mpr ⟨done_eq_true.mp hd, hall⟩⟩
      · cases h

theorem popWaiting_some {futures : Nat → Future} {queue left : List Nat} {waiter : Nat}
    (h : popWaiting futures queue = (some waiter, left)) :
    futures waiter = .pending ∧
      ∃ gone, queue = gone ++ waiter :: left ∧ ∀ v ∈ gone, futures v ≠ .pending := by
  induction queue with
  | nil => cases h
  | cons v queue ih =>
      rw [popWaiting] at h
      split at h
      · next hd =>
          obtain ⟨hp, gone, rfl, hall⟩ := ih h
          exact ⟨hp, v :: gone, rfl, List.forall_mem_cons.mpr ⟨done_eq_true.mp hd, hall⟩⟩
      · next hd =>
          cases h
          refine ⟨?_, [], rfl, by simp⟩
          simpa using hd

/-- No tier of the list has a pending waiter. -/
def NoneIn (g : PriorityExchangeGate) (tiers : List ExchangeTier) : Prop :=
  ∀ tier ∈ tiers, ∀ waiter ∈ g.waiters tier, g.futures waiter ≠ .pending

theorem NoneIn.nil : g.NoneIn [] := by simp [NoneIn]

theorem NoneIn.cons {tier : ExchangeTier} {tiers : List ExchangeTier}
    (h : ∀ waiter ∈ g.waiters tier, g.futures waiter ≠ .pending) (hs : g.NoneIn tiers) :
    g.NoneIn (tier :: tiers) :=
  List.forall_mem_cons.mpr ⟨h, hs⟩

/-- A release finds no pending waiter and makes the gate inactive, or it grants the first pending
waiter of the first tier that has one. -/
inductive ReleaseCase (g : PriorityExchangeGate) (tiers : List ExchangeTier) :
    PriorityExchangeGate → Prop where
  | idle (queues : ExchangeTier → List Nat) (hnone : g.NoneIn tiers)
      (hdrained : ∀ tier ∈ tiers, queues tier = [])
      (hrest : ∀ tier, tier ∉ tiers → queues tier = g.waiters tier) :
      ReleaseCase g tiers { g with active := false, waiters := queues }
  | grant (before after : List ExchangeTier) (tier : ExchangeTier) (waiter : Nat)
      (gone left : List Nat) (queues : ExchangeTier → List Nat)
      (htiers : tiers = before ++ tier :: after) (hnone : g.NoneIn before)
      (hqueue : g.waiters tier = gone ++ waiter :: left)
      (hgone : ∀ v ∈ gone, g.futures v ≠ .pending) (hpending : g.futures waiter = .pending)
      (hdrained : ∀ t ∈ before, queues t = []) (hleft : queues tier = left)
      (hrest : ∀ t, t ∉ before → t ≠ tier → queues t = g.waiters t) :
      ReleaseCase g tiers { g with waiters := queues
                                   futures := Function.update g.futures waiter .result }

theorem releaseTiers_cases (g : PriorityExchangeGate) {tiers : List ExchangeTier}
    (hnd : tiers.Nodup) : ReleaseCase g tiers (g.releaseTiers tiers) := by
  induction tiers generalizing g with
  | nil => exact .idle g.waiters .nil (by simp) (by simp)
  | cons tier tiers ih =>
      obtain ⟨hnot, hnd⟩ := List.nodup_cons.mp hnd
      rcases hp : popWaiting g.futures (g.waiters tier) with ⟨_ | waiter, left⟩
      · obtain ⟨rfl, hall⟩ := popWaiting_none hp
        have hrun : g.releaseTiers (tier :: tiers) = (g.setQueue tier []).releaseTiers tiers := by
          rw [releaseTiers, hp]
        rw [hrun]
        have hsame : ∀ t ∈ tiers, (g.setQueue tier []).waiters t = g.waiters t := by
          intro t ht
          have hne : t ≠ tier := by rintro rfl; exact hnot ht
          exact Function.update_of_ne hne _ _
        have hcase := ih (g.setQueue tier []) hnd
        generalize (g.setQueue tier []).releaseTiers tiers = r at hcase ⊢
        cases hcase with
        | idle queues hnone hdrained hrest =>
            have hself : queues tier = [] := (hrest tier hnot).trans (Function.update_self ..)
            refine .idle queues (.cons hall ?_) ?_ ?_
            · intro t ht w hw
              exact hnone t ht w (by rw [hsame t ht]; exact hw)
            · exact List.forall_mem_cons.mpr ⟨hself, hdrained⟩
            · intro t ht
              rw [List.mem_cons, not_or] at ht
              obtain ⟨hne, ht⟩ := ht
              rw [hrest t ht]
              exact Function.update_of_ne hne _ _
        | grant before after t waiter gone left queues htiers hnone hqueue hgone hpending
            hdrained hleft hrest =>
            have hbefore : tier ∉ before := fun h => hnot (by simp [htiers, h])
            have htmem : t ∈ tiers := by simp [htiers]
            have hne : tier ≠ t := fun h => hnot (h ▸ htmem)
            have hself : queues tier = [] :=
              (hrest tier hbefore hne).trans (Function.update_self ..)
            refine .grant (tier :: before) after t waiter gone left queues (by simp [htiers])
              (.cons hall ?_) ?_ hgone hpending ?_ hleft ?_
            · intro u hu w hw
              exact hnone u hu w (by rw [hsame u (by simp [htiers, hu])]; exact hw)
            · rw [← hqueue, hsame t htmem]
            · exact List.forall_mem_cons.mpr ⟨hself, hdrained⟩
            · intro u hu hut
              rw [List.mem_cons, not_or] at hu
              obtain ⟨hne, hu⟩ := hu
              rw [hrest u hu hut]
              exact Function.update_of_ne hne _ _
      · obtain ⟨hpending, gone, hqueue, hgone⟩ := popWaiting_some hp
        have hrun : g.releaseTiers (tier :: tiers) =
            (g.setQueue tier left).setFuture waiter .result := by rw [releaseTiers, hp]
        rw [hrun]
        refine .grant [] tiers tier waiter gone left _ rfl .nil hqueue hgone hpending (by simp)
          (Function.update_self ..) ?_
        intro t _ hne
        exact Function.update_of_ne hne _ _

theorem release_cases (g : PriorityExchangeGate) : ReleaseCase g ExchangeTier.all g.release :=
  releaseTiers_cases g (by decide)

theorem ExchangeTier.mem_all (tier : ExchangeTier) : tier ∈ ExchangeTier.all := by
  cases tier <;> decide

/-- The tiers are listed from the most urgent on. -/
theorem ExchangeTier.all_sorted : ExchangeTier.all.Pairwise (·.value < ·.value) := by decide

/-! ## Calls that no longer wait -/

theorem awaiting_of_update (calls : Nat → Phase) (call : Nat) (phase : Phase)
    (hp : ∀ tier waiter, phase ≠ .awaiting tier waiter) (c : Nat) (tier : ExchangeTier)
    (waiter : Nat) (h : Function.update calls call phase c = .awaiting tier waiter) :
    calls c = .awaiting tier waiter := by
  rw [Function.update_apply] at h
  split at h
  · exact absurd h (hp tier waiter)
  · exact h

/-! ## The invariant -/

structure Ok (g : PriorityExchangeGate) : Prop where
  made : ∀ tier waiter, waiter ∈ g.waiters tier → waiter < g.created
  ungranted : ∀ tier waiter, waiter ∈ g.waiters tier → g.futures waiter ≠ .result
  sorted : ∀ tier, (g.waiters tier).Pairwise (· < ·)
  awaited : ∀ call tier waiter, g.calls call = .awaiting tier waiter → waiter < g.created
  queued : ∀ call tier waiter, g.Live call tier waiter → waiter ∈ g.waiters tier
  alive : ∀ tier waiter, waiter ∈ g.waiters tier → g.futures waiter = .pending →
    ∃ call, g.calls call = .awaiting tier waiter
  unshared : ∀ call call' tier tier' waiter, g.calls call = .awaiting tier waiter →
    g.calls call' = .awaiting tier' waiter → call = call'
  owned : g.active = true → ∃ call, g.Owns call
  single : ∀ call call', g.Owns call → g.Owns call' → call = call'
  active : ∀ call, g.Owns call → g.active = true
  served : ∀ call tier waiter, g.Live call tier waiter → g.active = true

namespace Ok

theorem init : Ok init where
  made := by simp [PriorityExchangeGate.init]
  ungranted := by simp [PriorityExchangeGate.init]
  sorted := by simp [PriorityExchangeGate.init]
  awaited := by simp [PriorityExchangeGate.init]
  queued := by simp [PriorityExchangeGate.init, Live]
  alive := by simp [PriorityExchangeGate.init]
  unshared := by simp [PriorityExchangeGate.init]
  owned := by simp [PriorityExchangeGate.init]
  single := by simp [PriorityExchangeGate.init, Owns, Granted]
  active := by simp [PriorityExchangeGate.init, Owns, Granted]
  served := by simp [PriorityExchangeGate.init, Live]

theorem alone {call : Nat} (ho : g.Owns call) {call' : Nat} {tier : ExchangeTier}
    {waiter : Nat} (hl : g.Live call' tier waiter) : call' ≠ call := by
  rintro rfl
  rcases ho with hin | ⟨t, w, hw, hr⟩
  · rw [hl.1] at hin
    cases hin
  · rw [hl.1] at hw
    cases hw
    rw [hl.2] at hr
    cases hr

/-- The first pending waiter of the first tier that has one is the next call's. -/
theorem next (h : Ok g) {before after : List ExchangeTier} {tier : ExchangeTier}
    {waiter : Nat} {gone left : List Nat} (htiers : ExchangeTier.all = before ++ tier :: after)
    (hnone : g.NoneIn before) (hqueue : g.waiters tier = gone ++ waiter :: left)
    (hgone : ∀ v ∈ gone, g.futures v ≠ .pending) {call : Nat}
    (hlive : g.Live call tier waiter) : g.Next call tier waiter := by
  refine ⟨hlive, ?_⟩
  intro call' tier' waiter' hl
  have hmem := h.queued _ _ _ hl
  have ht := ExchangeTier.mem_all tier'
  rw [htiers, List.mem_append, List.mem_cons] at ht
  rcases ht with hb | rfl | ha
  · exact absurd hl.2 (hnone tier' hb waiter' hmem)
  · right
    refine ⟨rfl, ?_⟩
    have hsorted := h.sorted tier'
    rw [hqueue] at hmem hsorted
    obtain ⟨_, hsorted, _⟩ := List.pairwise_append.mp hsorted
    rw [List.mem_append, List.mem_cons] at hmem
    rcases hmem with hg | rfl | hin
    · exact absurd hl.2 (hgone waiter' hg)
    · exact Nat.le_refl _
    · exact Nat.le_of_lt (List.rel_of_pairwise_cons hsorted hin)
  · left
    have hsorted := ExchangeTier.all_sorted
    rw [htiers] at hsorted
    obtain ⟨_, hsorted, _⟩ := List.pairwise_append.mp hsorted
    exact List.rel_of_pairwise_cons hsorted ha

/-- A waiter stands in one queue only. -/
theorem one_queue (h : Ok g) {tier tier' : ExchangeTier} {waiter : Nat}
    (hp : g.futures waiter = .pending) (hm : waiter ∈ g.waiters tier)
    (hm' : waiter ∈ g.waiters tier') : tier = tier' := by
  obtain ⟨call, hc⟩ := h.alive _ _ hm hp
  obtain ⟨call', hc'⟩ := h.alive _ _ hm' hp
  have := h.unshared _ _ _ _ _ hc hc'
  subst this
  rw [hc] at hc'
  cases hc'
  rfl

/-- What the calls other than a leaving one see of a release that finds no waiter. -/
theorem release_idle (h : Ok g) {call : Nat} (ho : g.Owns call)
    {queues : ExchangeTier → List Nat} (hnone : g.NoneIn ExchangeTier.all)
    (hdrained : ∀ tier ∈ ExchangeTier.all, queues tier = []) :
    Ok ({ g with active := false, waiters := queues }.setCall call .outside) := by
  have hempty : ∀ tier, queues tier = [] := fun tier => hdrained tier (ExchangeTier.mem_all tier)
  have hlive : ∀ c tier waiter, ¬ g.Live c tier waiter := by
    intro c tier waiter hl
    exact hnone tier (ExchangeTier.mem_all tier) waiter (h.queued _ _ _ hl) hl.2
  have hother := awaiting_of_update g.calls call .outside (by simp)
  have howns : ∀ c,
      ¬ Owns ({ g with active := false, waiters := queues }.setCall call .outside) c := by
    intro c hc
    have hne : c ≠ call := by
      rintro rfl
      simp [Owns, Granted, setCall] at hc
    simp only [Owns, Granted, setCall, Function.update_of_ne hne] at hc
    exact hne (h.single c call hc ho)
  refine ⟨?_, ?_, ?_, ?_, ?_, ?_, ?_, ?_, ?_, ?_, ?_⟩
  · intro tier waiter hm
    simp [setCall, hempty] at hm
  · intro tier waiter hm
    simp [setCall, hempty] at hm
  · intro tier
    simp [setCall, hempty]
  · intro c tier waiter hc
    exact h.awaited _ _ _ (hother _ _ _ hc)
  · intro c tier waiter hl
    exact absurd ⟨hother _ _ _ hl.1, hl.2⟩ (hlive c tier waiter)
  · intro tier waiter hm
    simp [setCall, hempty] at hm
  · intro c c' tier tier' waiter hc hc'
    exact h.unshared _ _ _ _ _ (hother _ _ _ hc) (hother _ _ _ hc')
  · intro hf
    cases hf
  · intro c c' hc
    exact absurd hc (howns c)
  · intro c hc
    exact absurd hc (howns c)
  · intro c tier waiter hl
    exact absurd ⟨hother _ _ _ hl.1, hl.2⟩ (hlive c tier waiter)

/-- A release that grants a waiter takes it out of the queues, with the waiters before it. -/
theorem release_grant (h : Ok g) {call : Nat} (ho : g.Owns call)
    {before : List ExchangeTier} {tier : ExchangeTier} {waiter : Nat} {gone left : List Nat}
    {queues : ExchangeTier → List Nat} (hnone : g.NoneIn before)
    (hqueue : g.waiters tier = gone ++ waiter :: left)
    (hgone : ∀ v ∈ gone, g.futures v ≠ .pending) (hpending : g.futures waiter = .pending)
    (hdrained : ∀ t ∈ before, queues t = []) (hleft : queues tier = left)
    (hrest : ∀ t, t ∉ before → t ≠ tier → queues t = g.waiters t) {next : Nat}
    (hnext : g.calls next = .awaiting tier waiter) (hne : next ≠ call) :
    Ok ({ g with waiters := queues
                 futures := Function.update g.futures waiter .result }.setCall call .outside) := by
  have hmem : waiter ∈ g.waiters tier := by simp [hqueue]
  have hsub : ∀ t, (queues t).Sublist (g.waiters t) := by
    intro t
    by_cases hb : t ∈ before
    · rw [hdrained t hb]
      exact List.nil_sublist _
    · by_cases ht : t = tier
      · subst ht
        rw [hleft, hqueue]
        exact (List.sublist_cons_self _ _).trans (List.sublist_append_right _ _)
      · exact hrest t hb ht ▸ List.Sublist.refl _
  have hout : ∀ t, waiter ∉ queues t := by
    intro t hm
    have ht := h.one_queue hpending ((hsub t).subset hm) hmem
    subst ht
    have hsorted := h.sorted t
    rw [hqueue] at hsorted
    obtain ⟨_, hsorted, _⟩ := List.pairwise_append.mp hsorted
    rw [hleft] at hm
    exact absurd (List.rel_of_pairwise_cons hsorted hm) (Nat.lt_irrefl _)
  have hkeep : ∀ t v, v ∈ g.waiters t → g.futures v = .pending → v ≠ waiter → v ∈ queues t := by
    intro t v hv hp hvne
    have hb : t ∉ before := fun hb => hnone t hb v hv hp
    by_cases ht : t = tier
    · subst ht
      rw [hqueue, List.mem_append, List.mem_cons] at hv
      rw [hleft]
      rcases hv with hg | rfl | hin
      · exact absurd hp (hgone v hg)
      · exact absurd rfl hvne
      · exact hin
    · rw [hrest t hb ht]
      exact hv
  have hother := awaiting_of_update g.calls call .outside (by simp)
  have hlive : ∀ c t w, Function.update g.calls call .outside c = .awaiting t w →
      Function.update g.futures waiter .result w = .pending →
      w ≠ waiter ∧ g.Live c t w := by
    intro c t w hc hp
    have hw : w ≠ waiter := by
      rintro rfl
      rw [Function.update_self] at hp
      cases hp
    rw [Function.update_of_ne hw] at hp
    exact ⟨hw, hother _ _ _ hc, hp⟩
  have howns : ∀ c, Owns ({ g with
      waiters := queues
      futures := Function.update g.futures waiter .result }.setCall call .outside) c →
        c = next := by
    rintro c (hin | ⟨t, w, hc, hr⟩)
    · have hc : c ≠ call := by
        rintro rfl
        simp [setCall] at hin
      simp only [setCall, Function.update_of_ne hc] at hin
      exact absurd (h.single c call (.inl hin) ho) hc
    · have hcne : c ≠ call := by
        rintro rfl
        simp [setCall] at hc
      have hwas := hother _ _ _ hc
      by_cases hw : w = waiter
      · subst hw
        exact h.unshared _ _ _ _ _ hwas hnext
      · simp only [setCall, Function.update_of_ne hw] at hr
        exact absurd (h.single c call (.inr ⟨t, w, hwas, hr⟩) ho) hcne
  have hstill : ∀ c t w, g.calls c = .awaiting t w → g.futures w = .pending →
      Function.update g.calls call .outside c = .awaiting t w := by
    intro c t w hc hp
    rw [Function.update_of_ne (alone ho ⟨hc, hp⟩)]
    exact hc
  refine ⟨?_, ?_, ?_, ?_, ?_, ?_, ?_, ?_, ?_, ?_, ?_⟩
  · intro t w hm
    exact h.made t w ((hsub t).subset hm)
  · intro t w hm
    have hw : w ≠ waiter := fun hw => hout t (hw ▸ hm)
    simp only [setCall, Function.update_of_ne hw]
    exact h.ungranted t w ((hsub t).subset hm)
  · intro t
    exact (h.sorted t).sublist (hsub t)
  · intro c t w hc
    exact h.awaited _ _ _ (hother _ _ _ hc)
  · intro c t w hl
    obtain ⟨hw, hl⟩ := hlive c t w hl.1 hl.2
    exact hkeep t w (h.queued _ _ _ hl) hl.2 hw
  · intro t w hm hp
    have hw : w ≠ waiter := fun hw => hout t (hw ▸ hm)
    simp only [setCall, Function.update_of_ne hw] at hp
    obtain ⟨c, hc⟩ := h.alive t w ((hsub t).subset hm) hp
    exact ⟨c, hstill c t w hc hp⟩
  · intro c c' t t' w hc hc'
    exact h.unshared _ _ _ _ _ (hother _ _ _ hc) (hother _ _ _ hc')
  · intro _
    exact ⟨next, .inr ⟨tier, waiter, hstill next tier waiter hnext hpending,
      Function.update_self ..⟩⟩
  · intro c c' hc hc'
    rw [howns c hc, howns c' hc']
  · intro _ _
    exact h.active call ho
  · intro _ _ _ _
    exact h.active call ho

/-- The owner that gives up the slot passes it on. -/
theorem release (h : Ok g) {call : Nat} (ho : g.Owns call) :
    Ok (g.release.setCall call .outside) ∧ g.Passes (g.release.setCall call .outside) := by
  have hcase := release_cases g
  generalize g.release = r at hcase
  cases hcase with
  | idle queues hnone hdrained hrest =>
      refine ⟨h.release_idle ho hnone hdrained, .inr ⟨?_, rfl, rfl⟩⟩
      intro c tier waiter hl
      exact hnone tier (ExchangeTier.mem_all tier) waiter (h.queued _ _ _ hl) hl.2
  | grant before after tier waiter gone left queues htiers hnone hqueue hgone hpending hdrained
      hleft hrest =>
      obtain ⟨next, hnext⟩ := h.alive tier waiter (by simp [hqueue]) hpending
      have hlive : g.Live next tier waiter := ⟨hnext, hpending⟩
      have hne := alone ho hlive
      refine ⟨h.release_grant ho hnone hqueue hgone hpending hdrained hleft hrest hnext hne,
        .inl ⟨next, tier, waiter, h.next htiers hnone hqueue hgone hlive,
          h.active call ho, ?_, rfl⟩⟩
      simp only [setCall, Function.update_of_ne hne]
      exact hnext

/-- A call that ends without the slot leaves the rest as it is. -/
theorem abandon (h : Ok g) {call : Nat} {tier : ExchangeTier} {waiter : Nat}
    (hc : g.calls call = .awaiting tier waiter) (hf : g.futures waiter = .cancelled) :
    Ok ((g.setQueue tier ((g.waiters tier).erase waiter)).setCall call .outside) := by
  have hsub : ∀ t, (Function.update g.waiters tier ((g.waiters tier).erase waiter) t).Sublist
      (g.waiters t) := by
    intro t
    by_cases ht : t = tier
    · subst ht
      rw [Function.update_self]
      exact List.erase_sublist
    · exact Function.update_of_ne ht _ _ ▸ List.Sublist.refl _
  have hkeep : ∀ t v, v ∈ g.waiters t → g.futures v = .pending →
      v ∈ Function.update g.waiters tier ((g.waiters tier).erase waiter) t := by
    intro t v hv hp
    have hne : v ≠ waiter := by
      rintro rfl
      rw [hf] at hp
      cases hp
    by_cases ht : t = tier
    · subst ht
      rw [Function.update_self]
      exact (List.mem_erase_of_ne hne).mpr hv
    · rw [Function.update_of_ne ht]
      exact hv
  have hother : ∀ c p, p ≠ .outside → (Function.update g.calls call .outside c = p ↔
      g.calls c = p ∧ c ≠ call) := by
    intro c p hp
    rw [Function.update_apply]
    split
    · next hc => simp [hc, hp.symm]
    · next hc => simp [hc]
  have howns : ∀ c, Owns ((g.setQueue tier
    ((g.waiters tier).erase waiter)).setCall call .outside) c ↔
      g.Owns c := by
    intro c
    constructor
    · rintro (hin | ⟨t, w, hw, hr⟩)
      · exact .inl ((hother c _ (by simp)).mp hin).1
      · exact .inr ⟨t, w, ((hother c _ (by simp)).mp hw).1, hr⟩
    · rintro (hin | ⟨t, w, hw, hr⟩)
      · refine .inl ((hother c _ (by simp)).mpr ⟨hin, ?_⟩)
        rintro rfl
        rw [hc] at hin
        cases hin
      · refine .inr ⟨t, w, (hother c _ (by simp)).mpr ⟨hw, ?_⟩, hr⟩
        rintro rfl
        rw [hc] at hw
        cases hw
        rw [hf] at hr
        cases hr
  have hlive : ∀ c t w, Live ((g.setQueue tier
    ((g.waiters tier).erase waiter)).setCall call .outside)
      c t w → g.Live c t w := fun c t w hl => ⟨((hother c _ (by simp)).mp hl.1).1, hl.2⟩
  refine ⟨?_, ?_, ?_, ?_, ?_, ?_, ?_, ?_, ?_, ?_, ?_⟩
  · intro t w hm
    exact h.made t w ((hsub t).subset hm)
  · intro t w hm
    exact h.ungranted t w ((hsub t).subset hm)
  · intro t
    exact (h.sorted t).sublist (hsub t)
  · intro c t w hw
    exact h.awaited _ _ _ ((hother c _ (by simp)).mp hw).1
  · intro c t w hl
    have hl := hlive _ _ _ hl
    exact hkeep t w (h.queued _ _ _ hl) hl.2
  · intro t w hm hp
    obtain ⟨c, hw⟩ := h.alive t w ((hsub t).subset hm) hp
    refine ⟨c, (hother c _ (by simp)).mpr ⟨hw, ?_⟩⟩
    rintro rfl
    rw [hc] at hw
    cases hw
    exact absurd (hp.symm.trans hf) (by simp)
  · intro c c' t t' w hw hw'
    exact h.unshared _ _ _ _ _ ((hother c _ (by simp)).mp hw).1 ((hother c' _ (by simp)).mp hw').1
  · intro ha
    obtain ⟨c, ho⟩ := h.owned ha
    exact ⟨c, (howns c).mpr ho⟩
  · intro c c' ho ho'
    exact h.single c c' ((howns c).mp ho) ((howns c').mp ho')
  · intro c ho
    exact h.active c ((howns c).mp ho)
  · intro c t w hl
    exact h.served _ _ _ (hlive _ _ _ hl)

/-- A granted call that runs has the slot before and after. -/
theorem enter_body (h : Ok g) {call : Nat} (ho : g.Owns call) : Ok (g.setCall call .inside) := by
  have hother := awaiting_of_update g.calls call .inside (by simp)
  have howns : ∀ c, (g.setCall call .inside).Owns c → c = call := by
    intro c hc
    by_cases hne : c = call
    · exact hne
    · simp only [Owns, Granted, setCall, Function.update_of_ne hne] at hc
      exact h.single c call hc ho
  have hlive : ∀ c t w, (g.setCall call .inside).Live c t w → g.Live c t w :=
    fun c t w hl => ⟨hother c t w hl.1, hl.2⟩
  refine ⟨h.made, h.ungranted, h.sorted, ?_, ?_, ?_, ?_, ?_, ?_, ?_, ?_⟩
  · intro c t w hc
    exact h.awaited _ _ _ (hother _ _ _ hc)
  · intro c t w hl
    exact h.queued _ _ _ (hlive _ _ _ hl)
  · intro t w hm hp
    obtain ⟨c, hc⟩ := h.alive t w hm hp
    refine ⟨c, ?_⟩
    simp only [setCall, Function.update_of_ne (alone ho ⟨hc, hp⟩)]
    exact hc
  · intro c c' t t' w hc hc'
    exact h.unshared _ _ _ _ _ (hother _ _ _ hc) (hother _ _ _ hc')
  · intro _
    exact ⟨call, .inl (Function.update_self ..)⟩
  · intro c c' hc hc'
    rw [howns c hc, howns c' hc']
  · intro _ _
    exact h.active call ho
  · intro _ _ _ _
    exact h.active call ho

/-- The gate that nobody holds is taken at once. -/
theorem take (h : Ok g) (call : Nat) (ha : g.active = false) :
    Ok ({ g with active := true }.setCall call .inside) := by
  have hnone : ∀ c, ¬ g.Owns c := by
    intro c ho
    rw [h.active c ho] at ha
    cases ha
  have hlive : ∀ c t w, ¬ g.Live c t w := by
    intro c t w hl
    rw [h.served c t w hl] at ha
    cases ha
  have hother := awaiting_of_update g.calls call .inside (by simp)
  have howns : ∀ c, ({ g with active := true }.setCall call .inside).Owns c → c = call := by
    intro c ho
    by_contra hne
    simp only [Owns, Granted, setCall, Function.update_of_ne hne] at ho
    exact hnone c ho
  refine ⟨h.made, h.ungranted, h.sorted, ?_, ?_, ?_, ?_, ?_, ?_, ?_, ?_⟩
  · intro c t w hw
    exact h.awaited _ _ _ (hother _ _ _ hw)
  · intro c t w hl
    exact absurd ⟨hother _ _ _ hl.1, hl.2⟩ (hlive c t w)
  · intro t w hm hp
    obtain ⟨c, hw⟩ := h.alive t w hm hp
    exact absurd ⟨hw, hp⟩ (hlive c t w)
  · intro c c' t t' w hw hw'
    exact h.unshared _ _ _ _ _ (hother _ _ _ hw) (hother _ _ _ hw')
  · intro _
    exact ⟨call, .inl (Function.update_self ..)⟩
  · intro c c' ho ho'
    rw [howns c ho, howns c' ho']
  · intro _ _
    rfl
  · intro _ _ _ _
    rfl

/-- A call that finds the gate held waits behind the others of its tier. -/
theorem enqueue (h : Ok g) {call : Nat} (hc : g.calls call = .outside) (ha : g.active = true)
    (tier : ExchangeTier) :
    Ok ({ g with created := g.created + 1 }.setQueue tier (g.waiters tier ++ [g.created])
      |>.setFuture g.created .pending |>.setCall call (.awaiting tier g.created)) := by
  have hqueue : ∀ t w, w ∈ Function.update g.waiters tier (g.waiters tier ++ [g.created]) t ↔
      w ∈ g.waiters t ∨ t = tier ∧ w = g.created := by
    intro t w
    rw [Function.update_apply]
    split
    · next ht => simp [ht]
    · next ht => simp [ht]
  have hfuture : ∀ w, w ≠ g.created →
      Function.update g.futures g.created .pending w = g.futures w :=
    fun w hw => Function.update_of_ne hw _ _
  have hcall : ∀ c t w, Function.update g.calls call (.awaiting tier g.created) c = .awaiting t w →
      g.calls c = .awaiting t w ∧ w ≠ g.created ∨ c = call ∧ t = tier ∧ w = g.created := by
    intro c t w hw
    rw [Function.update_apply] at hw
    split at hw
    · next hcc =>
        cases hw
        exact .inr ⟨hcc, rfl, rfl⟩
    · exact .inl ⟨hw, Nat.ne_of_lt (h.awaited c t w hw)⟩
  have hstill : ∀ c p, p ≠ .outside → g.calls c = p →
      Function.update g.calls call (.awaiting tier g.created) c = p := by
    intro c p hp hcp
    have hne : c ≠ call := by
      rintro rfl
      exact hp (hcp.symm.trans hc)
    rw [Function.update_of_ne hne]
    exact hcp
  have howns : ∀ c, Owns ({ g with created := g.created + 1 }.setQueue tier
      (g.waiters tier ++ [g.created]) |>.setFuture g.created .pending
      |>.setCall call (.awaiting tier g.created)) c ↔ g.Owns c := by
    intro c
    constructor
    · rintro (hin | ⟨t, w, hw, hr⟩)
      · simp only [setCall, Function.update_apply] at hin
        split at hin
        · cases hin
        · exact .inl hin
      · rcases hcall c t w hw with ⟨hw, hne⟩ | ⟨_, _, rfl⟩
        · exact .inr ⟨t, w, hw, (hfuture w hne).symm.trans hr⟩
        · simp [setFuture, setCall] at hr
    · rintro (hin | ⟨t, w, hw, hr⟩)
      · exact .inl (hstill c _ (by simp) hin)
      · exact .inr ⟨t, w, hstill c _ (by simp) hw,
          (hfuture w (Nat.ne_of_lt (h.awaited c t w hw))).trans hr⟩
  refine ⟨?_, ?_, ?_, ?_, ?_, ?_, ?_, ?_, ?_, ?_, ?_⟩
  · intro t w hm
    rcases (hqueue t w).mp hm with hm | ⟨_, rfl⟩
    · exact Nat.lt_succ_of_lt (h.made t w hm)
    · exact Nat.lt_succ_self _
  · intro t w hm
    rcases (hqueue t w).mp hm with hm | ⟨_, rfl⟩
    · exact fun hr => h.ungranted t w hm ((hfuture w (Nat.ne_of_lt (h.made t w hm))).symm.trans hr)
    · simp [setFuture, setCall]
  · intro t
    simp only [setCall, setFuture, setQueue, Function.update_apply]
    split
    · refine List.pairwise_append.mpr ⟨h.sorted tier, by simp, ?_⟩
      intro v hv w hw
      rw [List.mem_singleton.mp hw]
      exact h.made tier v hv
    · exact h.sorted t
  · intro c t w hw
    rcases hcall c t w hw with ⟨hw, _⟩ | ⟨_, _, rfl⟩
    · exact Nat.lt_succ_of_lt (h.awaited c t w hw)
    · exact Nat.lt_succ_self _
  · intro c t w hl
    rcases hcall c t w hl.1 with ⟨hw, hne⟩ | ⟨_, ht, hw⟩
    · exact (hqueue t w).mpr (.inl (h.queued c t w ⟨hw, (hfuture w hne).symm.trans hl.2⟩))
    · exact (hqueue t w).mpr (.inr ⟨ht, hw⟩)
  · intro t w hm hp
    rcases (hqueue t w).mp hm with hm | ⟨rfl, rfl⟩
    · obtain ⟨c, hw⟩ := h.alive t w hm
        ((hfuture w (Nat.ne_of_lt (h.made t w hm))).symm.trans hp)
      exact ⟨c, hstill c _ (by simp) hw⟩
    · exact ⟨call, Function.update_self ..⟩
  · intro c c' t t' w hw hw'
    rcases hcall c t w hw with ⟨hw, hne⟩ | ⟨rfl, _, he⟩
    · rcases hcall c' t' w hw' with ⟨hw', _⟩ | ⟨_, _, he'⟩
      · exact h.unshared c c' t t' w hw hw'
      · exact absurd he' hne
    · rcases hcall c' t' w hw' with ⟨_, hne'⟩ | ⟨rfl, _, _⟩
      · exact absurd he hne'
      · rfl
  · intro _
    obtain ⟨c, ho⟩ := h.owned ha
    exact ⟨c, (howns c).mpr ho⟩
  · intro c c' ho ho'
    exact h.single c c' ((howns c).mp ho) ((howns c').mp ho')
  · intro _ _
    exact ha
  · intro _ _ _ _
    exact ha

/-- A cancelled future stays in its queue until its call runs or a release comes to it. -/
theorem cancel (h : Ok g) {waiter : Nat} (hp : g.futures waiter = .pending) :
    Ok (g.setFuture waiter .cancelled) := by
  have hfuture : ∀ w f, f ≠ .cancelled → Function.update g.futures waiter .cancelled w = f →
      g.futures w = f := by
    intro w f hf hw
    rw [Function.update_apply] at hw
    split at hw
    · exact absurd hw.symm hf
    · exact hw
  have hgranted : ∀ w, g.futures w = .result →
      Function.update g.futures waiter .cancelled w = .result := by
    intro w hr
    have hne : w ≠ waiter := by
      rintro rfl
      rw [hp] at hr
      cases hr
    rw [Function.update_of_ne hne]
    exact hr
  have howns : ∀ c, (g.setFuture waiter .cancelled).Owns c ↔ g.Owns c := by
    intro c
    constructor
    · rintro (hin | ⟨t, w, hw, hr⟩)
      · exact .inl hin
      · exact .inr ⟨t, w, hw, hfuture w _ (by simp) hr⟩
    · rintro (hin | ⟨t, w, hw, hr⟩)
      · exact .inl hin
      · exact .inr ⟨t, w, hw, hgranted w hr⟩
  have hlive : ∀ c t w, (g.setFuture waiter .cancelled).Live c t w → g.Live c t w :=
    fun c t w hl => ⟨hl.1, hfuture w _ (by simp) hl.2⟩
  refine ⟨h.made, ?_, h.sorted, h.awaited, ?_, ?_, h.unshared, ?_, ?_, ?_, ?_⟩
  · intro t w hm hr
    exact h.ungranted t w hm (hfuture w _ (by simp) hr)
  · intro c t w hl
    exact h.queued c t w (hlive c t w hl)
  · intro t w hm hq
    exact h.alive t w hm (hfuture w _ (by simp) hq)
  · intro ha
    obtain ⟨c, ho⟩ := h.owned ha
    exact ⟨c, (howns c).mpr ho⟩
  · intro c c' ho ho'
    exact h.single c c' ((howns c).mp ho) ((howns c').mp ho')
  · intro c ho
    exact h.active c ((howns c).mp ho)
  · intro c t w hl
    exact h.served c t w (hlive c t w hl)

theorem setCancelling (h : Ok g) (cancelling : Nat → Bool) :
    Ok { g with cancelling := cancelling } :=
  ⟨h.made, h.ungranted, h.sorted, h.awaited, h.queued, h.alive, h.unshared, h.owned, h.single,
    h.active, h.served⟩

/-- A step keeps the invariant. -/
theorem step (h : Ok g) {event : Event} (hs : g.step event = some g') : Ok g' := by
  cases event with
  | enter call tier =>
      simp only [PriorityExchangeGate.step] at hs
      split at hs
      · next hc =>
          cases hs
          have h' := h.setCancelling (Function.update g.cancelling call false)
          unfold admitCall
          split
          · next ha => exact h'.enqueue hc ha tier
          · next ha => exact h'.take _ (by simpa using ha)
      · cases hs
  | cancel call =>
      simp only [PriorityExchangeGate.step] at hs
      split at hs
      · split at hs
        · cases hs
          exact h.setCancelling _
        · next hd =>
            cases hs
            exact h.cancel (by simpa using hd)
      · cases hs
        exact h
  | resume call =>
      simp only [PriorityExchangeGate.step] at hs
      split at hs
      · next tier waiter hc =>
          split at hs
          · next hd =>
              cases hs
              unfold PriorityExchangeGate.resume
              split
              · next hf => exact h.abandon hc hf
              · next hf =>
                  have hr : g.futures waiter = .result := by
                    cases hw : g.futures waiter with
                    | pending => simp [hw] at hd
                    | result => rfl
                    | cancelled => exact absurd hw hf
                  have ho : g.Owns call := .inr ⟨tier, waiter, hc, hr⟩
                  split
                  · exact (h.release ho).1
                  · exact h.enter_body ho
          · cases hs
      · cases hs
  | leave call =>
      simp only [PriorityExchangeGate.step] at hs
      split at hs
      · next hc =>
          cases hs
          exact (h.release (.inl hc)).1
      · cases hs

/-- A step that releases passes the slot on. -/
theorem step_passes (h : Ok g) {event : Event} (hs : g.step event = some g')
    (hr : g.Releases event) : g.Passes g' := by
  cases event with
  | enter => exact hr.elim
  | cancel => exact hr.elim
  | resume call =>
      obtain ⟨⟨tier, waiter, hc, hf⟩, hcancel⟩ := hr
      simp only [PriorityExchangeGate.step, hc, hf, Future.done, if_true, Option.some.injEq] at hs
      subst hs
      simp only [PriorityExchangeGate.resume, hf, hcancel, if_true, reduceCtorEq, if_false]
      exact (h.release (.inr ⟨tier, waiter, hc, hf⟩)).2
  | leave call =>
      have hc : g.calls call = .inside := hr
      simp only [PriorityExchangeGate.step, hc, Option.some.injEq] at hs
      subst hs
      exact (h.release (.inl hc)).2

theorem run (events : List Event) (h : Runs.exec PriorityExchangeGate.step
    PriorityExchangeGate.init events = some g) : Ok g :=
  Runs.exec_invariant (fun _ _ _ hi hs => hi.step hs) h .init

end Ok

/-! ## Runs -/

/-- In every run one call at most is in its body, an active gate has one owner, an inactive gate
has none, and the slot is passed on wherever it is released. -/
theorem slot_owned {events : List Event}
    (h : Runs.exec step init events = some g) :
    (∀ call call', g.calls call = .inside → g.calls call' = .inside → call = call') ∧
      (g.active = true → ∃! call, g.Owns call) ∧
      (g.active = false → ∀ call, ¬ g.Owns call) ∧
      ∀ event g', g.step event = some g' → g.Releases event → g.Passes g' := by
  have hok := Ok.run events h
  refine ⟨?_, ?_, ?_, ?_⟩
  · intro call call' hc hc'
    exact hok.single call call' (.inl hc) (.inl hc')
  · intro ha
    obtain ⟨call, ho⟩ := hok.owned ha
    exact ⟨call, ho, fun call' ho' => hok.single call' call ho' ho⟩
  · intro ha call ho
    rw [hok.active call ho] at ha
    cases ha
  · intro event g' hs hr
    exact hok.step_passes hs hr

/-- A run that cancels the granted call 2 before it runs; it owns the slot until then. -/
theorem slot_owned_cancelled :
    ∃ events g, Runs.exec step init events = some g ∧ g.active = true ∧ g.cancelling 2 = true ∧
      (∃! call, g.Owns call) ∧
      ∀ event g', g.step event = some g' → g.Releases event → g.Passes g' := by
  let events : List Event :=
    [.enter 0 .ordinary, .enter 1 .ordinary, .enter 2 .urgent, .leave 0, .cancel 2]
  have hrun : (Runs.exec step init events).map (fun g => (g.active, g.cancelling 2)) =
      some (true, true) := rfl
  obtain ⟨g, hg, hval⟩ := Option.map_eq_some_iff.mp hrun
  obtain ⟨ha, hc⟩ := Prod.mk.inj hval
  exact ⟨events, g, hg, ha, hc, (slot_owned hg).2.1 ha, (slot_owned hg).2.2.2⟩

end PriorityExchangeGate

end Rigplane.Exchange
