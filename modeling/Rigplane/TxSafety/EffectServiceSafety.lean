import Rigplane.TxSafety.EffectService
import Rigplane.TxSafety.Runs
import Mathlib.Data.List.Nodup

/-!
# Runs of the managed TX effect service

Two invariants carry the results.  `Ordered` is about the claims alone: a claim was made with every
earlier claim among its blockers, unless that one was done already, so a task is admitted only when
all earlier claims are done.  A claim is done with its task still running only if its retirement has
ended, and this is what two overlapping calls come down to.

`Attributed` follows the attempts.  Their identifiers are distinct, whether they are still to be
processed or claimed, and a settled attempt is *gone* from the supervisor: it never is active again.
-/

namespace Rigplane.TxSafety

/-! ## Identifiers -/

namespace Supervisor

variable {c : Config} {s s' : Supervisor} {effects : List TxEffect} {id : String}

/-- An identifier that was taken from the factory. -/
def Known (c : Config) (s : Supervisor) (id : String) : Prop := ∃ n < s.idsMade, id = c.idFactory n

/-- The attempt of this identifier is not active, and never will be. -/
def Gone (c : Config) (s : Supervisor) (id : String) : Prop :=
  s.Known c id ∧ ∀ a, s.active = some a → a.id ≠ id

theorem Tracks.known (h : Tracks c s s' effects) (hid : s.Known c id) : s'.Known c id := by
  obtain ⟨n, hn, rfl⟩ := hid
  exact ⟨n, hn.trans_le h.ids, rfl⟩

theorem Made.known (h : Made c s s' id) : s'.Known c id := by
  obtain ⟨n, -, hn, rfl⟩ := h
  exact ⟨n, hn, rfl⟩

/-- What is made was not known. -/
theorem Made.fresh (hinj : Function.Injective c.idFactory) (h : Made c s s' id) :
    ¬ s.Known c id := by
  rintro ⟨m, hm, hid⟩
  obtain ⟨n, hn, -, rfl⟩ := h
  rw [hinj hid] at hn
  exact absurd hm (not_lt.mpr hn)

/-- An attempt active after a part of a call, under an identifier known before it, was active. -/
theorem Tracks.active_of_known (hinj : Function.Injective c.idFactory) (h : Tracks c s s' effects)
    {a : ProviderAttempt} (ha : s'.active = some a) (hid : s.Known c a.id) : s.active = some a := by
  rcases h.active a ha with hold | hnew
  · exact hold
  · exact absurd hid ((h.made a hnew).fresh hinj)

theorem Tracks.gone (hinj : Function.Injective c.idFactory) (h : Tracks c s s' effects)
    (hid : s.Gone c id) : s'.Gone c id := by
  refine ⟨h.known hid.1, fun a ha heq => ?_⟩
  subst heq
  exact hid.2 a (h.active_of_known hinj ha hid.1) rfl

/-- After its settlement an attempt is gone. -/
theorem gone_of_settle (hinj : Function.Injective c.idFactory) {key : Key} {succeeded : Bool}
    {error : Option String} {r : TxTransition × Supervisor} (hknown : s.Known c key.2)
    (hcurrent : ∀ a, s.active = some a → s.generation = some a.providerGeneration)
    (hkey : ∀ a, s.active = some a → a.id = key.2 → a.key = key)
    (h : s.settleAttempt c key.2 key.1 succeeded error = .ok r) : r.2.Gone c key.2 := by
  have htracks : Tracks c s r.2 r.1.effects := returned_settleAttempt h
  refine ⟨htracks.known hknown, fun a ha heq => ?_⟩
  have hactive : s.active = some a := htracks.active_of_known hinj ha (heq ▸ hknown)
  obtain rfl := hkey a hactive heq
  have hnew := settled_inactive hactive (hcurrent a hactive) h a ha
  exact (htracks.made a hnew).fresh hinj hknown

end Supervisor

open Supervisor

namespace EffectService

variable {c : Config} {s s' : EffectService} {i j : Nat} {claim claim' : Claim}

/-! ## The order of the claims -/

/-- The task has passed its blockers and has not ended. -/
def Admitted (claim : Claim) : Prop :=
  (∃ lane, claim.stage = .queued lane) ∨ ∃ lane, claim.stage = .calling lane

/-- The task is in the provider's call, or has ended. -/
def Past (claim : Claim) : Prop :=
  (∃ lane, claim.stage = .calling lane) ∨ ∃ error, claim.stage = .ended error

structure Ordered (s : EffectService) : Prop where
  earlier : ∀ (i j : Nat) (claim : Claim), i < j → s.claims[j]? = some claim →
    i ∈ claim.blockers ∨ s.Done i
  admitted : ∀ (j : Nat) (claim : Claim), s.claims[j]? = some claim → Admitted claim →
    ∀ b ∈ claim.blockers, s.Done b
  called : ∀ j ∈ s.calls, (∀ i < j, s.Done i) ∧ ∃ claim, s.claims[j]? = some claim ∧ Past claim
  inOrder : s.calls.Pairwise (· < ·)
  /-- A task that outlives its claim is that of a retired one. -/
  running : ∀ (i : Nat) (claim : Claim), s.claims[i]? = some claim → claim.done →
    (∀ error, claim.stage ≠ .ended error) →
    claim.retirement = some .ended

theorem Ordered.congr (h : s.Ordered) (hclaims : s'.claims = s.claims)
    (hcalls : s'.calls = s.calls) :
    s'.Ordered := by
  have hdone : ∀ i, s.Done i → s'.Done i := by
    intro i hi
    rw [Done, hclaims]
    exact hi
  constructor
  · intro i j claim hij hj
    rw [hclaims] at hj
    exact (h.earlier i j claim hij hj).imp id (hdone i)
  · intro j claim hj hadmitted b hb
    rw [hclaims] at hj
    exact hdone b (h.admitted j claim hj hadmitted b hb)
  · intro j hj
    rw [hcalls] at hj
    rw [hclaims]
    exact ⟨fun i hij => hdone i ((h.called j hj).1 i hij), (h.called j hj).2⟩
  · rw [hcalls]
    exact h.inOrder
  · rw [hclaims]
    exact h.running

/-- Behind an admitted task nothing is open. -/
theorem Ordered.behind (h : s.Ordered) (hj : s.claims[j]? = some claim) (hadmitted : Admitted claim)
    (hij : i < j) : s.Done i := by
  rcases h.earlier i j claim hij hj with hblocker | hdone
  · exact h.admitted j claim hj hadmitted i hblocker
  · exact hdone

theorem put_claims {k : Nat} {x : Claim}
    (hk : (s.put i claim').claims[k]? = some x) : k = i ∧ x = claim' ∨ s.claims[k]? = some x := by
  rw [put, List.getElem?_set] at hk
  split at hk
  · rename_i heq
    split at hk
    · exact .inl ⟨heq.symm, (Option.some.inj hk).symm⟩
    · cases hk
  · exact .inr hk

theorem put_same (hi : s.claims[i]? = some claim) : (s.put i claim').claims[i]? = some claim' :=
  List.getElem?_set_self (List.getElem?_eq_some_iff.mp hi).1

theorem put_other {k : Nat} (hk : k ≠ i) : (s.put i claim').claims[k]? = s.claims[k]? :=
  List.getElem?_set_ne (Ne.symm hk)

theorem Done.put (hi : s.claims[i]? = some claim) (hdone : claim.done → claim'.done) {k : Nat}
    (hk : s.Done k) : (s.put i claim').Done k := by
  obtain ⟨x, hx, hxdone⟩ := hk
  by_cases heq : k = i
  · subst heq
    rw [Option.mem_def, hi] at hx
    cases hx
    exact ⟨claim', put_same hi, hdone hxdone⟩
  · exact ⟨x, (put_other heq).trans hx, hxdone⟩

/-- What a claim may become. -/
structure Goes (s : EffectService) (claim claim' : Claim) : Prop where
  effect : claim'.effect = claim.effect
  blockers : claim'.blockers = claim.blockers
  done : claim.done → claim'.done
  admitted : Admitted claim' → Admitted claim ∨ ∀ b ∈ claim.blockers, s.Done b
  past : Past claim → Past claim'
  running : claim'.done → (∀ error, claim'.stage ≠ .ended error) → claim'.retirement = some .ended

theorem Ordered.put (h : s.Ordered) (hi : s.claims[i]? = some claim) (hgoes : s.Goes claim claim') :
    (s.put i claim').Ordered := by
  constructor
  · intro k j x hkj hx
    rcases put_claims hx with ⟨rfl, rfl⟩ | hx
    · rw [hgoes.blockers]
      exact (h.earlier k j claim hkj hi).imp id (Done.put hi hgoes.done)
    · exact (h.earlier k j x hkj hx).imp id (Done.put hi hgoes.done)
  · intro j x hx hadmitted b hb
    rcases put_claims hx with ⟨rfl, rfl⟩ | hx
    · rw [hgoes.blockers] at hb
      rcases hgoes.admitted hadmitted with hold | hblockers
      · exact (h.admitted j claim hi hold b hb).put hi hgoes.done
      · exact (hblockers b hb).put hi hgoes.done
    · exact (h.admitted j x hx hadmitted b hb).put hi hgoes.done
  · intro j hj
    obtain ⟨hbehind, x, hx, hpast⟩ := h.called j hj
    refine ⟨fun k hk => (hbehind k hk).put hi hgoes.done, ?_⟩
    by_cases heq : j = i
    · subst heq
      rw [hi] at hx
      cases hx
      exact ⟨claim', put_same hi, hgoes.past hpast⟩
    · exact ⟨x, (put_other heq).trans hx, hpast⟩
  · exact h.inOrder
  · intro k x hx
    rcases put_claims hx with ⟨-, rfl⟩ | hx
    · exact hgoes.running
    · exact h.running k x hx

/-- A new claim is blocked by every one in the table. -/
theorem Ordered.claimed (h : s.Ordered) (effect : ProviderAttempt) (barrier : Int × Option String)
    (waiting : List Nat) :
    ({ s with barrier, waiting, claims := s.claims ++ [{ effect, blockers := s.live }] } :
      EffectService).Ordered := by
  have hkeep : ∀ {k : Nat} {x : Claim}, s.claims[k]? = some x →
      (s.claims ++ [{ effect, blockers := s.live }])[k]? = some x := by
    intro k x hx
    rw [List.getElem?_append_left (List.getElem?_eq_some_iff.mp hx).1]
    exact hx
  have hsplit : ∀ {k : Nat} {x : Claim},
      (s.claims ++ [{ effect, blockers := s.live }])[k]? = some x →
      s.claims[k]? = some x ∨ k = s.claims.length ∧ x = { effect, blockers := s.live } := by
    intro k x hx
    rw [List.getElem?_append] at hx
    split at hx
    · exact .inl hx
    · rename_i hge
      obtain ⟨hlt, hx⟩ := List.getElem?_eq_some_iff.mp hx
      have hzero : k - s.claims.length = 0 := by
        simp only [List.length_singleton] at hlt
        omega
      simp only [hzero, List.getElem_cons_zero] at hx
      exact .inr ⟨by omega, hx.symm⟩
  have hdone : ∀ {k : Nat}, s.Done k →
      ({ s with barrier, waiting, claims := s.claims ++ [{ effect, blockers := s.live }] } :
        EffectService).Done k := fun ⟨x, hx, hxdone⟩ => ⟨x, hkeep hx, hxdone⟩
  constructor
  · intro k j x hkj hx
    rcases hsplit hx with hx | ⟨rfl, rfl⟩
    · exact (h.earlier k j x hkj hx).imp id hdone
    · by_cases hk : s.Done k
      · exact .inr (hdone hk)
      · refine .inl (List.mem_filter.mpr ⟨List.mem_range.mpr hkj, ?_⟩)
        exact decide_eq_true hk
  · intro j x hx hadmitted b hb
    rcases hsplit hx with hx | ⟨-, rfl⟩
    · exact hdone (h.admitted j x hx hadmitted b hb)
    · rcases hadmitted with ⟨lane, hlane⟩ | ⟨lane, hlane⟩
      · cases hlane
      · cases hlane
  · intro j hj
    obtain ⟨hbehind, x, hx, hpast⟩ := h.called j hj
    exact ⟨fun k hk => hdone (hbehind k hk), x, hkeep hx, hpast⟩
  · exact h.inOrder
  · intro k x hx
    rcases hsplit hx with hx | ⟨-, rfl⟩
    · exact h.running k x hx
    · intro hdone'
      cases hdone'

/-- The call of the provider comes after the calls of the earlier claims, and there is none of a
later claim, which would not have been admitted. -/
theorem Ordered.call (h : s.Ordered) (hi : s.claims[i]? = some claim) {lane : Nat}
    (hstage : claim.stage = .queued lane) (hopen : ¬ claim.done) :
    ({ s.put i { claim with stage := .calling lane } with calls := s.calls ++ [i] } :
      EffectService).Ordered := by
  have hadmitted : Admitted claim := .inl ⟨lane, hstage⟩
  have hgoes : s.Goes claim { claim with stage := .calling lane } :=
    { effect := rfl
      blockers := rfl
      done := id
      admitted := fun _ => .inl hadmitted
      past := fun _ => .inl ⟨lane, rfl⟩
      running := fun hdone => absurd hdone hopen }
  have hput := h.put hi hgoes
  have hlast : ∀ k ∈ s.calls, k < i := by
    intro k hk
    obtain ⟨hbehind, x, hx, hpast⟩ := h.called k hk
    rcases lt_trichotomy k i with hlt | rfl | hgt
    · exact hlt
    · rw [hi] at hx
      cases hx
      rcases hpast with ⟨l, hl⟩ | ⟨e, he⟩
      · rw [hstage] at hl
        cases hl
      · rw [hstage] at he
        cases he
    · obtain ⟨y, hy, hydone⟩ := hbehind i hgt
      rw [Option.mem_def, hi] at hy
      cases hy
      exact absurd hydone hopen
  constructor
  · exact hput.earlier
  · exact hput.admitted
  · intro j hj
    rcases List.mem_append.mp hj with hj | hj
    · exact hput.called j hj
    · rw [List.mem_singleton.mp hj]
      exact ⟨fun k hk => (h.behind hi hadmitted hk).put hi hgoes.done, _, put_same hi,
        .inl ⟨lane, rfl⟩⟩
  · refine List.pairwise_append.mpr ⟨h.inOrder, List.pairwise_singleton _ _, ?_⟩
    intro k hk j hj
    rw [List.mem_singleton.mp hj]
    exact hlast k hk
  · exact hput.running

/-- Two tasks are in the provider's call only if the earlier one's retirement has ended. -/
theorem Ordered.overlap (h : s.Ordered) :
    s.calls.Pairwise fun i j => s.Calling i → s.Calling j → s.RetireEnded i := by
  refine h.inOrder.imp ?_
  intro i j hij ⟨x, hx, lane, hlane⟩ ⟨y, hy, hycalling⟩
  obtain ⟨z, hz, hdone⟩ := h.behind hy (.inr hycalling) hij
  rw [Option.mem_def] at hx hz
  rw [hx] at hz
  cases hz
  refine ⟨x, hx, h.running i x hx hdone ?_⟩
  intro error herror
  rw [hlane] at herror
  cases herror

/-! ## The attempts -/

def attempted : TxEffect → Option String
  | .attempt a => some a.id
  | .cancel _ => none

/-- The identifiers of the attempts claimed or still to be processed. -/
def ids (s : EffectService) : List String :=
  s.claims.map (·.effect.id) ++ s.effects.filterMap attempted

structure Attributed (c : Config) (s : EffectService) : Prop where
  ok : s.supervisor.Ok
  current : ∀ a, s.supervisor.active = some a → s.supervisor.generation = some a.providerGeneration
  active : ∀ a, s.supervisor.active = some a → s.supervisor.Known c a.id
  known : ∀ id ∈ s.ids, s.supervisor.Known c id
  distinct : s.ids.Nodup
  cancels : ∀ k, .cancel k ∈ s.effects → s.supervisor.Known c k.attemptId ∧
    ∀ a, s.supervisor.active = some a → a.id = k.attemptId → a.key = k.key
  same : ∀ x ∈ s.claims, ∀ a, s.supervisor.active = some a → a.id = x.effect.id → a = x.effect
  finished : ∀ x ∈ s.claims, x.done →
    x.effect.key ∈ s.leftActive ∨ s.supervisor.Gone c x.effect.id
  settled : ∀ x ∈ s.settlements, s.supervisor.Gone c x.key.2
  settledOnce : (s.settlements.map Settlement.key).Nodup
  unretired : ∀ x ∈ s.settlements, x.retiring → x.key ∈ s.leftActive
  cancelled : ∀ key ∈ s.cancelledFirst, (∀ x ∈ s.claims, x.effect.key ≠ key) ∧
    (s.supervisor.Gone c key.2 ∨ key.1 < s.barrier.1)

theorem filterMap_single {effects : List TxEffect} (h : effects.length ≤ 1) :
    (effects.filterMap attempted).Nodup := by
  have hlen : (effects.filterMap attempted).length ≤ 1 := (List.length_filterMap_le _ _).trans h
  match hl : effects.filterMap attempted with
  | [] => exact List.nodup_nil
  | [x] => exact List.nodup_singleton x
  | x :: y :: l =>
      rw [hl] at hlen
      simp at hlen

/-- The supervisor moves on, and hands over what it asks for. -/
theorem Attributed.moved (hinj : Function.Injective c.idFactory) (h : s.Attributed c)
    {supervisor : Supervisor} {effects : List TxEffect} (hok : supervisor.Ok)
    (hsingle : effects.length ≤ 1) (htracks : Tracks c s.supervisor supervisor effects) :
    ({ s with supervisor, effects := s.effects ++ effects } : EffectService).Attributed c := by
  have hids : ({ s with supervisor, effects := s.effects ++ effects } : EffectService).ids =
      s.ids ++ effects.filterMap attempted := by
    rw [ids, ids, List.filterMap_append, List.append_assoc]
  have hmade : ∀ id ∈ effects.filterMap attempted, Made c s.supervisor supervisor id := by
    intro id hid
    obtain ⟨effect, hmem, heq⟩ := List.mem_filterMap.mp hid
    cases effect with
    | attempt a =>
        cases heq
        exact htracks.made a hmem
    | cancel k => cases heq
  have hold : ∀ a, supervisor.active = some a → s.supervisor.Known c a.id →
      s.supervisor.active = some a := fun a ha hid => htracks.active_of_known hinj ha hid
  constructor
  · exact hok
  · exact htracks.current h.current
  · intro a ha
    rcases htracks.active a ha with hprev | hnew
    · exact htracks.known (h.active a hprev)
    · exact (htracks.made a hnew).known
  · intro id hid
    rw [hids] at hid
    rcases List.mem_append.mp hid with hid | hid
    · exact htracks.known (h.known id hid)
    · exact (hmade id hid).known
  · rw [hids]
    refine h.distinct.append (filterMap_single hsingle) ?_
    intro id hid hnew
    exact (hmade id hnew).fresh hinj (h.known id hid)
  · intro k hk
    rcases List.mem_append.mp hk with hk | hk
    · obtain ⟨hknown, hkey⟩ := h.cancels k hk
      refine ⟨htracks.known hknown, fun a ha heq => ?_⟩
      exact hkey a (hold a ha (heq ▸ hknown)) heq
    · obtain ⟨a, ha, hid, hgeneration⟩ := htracks.cancels k hk
      -- The only effect is this cancellation, so the attempt was active before.
      have hactive : s.supervisor.active = some a := by
        rcases ha with ha | ha
        · exact ha
        · obtain ⟨x, hx⟩ := List.length_eq_one_iff.mp
            (le_antisymm hsingle (List.length_pos_of_mem ha))
          rw [hx] at ha hk
          cases (List.mem_singleton.mp ha).trans (List.mem_singleton.mp hk).symm
      have hknown : s.supervisor.Known c k.attemptId := hid ▸ h.active a hactive
      refine ⟨htracks.known hknown, fun b hb heq => ?_⟩
      have hb' := hold b hb (heq ▸ hknown)
      rw [hactive] at hb'
      cases hb'
      exact Prod.ext hgeneration hid
  · intro x hx a ha heq
    have hknown : s.supervisor.Known c x.effect.id :=
      h.known _ (List.mem_append_left _ (List.mem_map_of_mem hx))
    exact h.same x hx a (hold a ha (heq ▸ hknown)) heq
  · exact fun x hx hdone => (h.finished x hx hdone).imp id (htracks.gone hinj)
  · exact fun x hx => htracks.gone hinj (h.settled x hx)
  · exact h.settledOnce
  · exact h.unretired
  · exact fun key hkey => ⟨(h.cancelled key hkey).1,
      (h.cancelled key hkey).2.imp (htracks.gone hinj) id⟩

/-- The lane, and who waits or calls, are no matter of the attempts. -/
theorem Attributed.lanes (h : s.Attributed c) (lane : Nat) (waiting calls : List Nat) :
    ({ s with lane, waiting, calls } : EffectService).Attributed c :=
  ⟨h.ok, h.current, h.active, h.known, h.distinct, h.cancels, h.same, h.finished, h.settled,
    h.settledOnce, h.unretired, h.cancelled⟩

/-- The barrier only rises. -/
theorem Attributed.barrier (h : s.Attributed c) {barrier : Int × Option String}
    (hle : s.barrier.1 ≤ barrier.1) : ({ s with barrier } : EffectService).Attributed c :=
  ⟨h.ok, h.current, h.active, h.known, h.distinct, h.cancels, h.same, h.finished, h.settled,
    h.settledOnce, h.unretired, fun key hkey => ⟨(h.cancelled key hkey).1,
      (h.cancelled key hkey).2.imp id fun hlt => hlt.trans_le hle⟩⟩

theorem mem_put {x : Claim} (hx : x ∈ (s.put i claim').claims) :
    x = claim' ∨ x ∈ s.claims := (List.mem_or_eq_of_mem_set hx).symm

theorem Attributed.put (h : s.Attributed c) (hi : s.claims[i]? = some claim)
    (heffect : claim'.effect = claim.effect)
    (hfinished : claim'.done → claim.done ∨ claim.effect.key ∈ s.leftActive ∨
      s.supervisor.Gone c claim.effect.id) : (s.put i claim').Attributed c := by
  have hmem : claim ∈ s.claims := List.mem_of_getElem? hi
  have hids : (s.put i claim').ids = s.ids := by
    have hmap : (s.claims.set i claim').map (·.effect.id) = s.claims.map (·.effect.id) := by
      refine List.ext_getElem? fun k => ?_
      rw [List.getElem?_map, List.getElem?_map]
      by_cases hk : k = i
      · subst hk
        rw [hi, List.getElem?_set_self (List.getElem?_eq_some_iff.mp hi).1, Option.map_some,
          Option.map_some, heffect]
      · rw [List.getElem?_set_ne (Ne.symm hk)]
    rw [ids, ids]
    exact congrArg (· ++ _) hmap
  constructor
  · exact h.ok
  · exact h.current
  · exact h.active
  · rw [hids]
    exact h.known
  · rw [hids]
    exact h.distinct
  · exact h.cancels
  · intro x hx a ha heq
    rcases mem_put hx with rfl | hx
    · rw [heffect] at heq ⊢
      exact h.same claim hmem a ha heq
    · exact h.same x hx a ha heq
  · intro x hx hdone
    rcases mem_put hx with rfl | hx
    · rw [heffect]
      rcases hfinished hdone with hold | hnew
      · exact h.finished claim hmem hold
      · exact hnew
    · exact h.finished x hx hdone
  · exact h.settled
  · exact h.settledOnce
  · exact h.unretired
  · intro key hkey
    refine ⟨fun x hx => ?_, (h.cancelled key hkey).2⟩
    rcases mem_put hx with rfl | hx
    · rw [heffect]
      exact (h.cancelled key hkey).1 claim hmem
    · exact (h.cancelled key hkey).1 x hx

theorem Attributed.left (h : s.Attributed c) {leftActive : List Key}
    (hsub : ∀ key ∈ s.leftActive, key ∈ leftActive) :
    ({ s with leftActive } : EffectService).Attributed c :=
  ⟨h.ok, h.current, h.active, h.known, h.distinct, h.cancels, h.same,
    fun x hx hdone => (h.finished x hx hdone).imp (hsub _) id, h.settled, h.settledOnce,
    fun x hx hretiring => hsub _ (h.unretired x hx hretiring), h.cancelled⟩

theorem Attributed.drop (h : s.Attributed c) (effect : TxEffect) :
    ({ s with effects := s.effects.erase effect } : EffectService).Attributed c := by
  have hsub : List.Sublist ({ s with effects := s.effects.erase effect } :
    EffectService).ids s.ids :=
    (List.Sublist.refl _).append (List.erase_sublist.filterMap _)
  exact ⟨h.ok, h.current, h.active, fun id hid => h.known id (hsub.subset hid),
    h.distinct.sublist hsub, fun k hk => h.cancels k (List.mem_of_mem_erase hk), h.same, h.finished,
    h.settled, h.settledOnce, h.unretired, h.cancelled⟩

/-- A call of the service claims the active attempt. -/
theorem Attributed.claimed (h : s.Attributed c) {a : ProviderAttempt} (ha : .attempt a ∈ s.effects)
    (hactive : s.supervisor.active = some a) (hbarrier : s.barrier.1 ≤ a.providerGeneration)
    (blockers waiting : List Nat) :
    ({ s with
        effects := s.effects.erase (.attempt a), barrier := (a.providerGeneration, none), waiting
        claims := s.claims ++ [{ effect := a, blockers }] } : EffectService).Attributed c := by
  have hperm : List.Perm s.ids
      ((s.claims ++ [({ effect := a, blockers } : Claim)]).map (·.effect.id) ++
        (s.effects.erase (.attempt a)).filterMap attempted) := by
    have herase := (List.perm_cons_erase ha).filterMap attempted
    rw [List.map_append, List.append_assoc]
    exact herase.append_left _
  have hdrop := h.drop (.attempt a)
  have hsplit : ∀ x ∈ s.claims ++ [({ effect := a, blockers } : Claim)],
      x ∈ s.claims ∨ x = { effect := a, blockers } := by
    intro x hx
    rcases List.mem_append.mp hx with hx | hx
    · exact .inl hx
    · exact .inr (List.mem_singleton.mp hx)
  constructor
  · exact h.ok
  · exact h.current
  · exact h.active
  · exact fun id hid => h.known id (hperm.mem_iff.mpr hid)
  · exact hperm.nodup_iff.mp h.distinct
  · exact hdrop.cancels
  · intro x hx b hb heq
    rcases hsplit x hx with hx | rfl
    · exact h.same x hx b hb heq
    · exact Option.some.inj (hb.symm.trans hactive)
  · intro x hx hdone
    rcases hsplit x hx with hx | rfl
    · exact h.finished x hx hdone
    · cases hdone
  · exact h.settled
  · exact h.settledOnce
  · exact h.unretired
  · intro key hkey
    obtain ⟨hunclaimed, hlost⟩ := h.cancelled key hkey
    refine ⟨fun x hx => ?_, hlost.imp id fun hlt => hlt.trans_le hbarrier⟩
    rcases hsplit x hx with hx | rfl
    · exact hunclaimed x hx
    · rintro rfl
      -- The attempt is active, and of a generation that the barrier lets pass.
      rcases hlost with hgone | hlt
      · exact hgone.2 a hactive rfl
      · exact absurd hbarrier (not_le.mpr hlt)

/-- A key is cancelled that was never claimed. -/
theorem Attributed.cancelFirst (h : s.Attributed c) {key : Key}
    (hunclaimed : ∀ x ∈ s.claims, x.effect.key ≠ key)
    (hlost : s.supervisor.Gone c key.2 ∨ key.1 < s.barrier.1) :
    ({ s with cancelledFirst := key :: s.cancelledFirst } : EffectService).Attributed c := by
  refine ⟨h.ok, h.current, h.active, h.known, h.distinct, h.cancels, h.same, h.finished, h.settled,
    h.settledOnce, h.unretired, fun key' hkey' => ?_⟩
  rcases List.mem_cons.mp hkey' with rfl | hkey'
  · exact ⟨hunclaimed, hlost⟩
  · exact h.cancelled key' hkey'

/-! ## Settlements -/

variable {key : Key} {succeeded : Bool} {error : Option String} {r : TxTransition × Supervisor}

/-- The service after a settlement. -/
def Settled (s : EffectService) (key : Key) (r : TxTransition × Supervisor) : EffectService :=
  { s with
    supervisor := r.2
    effects := s.effects ++ r.1.effects
    settlements := ⟨key, s.Retiring key⟩ :: s.settlements }

theorem settle_eq_some (h : s.settle c key succeeded error = some s') :
    ∃ r, s.supervisor.settleAttempt c key.2 key.1 succeeded error = .ok r ∧
      s' = s.Settled key r := by
  rw [settle] at h
  split at h
  · rename_i t supervisor hsettle
    exact ⟨(t, supervisor), hsettle, (Option.some.inj h).symm⟩
  · cases h

theorem Attributed.settled_gone (hinj : Function.Injective c.idFactory) (h : s.Attributed c)
    (hknown : s.supervisor.Known c key.2)
    (hkey : ∀ a, s.supervisor.active = some a → a.id = key.2 → a.key = key)
    (hr : s.supervisor.settleAttempt c key.2 key.1 succeeded error = .ok r) :
    r.2.Gone c key.2 := gone_of_settle hinj hknown h.current hkey hr

theorem Attributed.settle (hinj : Function.Injective c.idFactory) (h : s.Attributed c)
    (hgone : r.2.Gone c key.2) (hnew : key ∉ s.settlements.map Settlement.key)
    (hretiring : s.Retiring key → key ∈ s.leftActive)
    (hr : s.supervisor.settleAttempt c key.2 key.1 succeeded error = .ok r) :
    (s.Settled key r).Attributed c := by
  have hcall : call c s.supervisor (.settleAttempt key.2 key.1 succeeded error) =
      .ok (some r.1, r.2) := by
    rw [call, hr]
    rfl
  have hspec := callSpec_of_call h.ok hcall
  have hm := h.moved hinj hspec.ok hspec.single (tracks_of_call hcall)
  refine ⟨hm.ok, hm.current, hm.active, hm.known, hm.distinct, hm.cancels, hm.same, hm.finished,
    ?_, ?_, ?_, hm.cancelled⟩
  · intro x hx
    rcases List.mem_cons.mp hx with rfl | hx
    · exact hgone
    · exact hm.settled x hx
  · exact List.nodup_cons.mpr ⟨hnew, h.settledOnce⟩
  · intro x hx hx'
    rcases List.mem_cons.mp hx with rfl | hx
    · exact hretiring (of_decide_eq_true hx')
    · exact h.unretired x hx hx'

/-! ## Both invariants -/

structure Sound (c : Config) (s : EffectService) : Prop extends Attributed c s, Ordered s where
  /-- The claim of a settled attempt is done. -/
  closed : ∀ x ∈ s.settlements, ∀ y ∈ s.claims, y.effect.key = x.key → y.done

theorem Sound.initial : ({} : EffectService).Sound c where
  ok := .initial
  current _ h := by cases h
  active _ h := by cases h
  known _ h := absurd h List.not_mem_nil
  distinct := List.nodup_nil
  cancels _ h := absurd h List.not_mem_nil
  same _ h := absurd h List.not_mem_nil
  finished _ h := absurd h List.not_mem_nil
  settled _ h := absurd h List.not_mem_nil
  settledOnce := List.nodup_nil
  unretired _ h := absurd h List.not_mem_nil
  cancelled _ h := absurd h List.not_mem_nil
  earlier _ _ _ _ h := by cases h
  admitted _ _ h := by cases h
  called _ h := absurd h List.not_mem_nil
  inOrder := .nil
  running _ _ h := by cases h
  closed _ h := absurd h List.not_mem_nil

theorem Sound.put (h : s.Sound c) (hi : s.claims[i]? = some claim) (hgoes : s.Goes claim claim')
    (hfinished : claim'.done → claim.done ∨ claim.effect.key ∈ s.leftActive ∨
      s.supervisor.Gone c claim.effect.id) : (s.put i claim').Sound c := by
  refine { h.toAttributed.put hi hgoes.effect hfinished, h.toOrdered.put hi hgoes with
    closed := ?_ }
  intro x hx y hy hkey
  rcases mem_put hy with rfl | hy
  · refine hgoes.done (h.closed x hx claim (List.mem_of_getElem? hi) ?_)
    rw [← hgoes.effect]
    exact hkey
  · exact h.closed x hx y hy hkey

theorem Sound.lanes (h : s.Sound c) (lane : Nat) (waiting : List Nat) :
    ({ s with lane, waiting } : EffectService).Sound c :=
  { h.toAttributed.lanes lane waiting s.calls, h.toOrdered.congr rfl rfl with closed := h.closed }

/-- The task of a claim moves on while the claim stays as it is. -/
theorem Goes.stage {stage : Stage} {lane : Option Nat}
    (hadmitted : Admitted { claim with stage, lane } → Admitted claim ∨
    ∀ b ∈ claim.blockers, s.Done b)
    (hpast : Past claim → Past { claim with stage, lane })
    (hrunning : claim.done → (∀ error, stage ≠ .ended error) → claim.retirement = some .ended) :
    s.Goes claim { claim with stage, lane } :=
  ⟨rfl, rfl, id, hadmitted, hpast, hrunning⟩

theorem Sound.ended (h : s.Sound c) (hi : s.claims[i]? = some claim) (error : Option String) :
    (s.put i { claim with stage := .ended error }).Sound c := by
  refine h.put hi (.stage ?_ (fun _ => .inr ⟨error, rfl⟩) ?_) .inl
  · rintro (⟨lane, hlane⟩ | ⟨lane, hlane⟩)
    · cases hlane
    · cases hlane
  · exact fun _ hne => absurd rfl (hne error)

/-! ## The table -/

theorem live_iff : i ∈ s.live ↔ i < s.claims.length ∧ ¬ s.Done i := by
  rw [live, List.mem_filter, List.mem_range, decide_eq_true_iff]

theorem liveClaim_some (h : s.liveClaim key = some i) :
    ∃ claim, s.claims[i]? = some claim ∧ ¬ claim.done ∧ claim.effect.key = key := by
  have hlive := (live_iff.mp (List.mem_of_find?_eq_some h))
  have hkey := List.find?_some h
  obtain ⟨claim, hclaim⟩ : ∃ claim, s.claims[i]? =
    some claim := ⟨_, List.getElem?_eq_getElem hlive.1⟩
  rw [hclaim, Option.any_some, decide_eq_true_iff] at hkey
  exact ⟨claim, hclaim, fun hdone => hlive.2 ⟨claim, hclaim, hdone⟩, hkey⟩

theorem liveClaim_none (h : s.liveClaim key = none) {x : Claim} (hx : x ∈ s.claims)
    (hkey : x.effect.key = key) : x.done := by
  obtain ⟨k, hk⟩ := List.getElem?_of_mem hx
  by_contra hdone
  have hlive : k ∈ s.live := by
    refine live_iff.mpr ⟨(List.getElem?_eq_some_iff.mp hk).1, ?_⟩
    rintro ⟨y, hy, hydone⟩
    rw [Option.mem_def, hk] at hy
    cases hy
    exact hdone hydone
  have hnone := List.find?_eq_none.mp h k hlive
  rw [hk, Option.any_some, decide_eq_true_iff] at hnone
  exact hnone hkey

/-- Two claims of one key are one. -/
theorem Attributed.claim_unique (h : s.Attributed c) {x y : Claim} (hx : s.claims[i]? = some x)
    (hy : s.claims[j]? = some y) (hid : x.effect.id = y.effect.id) : i = j := by
  have hnodup : (s.claims.map (·.effect.id)).Nodup :=
    h.distinct.sublist (List.sublist_append_left _ _)
  refine (List.getElem?_inj ?_ hnodup).mp ?_
  · rw [List.length_map]
    exact (List.getElem?_eq_some_iff.mp hx).1
  · rw [List.getElem?_map, List.getElem?_map, hx, hy, Option.map_some, Option.map_some, hid]

/-! ## Steps -/

theorem Sound.supervise (hinj : Function.Injective c.idFactory) (h : s.Sound c) {op : Op}
    (hstep : s.supervise c op = some s') : s'.Sound c := by
  have hmoved : ∀ {t supervisor}, call c s.supervisor op = .ok (t, supervisor) →
      ({ s with supervisor, effects := s.effects ++ effectsOf t } : EffectService).Sound c := by
    intro t supervisor hcall
    have hspec := callSpec_of_call h.ok hcall
    exact { h.toAttributed.moved hinj hspec.ok hspec.single (tracks_of_call hcall),
      h.toOrdered.congr rfl rfl with closed := h.closed }
  rw [supervise.eq_def] at hstep
  split at hstep
  · cases hstep
  · split at hstep
    · rename_i t supervisor hcall
      cases hstep
      exact hmoved hcall
    · cases hstep
      exact h
    · cases hstep

theorem Sound.attempt (h : s.Sound c) {a : ProviderAttempt} (ha : .attempt a ∈ s.effects) :
    (({ s with effects := s.effects.erase (.attempt a) } : EffectService).attempt a).Sound c := by
  have hdrop : ({ s with effects := s.effects.erase (.attempt a) } : EffectService).Sound c :=
    { h.toAttributed.drop _, h.toOrdered.congr rfl rfl with closed := h.closed }
  rw [EffectService.attempt]
  split
  · exact hdrop
  split
  · exact hdrop
  · rename_i hguard hbarrier
    have hactive : s.supervisor.active = some a := by
      by_contra hne
      exact hguard (.inr (.inr hne))
    have hclaimed := h.toAttributed.claimed ha hactive (not_lt.mp hbarrier) s.live
      (s.claims.length :: s.waiting)
    have hordered := (h.toOrdered.claimed a (a.providerGeneration, none)
      (s.claims.length :: s.waiting))
    refine { hclaimed, hordered.congr rfl rfl with closed := ?_ }
    intro x hx y hy hkey
    rcases List.mem_append.mp hy with hy | hy
    · exact h.closed x hx y hy hkey
    · -- A settled attempt is not active.
      rw [List.mem_singleton.mp hy] at hkey
      refine absurd ?_ ((h.settled x hx).2 a hactive)
      rw [← hkey]
      rfl

/-- A cancellation is put down that came before any claim of its key. -/
theorem Sound.noted (h : s.Sound c) (key : Key)
    (hlost : s.supervisor.Gone c key.2 ∨ key.1 < s.barrier.1) : (s.noted key).Sound c := by
  rw [EffectService.noted]
  split
  · exact h
  · rename_i hnone
    have hunclaimed : ∀ x ∈ s.claims, x.effect.key ≠ key := fun x hx heq => hnone ⟨x, hx, heq⟩
    exact { h.toAttributed.cancelFirst hunclaimed hlost, h.toOrdered.congr rfl rfl with
      closed := h.closed }

/-- The settlement of a claim that is not done and not retiring, which ends it. -/
theorem Sound.settle_claim (hinj : Function.Injective c.idFactory) (h : s.Sound c)
    (hi : s.claims[i]? = some claim) (hopen : ¬ claim.done) (hretirement : claim.retirement = none)
    (hended : claim.stage = .ended error)
    (hr : s.supervisor.settleAttempt c claim.effect.key.2 claim.effect.key.1 succeeded error =
      .ok r) :
    ((s.Settled claim.effect.key r).finish i claim).Sound c := by
  have hmem : claim ∈ s.claims := List.mem_of_getElem? hi
  have hknown : s.supervisor.Known c claim.effect.id :=
    h.known _ (List.mem_append_left _ (List.mem_map_of_mem hmem))
  have hgone : r.2.Gone c claim.effect.key.2 := by
    refine h.settled_gone hinj hknown (fun a ha hid => ?_) hr
    rw [h.same claim hmem a ha hid]
  have hnew : claim.effect.key ∉ s.settlements.map Settlement.key := by
    intro hold
    obtain ⟨x, hx, hkey⟩ := List.mem_map.mp hold
    exact hopen (h.closed x hx claim hmem hkey.symm)
  have honly : ∀ y ∈ s.claims, y.effect.key = claim.effect.key → y = claim := by
    intro y hy hkey
    obtain ⟨k, hk⟩ := List.getElem?_of_mem hy
    have hik := h.claim_unique hk hi (congrArg Prod.snd hkey)
    rw [hik, hi] at hk
    exact (Option.some.inj hk).symm
  have hretiring : s.Retiring claim.effect.key → claim.effect.key ∈ s.leftActive := by
    rintro ⟨y, hy, hkey, hsome⟩
    rw [honly y hy hkey, hretirement] at hsome
    cases hsome
  have hsettled := h.toAttributed.settle hinj hgone hnew hretiring hr
  have hgoes : (s.Settled claim.effect.key r).Goes claim { claim with done := true } :=
    ⟨rfl, rfl, fun _ => rfl, .inl, id, fun _ hne => absurd hended (hne _)⟩
  have hordered : (s.Settled claim.effect.key r).Ordered := h.toOrdered.congr rfl rfl
  have hput : ((s.Settled claim.effect.key r).put i { claim with done := true }).Attributed c :=
    hsettled.put hi rfl fun _ => .inr (.inr hgone)
  refine { hput, hordered.put hi hgoes with closed := ?_ }
  intro x hx y hy hkey
  obtain ⟨k, hk⟩ := List.getElem?_of_mem hy
  by_cases hki : k = i
  · subst hki
    have hput : (((s.Settled claim.effect.key r).finish k claim).claims)[k]? =
        some { claim with done := true } := put_same hi
    rw [hput] at hk
    cases hk
    rfl
  · have hother : s.claims[k]? = some y :=
      (put_other (s := s.Settled claim.effect.key r) hki).symm.trans hk
    rcases List.mem_cons.mp hx with rfl | hx
    · exact absurd (h.claim_unique hother hi (congrArg Prod.snd hkey)) hki
    · exact h.closed x hx y (List.mem_of_getElem? hother) hkey

/-- The branch of `_cancel` without a claim settles the attempt, or changes nothing. -/
theorem cancelUnclaimed_cases {k : CancelProviderAttempt} (h : s.cancelUnclaimed c k = some s') :
    (∃ a r, s.supervisor.active = some a ∧ a.key = k.key ∧ s.barrier.1 ≤ k.providerGeneration ∧
      s.supervisor.settleAttempt c a.key.2 a.key.1 false none = .ok r ∧
      s' = ({ s with barrier := (k.providerGeneration, some k.attemptId) } : EffectService).Settled
        a.key r) ∨
    s' = s ∧ ∀ a, s.supervisor.active = some a → a.key = k.key →
      k.providerGeneration < s.barrier.1 := by
  rw [cancelUnclaimed] at h
  split at h
  · rename_i a hactive
    split at h
    · rename_i hclaimable
      obtain ⟨r, hr, hs'⟩ := settle_eq_some h
      exact .inl ⟨a, r, hactive, hclaimable.1, hclaimable.2, hr, hs'⟩
    · rename_i hrefused
      refine .inr ⟨(Option.some.inj h).symm, fun b hb hkey => ?_⟩
      rw [Option.some.inj (hactive.symm.trans hb)] at hrefused
      exact not_le.mp fun hle => hrefused ⟨hkey, hle⟩
  · rename_i hactive
    refine .inr ⟨(Option.some.inj h).symm, fun b hb => ?_⟩
    rw [hactive] at hb
    cases hb

/-- The settlement of an attempt that is active under a key with no claim in the table. -/
theorem Sound.settle_unclaimed (hinj : Function.Injective c.idFactory) (h : s.Sound c)
    {a : ProviderAttempt} (ha : s.supervisor.active = some a) (hnone : s.liveClaim a.key = none)
    (barrier : Int × Option String) (hbarrier : s.barrier.1 ≤ barrier.1)
    (hr : s.supervisor.settleAttempt c a.key.2 a.key.1 succeeded error = .ok r) :
    r.2.Gone c a.key.2 ∧ (({ s with barrier } : EffectService).Settled a.key r).Sound c := by
  have hrisen : ({ s with barrier } : EffectService).Attributed c := h.toAttributed.barrier hbarrier
  have hgone : r.2.Gone c a.key.2 := by
    refine hrisen.settled_gone hinj (h.active a ha) (fun b hb _ => ?_) hr
    rw [Option.some.inj (hb.symm.trans ha)]
  have hnew : a.key ∉ s.settlements.map Settlement.key := by
    intro hold
    obtain ⟨x, hx, hxkey⟩ := List.mem_map.mp hold
    refine (h.settled x hx).2 a ha ?_
    rw [hxkey]
    rfl
  have hretiring : s.Retiring a.key → a.key ∈ s.leftActive := by
    rintro ⟨y, hy, hykey, -⟩
    rcases h.finished y hy (liveClaim_none hnone hy hykey) with hleft | hlost
    · rw [← hykey]
      exact hleft
    · exact absurd (congrArg Prod.snd hykey).symm (hlost.2 a ha)
  refine ⟨hgone, { hrisen.settle hinj hgone hnew hretiring hr, h.toOrdered.congr rfl rfl with
    closed := ?_ }⟩
  intro x hx y hy hxkey
  rcases List.mem_cons.mp hx with rfl | hx
  · exact liveClaim_none hnone hy hxkey
  · exact h.closed x hx y hy hxkey

/-- `_cancel`, of an attempt that is active under its own key if it is active at all. -/
theorem Sound.cancel (hinj : Function.Injective c.idFactory) (h : s.Sound c)
    {k : CancelProviderAttempt} (hknown : s.supervisor.Known c k.attemptId)
    (hkey : ∀ a, s.supervisor.active = some a → a.id = k.attemptId → a.key = k.key)
    (hstep : s.cancel c k = some s') : s'.Sound c := by
  rw [EffectService.cancel] at hstep
  split at hstep
  · rename_i hnone
    rcases cancelUnclaimed_cases hstep with ⟨a, r, ha, heq, hbarrier, hr, rfl⟩ | ⟨rfl, hrefused⟩
    · rw [← heq] at hnone
      obtain ⟨hgone, hsettled⟩ := h.settle_unclaimed hinj ha hnone
        (k.providerGeneration, some k.attemptId) hbarrier hr
      refine hsettled.noted k.key (.inl ?_)
      rw [← heq]
      exact hgone
    · refine h.noted k.key ?_
      by_cases hactive : ∃ a, s.supervisor.active = some a ∧ a.id = k.attemptId
      · obtain ⟨a, ha, hid⟩ := hactive
        exact .inr (hrefused a ha (hkey a ha hid))
      · exact .inl ⟨hknown, fun a ha hid => hactive ⟨a, ha, hid⟩⟩
  · rename_i i hi
    obtain ⟨claim, hclaim, hopen, -⟩ := liveClaim_some hi
    rw [hclaim, Option.map_some] at hstep
    cases hstep
    refine Sound.lanes ?_ s.lane (i :: s.waiting)
    split
    · exact h.put hclaim ⟨rfl, rfl, id, .inl, id, fun hdone => absurd hdone hopen⟩ .inl
    · exact h.put hclaim ⟨rfl, rfl, id, .inl, id, fun hdone => absurd hdone hopen⟩ .inl

/-- The retirement of a claim ends, and either leaves its attempt active or finds it gone. -/
theorem Sound.retired (h : s.Sound c) (hi : s.claims[i]? = some claim) :
    (s.retired i claim).Sound c := by
  have hmem : claim ∈ s.claims := List.mem_of_getElem? hi
  have hleft : ({ s with leftActive :=
      if s.supervisor.active = some claim.effect then claim.effect.key :: s.leftActive
      else s.leftActive } : EffectService).Sound c := by
    refine { h.toAttributed.left ?_, h.toOrdered.congr rfl rfl with closed := h.closed }
    intro key hkey
    split
    · exact List.mem_cons_of_mem _ hkey
    · exact hkey
  refine hleft.put hi ⟨rfl, rfl, fun _ => rfl, .inl, id, fun _ _ => rfl⟩ fun _ => .inr ?_
  by_cases hactive : s.supervisor.active = some claim.effect
  · refine .inl ?_
    simp only [if_pos hactive]
    exact List.mem_cons_self
  · refine .inr ⟨h.known _ (List.mem_append_left _ (List.mem_map_of_mem hmem)), fun a ha hid => ?_⟩
    rw [h.same claim hmem a ha hid] at ha
    exact hactive ha

theorem Sound.act (hinj : Function.Injective c.idFactory) (h : s.Sound c)
    (hi : s.claims[i]? = some claim) {action : ServiceAction}
    (hstep : s.act c i claim action = some s') :
    s'.Sound c := by
  rw [EffectService.act.eq_def] at hstep
  split at hstep
  · split at hstep
    · rename_i hguard
      obtain ⟨hblocked, hdone⟩ := hguard
      cases hstep
      rw [EffectService.admitted]
      split
      · exact h.ended hi none
      · refine h.put hi (.stage (fun _ => .inr hdone) ?_ ?_) .inl
        · rintro (⟨lane, hlane⟩ | ⟨error, herror⟩)
          · rw [hblocked] at hlane
            cases hlane
          · rw [hblocked] at herror
            cases herror
        · intro hd
          contradiction
    · cases hstep
  · split at hstep
    · rename_i lane hqueued
      split at hstep
      · cases hstep
        rw [EffectService.entered]
        split
        · exact h.ended hi none
        · rename_i hfree
          have hopen : ¬ claim.done := fun hdone => hfree (.inl hdone)
          have hput : (s.put i { claim with stage := .calling lane }).Sound c :=
            h.put hi ⟨rfl, rfl, id, fun _ => .inl (.inl ⟨lane, hqueued⟩), fun _ => .inl ⟨lane, rfl⟩,
              fun hdone => absurd hdone hopen⟩ .inl
          exact { hput.toAttributed.lanes s.lane s.waiting (s.calls ++ [i]),
            h.toOrdered.call hi hqueued hopen with closed := hput.closed }
      · cases hstep
    · cases hstep
  · split at hstep
    · cases hstep
      exact h.ended hi _
    · cases hstep
  · split at hstep
    · cases hstep
    · split at hstep
      · cases hstep
        exact h.ended hi _
      · cases hstep
  · split at hstep
    · rename_i error hended
      split at hstep
      · have hwaiting := h.lanes s.lane (s.waiting.erase i)
        rw [EffectService.woken] at hstep
        split at hstep
        · cases hstep
          exact hwaiting
        · rename_i hfree
          obtain ⟨m, hm, hfinish⟩ := Option.map_eq_some_iff.mp hstep
          obtain ⟨r, hr, rfl⟩ := settle_eq_some hm
          subst hfinish
          refine hwaiting.settle_claim hinj hi (fun hdone => hfree (.inr hdone)) ?_ hended hr
          exact Option.not_isSome_iff_eq_none.mp fun hsome => hfree (.inl hsome)
      · cases hstep
    · cases hstep
  · split at hstep
    · cases hstep
    · split at hstep
      · cases hstep
        have hwaiting := h.lanes s.lane (s.waiting.erase i)
        rw [poison]
        split
        · exact hwaiting
        · rename_i hopen
          split
          · exact hwaiting
          · refine Sound.lanes ?_ _ (s.waiting.erase i)
            exact hwaiting.put hi ⟨rfl, rfl, id, .inl, id, fun hdone => absurd hdone hopen⟩ .inl
      · cases hstep
  · split at hstep
    · cases hstep
      exact h.retired hi
    · cases hstep
  · cases hstep

theorem Sound.step (hinj : Function.Injective c.idFactory) (h : s.Sound c) {action : ServiceAction}
    (hstep : step c s action = some s') : s'.Sound c := by
  have hact : ∀ {i}, (s.claims[i]?.bind fun claim => s.act c i claim action) = some s' →
    s'.Sound c := by
    intro i hbind
    obtain ⟨claim, hi, hact⟩ := Option.bind_eq_some_iff.mp hbind
    exact h.act hinj hi hact
  cases action with
  | supervise op => exact h.supervise hinj hstep
  | process effect =>
      rw [EffectService.step, process.eq_def] at hstep
      split at hstep
      · cases hstep
      · rename_i hmem
        rw [not_not] at hmem
        cases effect with
        | attempt a =>
            cases hstep
            exact h.attempt hmem
        | cancel k =>
            obtain ⟨hknown, hkey⟩ := h.cancels k hmem
            have hdrop : ({ s with effects := s.effects.erase (.cancel k) } :
              EffectService).Sound c :=
              { h.toAttributed.drop _, h.toOrdered.congr rfl rfl with closed := h.closed }
            exact hdrop.cancel hinj hknown hkey hstep
  | abandoned i =>
      rw [EffectService.step] at hstep
      split at hstep
      · cases hstep
        exact h.lanes s.lane (s.waiting.erase i)
      · cases hstep
  | admitted i => exact hact hstep
  | entered i => exact hact hstep
  | callEnded i error => exact hact hstep
  | taskCancelled i => exact hact hstep
  | woken i => exact hact hstep
  | expired i => exact hact hstep
  | retired i => exact hact hstep

/-! ## Runs -/

theorem mem_callsOf (h : i ∈ s.callsOf key) :
    i ∈ s.calls ∧ ∃ claim, s.claims[i]? = some claim ∧ claim.effect.key = key := by
  obtain ⟨hmem, hkey⟩ := List.mem_filter.mp h
  obtain ⟨claim, hi, heq⟩ := (Option.any_eq_true _ _).mp hkey
  exact ⟨hmem, claim, hi, of_decide_eq_true heq⟩

theorem Sound.safe (h : s.Sound c) : s.Safe where
  calledOnce key := by
    have hnodup : (s.callsOf key).Nodup := (h.inOrder.imp fun hlt => hlt.ne).filter _
    have hsame : ∀ i ∈ s.callsOf key, ∀ j ∈ s.callsOf key, i = j := by
      intro i hi j hj
      obtain ⟨-, x, hx, hxkey⟩ := mem_callsOf hi
      obtain ⟨-, y, hy, hykey⟩ := mem_callsOf hj
      exact h.claim_unique hx hy (congrArg Prod.snd (hxkey.trans hykey.symm))
    match hl : s.callsOf key with
    | [] => exact Nat.zero_le _
    | [i] => exact le_rfl
    | i :: j :: l =>
        rw [hl] at hnodup hsame
        have heq := hsame i List.mem_cons_self j (List.mem_cons_of_mem _ List.mem_cons_self)
        rw [heq] at hnodup
        exact absurd List.mem_cons_self (List.nodup_cons.mp hnodup).1
  settledOnce := h.settledOnce
  unretired := h.unretired
  overlap := h.toOrdered.overlap
  cancelled key hkey := by
    refine List.eq_nil_iff_forall_not_mem.mpr fun i hi => ?_
    obtain ⟨-, claim, hclaim, heq⟩ := mem_callsOf hi
    exact (h.cancelled key hkey).1 claim (List.mem_of_getElem? hclaim) heq

end EffectService

open EffectService

/-- Every state that a run of the service reaches is safe, where identifiers are never reused. -/
theorem EffectService.attempts_safe {c : Config} (hinj : Function.Injective c.idFactory)
    {actions : List ServiceAction} {s : EffectService}
    (h : Runs.exec (EffectService.step c) {} actions = some s) : s.Safe :=
  (Runs.exec_invariant (fun _ _ _ hs hstep => hs.step hinj hstep) h Sound.initial).safe

/-- A still clock, and an identifier that grows with each attempt. -/
def Config.counting : Config where
  clock _ := 0
  idFactory n := String.ofList (List.replicate (n + 1) 'i')
  watchdogSeconds := none
  writeTimeout := 1
  readTimeout := 1
  cancelTimeout := 1
  retries := [1]
  watchdog_pos := noWatchdog_pos
  timeouts_pos := Config.still.timeouts_pos
  retries_nonempty := Config.still.retries_nonempty
  retries_nonneg := Config.still.retries_nonneg
  retries_sorted := Config.still.retries_sorted

theorem Config.counting_injective : Function.Injective Config.counting.idFactory := by
  intro m n h
  have hlist := congrArg (fun text => text.toList.length) h
  simpa [Config.counting] using hlist

/-- The `WRITE_ON` that the calls of `keyDown` start, under the lease `i`. -/
def ProviderAttempt.second : ProviderAttempt := ⟨"ii", .writeOn, 1, "i", 0, 1⟩

/-- Its provider call is on the way. -/
def callingOn : List ServiceAction :=
  keyDown.map .supervise ++ [.process (.attempt .second), .admitted 0, .entered 0]

theorem EffectService.attempts_safe_settled : ∃ s,
    Runs.exec (EffectService.step .counting) {}
      (callingOn ++ [.callEnded 0 none, .woken 0]) = some s ∧
      s.settlements = [⟨ProviderAttempt.second.key, false⟩] ∧ s.Safe := by
  have h : Runs.exec (EffectService.step .counting) {}
      (callingOn ++ [.callEnded 0 none, .woken 0]) = some _ := rfl
  exact ⟨_, h, rfl, EffectService.attempts_safe Config.counting_injective h⟩

/-- The retirement of the attempt ends, but the supervisor is not told of another provider.  A
release then cancels the attempt, whose claim is no longer in the table, and it is settled. -/
def retiredAndCancelled : List ServiceAction :=
  callingOn ++ [.expired 0, .retired 0, .supervise (.requestOff .operator "i" .operatorRelease),
    .process (.cancel ⟨"ii", 1, 0, 1, 1⟩)]

theorem EffectService.settled_after_retirement : ¬ ∀ c : Config, Function.Injective c.idFactory →
    ∀ actions s, Runs.exec (EffectService.step c) {} actions = some s →
      ∀ x ∈ s.settlements, ¬ x.retiring := by
  intro h
  have hany : (Runs.exec (EffectService.step .counting) {} retiredAndCancelled).any
      (fun s => s.settlements.any Settlement.retiring) = true := by decide +kernel
  obtain ⟨s, hrun, hsettled⟩ := (Option.any_eq_true _ _).mp hany
  obtain ⟨x, hx, hretiring⟩ := List.any_eq_true.mp hsettled
  exact h .counting Config.counting_injective _ s hrun x hx hretiring

end Rigplane.TxSafety
