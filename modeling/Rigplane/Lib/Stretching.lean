import Mathlib.Algebra.BigOperators.Group.List.Basic
import Mathlib.Algebra.Order.BigOperators.Group.List
import Mathlib.Algebra.Order.Field.Basic
import Mathlib.Data.List.Nodup
import Mathlib.Tactic.Linarith
import Mathlib.Tactic.Ring

/-!
# Periods stretched to a limit

Each of some items asks for a share `weight i / c i` of a capacity, where the period `c i` starts at
`start i` and may grow to `ceiling i`.  Going through the items in a fixed order, the periods are
stretched as long as the shares and a fixed demand add up to more than a limit: an item to the
period with which the limit is met, if its ceiling allows it, and to its ceiling otherwise.

`Filled` says what holds after some of the items.  An item is stretched only if all before it are at
their ceilings, and what is stretched leaves no room under the limit.
-/

namespace Stretching

variable {ι K : Type*} [DecidableEq ι] [Field K] [LinearOrder K] [IsStrictOrderedRing K]

structure Problem (ι K : Type*) [Field K] [LinearOrder K] where
  order : List ι
  weight : ι → K
  start : ι → K
  ceiling : ι → K
  base : K
  limit : K
  nodup : order.Nodup
  weight_pos : ∀ i, 0 < weight i
  start_pos : ∀ i, 0 < start i
  start_le : ∀ i, start i ≤ ceiling i

namespace Problem

variable (p : Problem ι K)

def demand (c : ι → K) : K := p.base + (p.order.map fun i => p.weight i / c i).sum

/-- The share that the item still has to ask for if the limit is to be met. -/
def need (c : ι → K) (i : ι) : K := p.weight i / c i - (p.demand c - p.limit)

/-- The period of an item is stretched, if the limit is exceeded. -/
def stretch (c : ι → K) (i : ι) : ι → K :=
  if p.demand c ≤ p.limit then c
  else Function.update c i
    (if p.need c i ≤ 0 then p.ceiling i else min (p.ceiling i) (p.weight i / p.need c i))

def stretched : ι → K := p.order.foldl p.stretch p.start

variable {p} {c : ι → K} {i : ι} {x : K}

theorem demand_update (hi : i ∈ p.order) :
    p.demand (Function.update c i x) = p.demand c - p.weight i / c i + p.weight i / x := by
  obtain ⟨pre, post, heq⟩ := List.append_of_mem hi
  have hnodup := p.nodup
  rw [heq] at hnodup
  have hother : ∀ l : List ι, i ∉ l →
      l.map (fun j => p.weight j / Function.update c i x j) = l.map fun j => p.weight j / c j := by
    intro l hl
    refine List.map_congr_left fun j hj => ?_
    rw [Function.update_of_ne]
    rintro rfl
    exact hl hj
  have hpre : i ∉ pre := fun hmem =>
    (List.disjoint_of_nodup_append hnodup) hmem List.mem_cons_self
  have hpost : i ∉ post := (List.nodup_cons.mp hnodup.of_append_right).1
  simp only [demand, heq, List.map_append, List.map_cons, List.sum_append, List.sum_cons,
    hother pre hpre, hother post hpost, Function.update_self]
  ring

omit [DecidableEq ι] [IsStrictOrderedRing K] in
theorem demand_congr {c' : ι → K} (h : ∀ i ∈ p.order, c i = c' i) : p.demand c = p.demand c' := by
  have hmap : p.order.map (fun i => p.weight i / c i) = p.order.map fun i => p.weight i / c' i :=
    List.map_congr_left fun i hi => by rw [h i hi]
  rw [demand, demand, hmap]

omit [DecidableEq ι] in
/-- Longer periods ask for less. -/
theorem demand_anti {c' : ι → K} (hpos : ∀ i ∈ p.order, 0 < c i) (h : ∀ i ∈ p.order, c i ≤ c' i) :
    p.demand c' ≤ p.demand c := by
  have hsum : (p.order.map fun i => p.weight i / c' i).sum ≤
    (p.order.map fun i => p.weight i / c i).sum :=
    List.sum_le_sum fun i hi => div_le_div_of_nonneg_left (p.weight_pos i).le (hpos i hi) (h i hi)
  rw [demand, demand]
  linarith

/-! ## The loop -/

structure Filled (p : Problem ι K) (done : List ι) (c : ι → K) : Prop where
  start_le : ∀ i, p.start i ≤ c i
  le_ceiling : ∀ i, c i ≤ p.ceiling i
  untouched : ∀ i, i ∉ done → c i = p.start i
  /-- What is stretched comes after items at their ceilings. -/
  earlier : ∀ pre i post, done = pre ++ i :: post → p.start i < c i → ∀ j ∈ pre, c j = p.ceiling j
  tight : ∀ i, p.start i < c i → p.limit ≤ p.demand c
  full : p.limit < p.demand c → ∀ i ∈ done, c i = p.ceiling i

omit [DecidableEq ι] [IsStrictOrderedRing K] in
theorem Filled.initial : p.Filled [] p.start where
  start_le _ := le_rfl
  le_ceiling := p.start_le
  untouched _ _ := rfl
  earlier pre i post h := by simp at h
  tight i h := absurd h (lt_irrefl _)
  full _ i h := by cases h

/-- The stretched item meets the limit, or is at its ceiling beyond it. -/
theorem demand_stretch (hi : i ∈ p.order) (hc : p.start i ≤ c i) (hci : c i ≤ p.ceiling i)
    (hover : p.limit < p.demand c) :
    c i ≤ p.stretch c i i ∧ p.stretch c i i ≤ p.ceiling i ∧ p.limit ≤ p.demand (p.stretch c i) ∧
      (p.limit < p.demand (p.stretch c i) → p.stretch c i i = p.ceiling i) := by
  have hcpos : 0 < c i := lt_of_lt_of_le (p.start_pos i) hc
  have hceiling : 0 < p.ceiling i := lt_of_lt_of_le hcpos hci
  have hshare : 0 < p.weight i / p.ceiling i := div_pos (p.weight_pos i) hceiling
  rw [stretch, if_neg (not_le.mpr hover)]
  by_cases hneed : p.need c i ≤ 0
  · rw [if_pos hneed, demand_update hi, Function.update_self]
    rw [need] at hneed
    exact ⟨hci, le_rfl, by linarith, fun _ => rfl⟩
  · rw [if_neg hneed, demand_update hi, Function.update_self]
    have hneed : 0 < p.need c i := not_le.mp hneed
    have hperiod : c i ≤ p.weight i / p.need c i := by
      rw [le_div_iff₀ hneed, ← le_div_iff₀' hcpos, need]
      linarith
    refine ⟨le_min hci hperiod, min_le_left _ _, ?_⟩
    rcases le_total (p.ceiling i) (p.weight i / p.need c i) with hle | hle
    · rw [min_eq_left hle]
      have hmore : p.need c i ≤ p.weight i / p.ceiling i := by
        rw [le_div_iff₀ hceiling, mul_comm]
        exact (le_div_iff₀ hneed).mp hle
      rw [need] at hmore
      exact ⟨by linarith, fun _ => rfl⟩
    · rw [min_eq_right hle, div_div_cancel₀ (p.weight_pos i).ne', need]
      exact ⟨by linarith, fun hlt => by linarith⟩

theorem Filled.stretch {done rest : List ι} (h : p.Filled done c)
    (hrest : p.order = done ++ i :: rest) :
    p.Filled (done ++ [i]) (p.stretch c i) := by
  have hi : i ∈ p.order := by simp [hrest]
  have hnew : i ∉ done := by
    have hnodup := p.nodup
    rw [hrest] at hnodup
    exact fun hmem => List.disjoint_of_nodup_append hnodup hmem List.mem_cons_self
  by_cases hover : p.limit < p.demand c
  · obtain ⟨hge, hle, htight, hfull⟩ := demand_stretch hi (h.start_le i) (h.le_ceiling i) hover
    have hother : ∀ j, j ≠ i → p.stretch c i j = c j := by
      intro j hne
      rw [Problem.stretch, if_neg (not_le.mpr hover), Function.update_of_ne hne]
    have hdone : ∀ j ∈ done, p.stretch c i j = p.ceiling j := by
      intro j hj
      rw [hother j fun heq => hnew (heq ▸ hj)]
      exact h.full hover j hj
    constructor
    · intro j
      by_cases heq : j = i
      · rw [heq]
        exact (h.start_le i).trans hge
      · rw [hother j heq]
        exact h.start_le j
    · intro j
      by_cases heq : j = i
      · rw [heq]
        exact hle
      · rw [hother j heq]
        exact h.le_ceiling j
    · intro j hj
      rw [hother j fun heq => hj (by simp [heq])]
      exact h.untouched j fun hmem => hj (List.mem_append_left _ hmem)
    · intro pre j post heq _ k hk
      have hsub : k ∈ done := by
        rcases List.append_eq_append_iff.mp heq with ⟨l, rfl, hl⟩ | ⟨l, rfl, hl⟩
        · cases l with
          | nil => simpa using hk
          | cons x l => simp at hl
        · exact List.mem_append_left _ hk
      exact hdone k hsub
    · exact fun _ _ => htight
    · intro hlt j hj
      rcases List.mem_append.mp hj with hj | hj
      · exact hdone j hj
      · rw [List.mem_singleton.mp hj]
        exact hfull hlt
  · have hsame : p.stretch c i = c := if_pos (not_lt.mp hover)
    rw [hsame]
    constructor
    · exact h.start_le
    · exact h.le_ceiling
    · exact fun j hj => h.untouched j fun hmem => hj (List.mem_append_left _ hmem)
    · intro pre j post heq hlt k hk
      rcases List.append_eq_append_iff.mp heq with ⟨l, rfl, hl⟩ | ⟨l, rfl, hl⟩
      · -- The new item is where it started.
        cases l with
        | nil =>
            simp only [List.nil_append, List.cons.injEq] at hl
            rw [← hl.1, h.untouched i hnew] at hlt
            exact absurd hlt (lt_irrefl _)
        | cons x l => simp at hl
      · cases l with
        | nil =>
            simp only [List.nil_append, List.cons.injEq] at hl
            rw [hl.1, h.untouched i hnew] at hlt
            exact absurd hlt (lt_irrefl _)
        | cons x l =>
            simp only [List.cons_append, List.cons.injEq] at hl
            obtain ⟨rfl, -⟩ := hl
            exact h.earlier pre j l rfl hlt k hk
    · exact h.tight
    · exact fun hlt => absurd hlt hover

theorem Filled.foldl {done rest : List ι} (h : p.Filled done c) (hrest : p.order = done ++ rest) :
    p.Filled p.order (rest.foldl p.stretch c) := by
  induction rest generalizing done c with
  | nil =>
      rw [List.append_nil] at hrest
      rw [hrest]
      exact h
  | cons i rest ih =>
      refine ih (h.stretch hrest) ?_
      simp [hrest]

theorem stretched_filled (p : Problem ι K) : p.Filled p.order p.stretched :=
  Filled.initial.foldl (by simp)

/-! ## The outcome -/

/-- The limit is met exactly if it can be. -/
theorem stretched_le_iff : p.demand p.stretched ≤ p.limit ↔ p.demand p.ceiling ≤ p.limit := by
  have h := stretched_filled p
  constructor
  · intro hle
    refine (demand_anti (fun i _ => ?_) fun i _ => h.le_ceiling i).trans hle
    exact lt_of_lt_of_le (p.start_pos i) (h.start_le i)
  · intro hle
    by_contra hover
    have hceiling : p.demand p.stretched = p.demand p.ceiling :=
      demand_congr (h.full (not_le.mp hover))
    exact hover (hceiling.trans_le hle)

/-- A stretched item has no shorter period under the limit. -/
theorem lt_demand_of_shorter (hi : i ∈ p.order) (hstretched : p.start i < p.stretched i)
    (hx : 0 < x)
    (hshorter : x < p.stretched i) : p.limit < p.demand (Function.update p.stretched i x) := by
  have htight := (stretched_filled p).tight i hstretched
  have hmore : p.weight i / p.stretched i < p.weight i / x :=
    div_lt_div_of_pos_left (p.weight_pos i) hx hshorter
  rw [demand_update hi]
  linarith

end Problem

end Stretching
