import Mathlib.Data.List.Induction
import Rigplane.Lib.Dict

/-!
# Entries by recency

A log of assignments to keys leaves one entry for each key, the latest, and these in the order of
the last assignment (`entries`).  A table that holds at most `n` of them evicts its first entry when
it is full. `last_touch` says that such a table always holds the last `n` entries of the log.
-/

namespace Recency

variable {κ ν : Type*} [DecidableEq κ] {k k' : κ} {v : ν} {items : List (κ × ν)} {n : Nat}

/-- The key is assigned again and goes to the end. -/
def touch (k : κ) (v : ν) (items : List (κ × ν)) :
    List (κ × ν) := items.filter (·.1 ≠ k) ++ [(k, v)]

/-- The latest entry of each key of a log, in the order of the last assignments. -/
def entries (log : List (κ × ν)) : List (κ × ν) := log.foldl (fun items e => touch e.1 e.2 items) []

/-- The last `n` entries. -/
def last (n : Nat) (items : List (κ × ν)) : List (κ × ν) := items.drop (items.length - n)

/-- A full table loses its first entry. -/
def evict (n : Nat) (items : List (κ × ν)) : List (κ × ν) :=
  if n ≤ items.length then items.tail else items

omit [DecidableEq κ] in
theorem length_last_le (n : Nat) (items : List (κ × ν)) : (last n items).length ≤ n := by
  rw [last, List.length_drop]
  omega

theorem entries_concat (log : List (κ × ν)) (k : κ) (v : ν) :
    entries (log ++ [(k, v)]) = touch k v (entries log) := by
  rw [entries, List.foldl_append]
  rfl

theorem nodup_touch (h : (items.map Prod.fst).Nodup) : ((touch k v items).map Prod.fst).Nodup := by
  rw [touch, List.map_append]
  refine List.nodup_append.mpr ⟨(List.Sublist.map _ List.filter_sublist).nodup h,
    List.nodup_singleton _, ?_⟩
  intro a ha b hb hab
  obtain ⟨e, he, rfl⟩ := List.mem_map.mp ha
  rw [List.mem_singleton.mp hb] at hab
  exact of_decide_eq_true (List.mem_filter.mp he).2 hab

theorem nodup_entries (log : List (κ × ν)) : ((entries log).map Prod.fst).Nodup := by
  induction log using List.reverseRecOn with
  | nil => exact List.nodup_nil
  | append_singleton log e ih =>
      rw [entries_concat]
      exact nodup_touch ih

omit [DecidableEq κ] in
theorem nodup_last (h : (items.map Prod.fst).Nodup) (n : Nat) :
    ((last n items).map Prod.fst).Nodup :=
  (List.Sublist.map _ (List.drop_sublist _ _)).nodup h

theorem filter_ne_of_not_mem (h : k ∉ items.map Prod.fst) : items.filter (·.1 ≠ k) = items :=
  List.filter_eq_self.mpr fun _ he => decide_eq_true fun hk => h (hk ▸ List.mem_map_of_mem he)

/-- Without its first key, a table is its tail. -/
theorem filter_head (e : κ × ν) (h : ((e :: items).map Prod.fst).Nodup) :
    (e :: items).filter (·.1 ≠ e.1) = items := by
  rw [List.filter_cons_of_neg (by simp)]
  exact filter_ne_of_not_mem (List.nodup_cons.mp h).1

theorem length_filter_ne (h : (items.map Prod.fst).Nodup) (hk : k ∈ items.map Prod.fst) :
    (items.filter (·.1 ≠ k)).length + 1 = items.length := by
  induction items with
  | nil => cases hk
  | cons e items ih =>
      obtain ⟨he, hrest⟩ := List.nodup_cons.mp h
      by_cases heq : e.1 = k
      · subst heq
        rw [filter_head e h]
        rfl
      · have hmem : k ∈ items.map Prod.fst := (List.mem_cons.mp hk).resolve_left (Ne.symm heq)
        rw [List.filter_cons, if_pos (decide_eq_true heq), List.length_cons, ih hrest hmem]
        rfl

/-- A table that evicts when it is full holds the last entries of the log. -/
theorem last_touch (h : (items.map Prod.fst).Nodup) (hn : 0 < n) :
    last n (touch k v items) = evict n ((last n items).filter (·.1 ≠ k)) ++ [(k, v)] := by
  obtain ⟨older, kept, hitems, hkept⟩ : ∃ older kept, items = older ++ kept ∧ last n items = kept :=
    ⟨items.take (items.length - n), last n items, (List.take_append_drop _ _).symm, rfl⟩
  have hlength : kept.length = min items.length n := by
    rw [← hkept, last, List.length_drop]
    omega
  rw [hkept, touch, hitems, List.filter_append, List.append_assoc]
  rw [hitems, List.map_append] at h
  obtain ⟨-, hnodup, hdisjoint⟩ := List.nodup_append.mp h
  have hsum : older.length + kept.length = items.length := by rw [hitems, List.length_append]
  by_cases hk : k ∈ kept.map Prod.fst
  · have hnot : k ∉ older.map Prod.fst := fun hold => hdisjoint k hold k hk rfl
    have hshorter := length_filter_ne hnodup hk
    rw [filter_ne_of_not_mem hnot, evict, if_neg (by omega), last]
    simp only [List.length_append, List.length_singleton]
    rw [show older.length + ((kept.filter (·.1 ≠ k)).length + 1) - n = older.length by omega,
      List.drop_left]
  · have hfewer := List.length_filter_le (fun e : κ × ν => decide (e.1 ≠ k)) older
    rw [filter_ne_of_not_mem hk, evict, last]
    simp only [List.length_append, List.length_singleton]
    split
    · rename_i hfull
      have hne : kept ≠ [] := fun hnil => by
        rw [hnil, List.length_nil] at hfull
        omega
      obtain ⟨first, rest, rfl⟩ := List.exists_cons_of_ne_nil hne
      simp only [List.length_cons] at hlength hfull hsum ⊢
      rw [show (older.filter (·.1 ≠ k)).length + (rest.length + 1 + 1) - n =
        (older.filter (·.1 ≠ k)).length + 1 by omega, List.drop_append,
        List.drop_eq_nil_of_le (by omega),
        Nat.add_sub_cancel_left]
      rfl
    · have hnone : older = [] := List.length_eq_zero_iff.mp (by omega)
      subst hnone
      simp only [List.filter_nil, List.length_nil, List.nil_append]
      rw [show 0 + (kept.length + 1) - n = 0 by omega, List.drop_zero]

/-! ## Look-up -/

theorem find_concat (h : Dict.find k items = none) :
    Dict.find k' (items ++ [(k, v)]) = if k' = k then some v else Dict.find k' items := by
  rw [← Dict.assign_of_find_none h, Dict.find_assign]

theorem find_map {μ : Type*} (f : ν → μ) :
    Dict.find k (items.map fun e => (e.1, f e.2)) = (Dict.find k items).map f := by
  induction items with
  | nil => rfl
  | cons e items ih =>
      rw [List.map_cons, Dict.find, Dict.find, ih]
      split <;> rfl

/-- What the table holds of a key is what the log assigned to it last. -/
theorem find_entries (log : List (κ × ν)) :
    Dict.find k (entries log) = (log.reverse.find? (·.1 = k)).map Prod.snd := by
  induction log using List.reverseRecOn with
  | nil => rfl
  | append_singleton log e ih =>
      have hgone : Dict.find e.1 ((entries log).filter (·.1 ≠ e.1)) = none := by
        rw [Dict.find_filter_ne, if_pos rfl]
      rw [entries_concat, touch, find_concat hgone, Dict.find_filter_ne, List.reverse_append,
        List.reverse_singleton, List.singleton_append, List.find?_cons, ih]
      by_cases hk : k = e.1
      · subst hk
        simp
      · simp [hk, Ne.symm hk]

theorem find_last {n : Nat} (h : (items.map Prod.fst).Nodup)
    (hfind : Dict.find k (last n items) = some v) :
    Dict.find k items = some v := by
  have hmem : (k, v) ∈ last n items :=
    (Dict.mem_items (d := ⟨last n items, nodup_last h n⟩)).mpr hfind
  exact (Dict.mem_items (d := ⟨items, h⟩)).mp (List.mem_of_mem_drop hmem)

end Recency
