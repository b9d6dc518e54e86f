import Mathlib.Data.List.Nodup

/-!
# Dictionaries in insertion order

A `dict` of the source keeps its keys in the order of their first insertion:
assigning to a present key keeps its place, and a key that is deleted and assigned
again goes to the end.  `Dict` is the list of its items, with the fact that no key
stands twice.

The operations are characterised through `get?` alone (`get?_set`, `get?_erase`), and
`mem_items` and `mem_keys` lead from the lists back to it.
-/

/-- A dictionary: its items, oldest key first. -/
structure Dict (κ ν : Type*) where
  items : List (κ × ν)
  /-- No key stands twice. -/
  nodup : (items.map Prod.fst).Nodup

namespace Dict

variable {κ ν : Type*}

instance : Inhabited (Dict κ ν) := ⟨⟨[], List.nodup_nil⟩⟩

def empty : Dict κ ν := ⟨[], List.nodup_nil⟩

/-- `d.keys()`. -/
def keys (d : Dict κ ν) : List κ := d.items.map Prod.fst

/-- `d.values()`. -/
def values (d : Dict κ ν) : List ν := d.items.map Prod.snd

variable [DecidableEq κ]

/-- The item of a key in a list of items. -/
def find (k : κ) : List (κ × ν) → Option ν
  | [] => none
  | (k', v) :: rest => if k' = k then some v else find k rest

/-- The items with one key assigned. -/
def assign (k : κ) (v : ν) : List (κ × ν) → List (κ × ν)
  | [] => [(k, v)]
  | (k', v') :: rest => if k' = k then (k, v) :: rest else (k', v') :: assign k v rest

/-- `d.get(k)`. -/
def get? (d : Dict κ ν) (k : κ) : Option ν := find k d.items

theorem find_eq_none {k : κ} {items : List (κ × ν)} :
    find k items = none ↔ k ∉ items.map Prod.fst := by
  induction items with
  | nil => simp [find]
  | cons x rest ih =>
      obtain ⟨k', v⟩ := x
      by_cases h : k' = k
      · simp [find, h]
      · simp [find, h, ih, Ne.symm h]

theorem keys_assign {k : κ} {v : ν} {items : List (κ × ν)} :
    (assign k v items).map Prod.fst =
      if k ∈ items.map Prod.fst then items.map Prod.fst else items.map Prod.fst ++ [k] := by
  induction items with
  | nil => simp [assign]
  | cons x rest ih =>
      obtain ⟨k', v'⟩ := x
      by_cases h : k' = k
      · simp [assign, h]
      · by_cases hk : k ∈ rest.map Prod.fst
        · simp [assign, h, ih, List.mem_map.mp hk]
        · rw [assign, if_neg h, List.map_cons, ih, if_neg hk, if_neg]
          · rfl
          · rw [List.map_cons, List.mem_cons, not_or]
            exact ⟨Ne.symm h, hk⟩

theorem nodup_assign {k : κ} {v : ν} {items : List (κ × ν)} (h : (items.map Prod.fst).Nodup) :
    ((assign k v items).map Prod.fst).Nodup := by
  rw [keys_assign]
  by_cases hk : k ∈ items.map Prod.fst
  · rw [if_pos hk]
    exact h
  · rw [if_neg hk]
    exact List.nodup_append.mpr ⟨h, List.nodup_singleton k, fun a ha b hb hab => by
      rw [List.mem_singleton] at hb
      exact hk (by rw [← hb, ← hab]; exact ha)⟩

theorem find_assign {k k' : κ} {v : ν} {items : List (κ × ν)} :
    find k' (assign k v items) = if k' = k then some v else find k' items := by
  induction items with
  | nil => simp [assign, find, eq_comm]
  | cons x rest ih =>
      obtain ⟨j, w⟩ := x
      by_cases hj : j = k
      · subst hj
        by_cases hk : j = k'
        · simp [assign, find, hk]
        · simp [assign, find, hk, Ne.symm hk]
      · by_cases hk : j = k'
        · subst hk
          simp [assign, find, hj]
        · simp [assign, find, hj, hk, ih]

/-- `d[k] = v`. -/
def set (d : Dict κ ν) (k : κ) (v : ν) : Dict κ ν := ⟨assign k v d.items, nodup_assign d.nodup⟩

/-- `d.pop(k, None)`, without the value. -/
def erase (d : Dict κ ν) (k : κ) : Dict κ ν where
  items := d.items.filter fun x => x.1 ≠ k
  nodup := (List.Sublist.map _ (List.filter_sublist)).nodup d.nodup

@[simp] theorem get?_empty (k : κ) : (empty : Dict κ ν).get? k = none := rfl

theorem get?_set (d : Dict κ ν) (k k' : κ) (v : ν) :
    (d.set k v).get? k' = if k' = k then some v else d.get? k' := find_assign

@[simp] theorem get?_set_self (d : Dict κ ν) (k : κ) (v : ν) : (d.set k v).get? k = some v := by
  rw [get?_set, if_pos rfl]

theorem get?_set_ne (d : Dict κ ν) {k k' : κ} (v : ν) (h : k' ≠ k) :
    (d.set k v).get? k' = d.get? k' := by
  rw [get?_set, if_neg h]

theorem find_filter_ne (k k' : κ) (items : List (κ × ν)) :
    find k' (items.filter fun x => x.1 ≠ k) = if k' = k then none else find k' items := by
  induction items with
  | nil => simp [find]
  | cons x rest ih =>
      obtain ⟨j, w⟩ := x
      rw [List.filter_cons]
      by_cases hj : j = k
      · rw [if_neg (by simp [hj]), ih, find, hj]
        by_cases hk : k' = k
        · rw [if_pos hk, if_pos hk]
        · rw [if_neg hk, if_neg hk, if_neg (Ne.symm hk)]
      · rw [if_pos (by simp [hj]), find, find, ih]
        by_cases hk : j = k'
        · subst hk
          rw [if_pos rfl, if_pos rfl, if_neg hj]
        · rw [if_neg hk, if_neg hk]

theorem get?_erase (d : Dict κ ν) (k k' : κ) :
    (d.erase k).get? k' = if k' = k then none else d.get? k' := find_filter_ne k k' d.items

theorem keys_erase (d : Dict κ ν) (k : κ) : (d.erase k).keys = d.keys.filter (· ≠ k) := by
  rw [keys, keys, List.filter_map]
  rfl

theorem mem_keys {d : Dict κ ν} {k : κ} : k ∈ d.keys ↔ ∃ v, d.get? k = some v := by
  rw [← Option.ne_none_iff_exists', ne_eq, get?, find_eq_none, not_not]
  rfl

theorem get?_eq_none {d : Dict κ ν} {k : κ} : d.get? k = none ↔ k ∉ d.keys := find_eq_none

/-- Deleting an absent key changes nothing. -/
theorem erase_of_get?_eq_none {d : Dict κ ν} {k : κ} (h : d.get? k = none) : d.erase k = d := by
  have hkeys := get?_eq_none.mp h
  obtain ⟨items, hnodup⟩ := d
  rw [erase, Dict.mk.injEq]
  exact List.filter_eq_self.mpr fun x hx => by
    refine decide_eq_true fun hk => hkeys (hk ▸ List.mem_map_of_mem hx)

theorem mem_items {d : Dict κ ν} {k : κ} {v : ν} : (k, v) ∈ d.items ↔ d.get? k = some v := by
  obtain ⟨items, hnodup⟩ := d
  change (k, v) ∈ items ↔ find k items = some v
  induction items with
  | nil => simp [find]
  | cons x rest ih =>
      obtain ⟨j, w⟩ := x
      obtain ⟨hj, hrest⟩ := List.nodup_cons.mp
        (by simpa using hnodup : (j :: rest.map Prod.fst).Nodup)
      by_cases h : j = k
      · subst h
        have hnot : (j, v) ∉ rest := fun hmem => hj (List.mem_map_of_mem hmem)
        simp [find, hnot, eq_comm]
      · simp [find, h, Ne.symm h, ih hrest]

theorem mem_values {d : Dict κ ν} {v : ν} : v ∈ d.values ↔ ∃ k, d.get? k = some v := by
  rw [values, List.mem_map]
  constructor
  · rintro ⟨⟨k, w⟩, hmem, rfl⟩
    exact ⟨k, mem_items.mp hmem⟩
  · rintro ⟨k, hk⟩
    exact ⟨(k, v), mem_items.mpr hk, rfl⟩

/-- Assigning to a present key keeps the order of the keys. -/
theorem keys_set_of_mem {d : Dict κ ν} {k : κ} {v : ν} (h : k ∈ d.keys) :
    (d.set k v).keys = d.keys := by
  have h' : k ∈ d.items.map Prod.fst := h
  change (assign k v d.items).map Prod.fst = _
  rw [keys_assign, if_pos h']
  rfl

theorem assign_of_find_none {k : κ} {v : ν} {items : List (κ × ν)} (h : find k items = none) :
    assign k v items = items ++ [(k, v)] := by
  induction items with
  | nil => rfl
  | cons x rest ih =>
      obtain ⟨j, w⟩ := x
      rw [find] at h
      by_cases hj : j = k
      · rw [if_pos hj] at h
        cases h
      · rw [if_neg hj] at h
        rw [assign, if_neg hj, ih h]
        rfl

/-- A new key goes to the end. -/
theorem values_set_of_none {d : Dict κ ν} {k : κ} (h : d.get? k = none) (v : ν) :
    (d.set k v).values = d.values ++ [v] := by
  change (assign k v d.items).map Prod.snd = _
  rw [assign_of_find_none h, List.map_append]
  rfl

theorem perm_filter_ne {k : κ} {v : ν} {items : List (κ × ν)} (hnodup : (items.map Prod.fst).Nodup)
    (h : (k, v) ∈ items) : items.Perm ((k, v) :: items.filter fun x => x.1 ≠ k) := by
  induction items with
  | nil => cases h
  | cons x rest ih =>
      obtain ⟨hx, hrest⟩ := List.nodup_cons.mp hnodup
      rcases List.mem_cons.mp h with rfl | hmem
      · have hsame : rest.filter (fun x => x.1 ≠ k) = rest :=
          List.filter_eq_self.mpr fun y hy => by
            refine decide_eq_true fun hk => hx (List.mem_map.mpr ⟨y, hy, hk⟩)
        rw [List.filter_cons, if_neg (by simp), hsame]
      · have hne : x.1 ≠ k := fun hk => hx (hk ▸ List.mem_map_of_mem hmem)
        rw [List.filter_cons, if_pos (by simpa using hne)]
        exact ((ih hrest hmem).cons x).trans (.swap _ _ _)

theorem items_perm_erase {d : Dict κ ν} {k : κ} {v : ν} (h : d.get? k = some v) :
    d.items.Perm ((k, v) :: (d.erase k).items) := perm_filter_ne d.nodup (mem_items.mpr h)

/-- A key that is deleted takes its value along. -/
theorem values_perm_erase {d : Dict κ ν} {k : κ} {v : ν} (h : d.get? k = some v) :
    d.values.Perm (v :: (d.erase k).values) := (items_perm_erase h).map Prod.snd

theorem length_keys_erase {d : Dict κ ν} {k : κ} {v : ν} (h : d.get? k = some v) :
    (d.erase k).keys.length + 1 = d.keys.length := by
  have hlen := (items_perm_erase h).length_eq
  rw [keys, keys, List.length_map, List.length_map, hlen, List.length_cons]

theorem countP_values_assign {k : κ} {v w : ν} {p : ν → Bool} (hp : p w = p v)
    {items : List (κ × ν)} (h : find k items = some v) :
    ((assign k w items).map Prod.snd).countP p = (items.map Prod.snd).countP p := by
  induction items with
  | nil => cases h
  | cons x rest ih =>
      obtain ⟨j, u⟩ := x
      rw [find] at h
      rw [assign]
      split at h
      · rename_i hj
        cases h
        rw [if_pos hj, List.map_cons, List.map_cons, List.countP_cons, List.countP_cons, hp]
      · rename_i hj
        rw [if_neg hj, List.map_cons, List.map_cons, List.countP_cons, List.countP_cons, ih h]

/-- A value takes the place of another one that counts alike. -/
theorem countP_values_set {d : Dict κ ν} {k : κ} {v w : ν} {p : ν → Bool} (h : d.get? k = some v)
    (hp : p w = p v) : (d.set k w).values.countP p = d.values.countP p := countP_values_assign hp h

/-- Where the oldest key goes, the other items stay as they are. -/
theorem items_erase_head {d : Dict κ ν} {k : κ} {v : ν} {rest : List (κ × ν)}
    (h : d.items = (k, v) :: rest) : (d.erase k).items = rest := by
  have hnodup := d.nodup
  rw [h, List.map_cons, List.nodup_cons] at hnodup
  change d.items.filter (fun x => x.1 ≠ k) = rest
  rw [h, List.filter_cons, if_neg (by simp)]
  exact List.filter_eq_self.mpr fun x hx => by
    refine decide_eq_true fun hk => hnodup.1 (List.mem_map.mpr ⟨x, hx, hk⟩)

theorem map_filter_ne_of_find {k : κ} {v : ν} {p : ν → Bool} {items : List (κ × ν)}
    (hnodup : (items.map Prod.fst).Nodup)
    (h : items.find? (fun x => p x.2) = some (k, v)) :
    (items.filter fun x => x.1 ≠ k).map Prod.snd = (items.map Prod.snd).eraseP p := by
  induction items with
  | nil => cases h
  | cons x rest ih =>
      obtain ⟨hx, hrest⟩ := List.nodup_cons.mp hnodup
      rw [List.find?_cons] at h
      split at h
      · rename_i hp
        cases h
        have hsame : rest.filter (fun x => x.1 ≠ k) = rest :=
          List.filter_eq_self.mpr fun y hy => by
            refine decide_eq_true fun hk => hx (List.mem_map.mpr ⟨y, hy, hk⟩)
        rw [List.filter_cons, if_neg (by simp), hsame, List.map_cons, List.eraseP_cons_of_pos hp]
      · rename_i hp
        have hne : x.1 ≠ k := fun hk =>
          hx (hk ▸ List.mem_map_of_mem (List.mem_of_find?_eq_some h))
        rw [List.filter_cons, if_pos (decide_eq_true hne), List.map_cons, List.map_cons,
          List.eraseP_cons_of_neg (by simp [hp]), ih hrest h]

/-- The first value with a property goes with its key. -/
theorem values_erase_of_find {d : Dict κ ν} {k : κ} {v : ν} {p : ν → Bool}
    (h : d.items.find? (fun x => p x.2) = some (k, v)) : (d.erase k).values = d.values.eraseP p :=
  map_filter_ne_of_find d.nodup h

theorem filter_ne_assign (k : κ) (v : ν) (items : List (κ × ν)) :
    (assign k v items).filter (fun x => x.1 ≠ k) = items.filter fun x => x.1 ≠ k := by
  induction items with
  | nil => simp [assign]
  | cons x rest ih =>
      obtain ⟨j, w⟩ := x
      rw [assign]
      split
      · rename_i hj
        simp [hj]
      · rename_i hj
        rw [List.filter_cons, List.filter_cons, ih]

/-- What a key held goes out when it is assigned again. -/
theorem values_perm_set {d : Dict κ ν} {k : κ} {v w : ν} (h : d.get? k = some v) :
    (v :: (d.set k w).values).Perm (w :: d.values) := by
  have hset : (d.set k w).get? k = some w := get?_set_self d k w
  have herase : ((d.set k w).erase k).values = (d.erase k).values :=
    congrArg (List.map Prod.snd) (filter_ne_assign k w d.items)
  have hnew := values_perm_erase hset
  have hold := values_perm_erase h
  rw [herase] at hnew
  exact ((hnew.cons v).trans (.swap _ _ _)).trans (hold.symm.cons w)

/-! ## Several keys -/

/-- The items that a test keeps. -/
def filter (d : Dict κ ν) (keep : κ → ν → Bool) : Dict κ ν where
  items := d.items.filter fun x => keep x.1 x.2
  nodup := (List.Sublist.map _ List.filter_sublist).nodup d.nodup

theorem get?_filter {d : Dict κ ν} {keep : κ → ν → Bool} {k : κ} {v : ν} :
    (d.filter keep).get? k = some v ↔ d.get? k = some v ∧ keep k v = true := by
  rw [← mem_items, ← mem_items]
  exact List.mem_filter

omit [DecidableEq κ] in
theorem length_items_filter_le (d : Dict κ ν) (keep : κ → ν → Bool) :
    (d.filter keep).items.length ≤ d.items.length := List.length_filter_le _ _

theorem length_items_erase_le (d : Dict κ ν) (k : κ) :
    (d.erase k).items.length ≤ d.items.length := List.length_filter_le _ _

theorem length_items_erase {d : Dict κ ν} {k : κ} {v : ν} (h : d.get? k = some v) :
    (d.erase k).items.length + 1 = d.items.length := by
  have hlen := (items_perm_erase h).length_eq
  rw [hlen, List.length_cons]

theorem length_items_assign (k : κ) (v : ν) (items : List (κ × ν)) :
    (assign k v items).length =
      if k ∈ items.map Prod.fst then items.length else items.length + 1 := by
  have hkeys := congrArg List.length (@keys_assign κ ν _ k v items)
  rw [List.length_map] at hkeys
  rw [hkeys]
  split <;> simp

end Dict
