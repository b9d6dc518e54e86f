import Mathlib.Data.List.Perm.Subperm
import Rigplane.Json

/-!
# Two equalities of JSON values

Python finds `True` and `1` equal, and JSON does not.  Both find `1` and `1.0` equal, and
both take an object as a table, whose order does not matter.

`equalBy` is the comparison, up to what is read of a scalar.  A value with distinct keys at
every depth has a `meaning`, where tables are functions, and two such values are equal just
where their meanings are (`equalBy_iff`).
-/

namespace Rigplane.Json

/-! ## Scalars -/

/-- A value without its items or fields. -/
inductive Scalar where
  | null
  | flag (value : Bool)
  | number (value : ℚ)
  | text (value : String)
deriving DecidableEq

/-- The number of a boolean, for Python. -/
def Scalar.python : Scalar → Scalar
  | .flag value => .number (if value then 1 else 0)
  | scalar => scalar

/-- The scalar of a value that is no array and no object. -/
def scalar? : Json → Option Scalar
  | .null => some .null
  | .bool value => some (.flag value)
  | .int value => some (.number value)
  | .float value => some (.number value)
  | .str value => some (.text value)
  | .arr _ | .obj _ => none

/-! ## Comparison -/

mutual

/-- `left == right`, up to what `read` keeps of a scalar. -/
def equalBy (read : Scalar → Scalar) : Json → Json → Bool
  | .arr items, right =>
      match right with
      | .arr items' => equalItems read items items'
      | _ => false
  | .obj fields, right =>
      match right with
      | .obj fields' => fields.length = fields'.length && equalFields read fields fields'
      | _ => false
  | left, right =>
      match scalar? left, scalar? right with
      | some scalar, some scalar' => read scalar = read scalar'
      | _, _ => false

def equalItems (read : Scalar → Scalar) : List Json → List Json → Bool
  | [], [] => true
  | item :: rest, item' :: rest' => equalBy read item item' && equalItems read rest rest'
  | _, _ => false

/-- Every field stands in the other object, with an equal value. -/
def equalFields (read : Scalar → Scalar) : List (String × Json) → List (String × Json) → Bool
  | [], _ => true
  | (key, value) :: rest, fields =>
      (match Dict.find key fields with
        | none => false
        | some value' => equalBy read value value') && equalFields read rest fields

end

/-- `left == right` in Python. -/
def pyEqual : Json → Json → Bool := equalBy Scalar.python

/-- The same JSON value. -/
def same : Json → Json → Bool := equalBy id

/-! ## Distinct keys -/

mutual

/-- No object has a key twice, at any depth. -/
def proper : Json → Bool
  | .arr items => properItems items
  | .obj fields => decide (fields.map Prod.fst).Nodup && properFields fields
  | _ => true

def properItems : List Json → Bool
  | [] => true
  | item :: rest => item.proper && properItems rest

def properFields : List (String × Json) → Bool
  | [] => true
  | (_, value) :: rest => value.proper && properFields rest

end

theorem properItems_iff {items : List Json} :
    properItems items = true ↔ ∀ item ∈ items, item.proper = true := by
  induction items with
  | nil => simp [properItems]
  | cons item rest ih => simp [properItems, ih]

theorem properFields_iff {fields : List (String × Json)} :
    properFields fields = true ↔ ∀ entry ∈ fields, entry.2.proper = true := by
  induction fields with
  | nil => simp [properFields]
  | cons entry rest ih => simp [properFields, ih]

theorem proper_obj {fields : List (String × Json)} : proper (.obj fields) = true ↔
    (fields.map Prod.fst).Nodup ∧ ∀ entry ∈ fields, entry.2.proper = true := by
  rw [proper, Bool.and_eq_true, decide_eq_true_iff, properFields_iff]

theorem mem_of_find {fields : List (String × Json)} {key : String} {value : Json}
    (h : Dict.find key fields = some value) : (key, value) ∈ fields := by
  induction fields with
  | nil => cases h
  | cons entry rest ih =>
      obtain ⟨name, first⟩ := entry
      rw [Dict.find] at h
      split at h
      · rename_i hname
        rw [hname, Option.some.inj h]
        exact List.mem_cons_self
      · exact List.mem_cons_of_mem _ (ih h)

theorem proper_of_find {fields : List (String × Json)} {key : String} {value : Json}
    (hproper : proper (.obj fields) = true) (h : Dict.find key fields = some value) :
    value.proper = true :=
  (proper_obj.mp hproper).2 _ (mem_of_find h)

/-! ## Induction -/

theorem sizeOf_value_lt {fields : List (String × Json)} {entry : String × Json}
    (h : entry ∈ fields) : sizeOf entry.2 < sizeOf fields := by
  have hlt := List.sizeOf_lt_of_mem h
  obtain ⟨key, value⟩ := entry
  rw [Prod.mk.sizeOf_spec] at hlt
  show sizeOf value < _
  omega

/-- A property of all values, from the items and the fields to what holds them. -/
theorem induction {P : Json → Prop}
    (hscalar : ∀ value scalar, value.scalar? = some scalar → P value)
    (harr : ∀ items, (∀ item ∈ items, P item) → P (.arr items))
    (hobj : ∀ fields, (∀ entry ∈ fields, P entry.2) → P (.obj fields)) (value : Json) :
    P value := by
  match value with
  | .null | .bool _ | .int _ | .float _ | .str _ => exact hscalar _ _ rfl
  | .arr items => exact harr items fun item hitem => induction hscalar harr hobj item
  | .obj fields => exact hobj fields fun entry hentry => induction hscalar harr hobj entry.2
termination_by sizeOf value
decreasing_by
  · have hlt := List.sizeOf_lt_of_mem hitem
    rw [arr.sizeOf_spec]
    omega
  · have hlt := sizeOf_value_lt hentry
    rw [obj.sizeOf_spec]
    omega

/-! ## Meanings -/

/-- A value up to the order of its tables. -/
inductive Tree where
  | leaf (scalar : Scalar)
  | list (items : List Tree)
  | table (fields : String → Option Tree)

/-- A value as what `read` keeps of its scalars. -/
def meaning (read : Scalar → Scalar) : Json → Tree
  | .null => .leaf (read .null)
  | .bool value => .leaf (read (.flag value))
  | .int value => .leaf (read (.number value))
  | .float value => .leaf (read (.number value))
  | .str value => .leaf (read (.text value))
  | .arr items => .list (items.attach.map fun item => meaning read item.1)
  | .obj fields => .table fun key =>
      match _h : Dict.find key fields with
      | none => none
      | some value => some (meaning read value)
termination_by value => sizeOf value
decreasing_by
  · have hlt := List.sizeOf_lt_of_mem item.2
    rw [arr.sizeOf_spec]
    omega
  · have hlt : sizeOf value < sizeOf fields := sizeOf_value_lt (mem_of_find ‹_›)
    rw [obj.sizeOf_spec]
    omega

variable {read : Scalar → Scalar}

@[simp] theorem meaning_arr (items : List Json) :
    meaning read (.arr items) = .list (items.map (meaning read)) := by
  rw [meaning, List.attach_map_val]

@[simp] theorem meaning_obj (fields : List (String × Json)) :
    meaning read (.obj fields) = .table fun key => (Dict.find key fields).map (meaning read) := by
  rw [meaning]
  congr 1
  funext key
  rcases Dict.find key fields with _ | value <;> rfl

theorem meaning_of_scalar {value : Json} {scalar : Scalar} (h : value.scalar? = some scalar) :
    meaning read value = .leaf (read scalar) := by
  cases value with
  | null | bool | int | float | str =>
      rw [meaning, ← Option.some.inj h]
  | arr | obj => cases h

/-! ## Comparison is equality of meanings -/

theorem find_of_mem {fields : List (String × Json)} {entry : String × Json}
    (hnodup : (fields.map Prod.fst).Nodup) (h : entry ∈ fields) :
    Dict.find entry.1 fields = some entry.2 := by
  have hmem : (entry.1, entry.2) ∈ (⟨fields, hnodup⟩ : Dict String Json).items := h
  exact Dict.mem_items.mp hmem

theorem equalItems_iff {items items' : List Json}
    (ih : ∀ item ∈ items, ∀ item' ∈ items',
      equalBy read item item' = true ↔ meaning read item = meaning read item') :
    equalItems read items items' = true ↔ items.map (meaning read) = items'.map (meaning read) := by
  induction items generalizing items' with
  | nil => cases items' <;> simp [equalItems]
  | cons item rest hrest =>
      cases items' with
      | nil => simp [equalItems]
      | cons item' rest' =>
          have hhead := ih item List.mem_cons_self item' List.mem_cons_self
          have htail := hrest fun item hitem item' hitem' =>
            ih item (List.mem_cons_of_mem _ hitem) item' (List.mem_cons_of_mem _ hitem')
          rw [equalItems, Bool.and_eq_true, hhead, htail, List.map_cons, List.map_cons,
            List.cons.injEq]

theorem equalFields_iff {fields fields' : List (String × Json)} :
    equalFields read fields fields' = true ↔ ∀ entry ∈ fields, ∃ value,
      Dict.find entry.1 fields' = some value ∧ equalBy read entry.2 value = true := by
  induction fields with
  | nil => simp [equalFields]
  | cons entry rest ih =>
      rw [equalFields, Bool.and_eq_true, ih, List.forall_mem_cons]
      refine and_congr_left fun _ => ?_
      rcases Dict.find entry.1 fields' with _ | value <;> simp

theorem keys_of_tables {fields fields' : List (String × Json)}
    (h : ∀ key, (Dict.find key fields).map (meaning read) = (Dict.find key fields').map
    (meaning read))
    (key : String) : key ∈ fields.map Prod.fst ↔ key ∈ fields'.map Prod.fst := by
  have hkey := h key
  rw [← not_iff_not, ← Dict.find_eq_none, ← Dict.find_eq_none, ← Option.map_eq_none_iff, hkey,
    Option.map_eq_none_iff]

/-- Two values with distinct keys are equal just where their meanings are. -/
theorem equalBy_iff {left right : Json} (hleft : left.proper = true)
    (hright : right.proper = true) :
    equalBy read left right = true ↔ meaning read left = meaning read right := by
  induction left using induction generalizing right with
  | hscalar left scalar hscalar =>
      have hequal : equalBy read left right =
          match scalar? left, scalar? right with
          | some scalar, some scalar' => decide (read scalar = read scalar')
          | _, _ => false := by
        cases left with
        | null | bool | int | float | str => rfl
        | arr | obj => cases hscalar
      rw [hequal, hscalar, meaning_of_scalar hscalar]
      cases right with
      | null | bool | int | float | str =>
          rw [meaning, Tree.leaf.injEq]
          exact decide_eq_true_iff
      | arr items => simp [scalar?]
      | obj fields => simp [scalar?]
  | harr items ih =>
      cases right with
      | arr items' =>
          rw [proper, properItems_iff] at hleft hright
          rw [equalBy, meaning_arr, meaning_arr, Tree.list.injEq]
          exact equalItems_iff fun item hitem item' hitem' =>
            ih item hitem (hleft item hitem) (hright item' hitem')
      | null | bool | int | float | str => simp [equalBy, meaning]
      | obj fields => simp [equalBy]
  | hobj fields ih =>
      cases right with
      | obj fields' =>
          obtain ⟨hnodup, hvalues⟩ := proper_obj.mp hleft
          obtain ⟨hnodup', hvalues'⟩ := proper_obj.mp hright
          rw [equalBy, Bool.and_eq_true, decide_eq_true_iff, equalFields_iff, meaning_obj,
            meaning_obj,
            Tree.table.injEq]
          constructor
          · rintro ⟨hlen, hall⟩
            have hsub : (fields.map Prod.fst).Subperm (fields'.map Prod.fst) := by
              refine hnodup.subperm fun key hkey => ?_
              obtain ⟨entry, hentry, rfl⟩ := List.mem_map.mp hkey
              obtain ⟨value, hvalue, -⟩ := hall entry hentry
              exact List.mem_map.mpr ⟨_, mem_of_find hvalue, rfl⟩
            have hperm := hsub.perm_of_length_le (by rw [List.length_map, List.length_map, hlen])
            funext key
            rcases hfind : Dict.find key fields with _ | value
            · have hnot := (not_congr hperm.mem_iff).mp (Dict.find_eq_none.mp hfind)
              rw [Dict.find_eq_none.mpr hnot]
            · have hentry := mem_of_find hfind
              obtain ⟨value', hvalue', hequal⟩ := hall _ hentry
              rw [hvalue', Option.map_some, Option.map_some, Option.some.injEq]
              exact (ih _ hentry (hvalues _ hentry) (hvalues' _ (mem_of_find hvalue'))).mp hequal
          · intro htable
            have htable := congrFun htable
            refine ⟨?_, fun entry hentry => ?_⟩
            · have hperm := (List.perm_ext_iff_of_nodup hnodup hnodup').mpr (keys_of_tables htable)
              rw [← List.length_map Prod.fst, hperm.length_eq, List.length_map]
            · have hkey := htable entry.1
              rw [find_of_mem hnodup hentry, Option.map_some, eq_comm,
                Option.map_eq_some_iff] at hkey
              obtain ⟨value, hvalue, hmeaning⟩ := hkey
              exact ⟨value, hvalue, (ih _ hentry (hvalues _ hentry)
                (hvalues' _ (mem_of_find hvalue))).mpr hmeaning.symm⟩
      | null | bool | int | float | str => simp [equalBy, meaning]
      | arr items => simp [equalBy]

theorem scalar?_cases (value : Json) : (∃ scalar, value.scalar? = some scalar) ∨
    (∃ items, value = .arr items) ∨ ∃ fields, value = .obj fields := by
  cases value with
  | null | bool | int | float | str => exact .inl ⟨_, rfl⟩
  | arr items => exact .inr (.inl ⟨items, rfl⟩)
  | obj fields => exact .inr (.inr ⟨fields, rfl⟩)

theorem map_meaning_python {items items' : List Json}
    (ih : ∀ item ∈ items, ∀ item', meaning id item = meaning id item' →
      meaning Scalar.python item = meaning Scalar.python item')
    (h : items.map (meaning id) = items'.map (meaning id)) :
    items.map (meaning Scalar.python) = items'.map (meaning Scalar.python) := by
  induction items generalizing items' with
  | nil =>
      rw [List.map_eq_nil_iff.mp h.symm]
  | cons item rest hrest =>
      cases items' with
      | nil => cases h
      | cons item' rest' =>
          obtain ⟨hhead, htail⟩ := List.cons.inj h
          rw [List.map_cons, List.map_cons, ih item List.mem_cons_self item' hhead,
            hrest (fun item hitem => ih item (List.mem_cons_of_mem _ hitem)) htail]

/-- The same JSON value: the same keys at every depth, the same items, and the same scalars, where
a boolean is no number. -/
def SameJson (left right : Json) : Prop := meaning id left = meaning id right

/-- Values that are the same to JSON are the same to Python. -/
theorem meaning_python {left right : Json} (h : meaning id left = meaning id right) :
    meaning Scalar.python left = meaning Scalar.python right := by
  induction left using induction generalizing right with
  | hscalar left scalar hscalar =>
      rw [meaning_of_scalar hscalar] at h
      rcases scalar?_cases right with ⟨scalar', hscalar'⟩ | ⟨items, rfl⟩ | ⟨fields, rfl⟩
      · rw [meaning_of_scalar hscalar'] at h
        have heq : scalar = scalar' := Tree.leaf.inj h
        rw [meaning_of_scalar hscalar, meaning_of_scalar hscalar', heq]
      · rw [meaning_arr] at h
        cases h
      · rw [meaning_obj] at h
        cases h
  | harr items ih =>
      rw [meaning_arr] at h
      rcases scalar?_cases right with ⟨scalar', hscalar'⟩ | ⟨items', rfl⟩ | ⟨fields, rfl⟩
      · rw [meaning_of_scalar hscalar'] at h
        cases h
      · rw [meaning_arr] at h
        rw [meaning_arr, meaning_arr,
          map_meaning_python (fun item hitem item' => ih item hitem) (Tree.list.inj h)]
      · rw [meaning_obj] at h
        cases h
  | hobj fields ih =>
      rw [meaning_obj] at h
      rcases scalar?_cases right with ⟨scalar', hscalar'⟩ | ⟨items', rfl⟩ | ⟨fields', rfl⟩
      · rw [meaning_of_scalar hscalar'] at h
        cases h
      · rw [meaning_arr] at h
        cases h
      · rw [meaning_obj] at h
        have htable := congrFun (Tree.table.inj h)
        rw [meaning_obj, meaning_obj]
        congr 1
        funext key
        have hkey := htable key
        rcases hfind : Dict.find key fields with _ | value
        · rw [hfind, Option.map_none, eq_comm, Option.map_eq_none_iff] at hkey
          rw [hkey]
        · rw [hfind, Option.map_some, eq_comm, Option.map_eq_some_iff] at hkey
          obtain ⟨value', hvalue', hmeaning⟩ := hkey
          rw [hvalue', Option.map_some, Option.map_some, ih _ (mem_of_find hfind) hmeaning.symm]

theorem same_iff {left right : Json} (hleft : left.proper = true) (hright : right.proper = true) :
    same left right = true ↔ SameJson left right := equalBy_iff hleft hright

theorem pyEqual_iff {left right : Json} (hleft : left.proper = true)
    (hright : right.proper = true) :
    pyEqual left right = true ↔ meaning Scalar.python left = meaning Scalar.python right :=
  equalBy_iff hleft hright

end Rigplane.Json
