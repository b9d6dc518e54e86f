import Mathlib.Data.Set.Lattice
import Mathlib.Order.CompletePartialOrder
import Rigplane.Web.DeltaApply
import Rigplane.Web.StateDelta

/-!
# What the browser's applier leaves on the heap

The applier only writes to copies it has made itself, and each copy hangs in one place of the
new state.  `Owned` describes a value that is made of such copies above values of the heap the
applier started from, and names the copies it is made of.  A write along a path keeps it, and
changes the value as the same write changes the object (`write_spec`).

So what stood on the heap before is unchanged, and the new state stands for the object that the
writes give (`applyStateDelta_spec`).
-/

namespace Rigplane.Web.Frontend

open Json

/-! ## What a value stands for -/

/-- A value stands for a JSON value on a heap. -/
inductive Represents (heap : Heap) : Value → Json → Prop
  | plain {json : Json} (hplain : isRecord json = false) : Represents heap (.plain json) json
  | record {address : Nat} {fields : Fields} (hbound : address < heap.length)
      (hkeys : ∀ key, Dict.find key (heap.read address) = none ↔ Dict.find key fields = none)
      (hvalues : ∀ key value json, Dict.find key (heap.read address) = some value →
        Dict.find key fields = some json → Represents heap value json) :
      Represents heap (.ref address) (.obj fields)

/-- A value made of copies, above what the starting heap has.  The copies of different keys are
different. -/
inductive Owned (start heap : Heap) : Value → Json → Set Nat → Prop
  | shared {value : Value} {json : Json} (hrep : Represents start value json) :
      Owned start heap value json ∅
  | copy {address : Nat} {fields : Fields} {owns : String → Set Nat}
      (hlow : start.length ≤ address) (hhigh : address < heap.length)
      (hkeys : ∀ key, Dict.find key (heap.read address) = none ↔ Dict.find key fields = none)
      (hvalues : ∀ key value json, Dict.find key (heap.read address) = some value →
        Dict.find key fields = some json → Owned start heap value json (owns key))
      (hbounds : ∀ key, ∀ a ∈ owns key, start.length ≤ a ∧ a < heap.length)
      (hself : ∀ key, address ∉ owns key)
      (hapart : ∀ key key', key ≠ key' → Disjoint (owns key) (owns key')) :
      Owned start heap (.ref address) (.obj fields) (insert address (⋃ key, owns key))

variable {start heap heap' : Heap} {value : Value} {json : Json} {copies : Set Nat}

/-- The copies stand above the starting heap. -/
theorem Owned.bounds (h : Owned start heap value json copies) :
    ∀ a ∈ copies, start.length ≤ a ∧ a < heap.length := by
  intro a ha
  cases h with
  | shared => exact absurd ha (Set.notMem_empty a)
  | copy hlow hhigh hkeys hvalues hbounds hself hapart =>
      rcases Set.mem_insert_iff.mp ha with rfl | hmem
      · exact ⟨hlow, hhigh⟩
      · obtain ⟨key, hkey⟩ := Set.mem_iUnion.mp hmem
        exact hbounds key a hkey

/-- A heap that keeps the copies keeps the value. -/
theorem Owned.frame (h : Owned start heap value json copies) (hlength : heap.length ≤ heap'.length)
    (hsame : ∀ a ∈ copies, heap'.read a = heap.read a) : Owned start heap' value json copies := by
  induction h with
  | shared hrep => exact .shared hrep
  | copy hlow hhigh hkeys hvalues hbounds hself hapart ih =>
      have hread := hsame _ (Set.mem_insert _ _)
      refine .copy hlow (hhigh.trans_le hlength) ?_ ?_ ?_ hself hapart
      · rw [hread]
        exact hkeys
      · intro key value json hvalue hjson
        rw [hread] at hvalue
        exact ih key value json hvalue hjson fun a ha =>
          hsame a (Set.mem_insert_of_mem _ (Set.mem_iUnion.mpr ⟨key, ha⟩))
      · exact fun key a ha => ⟨(hbounds key a ha).1, (hbounds key a ha).2.trans_le hlength⟩

theorem Represents.frame (h : Represents heap value json) (hlength : heap.length ≤ heap'.length)
    (hsame : ∀ a < heap.length, heap'.read a = heap.read a) : Represents heap' value json := by
  induction h with
  | plain hplain => exact .plain hplain
  | record hbound hkeys hvalues ih =>
      refine .record (hbound.trans_le hlength) ?_ ?_
      · rw [hsame _ hbound]
        exact hkeys
      · rw [hsame _ hbound]
        exact ih

/-- What stands for two values stands for the same value. -/
theorem Represents.same {json' : Json} (h : Represents heap value json)
    (h' : Represents heap value json') : SameJson json json' := by
  induction h generalizing json' with
  | plain hplain =>
      cases h' with
      | plain hplain' => rfl
  | @record address fields hbound hkeys hvalues ih =>
      cases h' with
      | @record _ fields' _ hkeys' hvalues' =>
          rw [SameJson, meaning_obj, meaning_obj]
          congr 1
          funext key
          rcases hvalue : Dict.find key (heap.read address) with _ | value
          · rw [(hkeys key).mp hvalue, (hkeys' key).mp hvalue]
          · rcases hjson : Dict.find key fields with _ | json
            · rw [(hkeys key).mpr hjson] at hvalue
              cases hvalue
            rcases hjson' : Dict.find key fields' with _ | json'
            · rw [(hkeys' key).mpr hjson'] at hvalue
              cases hvalue
            exact congrArg some (ih key value json hvalue hjson
              (hvalues' key value json' hvalue hjson'))

/-- What is made of copies stands for its value, where the starting heap is unchanged. -/
theorem Owned.represents (h : Owned start heap value json copies)
    (hlength : start.length ≤ heap.length)
    (hsame : ∀ a < start.length, heap.read a = start.read a) : Represents heap value json := by
  induction h with
  | shared hrep => exact hrep.frame hlength hsame
  | copy hlow hhigh hkeys hvalues hbounds hself hapart ih => exact .record hhigh hkeys ih

theorem rel_mono {α β : Type*} {R R' : α → β → Prop} {slot : Option α} {slot' : Option β}
    (h : Option.Rel R slot slot') (himp : ∀ value json, R value json → R' value json) :
    Option.Rel R' slot slot' := by
  cases h with
  | none => exact .none
  | some hrel => exact .some (himp _ _ hrel)

/-- Slots that hold related values. -/
theorem slots_iff {R : String → Value → Json → Prop} {object : List (String × Value)}
    {fields : Fields} : (∀ key, Option.Rel (R key) (Dict.find key object) (Dict.find key fields)) ↔
      (∀ key, Dict.find key object = none ↔ Dict.find key fields = none) ∧
        ∀ key value json, Dict.find key object = some value → Dict.find key fields = some json →
          R key value json := by
  constructor
  · intro h
    refine ⟨fun key => ?_, fun key value json hvalue hjson => ?_⟩
    · have hkey := h key
      generalize Dict.find key object = slot, Dict.find key fields = slot' at *
      cases hkey <;> simp
    · have hkey := h key
      rw [hvalue, hjson] at hkey
      cases hkey with
      | some hrel => exact hrel
  · rintro ⟨hkeys, hvalues⟩ key
    rcases hvalue : Dict.find key object with _ | value
    · rw [(hkeys key).mp hvalue]
      exact .none
    · rcases hjson : Dict.find key fields with _ | json
      · rw [(hkeys key).mpr hjson] at hvalue
        cases hvalue
      · exact .some (hvalues key value json hvalue hjson)

theorem Owned.of_slots {address : Nat} {fields : Fields} {owns : String → Set Nat}
    (hlow : start.length ≤ address) (hhigh : address < heap.length)
    (hslots : ∀ key, Option.Rel (fun value json => Owned start heap value json (owns key))
      (Dict.find key (heap.read address)) (Dict.find key fields))
    (hbounds : ∀ key, ∀ a ∈ owns key, start.length ≤ a ∧ a < heap.length)
    (hself : ∀ key, address ∉ owns key)
    (hapart : ∀ key key', key ≠ key' → Disjoint (owns key) (owns key')) :
    Owned start heap (.ref address) (.obj fields) (insert address (⋃ key, owns key)) := by
  obtain ⟨hkeys, hvalues⟩ := slots_iff.mp hslots
  exact .copy hlow hhigh hkeys hvalues hbounds hself hapart

theorem Represents.bound {address : Nat} {fields : Fields}
    (h : Represents heap (.ref address) (.obj fields)) : address < heap.length := by
  cases h with
  | record hbound hkeys hvalues => exact hbound

/-- A copy of a record of the starting heap. -/
theorem Owned.of_copy {address copy : Nat} {fields : Fields}
    (hrep : Represents start (.ref address) (.obj fields)) (hlow : start.length ≤ copy)
    (hhigh : copy < heap.length) (hread : heap.read copy = start.read address) :
    Owned start heap (.ref copy) (.obj fields) {copy} := by
  cases hrep with
  | record hbound hkeys hvalues =>
      have howned : Owned start heap (.ref copy) (.obj fields) (insert copy (⋃ _ : String, ∅)) := by
        refine .copy hlow hhigh ?_ ?_ (fun key a ha => absurd ha (Set.notMem_empty a))
          (fun key => Set.notMem_empty _) (fun key key' _ => Set.disjoint_empty _)
        · rw [hread]
          exact hkeys
        · rw [hread]
          exact fun key value json hvalue hjson => .shared (hvalues key value json hvalue hjson)
      rw [Set.iUnion_empty, insert_empty_eq] at howned
      exact howned

/-! ## Heaps -/

theorem read_set (heap : Heap) {node : Nat} (h : node < heap.length)
    (object : List (String × Value)) (a : Nat) :
    Heap.read (heap.set node object) a = if a = node then object else heap.read a := by
  rw [Heap.read, Heap.read, List.getElem?_set]
  by_cases heq : node = a
  · rw [if_pos heq, if_pos (heq ▸ h), if_pos heq.symm]
    rfl
  · rw [if_neg heq, if_neg (Ne.symm heq)]

theorem read_append (heap : Heap) (object : List (String × Value)) {a : Nat} (h : a < heap.length) :
    Heap.read (heap ++ [object]) a = heap.read a := by
  rw [Heap.read, Heap.read, List.getElem?_append_left h]

theorem read_append_last (heap : Heap) (object : List (String × Value)) :
    Heap.read (heap ++ [object]) heap.length = object := by
  rw [Heap.read, List.getElem?_concat_length]
  rfl

/-- A heap with more records. -/
def Extends (heap heap' : Heap) : Prop :=
  heap.length ≤ heap'.length ∧ ∀ a < heap.length, heap'.read a = heap.read a

theorem Extends.trans {heap'' : Heap} (h : Extends heap heap') (h' : Extends heap' heap'') :
    Extends heap heap'' :=
  ⟨h.1.trans h'.1, fun a ha => (h'.2 a (ha.trans_le h.1)).trans (h.2 a ha)⟩

/-- Values that stand for the fields of an object. -/
theorem represents_fields {fields : Fields}
    (ih : ∀ entry ∈ fields, ∀ heap, ∃ heap' value, Extends heap heap' ∧
      Represents heap' value entry.2) (heap : Heap) :
    ∃ heap' object, Extends heap heap' ∧
      ∀ key, Option.Rel (Represents heap') (Dict.find key object) (Dict.find key fields) := by
  induction fields generalizing heap with
  | nil => exact ⟨heap, [], ⟨le_rfl, fun a _ => rfl⟩, fun key => .none⟩
  | cons entry rest hrest =>
      obtain ⟨name, json⟩ := entry
      obtain ⟨heap₁, value, hextends, hvalue⟩ := ih _ List.mem_cons_self heap
      obtain ⟨heap', object, hextends', hobject⟩ :=
        hrest (fun entry hentry => ih entry (List.mem_cons_of_mem _ hentry)) heap₁
      refine ⟨heap', (name, value) :: object, hextends.trans hextends', fun key => ?_⟩
      rw [Dict.find, Dict.find]
      split
      · exact .some (hvalue.frame hextends'.1 hextends'.2)
      · exact hobject key

/-- Every JSON value stands on some heap. -/
theorem exists_represents (json : Json) (heap : Heap) :
    ∃ heap' value, Extends heap heap' ∧ Represents heap' value json := by
  induction json using Json.induction generalizing heap with
  | hscalar json scalar hscalar =>
      refine ⟨heap, .plain json, ⟨le_rfl, fun a _ => rfl⟩, .plain ?_⟩
      cases json with
      | null | bool | int | float | str | arr => rfl
      | obj => cases hscalar
  | harr items ih => exact ⟨heap, .plain (.arr items), ⟨le_rfl, fun a _ => rfl⟩, .plain rfl⟩
  | hobj fields ih =>
      obtain ⟨heap₁, object, hextends, hobject⟩ := represents_fields ih heap
      have hlength : (heap₁ ++ [object]).length = heap₁.length + 1 := by
        rw [List.length_append, List.length_singleton]
      have hlast : Extends heap₁ (heap₁ ++ [object]) :=
        ⟨by omega, fun a ha => read_append heap₁ object ha⟩
      obtain ⟨hkeys, hvalues⟩ := slots_iff.mp hobject
      refine ⟨heap₁ ++ [object], .ref heap₁.length, hextends.trans hlast, .record (by omega) ?_ ?_⟩
      · rw [read_append_last]
        exact hkeys
      · rw [read_append_last]
        exact fun key value json hvalue hjson =>
          (hvalues key value json hvalue hjson).frame hlast.1 hlast.2

/-! ## Writes to an object -/

/-- The keys that an assignment does not create. -/
def protoSkips (key : String) : Bool := key = "__proto__"

/-- A write to an object: a value that is set, or none for a key that is deleted. -/
def writeProperty (payload : Option Value) (object : List (String × Value)) (key : String) :
    List (String × Value) :=
  match payload with
  | some value => assignProperty object key value
  | none => deleteProperty object key

/-- What a write leaves in the slot of its key. -/
def writtenSlot (key : String) (slot payload : Option Value) : Option Value :=
  match payload with
  | some value => if protoSkips key ∧ slot = none then none else some value
  | none => none

theorem find_writeProperty (payload : Option Value) (object : List (String × Value))
    (key key' : String) : Dict.find key' (writeProperty payload object key) =
      if key' = key then writtenSlot key (Dict.find key object) payload
      else Dict.find key' object := by
  cases payload with
  | none =>
      rw [writeProperty, deleteProperty, Dict.find_filter_ne]
      rfl
  | some value =>
      have hproto : protoSkips key = true ↔ key = "__proto__" := decide_eq_true_iff
      rw [writeProperty, assignProperty, writtenSlot]
      by_cases hkey : key' = key
      · rw [if_pos hkey, hkey]
        by_cases hskip : key = "__proto__" ∧ Dict.find key object = none
        · rw [if_pos hskip, if_pos ⟨hproto.mpr hskip.1, hskip.2⟩, hskip.2]
        · rw [if_neg hskip, if_neg fun h => hskip ⟨hproto.mp h.1, h.2⟩, Dict.find_assign,
            if_pos rfl]
      · rw [if_neg hkey]
        split
        · rfl
        · rw [Dict.find_assign, if_neg hkey]

/-- A write of the same value leaves the same in a slot, on the heap and in the object. -/
theorem writtenSlot_rel {payload slot : Option Value} {payload' slot' : Option Json} (key : String)
    (hpayload : Option.Rel (Represents start) payload payload')
    (hslot : slot = none ↔ slot' = none) :
    Option.Rel (Represents start) (writtenSlot key slot payload)
      (actSlot protoSkips key slot' payload') := by
  cases hpayload with
  | none => exact .none
  | some hrep =>
      rw [writtenSlot, actSlot]
      by_cases hskip : protoSkips key = true ∧ slot = none
      · rw [if_pos hskip, if_pos ⟨hskip.1, hslot.mp hskip.2⟩]
        exact .none
      · rw [if_neg hskip, if_neg fun h => hskip ⟨h.1, hslot.mpr h.2⟩]
        exact .some hrep

/-! ## A write along a path -/

/-- The copies the applier knows of are all above the starting heap, which is unchanged. -/
structure Ok (start : Heap) (s : Applier) : Prop where
  length : start.length ≤ s.heap.length
  fresh : ∀ a, a ∈ s.fresh ↔ start.length ≤ a ∧ a < s.heap.length
  unchanged : ∀ a < start.length, s.heap.read a = start.read a

/-- A write to a copy. -/
theorem write_here {s : Applier} {node : Nat} {fields : Fields} {last : String}
    {payload : Option Value} {payload' : Option Json} (hs : Ok start s)
    (howned : Owned start s.heap (.ref node) (.obj fields) copies) (hnode : start.length ≤ node)
    (hpayload : Option.Rel (Represents start) payload payload') :
    let heap' := s.heap.set node (writeProperty payload (s.heap.read node) last)
    Ok start ⟨heap', s.fresh⟩ ∧ s.heap.length ≤ heap'.length ∧
      (∀ a < s.heap.length, a ∉ copies → Heap.read heap' a = s.heap.read a) ∧
      ∃ copies', Owned start heap' (.ref node)
        (.obj (act protoSkips fields last payload')) copies' ∧
        ∀ a ∈ copies', a ∈ copies ∨ s.heap.length ≤ a := by
  intro heap'
  cases howned with
  | shared hrep =>
      cases hrep
      omega
  | @copy _ _ owns hlow hhigh hkeys hvalues hbounds hself hapart =>
      have hlength : heap'.length = s.heap.length := List.length_set
      have hread : ∀ a, Heap.read heap' a = if a = node then _ else s.heap.read a :=
        read_set s.heap hhigh _
      have hslot := writtenSlot_rel last hpayload (hkeys last)
      have hslots := slots_iff.mpr ⟨hkeys, hvalues⟩
      refine ⟨⟨?_, ?_, ?_⟩, hlength.ge, ?_, ?_⟩
      · rw [hlength]
        exact hs.length
      · rw [hlength]
        exact hs.fresh
      · intro a ha
        rw [hread, if_neg (by omega)]
        exact hs.unchanged a ha
      · intro a ha hnot
        rw [hread, if_neg]
        rintro rfl
        exact hnot (Set.mem_insert _ _)
      · let owns' : String → Set Nat := fun key => if key = last then ∅ else owns key
        have hsub : ∀ key, owns' key ⊆ owns key := by
          intro key
          show (if key = last then ∅ else owns key) ⊆ _
          split
          · exact Set.empty_subset _
          · exact subset_rfl
        have hslots' : ∀ key, Option.Rel (fun value json => Owned start heap' value json
          (owns' key))
            (Dict.find key (Heap.read heap' node))
            (Dict.find key (act protoSkips fields last payload')) := by
          intro key
          rw [hread, if_pos rfl, find_writeProperty, find_act]
          show Option.Rel (fun value json => Owned start heap' value json
            (if key = last then ∅ else owns key)) _ _
          by_cases hkey : key = last
          · rw [if_pos hkey, if_pos hkey, if_pos hkey]
            exact rel_mono hslot fun value json hrep => .shared hrep
          · rw [if_neg hkey, if_neg hkey, if_neg hkey]
            refine rel_mono (hslots key) fun value json hvalue =>
              hvalue.frame hlength.ge fun a ha => ?_
            rw [hread, if_neg]
            rintro rfl
            exact hself key ha
        refine ⟨_, .of_slots hlow (hhigh.trans_le hlength.ge) hslots'
          (fun key a ha => hlength.symm ▸ hbounds key a (hsub key ha))
          (fun key hmem => hself key (hsub key hmem))
          (fun key key' hne => (hapart key key' hne).mono (hsub key) (hsub key')), fun a ha => ?_⟩
        exact .inl (Set.mem_of_mem_of_subset ha (Set.insert_subset_insert (Set.iUnion_mono hsub)))

/-- An object whose slot of a key is the copy the applier goes on in.  `owns` tells the copies of
each slot. -/
structure Inside (start heap : Heap) (node : Nat) (fields : Fields) (key : String) (copy : Nat)
    (child : Fields) (owns : String → Set Nat) : Prop where
  low : start.length ≤ node
  high : node < heap.length
  entered : Dict.find key (heap.read node) = some (.ref copy)
  child_owned : Owned start heap (.ref copy) (.obj child) (owns key)
  others : ∀ other, other ≠ key → Option.Rel
    (fun value json => Owned start heap value json (owns other))
    (Dict.find other (heap.read node)) (Dict.find other fields)
  bounds : ∀ other, ∀ a ∈ owns other, start.length ≤ a ∧ a < heap.length
  self : ∀ other, node ∉ owns other
  apart : ∀ other other', other ≠ other' → Disjoint (owns other) (owns other')

/-- What happens to the copies of the child happens to the object. -/
theorem Inside.leave {node copy : Nat} {fields child child' : Fields} {key : String}
    {owns : String → Set Nat} {inner : Set Nat}
    (h : Inside start heap node fields key copy child owns) (hlength : heap.length ≤ heap'.length)
    (hsame : ∀ a < heap.length, a ∉ owns key → heap'.read a = heap.read a)
    (howned : Owned start heap' (.ref copy) (.obj child') inner)
    (hinner : ∀ a ∈ inner, a ∈ owns key ∨ heap.length ≤ a) :
    Owned start heap' (.ref node) (.obj (Dict.assign key (.obj child') fields))
      (insert node (⋃ other, if other = key then inner else owns other)) := by
  have hread := hsame node h.high (h.self key)
  have hapart : ∀ other, other ≠ key → Disjoint inner (owns other) := by
    intro other hne
    refine Set.disjoint_left.mpr fun a ha hother => ?_
    rcases hinner a ha with hmem | hnew
    · exact Set.disjoint_left.mp (h.apart key other (Ne.symm hne)) hmem hother
    · have := (h.bounds other a hother).2
      omega
  refine .of_slots h.low (h.high.trans_le hlength) ?_ ?_ ?_ ?_
  · intro other
    rw [hread, Dict.find_assign]
    by_cases hkey : other = key
    · rw [if_pos hkey, if_pos hkey, hkey, h.entered]
      exact .some howned
    · rw [if_neg hkey, if_neg hkey]
      refine rel_mono (h.others other hkey) fun value json hvalue =>
        hvalue.frame hlength fun a ha => ?_
      exact hsame a (h.bounds other a ha).2
        fun hmem => Set.disjoint_left.mp (h.apart other key hkey) ha hmem
  · intro other a ha
    split at ha
    · exact howned.bounds a ha
    · exact ⟨(h.bounds other a ha).1, (h.bounds other a ha).2.trans_le hlength⟩
  · intro other hmem
    split at hmem
    · rcases hinner node hmem with hold | hnew
      · exact h.self key hold
      · have := h.high
        omega
    · exact h.self other hmem
  · intro other other' hne
    split
    · rename_i hkey
      rw [if_neg fun hkey' => hne (hkey.trans hkey'.symm)]
      exact hapart other' fun hkey' => hne (hkey.trans hkey'.symm)
    · rename_i hkey
      split
      · exact (hapart other hkey).symm
      · exact h.apart other other' hne

/-- The heap after a child is copied into the slot of a key. -/
def copyInto (heap : Heap) (node : Nat) (key : String) (object : List (String × Value)) : Heap :=
  (heap ++ [object]).set node
    (assignProperty (Heap.read (heap ++ [object]) node) key (.ref heap.length))

theorem length_copyInto (heap : Heap) (node : Nat) (key : String) (object : List (String × Value)) :
    (copyInto heap node key object).length = heap.length + 1 := by
  rw [copyInto, List.length_set, List.length_append, List.length_singleton]

theorem read_copyInto (heap : Heap) {node : Nat} (h : node < heap.length) (key : String)
    (object : List (String × Value)) (a : Nat) : (copyInto heap node key object).read a =
      if a = node then assignProperty (heap.read node) key (.ref heap.length)
      else if a = heap.length then object else heap.read a := by
  have hnode : node < (heap ++ [object]).length := by
    rw [List.length_append]
    omega
  rw [copyInto, read_set _ hnode, read_append _ _ h]
  split
  · rfl
  · split
    · rename_i heq
      rw [heq, read_append_last]
    · rename_i hlast
      by_cases hlt : a < heap.length
      · rw [read_append _ _ hlt]
      · have hlength : (heap ++ [object]).length ≤ a := by
          rw [List.length_append, List.length_singleton]
          omega
        rw [Heap.read, Heap.read, List.getElem?_eq_none hlength, List.getElem?_eq_none (by omega)]

theorem parentLoop_cons {s : Applier} {node child : Nat} {key : String}
    (h : Dict.find key (s.heap.read node) = some (.ref child)) (rest : List String) :
    parentLoop s node (key :: rest) =
      if child ∈ s.fresh then parentLoop s child rest
      else parentLoop ⟨copyInto s.heap node key (s.heap.read child), s.heap.length :: s.fresh⟩
        s.heap.length rest := by
  rw [parentLoop, h]
  rfl

/-- The applier copies a child that it has not copied before. -/
theorem copy_child {s : Applier} {node address : Nat} {fields child : Fields} {key : String}
    {owns : String → Set Nat} (hs : Ok start s) (hlow : start.length ≤ node)
    (hhigh : node < s.heap.length) (hentry : Dict.find key (s.heap.read node) = some (.ref address))
    (hrep : Represents start (.ref address) (.obj child))
    (hslots : ∀ other, Option.Rel (fun value json => Owned start s.heap value json (owns other))
      (Dict.find other (s.heap.read node)) (Dict.find other fields))
    (hbounds : ∀ other, ∀ a ∈ owns other, start.length ≤ a ∧ a < s.heap.length)
    (hself : ∀ other, node ∉ owns other)
    (hapart : ∀ other other', other ≠ other' → Disjoint (owns other) (owns other')) :
    let heap' := copyInto s.heap node key (s.heap.read address)
    Ok start ⟨heap', s.heap.length :: s.fresh⟩ ∧
      Inside start heap' node fields key s.heap.length child
        fun other => if other = key then {s.heap.length} else owns other := by
  intro heap'
  have hlength : heap'.length = s.heap.length + 1 := length_copyInto ..
  have hread : ∀ a, heap'.read a = _ := read_copyInto s.heap hhigh key _
  have hbefore := hs.length
  have hfind : ∀ other, Dict.find other (heap'.read node) =
      if other = key then some (.ref s.heap.length) else Dict.find other (s.heap.read node) := by
    intro other
    have hwrite := find_writeProperty (some (.ref s.heap.length)) (s.heap.read node) key other
    have hslot : writtenSlot key (some (.ref address)) (some (.ref s.heap.length)) =
        some (.ref s.heap.length) := if_neg fun h => Option.some_ne_none _ h.2
    rw [hentry, hslot] at hwrite
    rw [hread, if_pos rfl]
    exact hwrite
  refine ⟨⟨?_, ?_, ?_⟩, ⟨hlow, ?_, ?_, ?_, ?_, ?_, ?_, ?_⟩⟩
  · rw [hlength]
    omega
  · intro a
    rw [List.mem_cons, hs.fresh, hlength]
    omega
  · intro a ha
    rw [hread, if_neg (by omega), if_neg (by omega)]
    exact hs.unchanged a ha
  · rw [hlength]
    omega
  · rw [hfind, if_pos rfl]
  · have hcopy : heap'.read s.heap.length = start.read address := by
      rw [hread, if_neg (by omega), if_pos rfl, hs.unchanged _ hrep.bound]
    rw [if_pos rfl]
    exact .of_copy hrep hbefore (by omega) hcopy
  · intro other hne
    rw [hfind, if_neg hne, if_neg hne]
    refine rel_mono (hslots other) fun value json hvalue => hvalue.frame (by omega) fun a ha => ?_
    have hlt := (hbounds other a ha).2
    have hnode : a ≠ node := fun heq => hself other (heq ▸ ha)
    rw [hread, if_neg hnode, if_neg (by omega)]
  · intro other a ha
    split at ha
    · rw [Set.mem_singleton_iff.mp ha, hlength]
      omega
    · have := hbounds other a ha
      omega
  · intro other hmem
    split at hmem
    · rw [Set.mem_singleton_iff.mp hmem] at hhigh
      omega
    · exact hself other hmem
  · have hnew : ∀ other, Disjoint {s.heap.length} (owns other) := by
      intro other
      refine Set.disjoint_singleton_left.mpr fun hmem => ?_
      have := hbounds other _ hmem
      omega
    intro other other' hne
    split
    · rename_i hkey
      rw [if_neg fun hkey' => hne (hkey.trans hkey'.symm)]
      exact hnew other'
    · split
      · exact (hnew other).symm
      · exact hapart other other' hne

/-- The applier enters a child: it goes on in a copy of it. -/
theorem enter_child {s : Applier} {node : Nat} {fields child : Fields} {key : String}
    (hs : Ok start s) (howned : Owned start s.heap (.ref node) (.obj fields) copies)
    (hnode : start.length ≤ node) (hchild : Dict.find key fields = some (.obj child)) :
    ∃ s' copy owns, (∀ rest, parentLoop s node (key :: rest) = parentLoop s' copy rest) ∧
      Ok start s' ∧ Inside start s'.heap node fields key copy child owns ∧
      start.length ≤ copy ∧ s.heap.length ≤ s'.heap.length ∧
      (∀ a < s.heap.length, a ∉ copies → s'.heap.read a = s.heap.read a) ∧
      node ∈ copies ∧ ∀ other, ∀ a ∈ owns other, a ∈ copies ∨ s.heap.length ≤ a := by
  cases howned with
  | shared hrep =>
      cases hrep
      omega
  | @copy _ _ owns hlow hhigh hkeys hvalues hbounds hself hapart =>
      have hslots := slots_iff.mpr ⟨hkeys, hvalues⟩
      have howns : ∀ other, ∀ a ∈ owns other, a ∈ insert node (⋃ key, owns key) :=
        fun other a ha => Set.mem_insert_of_mem _ (Set.mem_iUnion.mpr ⟨other, ha⟩)
      rcases hentry : Dict.find key (s.heap.read node) with _ | value
      · rw [(hkeys key).mp hentry] at hchild
        cases hchild
      have hvalue := hvalues key value _ hentry hchild
      generalize hinner : owns key = inner at hvalue
      cases hvalue with
      | shared hrep =>
          cases hrep with
          | plain hplain => cases hplain
          | @record address _ hbound hkeys' hvalues' =>
              have hold : address ∉ s.fresh := by
                rw [hs.fresh]
                omega
              obtain ⟨hok, hinside⟩ := copy_child hs hlow hhigh hentry
                (.record hbound hkeys' hvalues') hslots hbounds hself hapart
              have hlength := length_copyInto s.heap node key (s.heap.read address)
              refine ⟨_, _, _, fun rest => ?_, hok, hinside, hs.length, ?_, ?_,
                Set.mem_insert _ _, ?_⟩
              · rw [parentLoop_cons hentry, if_neg hold]
              · dsimp only
                omega
              · intro a ha hnot
                dsimp only
                rw [read_copyInto _ hhigh, if_neg, if_neg (by omega)]
                rintro rfl
                exact hnot (Set.mem_insert _ _)
              · intro other a ha
                split at ha
                · rw [Set.mem_singleton_iff.mp ha]
                  exact .inr le_rfl
                · exact .inl (howns other a ha)
      | @copy address _ owns' hlow' hhigh' hkeys' hvalues' hbounds' hself' hapart' =>
          have hfresh : address ∈ s.fresh := (hs.fresh address).mpr ⟨hlow', hhigh'⟩
          refine ⟨s, address, owns, fun rest => ?_, hs, ?_, hlow', le_rfl, fun a _ _ => rfl,
            Set.mem_insert _ _, fun other a ha => .inl (howns other a ha)⟩
          · rw [parentLoop_cons hentry, if_pos hfresh]
          · refine ⟨hlow, hhigh, hentry, ?_, fun other _ => hslots other, hbounds, hself, hapart⟩
            rw [hinner]
            exact .copy hlow' hhigh' hkeys' hvalues' hbounds' hself' hapart'

/-- A write along a path: what the value is made of stays apart, the value changes as the object
does, and nothing else changes. -/
theorem write_spec {s : Applier} {node : Nat} {fields fields' : Fields} {keys : List String}
    {last : String} {path : StatePath} {payload : Option Value} {payload' : Option Json}
    (hs : Ok start s) (howned : Owned start s.heap (.ref node) (.obj fields) copies)
    (hnode : start.length ≤ node) (hpayload : Option.Rel (Represents start) payload payload')
    (hwrite : writeAt path (fun node key => act protoSkips node key payload') fields
      (keys ++ [last]) = .ok fields') :
    ∃ s' parent, parentLoop s node keys = (s', some parent) ∧
      let heap' := s'.heap.set parent (writeProperty payload (s'.heap.read parent) last)
      Ok start ⟨heap', s'.fresh⟩ ∧ s.heap.length ≤ heap'.length ∧
        (∀ a < s.heap.length, a ∉ copies → Heap.read heap' a = s.heap.read a) ∧
        ∃ copies', Owned start heap' (.ref node) (.obj fields') copies' ∧
          ∀ a ∈ copies', a ∈ copies ∨ s.heap.length ≤ a := by
  induction keys generalizing s node fields fields' copies with
  | nil =>
      have hfields : act protoSkips fields last payload' = fields' := Except.ok.inj hwrite
      refine ⟨s, node, rfl, ?_⟩
      rw [← hfields]
      exact write_here hs howned hnode hpayload
  | cons key rest ih =>
      obtain ⟨next, tail, htail⟩ := List.exists_cons_of_ne_nil
        (List.append_ne_nil_of_right_ne_nil rest (List.cons_ne_nil last []))
      rw [List.cons_append, htail, writeAt_cons] at hwrite
      split at hwrite
      · rename_i child hchild
        split at hwrite
        · cases hwrite
        · rename_i child' hinner
          obtain ⟨s₁, copy, owns, hloop, hs₁, hinside, hcopy, hlength, hsame, hmem, howns⟩ :=
            enter_child hs howned hnode hchild
          rw [← htail] at hinner
          obtain ⟨s', parent, hparent, hok, hlength', hsame', inner, howned', hinner⟩ :=
            ih hs₁ hinside.child_owned hcopy hinner
          refine ⟨s', parent, (hloop rest).trans hparent, hok, hlength.trans hlength', ?_,
            insert node (⋃ other, if other = key then inner else owns other), ?_, ?_⟩
          · intro a ha hnot
            rw [hsame' a (ha.trans_le hlength), hsame a ha hnot]
            intro hkey
            rcases howns key a hkey with hold | hnew
            · exact hnot hold
            · omega
          · rw [← Except.ok.inj hwrite]
            exact hinside.leave hlength' hsame' howned' hinner
          · intro a ha
            rcases Set.mem_insert_iff.mp ha with rfl | hother
            · exact .inl hmem
            · obtain ⟨other, hother⟩ := Set.mem_iUnion.mp hother
              split at hother
              · rcases hinner a hother with hkey | hnew
                · exact howns key a hkey
                · exact .inr (hlength.trans hnew)
              · exact howns other a hother
      · cases hwrite

/-! ## Applying operations -/

/-- The new state stands for an object, and is made of copies. -/
structure Applied (start : Heap) (s : Applier) (root : Nat) (fields : Fields) : Prop where
  ok : Ok start s
  low : start.length ≤ root
  owned : ∃ copies, Owned start s.heap (.ref root) (.obj fields) copies

theorem applyOperation_spec {s : Applier} {root : Nat} {fields fields' : Fields} {path : StatePath}
    {payload : Option Value} {payload' : Option Json} (h : Applied start s root fields)
    (hpayload : Option.Rel (Represents start) payload payload')
    (hstep : step protoSkips fields (path, payload') = .ok fields') :
    ∃ s', applyOperation s root path (writeProperty payload) = (s', true) ∧
      Applied start s' root fields' := by
  obtain ⟨hs, hroot, copies, howned⟩ := h
  rcases List.eq_nil_or_concat path with rfl | ⟨keys, last, rfl⟩
  · cases hstep
  · rw [List.concat_eq_append] at hstep ⊢
    obtain ⟨s', parent, hparent, hok, -, -, copies', howned', -⟩ :=
      write_spec hs howned hroot hpayload hstep
    refine ⟨⟨s'.heap.set parent (writeProperty payload (s'.heap.read parent) last), s'.fresh⟩, ?_,
      hok, hroot, copies', howned'⟩
    rw [applyOperation, parentFor, List.dropLast_concat, hparent, lastKey, List.getLast?_concat]
    rfl

/-- The operations, with the values that stand for those of others. -/
structure SameOps (heap : Heap) (ops : StateDeltaOps Value) (ops' : StateDeltaOps Json) : Prop where
  set : List.Forall₂ (fun op op' => op.1 = op'.1 ∧ Represents heap op.2 op'.2) ops.set ops'.set
  unset : ops.unset = ops'.unset

theorem applySets_spec {s : Applier} {root : Nat} {fields fields' : Fields}
    {ops : List (StatePath × Value)} {ops' : List LeafSetOp} (h : Applied start s root fields)
    (hops : List.Forall₂ (fun op op' => op.1 = op'.1 ∧ Represents start op.2 op'.2) ops ops')
    (hfold : (ops'.map fun op => (op.1, some op.2)).foldlM (step protoSkips) fields = .ok fields') :
    ∃ s', applySets s root ops = (s', true) ∧ Applied start s' root fields' := by
  induction hops generalizing s fields with
  | nil =>
      rw [← Except.ok.inj hfold]
      exact ⟨s, rfl, h⟩
  | @cons op op' rest rest' hop hrest ih =>
      obtain ⟨path, value⟩ := op
      obtain ⟨path', value'⟩ := op'
      obtain ⟨rfl, hrep⟩ := hop
      rw [List.map_cons, List.foldlM_cons] at hfold
      rcases hstep : step protoSkips fields (path, some value') with raised | next
      · rw [hstep] at hfold
        cases hfold
      rw [hstep] at hfold
      obtain ⟨s₁, hoperation, hs₁⟩ := applyOperation_spec h (.some hrep) hstep
      obtain ⟨s', hsets, hs'⟩ := ih hs₁ hfold
      refine ⟨s', ?_, hs'⟩
      have hwrite : (fun object key => assignProperty object key value) =
          writeProperty (some value) := rfl
      rw [applySets, hwrite, hoperation]
      exact hsets

theorem applyUnsets_spec {s : Applier} {root : Nat} {fields fields' : Fields}
    {paths : List StatePath} (h : Applied start s root fields)
    (hfold : (paths.map fun path => (path, none)).foldlM (step protoSkips) fields = .ok fields') :
    ∃ s', applyUnsets s root paths = (s', true) ∧ Applied start s' root fields' := by
  induction paths generalizing s fields with
  | nil =>
      rw [← Except.ok.inj hfold]
      exact ⟨s, rfl, h⟩
  | cons path rest ih =>
      rw [List.map_cons, List.foldlM_cons] at hfold
      rcases hstep : step protoSkips fields (path, none) with raised | next
      · rw [hstep] at hfold
        cases hfold
      rw [hstep] at hfold
      obtain ⟨s₁, hoperation, hs₁⟩ := applyOperation_spec h .none hstep
      obtain ⟨s', hunsets, hs'⟩ := ih hs₁ hfold
      refine ⟨s', ?_, hs'⟩
      have hwrite : deleteProperty = writeProperty none := rfl
      rw [applyUnsets, hwrite, hoperation]
      exact hunsets

/-- The writes of operations, in the order they are applied in. -/
def StateDeltaOps.writes (ops : StateDeltaOps Json) : List Write :=
  LeafOps.writes ⟨ops.set, ops.unset⟩

/-- Where the writes succeed on the object that a state stands for, the applier gives a state
that stands for their result, and writes to nothing that was there. -/
theorem applyStateDelta_spec {state : Nat} {client result : Fields} {ops : StateDeltaOps Value}
    {ops' : StateDeltaOps Json} (hclient : Represents heap (.ref state) (.obj client))
    (hops : SameOps heap ops ops')
    (hfold : ops'.writes.foldlM (step protoSkips) client = .ok result) :
    ∃ heap' root, applyStateDelta heap state ops = (heap', some root) ∧
      Represents heap' (.ref root) (.obj result) ∧
        ∀ a < heap.length, heap'.read a = heap.read a := by
  have hlength : (heap ++ [heap.read state]).length = heap.length + 1 := by
    rw [List.length_append, List.length_singleton]
  have happlied : Applied heap ⟨heap ++ [heap.read state], [heap.length]⟩ heap.length client := by
    refine ⟨⟨?_, fun a => ?_, fun a ha => read_append _ _ ha⟩, le_rfl, _,
      .of_copy hclient le_rfl ?_ (read_append_last _ _)⟩
    · dsimp only
      omega
    · rw [List.mem_singleton]
      dsimp only
      omega
    · dsimp only
      omega
  rw [StateDeltaOps.writes, LeafOps.writes, List.foldlM_append] at hfold
  rcases hsets : (ops'.set.map fun op => (op.1, some op.2)).foldlM (step protoSkips) client with
    raised | middle
  · rw [hsets] at hfold
    cases hfold
  rw [hsets] at hfold
  obtain ⟨s₁, hsets', hs₁⟩ := applySets_spec happlied hops.set hsets
  obtain ⟨s', hunsets', hs', -, copies, howned⟩ := applyUnsets_spec hs₁ hfold
  refine ⟨s'.heap, heap.length, ?_, howned.represents hs'.length hs'.unchanged, hs'.unchanged⟩
  rw [applyStateDelta, hsets']
  dsimp only
  rw [hops.unset, hunsets']

end Rigplane.Web.Frontend
