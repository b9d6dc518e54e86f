import Rigplane.Web.DeltaEncoder

/-!
# What applying a diff gives

The operations of a diff are writes at paths, and a write only changes the slot of its first
key.  So the writes of a diff can be applied slot by slot (`foldlM_slots`), and the writes in
the slot of one key are those of the diff of the values there (`slot_diff`).

`patchItems` is what they give: the value the client holds where the diff finds two values
equal, and the current value where it sets one.

Assigning a key may do nothing where the object does not have it.  `skips` tells for which keys:
for none in Python, and for `__proto__` in the browser.
-/

namespace Rigplane.Web

open Json

/-! ## Writes -/

/-- A write at a path: a value that is set, or none for a key that is dropped. -/
abbrev Write := StatePath × Option Json

/-- The writes of a diff, in the order they are applied in. -/
def LeafOps.writes (ops : LeafOps) : List Write :=
  ops.set.map (fun op => (op.1, some op.2)) ++ ops.unset.map fun path => (path, none)

variable (skips : String → Bool)

/-- `node[key] = value`. -/
def put (node : Fields) (key : String) (value : Json) : Fields :=
  if skips key ∧ Dict.find key node = none then node else Dict.assign key value node

/-- A write to the object that its path leads to. -/
def act (node : Fields) (key : String) : Option Json → Fields
  | some value => put skips node key value
  | none => pop node key

def step (node : Fields) (write : Write) : Except ApplyError Fields :=
  writeAt write.1 (fun node key => act skips node key write.2) node write.1

/-! ## Slots -/

/-- What a write to an object leaves in the slot of its key. -/
def actSlot (key : String) (slot : Option Json) : Option Json → Option Json
  | some value => if skips key ∧ slot = none then none else some value
  | none => none

/-- A write in the slot of a key, by the rest of its path. -/
def slotStep (key : String) (slot : Option Json) (write : Write) :
    Except ApplyError (Option Json) :=
  match write.1 with
  | [] => .ok (actSlot skips key slot write.2)
  | _ :: _ =>
      match slot with
      | some (.obj child) =>
          match step skips child write with
          | .error raised => .error raised
          | .ok child => .ok (some (.obj child))
      | _ => .error (.invalidPath write.1)

variable {skips}

theorem find_pop (node : Fields) (key key' : String) :
    Dict.find key' (pop node key) = if key' = key then none else Dict.find key' node :=
  Dict.find_filter_ne key key' node

theorem find_act (node : Fields) (key key' : String) (payload : Option Json) :
    Dict.find key' (act skips node key payload) =
      if key' = key then actSlot skips key (Dict.find key node) payload
      else Dict.find key' node := by
  cases payload with
  | none =>
      rw [act, find_pop]
      rfl
  | some value =>
      rw [act, put, actSlot]
      by_cases hskip : skips key = true ∧ Dict.find key node = none
      · rw [if_pos hskip, if_pos hskip]
        split
        · rename_i heq
          rw [heq, hskip.2]
        · rfl
      · rw [if_neg hskip, if_neg hskip, Dict.find_assign]

theorem writeAt_cons (path : StatePath) (write : Fields → String → Fields) (node : Fields)
    (key next : String) (rest : StatePath) : writeAt path write node (key :: next :: rest) =
      match Dict.find key node with
      | some (.obj child) =>
          match writeAt path write child (next :: rest) with
          | .error raised => .error raised
          | .ok child => .ok (Dict.assign key (.obj child) node)
      | _ => .error (.invalidPath path) := rfl

theorem slotStep_cons (key : String) (slot payload : Option Json) (next : String)
    (rest : StatePath) : slotStep skips key slot (next :: rest, payload) =
      match slot with
      | some (.obj child) =>
          match step skips child (next :: rest, payload) with
          | .error raised => .error raised
          | .ok child => .ok (some (.obj child))
      | _ => .error (.invalidPath (next :: rest)) := rfl

/-- The path in an error does not matter to a write that succeeds. -/
theorem writeAt_ok {write : Fields → String → Fields} {path path' keys : StatePath}
    {node node' : Fields} (h : writeAt path write node keys = .ok node') :
    writeAt path' write node keys = .ok node' := by
  induction keys generalizing node node' with
  | nil => cases h
  | cons key rest ih =>
      cases rest with
      | nil => exact h
      | cons next rest =>
          rw [writeAt_cons] at h ⊢
          split at h
          · rename_i child hchild
            split at h
            · cases h
            · rename_i child' hwrite
              rw [ih hwrite]
              exact h
          · cases h

/-- A write changes the slot of its first key only. -/
theorem step_slot {node : Fields} {key : String} {rest : StatePath} {payload slot : Option Json}
    (h : slotStep skips key (Dict.find key node) (rest, payload) = .ok slot) :
    ∃ node', step skips node (key :: rest, payload) = .ok node' ∧
      ∀ key', Dict.find key' node' = if key' = key then slot else Dict.find key' node := by
  cases rest with
  | nil =>
      have hslot : actSlot skips key (Dict.find key node) payload = slot := Except.ok.inj h
      refine ⟨_, rfl, fun key' => ?_⟩
      rw [find_act, hslot]
  | cons next rest =>
      rw [slotStep_cons] at h
      split at h
      · rename_i child hchild
        split at h
        · cases h
        · rename_i child' hstep
          refine ⟨Dict.assign key (.obj child') node, ?_, fun key' => ?_⟩
          · rw [step, writeAt_cons, hchild]
            dsimp only
            rw [writeAt_ok hstep]
          · rw [Dict.find_assign, ← Except.ok.inj h]
      · cases h

/-- The rest of a path that starts with a key. -/
def tailAt (key : String) : StatePath → Option StatePath
  | [] => none
  | first :: rest => if first = key then some rest else none

/-- The writes in the slot of a key, without the key. -/
def writesAt (key : String) (writes : List Write) : List Write :=
  writes.filterMap fun write => (tailAt key write.1).map fun rest => (rest, write.2)

/-- Writes are applied slot by slot. -/
theorem foldlM_slots {writes : List Write} {node : Fields} {slots : String → Option Json}
    (hpaths : ∀ write ∈ writes, write.1 ≠ [])
    (h : ∀ key, (writesAt key writes).foldlM (slotStep skips key) (Dict.find key node) =
      .ok (slots key)) :
    ∃ node', writes.foldlM (step skips) node = .ok node' ∧
      ∀ key, Dict.find key node' = slots key := by
  induction writes generalizing node with
  | nil => exact ⟨node, rfl, fun key => Except.ok.inj (h key)⟩
  | cons write writes ih =>
      obtain ⟨path, payload⟩ := write
      cases path with
      | nil => exact absurd rfl (hpaths _ List.mem_cons_self)
      | cons first rest =>
          have hfirst := h first
          rw [writesAt, List.filterMap_cons, tailAt, if_pos rfl, Option.map_some] at hfirst
          dsimp only at hfirst
          rw [List.foldlM_cons] at hfirst
          rcases hslot : slotStep skips first (Dict.find first node)
            (rest, payload) with raised | slot
          · rw [hslot] at hfirst
            cases hfirst
          rw [hslot] at hfirst
          obtain ⟨next, hstep, hfind⟩ := step_slot hslot
          have hrest : ∀ key, (writesAt key writes).foldlM (slotStep skips key)
              (Dict.find key next) = .ok (slots key) := by
            intro key
            rw [hfind]
            by_cases hkey : key = first
            · rw [if_pos hkey, hkey]
              exact hfirst
            · have hother := h key
              rw [writesAt, List.filterMap_cons, tailAt, if_neg (Ne.symm hkey), Option.map_none]
                at hother
              rw [if_neg hkey]
              exact hother
          obtain ⟨node', hfold, hslots⟩ :=
            ih (fun write hwrite => hpaths write (List.mem_cons_of_mem _ hwrite)) hrest
          refine ⟨node', ?_, hslots⟩
          rw [List.foldlM_cons, hstep]
          exact hfold

/-! ## The diff of a key -/

namespace LeafOps

/-- Operations in the object that a path leads to. -/
def under (base : StatePath) (ops : LeafOps) : LeafOps :=
  ⟨ops.set.map fun op => (base ++ op.1, op.2), ops.unset.map fun path => base ++ path⟩

theorem under_append (base : StatePath) (ops more : LeafOps) :
    (ops.append more).under base = (ops.under base).append (more.under base) := by
  rw [under, append, List.map_append, List.map_append]
  rfl

theorem under_under (base path : StatePath) (ops : LeafOps) :
    (ops.under path).under base = ops.under (base ++ path) := by
  rw [under, under, under, List.map_map, List.map_map]
  simp only [Function.comp_def, List.append_assoc]

end LeafOps

/-- Both values are objects, so the diff goes into them. -/
def Objects (old value : Json) : Prop := ∃ prev cur, old = .obj prev ∧ value = .obj cur

theorem diffValue_objects (prev cur : Fields) (path : StatePath) :
    diffValue (.obj prev) path (.obj cur) =
      if pyEqual (.obj prev) (.obj cur) then {} else diff prev cur path := rfl

theorem diffValue_of_not {old value : Json} (h : ¬ Objects old value) (path : StatePath) :
    diffValue old path value = if pyEqual old value then {} else ⟨[(path, value)], []⟩ := by
  cases value with
  | obj cur =>
      cases old with
      | obj prev => exact absurd ⟨prev, cur, rfl, rfl⟩ h
      | null | bool | int | float | str | arr => rfl
  | null | bool | int | float | str | arr => rfl

/-- The operations at a key that the current object has. -/
def keyOps (prev : Fields) (key : String) (value : Json) : LeafOps :=
  match Dict.find key prev with
  | none => ⟨[([], value)], []⟩
  | some old => diffValue old [] value

theorem droppedKeys_under (prev cur : Fields) (base : StatePath) :
    droppedKeys prev cur base = (droppedKeys prev cur []).under base := by
  rw [droppedKeys, droppedKeys, LeafOps.under, List.map_map]
  rfl

theorem diffItems_cons {prev : Fields} {path : StatePath} {key : String} {value : Json}
    {rest : Fields} (h : ∀ old base, diffValue old base value =
    (diffValue old [] value).under base) :
    diffItems prev path ((key, value) :: rest) =
      ((keyOps prev key value).under (path ++ [key])).append (diffItems prev path rest) := by
  rw [diffItems, keyOps]
  rcases Dict.find key prev with _ | old
  · rw [LeafOps.under, List.map_singleton, List.append_nil]
    rfl
  · dsimp only
    rw [h]

theorem diffItems_under {prev : Fields} {items : Fields} (base : StatePath)
    (h : ∀ entry ∈ items, ∀ old base,
      diffValue old base entry.2 = (diffValue old [] entry.2).under base) :
    diffItems prev base items = (diffItems prev [] items).under base := by
  induction items with
  | nil => rfl
  | cons entry rest ih =>
      have hentry := h entry List.mem_cons_self
      rw [diffItems_cons hentry, diffItems_cons hentry, LeafOps.under_append, LeafOps.under_under,
        ih fun entry hmem => h entry (List.mem_cons_of_mem _ hmem)]
      rfl

theorem diffValue_under_of_not {old value : Json} (h : ¬ Objects old value) (base : StatePath) :
    diffValue old base value = (diffValue old [] value).under base := by
  rw [diffValue_of_not h, diffValue_of_not h]
  split
  · rfl
  · rw [LeafOps.under, List.map_singleton, List.append_nil]
    rfl

theorem diffValue_under (value old : Json) (base : StatePath) :
    diffValue old base value = (diffValue old [] value).under base := by
  induction value using induction generalizing old base with
  | hscalar value scalar hscalar =>
      refine diffValue_under_of_not ?_ base
      rintro ⟨prev, cur, -, rfl⟩
      cases hscalar
  | harr items ih =>
      refine diffValue_under_of_not ?_ base
      rintro ⟨prev, cur, -, hcur⟩
      cases hcur
  | hobj fields ih =>
      by_cases hobjects : Objects old (.obj fields)
      · obtain ⟨prev, cur, rfl, hcur⟩ := hobjects
        cases hcur
        rw [diffValue_objects, diffValue_objects]
        split
        · rfl
        · have hitems : diffItems prev base fields = (diffItems prev [] fields).under base :=
            diffItems_under base fun entry hentry old base => ih entry hentry old base
          rw [diff, diff, hitems, droppedKeys_under, ← LeafOps.under_append]
      · exact diffValue_under_of_not hobjects base

theorem diffItems_eq (prev : Fields) (path : StatePath) (key : String) (value : Json)
    (rest : Fields) :
    diffItems prev path ((key, value) :: rest) =
      ((keyOps prev key value).under (path ++ [key])).append (diffItems prev path rest) :=
  diffItems_cons fun old base => diffValue_under value old base

/-! ## The diff in a slot -/

namespace LeafOps

/-- The operations in the slot of a key, without the key. -/
def slot (key : String) (ops : LeafOps) : LeafOps :=
  ⟨ops.set.filterMap fun op => (tailAt key op.1).map fun rest => (rest, op.2),
    ops.unset.filterMap (tailAt key)⟩

theorem writesAt_writes (key : String) (ops : LeafOps) :
    writesAt key ops.writes = (ops.slot key).writes := by
  rw [writesAt, writes, writes, LeafOps.slot, List.filterMap_append, List.filterMap_map,
    List.filterMap_map, List.map_filterMap, List.map_filterMap]
  simp only [Function.comp_def, Option.map_map]

theorem slot_append (key : String) (ops more : LeafOps) :
    (ops.append more).slot key = (ops.slot key).append (more.slot key) := by
  rw [LeafOps.slot, append, List.filterMap_append, List.filterMap_append]
  rfl

theorem slot_under (key first : String) (ops : LeafOps) :
    (ops.under [first]).slot key = if first = key then ops else {} := by
  rw [LeafOps.slot, under, List.filterMap_map, List.filterMap_map]
  by_cases h : first = key
  · simp [tailAt, h]
  · simp [Function.comp_def, tailAt, h]

end LeafOps

theorem slot_diffItems {prev items : Fields} (hnodup : (items.map Prod.fst).Nodup) (key : String) :
    (diffItems prev [] items).slot key =
      match Dict.find key items with
      | none => {}
      | some value => keyOps prev key value := by
  induction items with
  | nil => rfl
  | cons entry rest ih =>
      obtain ⟨first, value⟩ := entry
      rw [List.map_cons, List.nodup_cons] at hnodup
      rw [diffItems_eq, LeafOps.slot_append, List.nil_append, LeafOps.slot_under, ih hnodup.2,
        Dict.find]
      by_cases h : first = key
      · have hnone : Dict.find key rest = none := Dict.find_eq_none.mpr (h ▸ hnodup.1)
        rw [if_pos h, if_pos h, hnone, h]
        dsimp only [LeafOps.append]
        rw [List.append_nil, List.append_nil]
      · rw [if_neg h, if_neg h]
        rfl

theorem filterMap_tailAt {keys : List String} (hnodup : keys.Nodup) (key : String) :
    (keys.map fun key => [key]).filterMap (tailAt key) = if key ∈ keys then [[]] else [] := by
  induction keys with
  | nil => rfl
  | cons first rest ih =>
      rw [List.nodup_cons] at hnodup
      rw [List.map_cons, List.filterMap_cons, tailAt, ih hnodup.2]
      by_cases h : first = key
      · subst h
        rw [if_pos rfl, if_neg hnodup.1, if_pos List.mem_cons_self]
      · rw [if_neg h]
        simp [Ne.symm h]

theorem slot_droppedKeys {prev cur : Fields} (hnodup : (prev.map Prod.fst).Nodup) (key : String) :
    (droppedKeys prev cur []).slot key =
      if Dict.find key prev ≠ none ∧ Dict.find key cur = none then ⟨[], [[]]⟩ else {} := by
  have hmem : key ∈ (prev.map Prod.fst).filter (fun key => Dict.find key cur = none) ↔
      Dict.find key prev ≠ none ∧ Dict.find key cur = none := by
    have hprev : key ∈ prev.map Prod.fst ↔ Dict.find key prev ≠ none := by
      rw [ne_eq, Dict.find_eq_none, not_not]
    rw [List.mem_filter, decide_eq_true_iff, hprev]
  rw [droppedKeys, LeafOps.slot]
  simp only [List.nil_append]
  rw [filterMap_tailAt (hnodup.filter _)]
  by_cases h : Dict.find key prev ≠ none ∧ Dict.find key cur = none
  · rw [if_pos h, if_pos (hmem.mpr h)]
    rfl
  · rw [if_neg h, if_neg (mt hmem.mp h)]
    rfl

/-- The diff in the slot of a key is the diff of what stands there. -/
theorem slot_diff {prev cur : Fields} (hprev : (prev.map Prod.fst).Nodup)
    (hcur : (cur.map Prod.fst).Nodup) (key : String) :
    (diff prev cur []).slot key =
      match Dict.find key cur with
      | none => if Dict.find key prev ≠ none then ⟨[], [[]]⟩ else {}
      | some value => keyOps prev key value := by
  rw [diff, LeafOps.slot_append, slot_diffItems hcur, slot_droppedKeys hprev]
  rcases Dict.find key cur with _ | value
  · by_cases h : Dict.find key prev ≠ none
    · rw [if_pos ⟨h, rfl⟩]
      exact (if_pos h).symm
    · rw [if_neg fun hboth => h hboth.1]
      exact (if_neg h).symm
  · rw [if_neg fun hboth => by cases hboth.2]
    dsimp only [LeafOps.append]
    rw [List.append_nil, List.append_nil]

namespace LeafOps

theorem mem_writes_append {ops more : LeafOps} {write : Write} :
    write ∈ (ops.append more).writes ↔ write ∈ ops.writes ∨ write ∈ more.writes := by
  simp only [writes, append, List.map_append, List.mem_append]
  tauto

theorem mem_writes_under {base : StatePath} {ops : LeafOps} {write : Write}
    (h : write ∈ (ops.under base).writes) : ∃ rest, write.1 = base ++ rest := by
  rw [writes, under, List.map_map, List.map_map, List.mem_append, List.mem_map, List.mem_map] at h
  rcases h with ⟨op, -, rfl⟩ | ⟨path, -, rfl⟩
  · exact ⟨_, rfl⟩
  · exact ⟨_, rfl⟩

end LeafOps

/-- Every path of a diff has a key. -/
theorem diff_path {prev cur : Fields} {path : StatePath} {write : Write}
    (h : write ∈ (diff prev cur path).writes) : write.1 ≠ [] := by
  rw [diff, LeafOps.mem_writes_append] at h
  rcases h with hitems | hdropped
  · induction cur with
    | nil => cases hitems
    | cons entry rest ih =>
        obtain ⟨key, value⟩ := entry
        rw [diffItems_eq, LeafOps.mem_writes_append] at hitems
        rcases hitems with hkey | hrest
        · obtain ⟨tail, htail⟩ := LeafOps.mem_writes_under hkey
          rw [htail]
          simp
        · exact ih hrest
  · rw [droppedKeys, LeafOps.writes, List.map_nil, List.nil_append, List.map_map,
      List.mem_map] at hdropped
    obtain ⟨key, -, rfl⟩ := hdropped
    simp

/-! ## The patch -/

mutual

/-- What the writes of a diff give for the items of the current object. -/
def patchItems (skips : String → Bool) (prev client : Fields) : Fields → Fields
  | [] => []
  | (key, value) :: rest =>
      match Dict.find key prev with
      | none =>
          if skips key then patchItems skips prev client rest
          else (key, value) :: patchItems skips prev client rest
      | some old =>
          (key, patchValue skips old (Json.get client key) value) ::
            patchItems skips prev client rest

/-- What they give at a key that both objects have, and where the client holds a value. -/
def patchValue (skips : String → Bool) (old held : Json) : Json → Json
  | .obj cur =>
      if pyEqual old (.obj cur) then held
      else
        match old, held with
        | .obj prev, .obj client => .obj (patchItems skips prev client cur)
        | _, _ => .obj cur
  | value => if pyEqual old value then held else value

end

theorem patchValue_of_not {old value : Json} (h : ¬ Objects old value) (held : Json) :
    patchValue skips old held value = if pyEqual old value then held else value := by
  cases value with
  | obj cur =>
      cases old with
      | obj prev => exact absurd ⟨prev, cur, rfl, rfl⟩ h
      | null | bool | int | float | str | arr => rfl
  | null | bool | int | float | str | arr => rfl

theorem find_patchItems {prev client cur : Fields} (hnodup : (cur.map Prod.fst).Nodup)
    (key : String) : Dict.find key (patchItems skips prev client cur) =
      match Dict.find key cur, Dict.find key prev with
      | none, _ => none
      | some value, none => if skips key then none else some value
      | some value, some old => some (patchValue skips old (Json.get client key) value) := by
  induction cur with
  | nil => rfl
  | cons entry rest ih =>
      obtain ⟨first, value⟩ := entry
      rw [List.map_cons, List.nodup_cons] at hnodup
      rw [patchItems, Dict.find]
      by_cases h : first = key
      · subst h
        have hnone : Dict.find first (patchItems skips prev client rest) = none := by
          rw [ih hnodup.2, Dict.find_eq_none.mpr hnodup.1]
        rw [if_pos rfl]
        rcases Dict.find first prev with _ | old
        · dsimp only
          split
          · exact hnone
          · rw [Dict.find, if_pos rfl]
        · dsimp only
          rw [Dict.find, if_pos rfl]
      · rw [if_neg h, ← ih hnodup.2]
        rcases Dict.find first prev with _ | old
        · dsimp only
          split
          · rfl
          · rw [Dict.find, if_neg h]
        · dsimp only
          rw [Dict.find, if_neg h]

/-- In the slot of an object, writes that lead into it are applied to it. -/
theorem foldlM_inside {key : String} {writes : List Write} {child child' : Fields}
    (hpaths : ∀ write ∈ writes, write.1 ≠ []) (h : writes.foldlM (step skips) child = .ok child') :
    writes.foldlM (slotStep skips key) (some (.obj child)) = .ok (some (.obj child')) := by
  induction writes generalizing child with
  | nil => exact congrArg _ (congrArg _ (congrArg _ (Except.ok.inj h)))
  | cons write writes ih =>
      obtain ⟨path, payload⟩ := write
      cases path with
      | nil => exact absurd rfl (hpaths _ List.mem_cons_self)
      | cons next rest =>
          rw [List.foldlM_cons] at h
          rcases hstep : step skips child (next :: rest, payload) with raised | next'
          · rw [hstep] at h
            cases h
          rw [hstep] at h
          rw [List.foldlM_cons, slotStep_cons]
          dsimp only
          rw [hstep]
          exact ih (fun write hwrite => hpaths write (List.mem_cons_of_mem _ hwrite)) h

section Meaning

variable {read : Scalar → Scalar} {prev client : Fields} {key : String}

/-- Objects that are equal hold equal values at a key. -/
theorem held_of_find (hclient : meaning read (.obj client) = meaning read (.obj prev)) {old : Json}
    (h : Dict.find key prev = some old) :
    ∃ held, Dict.find key client = some held ∧ meaning read held = meaning read old := by
  rw [meaning_obj, meaning_obj] at hclient
  have hkey := congrFun (Tree.table.inj hclient) key
  rw [h, Option.map_some, Option.map_eq_some_iff] at hkey
  exact hkey

theorem find_none_of_prev (hclient : meaning read (.obj client) = meaning read (.obj prev))
    (h : Dict.find key prev = none) : Dict.find key client = none := by
  rw [meaning_obj, meaning_obj] at hclient
  have hkey := congrFun (Tree.table.inj hclient) key
  rw [h, Option.map_none, Option.map_eq_none_iff] at hkey
  exact hkey

theorem object_of_meaning {held : Json} (h : meaning read held = meaning read (.obj prev)) :
    ∃ client, held = .obj client := by
  rw [meaning_obj] at h
  rcases scalar?_cases held with ⟨scalar, hscalar⟩ | ⟨items, rfl⟩ | hobj
  · rw [meaning_of_scalar hscalar] at h
    cases h
  · rw [meaning_arr] at h
    cases h
  · exact hobj

end Meaning

/-- Applying the writes of a diff to a client that holds the previous object, to Python. -/
theorem apply_diff (skips : String → Bool) {prev client cur : Fields}
    (hprev : proper (.obj prev) = true)
    (hcur : proper (.obj cur) = true)
    (hclient : meaning Scalar.python (.obj client) = meaning Scalar.python (.obj prev)) :
    ∃ result, (diff prev cur []).writes.foldlM (step skips) client = .ok result ∧
      SameJson (.obj result) (.obj (patchItems skips prev client cur)) := by
  generalize hvalue : Json.obj cur = value at hcur
  induction value using induction generalizing prev client cur with
  | hscalar value scalar hscalar =>
      rw [← hvalue] at hscalar
      cases hscalar
  | harr items ih => cases hvalue
  | hobj fields ih =>
      have hfields := Json.obj.inj hvalue
      subst hfields
      have hprev_nodup := (proper_obj.mp hprev).1
      have hcur_nodup := (proper_obj.mp hcur).1
      have hslot : ∀ key, ∃ slot, (writesAt key (diff prev cur []).writes).foldlM
          (slotStep skips key) (Dict.find key client) = .ok slot ∧
            slot.map (meaning id) =
              (Dict.find key (patchItems skips prev client cur)).map (meaning id) := by
        intro key
        rw [LeafOps.writesAt_writes, slot_diff hprev_nodup hcur_nodup, find_patchItems hcur_nodup]
        rcases hvalue : Dict.find key cur with _ | value
        · dsimp only
          rcases hold : Dict.find key prev with _ | old
          · rw [find_none_of_prev hclient hold]
            exact ⟨none, rfl, rfl⟩
          · exact ⟨none, rfl, rfl⟩
        dsimp only
        rw [keyOps]
        rcases hold : Dict.find key prev with _ | old
        · rw [find_none_of_prev hclient hold]
          refine ⟨if skips key then none else some value, ?_, rfl⟩
          show Except.ok (if skips key = true ∧ (none : Option Json) = none then _ else _) = _
          simp
        obtain ⟨held, hheld, hmeaning⟩ := held_of_find hclient hold
        have hget : Json.get client key = held := by
          rw [Json.get, hheld]
          rfl
        dsimp only
        rw [hheld, hget]
        by_cases hobjects : Objects old value
        · obtain ⟨prev', cur', rfl, rfl⟩ := hobjects
          obtain ⟨client', rfl⟩ := object_of_meaning hmeaning
          rw [diffValue_objects, patchValue]
          split
          · exact ⟨some (.obj client'), rfl, rfl⟩
          · obtain ⟨result, hfold, hresult⟩ := ih _ (mem_of_find hvalue)
              (proper_of_find hprev hold) hmeaning rfl (proper_of_find hcur hvalue)
            exact ⟨some (.obj result), foldlM_inside (fun write => diff_path) hfold,
              congrArg some hresult⟩
        · rw [diffValue_of_not hobjects, patchValue_of_not hobjects]
          split
          · exact ⟨some held, rfl, rfl⟩
          · refine ⟨some value, ?_, rfl⟩
            show Except.ok (if skips key = true ∧ some held = none then _ else _) = _
            simp
      choose slots hslots hmeaning using hslot
      obtain ⟨result, hfold, hfind⟩ := foldlM_slots (fun write => diff_path) hslots
      refine ⟨result, hfold, ?_⟩
      rw [SameJson, meaning_obj, meaning_obj]
      congr 1
      funext key
      rw [hfind, hmeaning]

/-! ## When the patch is the current object -/

mutual

/-- No value is replaced by another that Python finds equal to it. -/
def reproducesItems (shown : Fields) : Fields → Bool
  | [] => true
  | (key, value) :: rest =>
      (match Dict.find key shown with
        | none => true
        | some held => reproducesValue held value) && reproducesItems shown rest

def reproducesValue (held : Json) : Json → Bool
  | .obj cur =>
      if pyEqual held (.obj cur) then same held (.obj cur)
      else
        match held with
        | .obj shown => reproducesItems shown cur
        | _ => true
  | value => if pyEqual held value then same held value else true

end

/-- In Python, every assignment takes effect. -/
def noSkips : String → Bool := fun _ => false

theorem reproducesItems_iff {shown cur : Fields} (hnodup : (cur.map Prod.fst).Nodup) :
    reproducesItems shown cur = true ↔ ∀ key value held, Dict.find key cur = some value →
      Dict.find key shown = some held → reproducesValue held value = true := by
  induction cur with
  | nil => simp [reproducesItems, Dict.find]
  | cons entry rest ih =>
      obtain ⟨first, value⟩ := entry
      rw [List.map_cons, List.nodup_cons] at hnodup
      rw [reproducesItems, Bool.and_eq_true, ih hnodup.2]
      constructor
      · rintro ⟨hfirst, hrest⟩ key value' held hvalue hheld
        rw [Dict.find] at hvalue
        split at hvalue
        · rename_i heq
          rw [heq, hheld] at hfirst
          rw [← Option.some.inj hvalue]
          exact hfirst
        · exact hrest key value' held hvalue hheld
      · intro hall
        constructor
        · split
          · rfl
          · rename_i held hheld
            exact hall first value held (by rw [Dict.find, if_pos rfl]) hheld
        · intro key value' held hvalue hheld
          refine hall key value' held ?_ hheld
          have hne : first ≠ key := by
            rintro rfl
            rw [Dict.find_eq_none.mpr hnodup.1] at hvalue
            cases hvalue
          rw [Dict.find, if_neg hne]
          exact hvalue

theorem reproducesValue_of_not {held value : Json} (h : ¬ Objects held value) :
    reproducesValue held value = if pyEqual held value then same held value else true := by
  cases value with
  | obj cur =>
      cases held with
      | obj shown => exact absurd ⟨shown, cur, rfl, rfl⟩ h
      | null | bool | int | float | str | arr => rfl
  | null | bool | int | float | str | arr => rfl

/-- Values that are equal to Python are objects together. -/
theorem objects_congr {old held value : Json}
    (h : meaning Scalar.python held = meaning Scalar.python old) :
    Objects held value ↔ Objects old value := by
  constructor
  · rintro ⟨shown, cur, rfl, rfl⟩
    obtain ⟨prev, rfl⟩ := object_of_meaning h.symm
    exact ⟨prev, cur, rfl, rfl⟩
  · rintro ⟨prev, cur, rfl, rfl⟩
    obtain ⟨shown, rfl⟩ := object_of_meaning h
    exact ⟨shown, cur, rfl, rfl⟩

theorem pyEqual_congr {old held value : Json} (hold : old.proper = true)
    (hheld : held.proper = true)
    (hvalue : value.proper = true) (h : meaning Scalar.python held = meaning Scalar.python old) :
    pyEqual held value = pyEqual old value := by
  rw [Bool.eq_iff_iff, pyEqual_iff hheld hvalue, pyEqual_iff hold hvalue, h]

/-- The patch of a client is the current object just where no value is replaced by another that
Python finds equal. -/
theorem patch_reproduces {prev client shown cur : Fields} (hprev : proper (.obj prev) = true)
    (hshown : proper (.obj shown) = true) (hcur : proper (.obj cur) = true)
    (hclient : SameJson (.obj client) (.obj shown))
    (hpython : meaning Scalar.python (.obj shown) = meaning Scalar.python (.obj prev)) :
    SameJson (.obj (patchItems noSkips prev client cur)) (.obj cur) ↔
      reproducesItems shown cur = true := by
  generalize hvalue : Json.obj cur = value at hcur
  induction value using induction generalizing prev client shown cur with
  | hscalar value scalar hscalar =>
      rw [← hvalue] at hscalar
      cases hscalar
  | harr items ih => cases hvalue
  | hobj fields ih =>
      have hfields := Json.obj.inj hvalue
      subst hfields
      have hcur_nodup := (proper_obj.mp hcur).1
      rw [reproducesItems_iff hcur_nodup, SameJson, meaning_obj, meaning_obj, Tree.table.injEq,
        funext_iff]
      refine forall_congr' fun key => ?_
      rw [find_patchItems hcur_nodup]
      rcases hvalue : Dict.find key cur with _ | value
      · simp
      rcases hold : Dict.find key prev with _ | old
      · rw [find_none_of_prev hpython hold]
        simp [noSkips]
      obtain ⟨seen, hseen, hseen_old⟩ := held_of_find hpython hold
      obtain ⟨held, hheld, hheld_seen⟩ := held_of_find hclient hseen
      have hseen_proper := proper_of_find hshown hseen
      have hvalue_proper := proper_of_find hcur hvalue
      have hequal := pyEqual_congr (proper_of_find hprev hold) hseen_proper hvalue_proper hseen_old
      have hget : Json.get client key = held := by
        rw [Json.get, hheld]
        rfl
      have hsame : meaning id held = meaning id value ↔ same seen value = true := by
        rw [hheld_seen, same_iff hseen_proper hvalue_proper]
        rfl
      have hgoal : meaning id (patchValue noSkips old held value) = meaning id value ↔
          reproducesValue seen value = true := by
        by_cases hobjects : Objects old value
        · obtain ⟨prev', cur', rfl, rfl⟩ := hobjects
          obtain ⟨shown', rfl⟩ := object_of_meaning hseen_old
          obtain ⟨client', rfl⟩ := object_of_meaning hheld_seen
          rw [patchValue, reproducesValue, hequal]
          split
          · exact hsame
          · exact ih _ (mem_of_find hvalue) (proper_of_find hprev hold) hseen_proper hheld_seen
              hseen_old rfl hvalue_proper
        · rw [patchValue_of_not hobjects,
            reproducesValue_of_not (mt (objects_congr hseen_old).mp hobjects), hequal]
          split
          · exact hsame
          · simp
      rw [hget, hseen]
      simpa using hgoal

/-- To Python, the patch of a client is the current object. -/
theorem patch_python {prev client cur : Fields} (hprev : proper (.obj prev) = true)
    (hcur : proper (.obj cur) = true)
    (hclient : meaning Scalar.python (.obj client) = meaning Scalar.python (.obj prev)) :
    meaning Scalar.python (.obj (patchItems noSkips prev client cur)) =
      meaning Scalar.python (.obj cur) := by
  generalize hvalue : Json.obj cur = value at hcur ⊢
  induction value using induction generalizing prev client cur with
  | hscalar value scalar hscalar =>
      rw [← hvalue] at hscalar
      cases hscalar
  | harr items ih => cases hvalue
  | hobj fields ih =>
      have hfields := Json.obj.inj hvalue
      subst hfields
      rw [meaning_obj, meaning_obj]
      congr 1
      funext key
      rw [find_patchItems (proper_obj.mp hcur).1]
      rcases hvalue : Dict.find key cur with _ | value
      · rfl
      rcases hold : Dict.find key prev with _ | old
      · rfl
      obtain ⟨held, hheld, hheld_old⟩ := held_of_find hclient hold
      have hget : Json.get client key = held := by
        rw [Json.get, hheld]
        rfl
      have hold_proper := proper_of_find hprev hold
      have hvalue_proper := proper_of_find hcur hvalue
      dsimp only
      rw [hget, Option.map_some, Option.map_some, Option.some.injEq]
      by_cases hobjects : Objects old value
      · obtain ⟨prev', cur', rfl, rfl⟩ := hobjects
        obtain ⟨client', rfl⟩ := object_of_meaning hheld_old
        rw [patchValue]
        split
        · rename_i hequal
          rw [hheld_old, (pyEqual_iff hold_proper hvalue_proper).mp hequal]
        · exact ih _ (mem_of_find hvalue) hold_proper hheld_old rfl hvalue_proper
      · rw [patchValue_of_not hobjects]
        split
        · rename_i hequal
          rw [hheld_old, (pyEqual_iff hold_proper hvalue_proper).mp hequal]
        · rfl

end Rigplane.Web
