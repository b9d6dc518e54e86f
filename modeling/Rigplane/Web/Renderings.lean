import Rigplane.Web.DeltaRuns
import Rigplane.Web.StateDeltaHeap

/-!
# The two renderings of a delta

A delta frame goes out as a leaf delta, or as the top-level delta that `top_level_delta` renders
it to, and either is applied in Python or in the browser.

The leaf delta writes what `patchItems` gives, and the top-level delta replaces each key the diff
has operations for by its current value (`topSlot`).  The four results are the same where the
objects they replace hold no value that Python finds equal to the current one and that is
another to JSON, and where no new key is `__proto__` (`renderings_agree_iff`).
-/

namespace Rigplane.Web

open Json

/-! ## Envelopes -/

/-- A path as it is sent. -/
def pathJson (path : StatePath) : Json := .arr (path.map .str)

/-- The keys of an envelope, with what a frame has at them. -/
def StateUpdateFrame.entries (frame : StateUpdateFrame) : List (String × Option Json) :=
  [("type", some (.str (match frame.type with | .full => "full" | .delta => "delta"))),
    ("revision", some (.int frame.revision)),
    ("transportSeq", some (.int frame.transportSeq)),
    ("data", frame.data.map .obj),
    ("changed", frame.changed.map .obj),
    ("removed", frame.removed.map fun keys => .arr (keys.map .str)),
    ("deltaVersion", frame.deltaVersion.map fun version => Json.int (version : Int)),
    ("set", frame.set.map fun ops => .arr (ops.map fun op => .arr [pathJson op.1, op.2])),
    ("unset", frame.unset.map fun paths => .arr (paths.map pathJson)),
    ("stateRevision", frame.stateRevision.map .int),
    ("freshnessRevision", frame.freshnessRevision.map .int),
    ("observationSeq", frame.observationSeq.map .int)]

/-- The envelope of a frame as it is sent: what the frame does not have is missing. -/
def StateUpdateFrame.envelope (frame : StateUpdateFrame) : Fields :=
  frame.entries.filterMap fun entry => entry.2.map fun value => (entry.1, value)

theorem find_present {entries : List (String × Option Json)} (h : (entries.map Prod.fst).Nodup)
    (key : String) :
    Dict.find key (entries.filterMap fun entry => entry.2.map fun value => (entry.1, value)) =
      (Dict.find key entries).join := by
  induction entries with
  | nil => rfl
  | cons entry rest ih =>
      obtain ⟨name, value⟩ := entry
      rw [List.map_cons, List.nodup_cons] at h
      rw [List.filterMap_cons, Dict.find]
      cases value with
      | none =>
          rw [Option.map_none]
          dsimp only
          rw [ih h.2]
          split
          · rename_i heq
            rw [← heq, Dict.find_eq_none.mpr h.1]
            rfl
          · rfl
      | some value =>
          rw [Option.map_some]
          dsimp only
          rw [Dict.find, ih h.2]
          split
          · rfl
          · rfl

theorem get_envelope (frame : StateUpdateFrame) (key : String) :
    Json.get frame.envelope key = ((Dict.find key frame.entries).join).getD .null := by
  have hnodup : (frame.entries.map Prod.fst).Nodup := by
    simp [StateUpdateFrame.entries]
  rw [Json.get, StateUpdateFrame.envelope, find_present hnodup]

/-- The fields that the browser reads operations from. -/
theorem get_deltaFields (frame : StateUpdateFrame) :
    Json.get frame.envelope "changed" = (frame.changed.map .obj).getD .null ∧
    Json.get frame.envelope "removed" =
      (frame.removed.map fun keys => .arr (keys.map .str)).getD .null ∧
    Json.get frame.envelope "deltaVersion" =
      (frame.deltaVersion.map fun version => Json.int (version : Int)).getD .null ∧
    Json.get frame.envelope "set" =
      (frame.set.map fun ops => .arr (ops.map fun op => .arr [pathJson op.1, op.2])).getD .null ∧
    Json.get frame.envelope "unset" =
      (frame.unset.map fun paths => .arr (paths.map pathJson)).getD .null :=
  ⟨get_envelope frame "changed", get_envelope frame "removed", get_envelope frame "deltaVersion",
    get_envelope frame "set", get_envelope frame "unset"⟩

/-- Reading what was written, item by item. -/
theorem mapM_map {α β : Type} {write : α → β} {read : β → Option α} {items : List α}
    (h : ∀ item ∈ items, read (write item) = some item) :
    (items.map write).mapM read = some items := by
  induction items with
  | nil => rfl
  | cons item rest ih =>
      rw [List.map_cons, List.mapM_cons, h item List.mem_cons_self,
        ih fun item hitem => h item (List.mem_cons_of_mem _ hitem)]
      rfl

namespace Frontend

theorem asPath_pathJson {path : StatePath} (h : path ≠ []) :
    asPath (pathJson path) = some path := by
  obtain ⟨key, rest, rfl⟩ := List.exists_cons_of_ne_nil h
  have hread : ((key :: rest).map Json.str).mapM asStr = some (key :: rest) :=
    mapM_map fun _ _ => rfl
  exact hread

theorem asListOf_strs (keys : List String) : asListOf asStr (.arr (keys.map .str)) = some keys :=
  mapM_map fun _ _ => rfl

theorem asListOf_paths {paths : List StatePath} (h : ∀ path ∈ paths, path ≠ []) :
    asListOf asPath (.arr (paths.map pathJson)) = some paths :=
  mapM_map fun path hpath => asPath_pathJson (h path hpath)

theorem asListOf_sets {ops : List LeafSetOp} (h : ∀ op ∈ ops, op.1 ≠ []) :
    asListOf asSetOperation (.arr (ops.map fun op => .arr [pathJson op.1, op.2])) = some ops := by
  refine mapM_map fun op hop => ?_
  rw [asSetOperation, asPath_pathJson (h op hop)]
  rfl

/-- The browser reads the operations of a leaf delta. -/
theorem stateDeltaOps_leaf {frame : StateUpdateFrame} {ops : LeafOps}
    (hchanged : frame.changed = none) (hremoved : frame.removed = none)
    (hversion : frame.deltaVersion = some leafDeltaVersion) (hset : frame.set = some ops.set)
    (hunset : frame.unset = if ops.unset = [] then none else some ops.unset)
    (hpaths : ∀ write ∈ ops.writes, write.1 ≠ []) :
    stateDeltaOps frame.envelope = some ⟨ops.set, ops.unset⟩ := by
  have hsets : ∀ op ∈ ops.set, op.1 ≠ [] := fun op hop =>
    hpaths (op.1, some op.2) (List.mem_append_left _ (List.mem_map_of_mem hop))
  have hunsets : ∀ path ∈ ops.unset, path ≠ [] := fun path hpath =>
    hpaths (path, none) (List.mem_append_right _ (List.mem_map_of_mem hpath))
  obtain ⟨hget_changed, hget_removed, hget_version, hget_set, hget_unset⟩ := get_deltaFields frame
  rw [hchanged] at hget_changed
  rw [hremoved] at hget_removed
  rw [hversion] at hget_version
  rw [hset] at hget_set
  rw [stateDeltaOps, hasDeltaFields, hget_changed, hget_removed, hget_version, hget_set, hget_unset,
    hunset]
  have hread_sets := asListOf_sets hsets
  have hread_unsets := asListOf_paths hunsets
  simp only [Option.map_some, Option.map_none, Option.getD_some, Option.getD_none, hread_sets]
  split
  · rename_i hnil
    rw [hnil]
    simp [isNull, isRecord, isLeafVersion, leafDeltaVersion, asListOf]
  · simp only [Option.map_some, Option.getD_some, hread_unsets]
    simp [isNull, isRecord, isLeafVersion, leafDeltaVersion]

/-- The browser reads the operations of a top-level delta. -/
theorem stateDeltaOps_topLevel {frame : StateUpdateFrame} {changed : Fields} {removed : List String}
    (hchanged : frame.changed = some changed)
    (hremoved : frame.removed = if removed = [] then none else some removed)
    (hversion : frame.deltaVersion = none) (hset : frame.set = none) (hunset : frame.unset = none) :
    stateDeltaOps frame.envelope =
      some ⟨changed.map fun entry => ([entry.1], entry.2), removed.map fun key => [key]⟩ := by
  obtain ⟨hget_changed, hget_removed, hget_version, hget_set, hget_unset⟩ := get_deltaFields frame
  rw [hchanged] at hget_changed
  rw [hversion] at hget_version
  rw [hset] at hget_set
  rw [hunset] at hget_unset
  rw [stateDeltaOps, hasDeltaFields, hget_changed, hget_removed, hget_version, hget_set, hget_unset,
    hremoved]
  have hread := asListOf_strs removed
  simp only [Option.map_some, Option.map_none, Option.getD_some, Option.getD_none]
  split
  · rename_i hnil
    rw [hnil]
    simp [isNull, isRecord, asListOf]
  · simp only [Option.map_some, Option.getD_some, hread]
    simp [isNull, isRecord]

end Frontend

/-! ## What the operations of a diff touch -/

namespace LeafOps

theorem mem_slot_set {ops : LeafOps} {key : String} {rest : StatePath} {value : Json}
    (h : (key :: rest, value) ∈ ops.set) : (rest, value) ∈ (ops.slot key).set :=
  List.mem_filterMap.mpr ⟨_, h, by rw [tailAt, if_pos rfl, Option.map_some]⟩

theorem tailAt_eq_some {key : String} {path rest : StatePath} (h : tailAt key path = some rest) :
    path = key :: rest := by
  cases path with
  | nil => cases h
  | cons first tail =>
      rw [tailAt] at h
      split at h
      · rename_i heq
        rw [heq, Option.some.inj h]
      · cases h

theorem mem_slot_unset {ops : LeafOps} {key : String} {rest : StatePath} :
    rest ∈ (ops.slot key).unset ↔ key :: rest ∈ ops.unset := by
  rw [LeafOps.slot, List.mem_filterMap]
  constructor
  · rintro ⟨path, hpath, htail⟩
    rw [← tailAt_eq_some htail]
    exact hpath
  · intro h
    exact ⟨_, h, by rw [tailAt, if_pos rfl]⟩

theorem exists_set {ops : LeafOps} {key : String} (h : (ops.slot key).set ≠ []) :
    ∃ rest, key :: rest ∈ ops.set.map Prod.fst := by
  obtain ⟨⟨rest, value⟩, hmem⟩ := List.exists_mem_of_ne_nil _ h
  obtain ⟨⟨path, value'⟩, hop, htail⟩ := List.mem_filterMap.mp hmem
  obtain ⟨rest', htail, -⟩ := Option.map_eq_some_iff.mp htail
  exact ⟨rest', List.mem_map.mpr ⟨_, hop, tailAt_eq_some htail⟩⟩

end LeafOps

/-- The diff of two values has no operation just where Python finds them equal. -/
theorem diffValue_nil_iff {old value : Json} (hold : old.proper = true)
    (hvalue : value.proper = true) : diffValue old [] value = {} ↔ pyEqual old value = true := by
  by_cases hobjects : Objects old value
  · obtain ⟨prev, cur, rfl, rfl⟩ := hobjects
    rw [diffValue_objects]
    split
    · rename_i hequal
      exact iff_of_true rfl hequal
    · rename_i hdiffer
      refine iff_of_false (fun hnil => hdiffer ?_) hdiffer
      obtain ⟨result, hfold, hresult⟩ := apply_diff noSkips hold hvalue rfl
      rw [hnil] at hfold
      have hprev : prev = result := Except.ok.inj hfold
      rw [← hprev] at hresult
      rw [pyEqual_iff hold hvalue, ← patch_python hold hvalue rfl]
      exact meaning_python hresult
  · rw [diffValue_of_not hobjects]
    split
    · rename_i hequal
      exact iff_of_true rfl hequal
    · rename_i hdiffer
      exact iff_of_false (fun hnil => by cases hnil) hdiffer

section Touched

variable {prev client cur : Fields}

/-- What the diff does in the slot of a key that the current object does not have. -/
theorem slot_of_none (hprev : proper (.obj prev) = true) (hcur : proper (.obj cur) = true)
    {key : String} (h : Dict.find key cur = none) :
    (diff prev cur []).slot key = if Dict.find key prev ≠ none then ⟨[], [[]]⟩ else {} := by
  rw [slot_diff (proper_obj.mp hprev).1 (proper_obj.mp hcur).1, h]

theorem slot_of_some (hprev : proper (.obj prev) = true) (hcur : proper (.obj cur) = true)
    {key : String} {value : Json} (h : Dict.find key cur = some value) :
    (diff prev cur []).slot key = keyOps prev key value := by
  rw [slot_diff (proper_obj.mp hprev).1 (proper_obj.mp hcur).1, h]

/-- The operations at a key that the current object has do not drop it. -/
theorem keyOps_unset (prev : Fields) (key : String) (value : Json) :
    [] ∉ (keyOps prev key value).unset := by
  intro hmem
  rw [keyOps] at hmem
  split at hmem
  · cases hmem
  · rename_i old hold
    by_cases hobjects : Objects old value
    · obtain ⟨prev', cur', rfl, rfl⟩ := hobjects
      rw [diffValue_objects] at hmem
      split at hmem
      · cases hmem
      · exact diff_path (List.mem_append_right _ (List.mem_map_of_mem hmem)) rfl
    · rw [diffValue_of_not hobjects] at hmem
      split at hmem
      · cases hmem
      · cases hmem

/-- A diff sets values at keys of the current object. -/
theorem find_of_set (hprev : proper (.obj prev) = true) (hcur : proper (.obj cur) = true)
    {key : String} {rest : StatePath} (h : key :: rest ∈ (diff prev cur []).set.map Prod.fst) :
    Dict.find key cur ≠ none := by
  intro hnone
  obtain ⟨⟨path, value⟩, hop, hpath⟩ := List.mem_map.mp h
  dsimp only at hpath
  rw [hpath] at hop
  have hmem := LeafOps.mem_slot_set hop
  rw [slot_of_none hprev hcur hnone] at hmem
  split at hmem
  · cases hmem
  · cases hmem

/-- A diff drops a key itself just where the current object does not have it. -/
theorem find_of_unset (hprev : proper (.obj prev) = true) (hcur : proper (.obj cur) = true)
    {key : String} {rest : StatePath} (h : key :: rest ∈ (diff prev cur []).unset) :
    Dict.find key cur = none ↔ rest = [] := by
  have hmem := LeafOps.mem_slot_unset.mpr h
  rcases hvalue : Dict.find key cur with _ | value
  · rw [slot_of_none hprev hcur hvalue] at hmem
    split at hmem
    · exact iff_of_true rfl (List.mem_singleton.mp hmem)
    · cases hmem
  · rw [slot_of_some hprev hcur hvalue] at hmem
    refine iff_of_false (fun h => by cases h) fun hrest => ?_
    rw [hrest] at hmem
    exact keyOps_unset prev key value hmem

/-- A diff drops the keys that only the previous object has. -/
theorem mem_dropped (hprev : proper (.obj prev) = true) (hcur : proper (.obj cur) = true)
    (key : String) : [key] ∈ (diff prev cur []).unset ↔
      Dict.find key cur = none ∧ Dict.find key prev ≠ none := by
  rw [← LeafOps.mem_slot_unset]
  rcases hvalue : Dict.find key cur with _ | value
  · rw [slot_of_none hprev hcur hvalue]
    split
    · rename_i hne
      exact iff_of_true (List.mem_singleton.mpr rfl) ⟨rfl, hne⟩
    · rename_i heq
      exact iff_of_false List.not_mem_nil fun h => heq h.2
  · rw [slot_of_some hprev hcur hvalue]
    exact iff_of_false (keyOps_unset prev key value) fun h => by cases h.1

/-- The diff has an operation below a key that the current object has. -/
theorem touched_iff (hprev : proper (.obj prev) = true) (hcur : proper (.obj cur) = true)
    {key : String} {value : Json} (h : Dict.find key cur = some value) :
    ((∃ rest, key :: rest ∈ (diff prev cur []).set.map Prod.fst) ∨
      ∃ rest, rest ≠ [] ∧ key :: rest ∈ (diff prev cur []).unset) ↔
        ∀ old, Dict.find key prev = some old → pyEqual old value = false := by
  have hslot := slot_of_some hprev hcur h
  have hops : ((∃ rest, key :: rest ∈ (diff prev cur []).set.map Prod.fst) ∨
      ∃ rest, rest ≠ [] ∧ key :: rest ∈ (diff prev cur []).unset) ↔ keyOps prev key value ≠ {} := by
    rw [← hslot]
    constructor
    · rintro (⟨rest, hmem⟩ | ⟨rest, hne, hmem⟩) hnil
      · obtain ⟨⟨path, value'⟩, hop, hpath⟩ := List.mem_map.mp hmem
        dsimp only at hpath
        rw [hpath] at hop
        have hmem := LeafOps.mem_slot_set hop
        rw [hnil] at hmem
        cases hmem
      · have hmem := LeafOps.mem_slot_unset.mpr hmem
        rw [hnil] at hmem
        cases hmem
    · intro hne
      by_cases hset : ((diff prev cur []).slot key).set = []
      · obtain ⟨rest, hrest⟩ : ∃ rest, rest ∈ ((diff prev cur []).slot key).unset := by
          refine List.exists_mem_of_ne_nil _ fun hunset => hne ?_
          rcases hops : (diff prev cur []).slot key with ⟨sets, unsets⟩
          rw [hops] at hset hunset
          dsimp only at hset hunset
          rw [hset, hunset]
        refine .inr ⟨rest, ?_, LeafOps.mem_slot_unset.mp hrest⟩
        rintro rfl
        rw [hslot] at hrest
        exact keyOps_unset prev key value hrest
      · exact .inl (LeafOps.exists_set hset)
  rw [hops, keyOps]
  rcases hold : Dict.find key prev with _ | old
  · exact iff_of_true (fun h => by cases h) fun old h => by cases h
  · dsimp only
    rw [ne_eq, diffValue_nil_iff (proper_of_find hprev hold) (proper_of_find hcur h),
      Bool.not_eq_true]
    constructor
    · intro hdiffer old' hold'
      rw [← Option.some.inj hold']
      exact hdiffer
    · exact fun hall => hall old rfl

/-! ## The loops of the top-level delta -/

theorem touch_loop {paths : List StatePath} (changed : Fields)
    (hpaths : ∀ path ∈ paths, ∃ key rest, path = key :: rest ∧ Dict.find key cur ≠ none)
    (hnodup : (changed.map Prod.fst).Nodup) :
    ∃ changed', paths.foldlM (touch cur) changed = some changed' ∧
      (changed'.map Prod.fst).Nodup ∧ ∀ key,
        ((∃ rest, key :: rest ∈ paths) → Dict.find key changed' = Dict.find key cur) ∧
        ((¬ ∃ rest, key :: rest ∈ paths) → Dict.find key changed' = Dict.find key changed) := by
  induction paths generalizing changed with
  | nil =>
      refine ⟨changed, rfl, hnodup, fun key => ⟨?_, fun _ => rfl⟩⟩
      rintro ⟨rest, hrest⟩
      cases hrest
  | cons path paths ih =>
      obtain ⟨first, tail, rfl, hfirst⟩ := hpaths path List.mem_cons_self
      obtain ⟨value, hvalue⟩ := Option.ne_none_iff_exists'.mp hfirst
      obtain ⟨changed', hfold, hnodup', hkeys⟩ := ih (Dict.assign first value changed)
        (fun path hpath => hpaths path (List.mem_cons_of_mem _ hpath)) (Dict.nodup_assign hnodup)
      refine ⟨changed', ?_, hnodup', fun key => ⟨?_, ?_⟩⟩
      · rw [List.foldlM_cons, touch, hvalue]
        exact hfold
      · rintro ⟨rest, hrest⟩
        by_cases hlater : ∃ rest, key :: rest ∈ paths
        · exact (hkeys key).1 hlater
        · rcases List.mem_cons.mp hrest with heq | hmem
          · rw [(hkeys key).2 hlater, Dict.find_assign, (List.cons.inj heq).1, if_pos rfl, hvalue]
          · exact absurd ⟨rest, hmem⟩ hlater
      · intro hnot
        have hne : key ≠ first := fun heq => hnot ⟨tail, heq ▸ List.mem_cons_self⟩
        rw [(hkeys key).2 fun ⟨rest, hrest⟩ => hnot ⟨rest, List.mem_cons_of_mem _ hrest⟩,
          Dict.find_assign, if_neg hne]

theorem touchOrRemove_loop {paths : List StatePath} (changed : Fields) (removed : List String)
    (hpaths : ∀ path ∈ paths, ∃ key rest, path = key :: rest ∧
    (rest ≠ [] → Dict.find key cur ≠ none))
    (hnodup : (changed.map Prod.fst).Nodup) :
    ∃ changed' removed', paths.foldlM (touchOrRemove cur) (changed, removed) =
        some (changed', removed') ∧ (changed'.map Prod.fst).Nodup ∧
      (∀ key, key ∈ removed' ↔ key ∈ removed ∨ [key] ∈ paths) ∧ ∀ key,
        ((∃ rest, rest ≠ [] ∧ key :: rest ∈ paths) → Dict.find key changed' = Dict.find key cur) ∧
        ((¬ ∃ rest, rest ≠ [] ∧ key :: rest ∈ paths) →
          Dict.find key changed' = Dict.find key changed) := by
  induction paths generalizing changed removed with
  | nil =>
      refine ⟨changed, removed, rfl, hnodup, fun key => ?_, fun key => ⟨?_, fun _ => rfl⟩⟩
      · simp
      · rintro ⟨rest, -, hrest⟩
        cases hrest
  | cons path paths ih =>
      have hlater := fun path hpath => hpaths path (List.mem_cons_of_mem _ hpath)
      obtain ⟨first, tail, rfl, hfirst⟩ := hpaths path List.mem_cons_self
      cases tail with
      | nil =>
          obtain ⟨changed', removed', hfold, hnodup', hremoved, hkeys⟩ :=
            ih changed (removed ++ [first]) hlater hnodup
          refine ⟨changed', removed', ?_, hnodup', fun key => ?_, fun key => ?_⟩
          · rw [List.foldlM_cons]
            exact hfold
          · rw [hremoved, List.mem_append, List.mem_singleton, List.mem_cons, List.cons.injEq]
            tauto
          · have hiff : (∃ rest, rest ≠ [] ∧ key :: rest ∈ [first] :: paths) ↔
                ∃ rest, rest ≠ [] ∧ key :: rest ∈ paths := by
              refine exists_congr fun rest => and_congr_right fun hne => ?_
              rw [List.mem_cons, List.cons.injEq]
              tauto
            rw [hiff]
            exact hkeys key
      | cons next tail =>
          obtain ⟨value, hvalue⟩ := Option.ne_none_iff_exists'.mp (hfirst (List.cons_ne_nil _ _))
          obtain ⟨changed', removed', hfold, hnodup', hremoved, hkeys⟩ :=
            ih (Dict.assign first value changed) removed hlater (Dict.nodup_assign hnodup)
          refine ⟨changed', removed', ?_, hnodup', fun key => ?_, fun key => ⟨?_, ?_⟩⟩
          · rw [List.foldlM_cons, touchOrRemove, touch, hvalue]
            · exact hfold
            · simp
          · rw [hremoved, List.mem_cons, List.cons.injEq]
            simp
          · rintro ⟨rest, hne, hrest⟩
            by_cases hlater : ∃ rest, rest ≠ [] ∧ key :: rest ∈ paths
            · exact (hkeys key).1 hlater
            · rcases List.mem_cons.mp hrest with heq | hmem
              · rw [(hkeys key).2 hlater, Dict.find_assign, (List.cons.inj heq).1,
                  if_pos rfl, hvalue]
              · exact absurd ⟨rest, hne, hmem⟩ hlater
          · intro hnot
            have hne : key ≠ first := fun heq =>
              hnot ⟨next :: tail, List.cons_ne_nil _ _, heq ▸ List.mem_cons_self⟩
            rw [(hkeys key).2 fun ⟨rest, hrest, hmem⟩ =>
              hnot ⟨rest, hrest, List.mem_cons_of_mem _ hmem⟩, Dict.find_assign, if_neg hne]

/-- The top-level delta of a diff changes the keys whose values differ, and removes the keys that
only the previous object has. -/
theorem topLevelDelta_spec {frame : StateUpdateFrame} (hprev : proper (.obj prev) = true)
    (hcur : proper (.obj cur) = true) (htype : frame.type = .delta)
    (hset : frame.set = some (diff prev cur []).set)
    (hunset : frame.unset.getD [] = (diff prev cur []).unset) :
    ∃ changed removed, topLevelDelta frame cur = some { frame with
        deltaVersion := none, set := none, unset := none, changed := some changed,
        removed := if removed = [] then frame.removed else some removed } ∧
      (changed.map Prod.fst).Nodup ∧
      (∀ key, key ∈ removed ↔ Dict.find key cur = none ∧ Dict.find key prev ≠ none) ∧
      ∀ key, Dict.find key changed =
        match Dict.find key cur, Dict.find key prev with
        | none, _ => none
        | some value, none => some value
        | some value, some old => if pyEqual old value then none else some value := by
  have hsets : ∀ path ∈ (diff prev cur []).set.map Prod.fst,
      ∃ key rest, path = key :: rest ∧ Dict.find key cur ≠ none := by
    intro path hpath
    obtain ⟨op, hop, rfl⟩ := List.mem_map.mp hpath
    have hne : op.1 ≠ [] := diff_path (List.mem_append_left _ (List.mem_map_of_mem hop))
    obtain ⟨key, rest, heq⟩ := List.exists_cons_of_ne_nil hne
    rw [heq] at hpath
    exact ⟨key, rest, heq, find_of_set hprev hcur hpath⟩
  have hunsets : ∀ path ∈ (diff prev cur []).unset,
      ∃ key rest, path = key :: rest ∧ (rest ≠ [] → Dict.find key cur ≠ none) := by
    intro path hpath
    have hne : path ≠ [] := diff_path (List.mem_append_right _ (List.mem_map_of_mem hpath))
    obtain ⟨key, rest, rfl⟩ := List.exists_cons_of_ne_nil hne
    exact ⟨key, rest, rfl, (find_of_unset hprev hcur hpath).not.mpr⟩
  obtain ⟨changed₁, hfold₁, hnodup₁, hkeys₁⟩ := touch_loop [] hsets List.nodup_nil
  obtain ⟨changed, removed, hfold, hnodup, hremoved, hkeys⟩ :=
    touchOrRemove_loop changed₁ [] hunsets hnodup₁
  refine ⟨changed, removed, ?_, hnodup, fun key => ?_, fun key => ?_⟩
  · rw [topLevelDelta, htype, if_neg (by decide), hset, hunset, Option.getD_some, hfold₁]
    show (Option.bind ((diff prev cur []).unset.foldlM (touchOrRemove cur) (changed₁, [])) _) = _
    rw [hfold]
    rfl
  · rw [hremoved, mem_dropped hprev hcur]
    simp
  · have hwhole : ((∃ rest, key :: rest ∈ (diff prev cur []).set.map Prod.fst) ∨
        ∃ rest, rest ≠ [] ∧ key :: rest ∈ (diff prev cur []).unset) →
          Dict.find key changed = Dict.find key cur := by
      rintro (hset | hunset)
      · by_cases hlater : ∃ rest, rest ≠ [] ∧ key :: rest ∈ (diff prev cur []).unset
        · exact (hkeys key).1 hlater
        · rw [(hkeys key).2 hlater, (hkeys₁ key).1 hset]
      · exact (hkeys key).1 hunset
    have hother : ¬ ((∃ rest, key :: rest ∈ (diff prev cur []).set.map Prod.fst) ∨
        ∃ rest, rest ≠ [] ∧ key :: rest ∈ (diff prev cur []).unset) →
          Dict.find key changed = none := by
      intro hnot
      rw [(hkeys key).2 fun h => hnot (.inr h), (hkeys₁ key).2 fun h => hnot (.inl h)]
      rfl
    rcases hvalue : Dict.find key cur with _ | value
    · refine hother ?_
      rintro (⟨rest, hmem⟩ | ⟨rest, hne, hmem⟩)
      · exact find_of_set hprev hcur hmem hvalue
      · exact hne ((find_of_unset hprev hcur hmem).mp hvalue)
    · have htouched := touched_iff hprev hcur hvalue
      rcases hold : Dict.find key prev with _ | old
      · rw [hwhole (htouched.mpr fun old h => by rw [hold] at h; cases h), hvalue]
      · dsimp only
        split
        · rename_i hequal
          refine hother fun h => ?_
          rw [htouched.mp h old hold] at hequal
          cases hequal
        · rename_i hdiffer
          rw [hwhole (htouched.mpr fun old' h => ?_), hvalue]
          rw [hold] at h
          rw [← Option.some.inj h]
          exact Bool.not_eq_true _ ▸ hdiffer

/-! ## Applying the top-level delta -/

/-- The writes of a top-level delta. -/
def topWrites (changed : Fields) (removed : List String) : List Write :=
  (changed.map fun entry => ([entry.1], some entry.2)) ++ removed.map fun key => ([key], none)

/-- What a top-level delta leaves in the slot of a key. -/
def topSlot (skips : String → Bool) (prev client cur : Fields) (key : String) : Option Json :=
  match Dict.find key cur, Dict.find key prev with
  | none, _ => none
  | some value, none => if skips key then none else some value
  | some value, some old => if pyEqual old value then some (Json.get client key) else some value

theorem fold_changed (skips : String → Bool) {changed : Fields}
    (hnodup : (changed.map Prod.fst).Nodup) (node : Fields) :
    ∃ node', (changed.map fun entry => (([entry.1], some entry.2) : Write)).foldlM
      (step skips) node =
        .ok node' ∧ ∀ key, Dict.find key node' =
          match Dict.find key changed with
          | none => Dict.find key node
          | some value => actSlot skips key (Dict.find key node) (some value) := by
  induction changed generalizing node with
  | nil => exact ⟨node, rfl, fun key => rfl⟩
  | cons entry rest ih =>
      obtain ⟨first, value⟩ := entry
      rw [List.map_cons, List.nodup_cons] at hnodup
      obtain ⟨node', hfold, hkeys⟩ := ih hnodup.2 (act skips node first (some value))
      refine ⟨node', hfold, fun key => ?_⟩
      rw [hkeys, find_act, Dict.find]
      by_cases hkey : first = key
      · have hnone : Dict.find key rest = none := Dict.find_eq_none.mpr (hkey ▸ hnodup.1)
        rw [hnone, if_pos hkey, if_pos hkey.symm, hkey]
      · rw [if_neg hkey, if_neg (Ne.symm hkey)]

theorem fold_removed (skips : String → Bool) (removed : List String) (node : Fields) :
    ∃ node', (removed.map fun key => (([key], none) : Write)).foldlM (step skips) node = .ok node' ∧
      ∀ key, Dict.find key node' = if key ∈ removed then none else Dict.find key node := by
  induction removed generalizing node with
  | nil => exact ⟨node, rfl, fun key => (if_neg List.not_mem_nil).symm⟩
  | cons first rest ih =>
      obtain ⟨node', hfold, hkeys⟩ := ih (act skips node first none)
      refine ⟨node', hfold, fun key => ?_⟩
      rw [hkeys, find_act]
      by_cases hkey : key = first
      · have hmem : key ∈ first :: rest := hkey ▸ List.mem_cons_self
        rw [if_pos hkey, if_pos hmem]
        exact ite_self _
      · rw [if_neg hkey]
        simp only [List.mem_cons, hkey, false_or]

/-- Applying the top-level delta of a diff. -/
theorem apply_topLevel (skips : String → Bool) {changed : Fields} {removed : List String}
    (hclient : meaning Scalar.python (.obj client) = meaning Scalar.python (.obj prev))
    (hnodup : (changed.map Prod.fst).Nodup)
    (hremoved : ∀ key, key ∈ removed ↔ Dict.find key cur = none ∧ Dict.find key prev ≠ none)
    (hchanged : ∀ key, Dict.find key changed =
      match Dict.find key cur, Dict.find key prev with
      | none, _ => none
      | some value, none => some value
      | some value, some old => if pyEqual old value then none else some value) :
    ∃ result, (topWrites changed removed).foldlM (step skips) client = .ok result ∧
      ∀ key, Dict.find key result = topSlot skips prev client cur key := by
  obtain ⟨middle, hfold, hmiddle⟩ := fold_changed skips hnodup client
  obtain ⟨result, hfold', hresult⟩ := fold_removed skips removed middle
  refine ⟨result, ?_, fun key => ?_⟩
  · rw [topWrites, List.foldlM_append, hfold]
    exact hfold'
  · rw [hresult, hmiddle, hchanged, topSlot]
    have hmem := hremoved key
    rcases hvalue : Dict.find key cur with _ | value
    · rw [hvalue] at hmem
      dsimp only
      split
      · rfl
      · rename_i hnot
        exact find_none_of_prev hclient (not_not.mp fun h => hnot (hmem.mpr ⟨rfl, h⟩))
    · rw [if_neg fun h => by have := (hmem.mp h).1; rw [hvalue] at this; cases this]
      rcases hold : Dict.find key prev with _ | old
      · rw [find_none_of_prev hclient hold]
        dsimp only [actSlot]
        simp
      · obtain ⟨held, hheld, -⟩ := held_of_find hclient hold
        rw [Json.get, hheld]
        dsimp only
        by_cases hequal : pyEqual old value = true
        · rw [if_pos hequal, if_pos hequal]
          rfl
        · rw [if_neg hequal, if_neg hequal]
          exact if_neg fun h => Option.some_ne_none held h.2

end Touched

/-! ## New keys -/

mutual

/-- Every new key is one that an assignment creates. -/
def createsItems (skips : String → Bool) (prev : Fields) : Fields → Bool
  | [] => true
  | (key, value) :: rest =>
      (match Dict.find key prev with
        | none => !skips key
        | some old => createsValue skips old value) && createsItems skips prev rest

def createsValue (skips : String → Bool) (old : Json) : Json → Bool
  | .obj cur =>
      if pyEqual old (.obj cur) then true
      else
        match old with
        | .obj prev => createsItems skips prev cur
        | _ => true
  | _ => true

end

theorem createsItems_iff {skips : String → Bool} {prev cur : Fields}
    (hnodup : (cur.map Prod.fst).Nodup) : createsItems skips prev cur = true ↔
      ∀ key value, Dict.find key cur = some value →
        match Dict.find key prev with
        | none => skips key = false
        | some old => createsValue skips old value = true := by
  induction cur with
  | nil => simp [createsItems, Dict.find]
  | cons entry rest ih =>
      obtain ⟨first, value⟩ := entry
      rw [List.map_cons, List.nodup_cons] at hnodup
      rw [createsItems, Bool.and_eq_true, ih hnodup.2]
      constructor
      · rintro ⟨hfirst, hrest⟩ key value' hvalue
        rw [Dict.find] at hvalue
        split at hvalue
        · rename_i heq
          rw [heq] at hfirst
          rw [← Option.some.inj hvalue]
          rcases hold : Dict.find key prev with _ | old
          · rw [hold] at hfirst
            exact Bool.not_eq_true' _ ▸ hfirst
          · rw [hold] at hfirst
            exact hfirst
        · exact hrest key value' hvalue
      · intro hall
        constructor
        · have hfirst := hall first value (by rw [Dict.find, if_pos rfl])
          rcases hold : Dict.find first prev with _ | old
          · rw [hold] at hfirst
            dsimp only at hfirst ⊢
            rw [hfirst]
            rfl
          · rw [hold] at hfirst
            exact hfirst
        · intro key value' hvalue
          refine hall key value' ?_
          have hne : first ≠ key := by
            rintro rfl
            rw [Dict.find_eq_none.mpr hnodup.1] at hvalue
            cases hvalue
          rw [Dict.find, if_neg hne]
          exact hvalue

theorem createsValue_of_not {skips : String → Bool} {old value : Json} (h : ¬ Objects old value) :
    createsValue skips old value = true := by
  cases value with
  | obj cur =>
      cases old with
      | obj prev => exact absurd ⟨prev, cur, rfl, rfl⟩ h
      | null | bool | int | float | str | arr => simp [createsValue]
  | null | bool | int | float | str | arr => rfl

/-- Writing with and without skipping gives the same where every new key is created. -/
theorem patch_creates (skips : String → Bool) {prev client cur : Fields}
    (hprev : proper (.obj prev) = true) (hcur : proper (.obj cur) = true)
    (hclient : meaning Scalar.python (.obj client) = meaning Scalar.python (.obj prev)) :
    SameJson (.obj (patchItems skips prev client cur)) (.obj (patchItems noSkips prev client cur)) ↔
      createsItems skips prev cur = true := by
  generalize hvalue : Json.obj cur = value at hcur
  induction value using induction generalizing prev client cur with
  | hscalar value scalar hscalar =>
      rw [← hvalue] at hscalar
      cases hscalar
  | harr items ih => cases hvalue
  | hobj fields ih =>
      have hfields := Json.obj.inj hvalue
      subst hfields
      have hcur_nodup := (proper_obj.mp hcur).1
      rw [createsItems_iff hcur_nodup, SameJson, meaning_obj, meaning_obj, Tree.table.injEq,
        funext_iff]
      refine forall_congr' fun key => ?_
      rw [find_patchItems hcur_nodup, find_patchItems hcur_nodup]
      rcases hvalue : Dict.find key cur with _ | value
      · simp
      rcases hold : Dict.find key prev with _ | old
      · dsimp only
        cases hskip : skips key with
        | false => simp [noSkips]
        | true => simp [noSkips]
      obtain ⟨held, hheld, hheld_old⟩ := held_of_find hclient hold
      have hget : Json.get client key = held := by
        rw [Json.get, hheld]
        rfl
      have hgoal : meaning id (patchValue skips old held value) =
          meaning id (patchValue noSkips old held value) ↔ createsValue skips old value = true := by
        by_cases hobjects : Objects old value
        · obtain ⟨prev', cur', rfl, rfl⟩ := hobjects
          obtain ⟨client', rfl⟩ := object_of_meaning hheld_old
          rw [patchValue, patchValue, createsValue]
          split
          · exact iff_of_true rfl rfl
          · exact ih _ (mem_of_find hvalue) (proper_of_find hprev hold) hheld_old rfl
              (proper_of_find hcur hvalue)
        · rw [patchValue_of_not hobjects, patchValue_of_not hobjects]
          exact iff_of_true rfl (createsValue_of_not hobjects)
      rw [hget]
      simpa using hgoal

/-! ## Agreement of the two renderings -/

/-- No object that the diff goes into at a top-level key holds a value, for the client, that is
replaced by another that Python finds equal to it. -/
def TouchedReproduces (prev client cur : Fields) : Prop :=
  ∀ key prev' client' cur', Dict.find key prev = some (.obj prev') →
    Dict.find key client = some (.obj client') → Dict.find key cur = some (.obj cur') →
    pyEqual (.obj prev') (.obj cur') = false → reproducesItems client' cur' = true

section Agreement

variable {prev client cur : Fields}

/-- The patch of a leaf delta and the slots of the top-level delta. -/
theorem patch_topSlot_iff (hprev : proper (.obj prev) = true)
    (hclient : proper (.obj client) = true)
    (hcur : proper (.obj cur) = true)
    (hequal : meaning Scalar.python (.obj client) = meaning Scalar.python (.obj prev))
    {top : Fields} (htop : ∀ key, Dict.find key top = topSlot noSkips prev client cur key) :
    SameJson (.obj top) (.obj (patchItems noSkips prev client cur)) ↔
      TouchedReproduces prev client cur := by
  have hcur_nodup := (proper_obj.mp hcur).1
  rw [SameJson, meaning_obj, meaning_obj, Tree.table.injEq, funext_iff]
  refine forall_congr' fun key => ?_
  rw [htop, topSlot, find_patchItems hcur_nodup]
  rcases hvalue : Dict.find key cur with _ | value
  · simp
  rcases hold : Dict.find key prev with _ | old
  · simp [noSkips]
  obtain ⟨held, hheld, hheld_old⟩ := held_of_find hequal hold
  have hget : Json.get client key = held := by
    rw [Json.get, hheld]
    rfl
  rw [hget, hheld]
  dsimp only
  by_cases hobjects : Objects old value
  · obtain ⟨prev', cur', rfl, rfl⟩ := hobjects
    obtain ⟨client', rfl⟩ := object_of_meaning hheld_old
    rw [patchValue]
    by_cases hsame : pyEqual (.obj prev') (.obj cur') = true
    · rw [if_pos hsame, if_pos hsame]
      refine iff_of_true rfl fun prev'' client'' cur'' hprev'' _ hcur'' hdiffer => ?_
      cases hprev''
      cases hcur''
      rw [hsame] at hdiffer
      cases hdiffer
    · rw [if_neg hsame, if_neg hsame]
      have hreproduces := patch_reproduces (proper_of_find hprev hold)
        (proper_of_find hclient hheld)
        (proper_of_find hcur hvalue) rfl hheld_old
      have hslot : Option.map (meaning id) (some (.obj cur')) =
          Option.map (meaning id) (some (.obj (patchItems noSkips prev' client' cur'))) ↔
            reproducesItems client' cur' = true := by
        rw [← hreproduces, Option.map_some, Option.map_some, Option.some.injEq, eq_comm]
        rfl
      rw [hslot]
      constructor
      · intro h prev'' client'' cur'' _ hclient'' hcur'' _
        cases hclient''
        cases hcur''
        exact h
      · exact fun h => h prev' client' cur' rfl rfl rfl (Bool.not_eq_true _ ▸ hsame)
  · rw [patchValue_of_not hobjects, ← apply_ite some]
    refine iff_of_true rfl fun prev' client' cur' hprev' _ hcur' _ => ?_
    exact absurd ⟨prev', cur', Option.some.inj hprev', Option.some.inj hcur'⟩ hobjects

/-- Where every new key is created, skipping makes no difference to the top-level delta. -/
theorem topSlot_skips {skips : String → Bool} (hcur : proper (.obj cur) = true)
    (hcreates : createsItems skips prev cur = true) (key : String) :
    topSlot skips prev client cur key = topSlot noSkips prev client cur key := by
  rw [topSlot, topSlot]
  rcases hvalue : Dict.find key cur with _ | value
  · rfl
  have hkey := (createsItems_iff (proper_obj.mp hcur).1).mp hcreates key value hvalue
  rcases hold : Dict.find key prev with _ | old
  · rw [hold] at hkey
    dsimp only at hkey ⊢
    rw [hkey]
    rfl
  · rfl

end Agreement

/-! ## The browser -/

namespace Frontend

/-- The browser applies an envelope to a state: whatever stands for the state and for the values
of the operations, the new state stands for the result, and nothing that was there is written to. -/
def Accepts (client envelope result : Fields) : Prop :=
  ∃ ops', stateDeltaOps envelope = some ops' ∧ ∀ heap state ops,
    Represents heap (.ref state) (.obj client) → SameOps heap ops ops' →
    ∃ heap' root, applyStateDelta heap state ops = (heap', some root) ∧
      Represents heap' (.ref root) (.obj result) ∧ ∀ a < heap.length, heap'.read a = heap.read a

theorem exists_sameOps (ops' : StateDeltaOps Json) (heap : Heap) :
    ∃ heap' ops, Extends heap heap' ∧ SameOps heap' ops ops' := by
  obtain ⟨set, unset⟩ := ops'
  induction set generalizing heap with
  | nil => exact ⟨heap, ⟨[], unset⟩, ⟨le_rfl, fun a _ => rfl⟩, .nil, rfl⟩
  | cons op rest ih =>
      obtain ⟨path, json⟩ := op
      obtain ⟨heap₁, value, hextends, hvalue⟩ := exists_represents json heap
      obtain ⟨heap', ⟨set, _⟩, hextends', hset, rfl⟩ := ih heap₁
      refine ⟨heap', ⟨(path, value) :: set, _⟩, hextends.trans hextends', .cons ⟨rfl, ?_⟩ hset, rfl⟩
      exact hvalue.frame hextends'.1 hextends'.2

/-- What the browser gives is determined. -/
theorem Accepts.same {client envelope result result' : Fields} (h : Accepts client envelope result)
    (h' : Accepts client envelope result') : SameJson (.obj result) (.obj result') := by
  obtain ⟨ops', hops, happly⟩ := h
  obtain ⟨ops'', hops'', happly'⟩ := h'
  rw [hops] at hops''
  cases hops''
  obtain ⟨heap₁, value, -, hvalue⟩ := exists_represents (.obj client) []
  obtain ⟨heap, ops, hextends, hsame⟩ := exists_sameOps ops' heap₁
  have hclient := hvalue.frame hextends.1 hextends.2
  cases value with
  | plain json =>
      cases hclient with
      | plain hplain => cases hplain
  | ref state =>
      obtain ⟨heap', root, happlied, hresult, -⟩ := happly heap state ops hclient hsame
      obtain ⟨heap'', root', happlied', hresult', -⟩ := happly' heap state ops hclient hsame
      rw [happlied] at happlied'
      cases happlied'
      exact hresult.same hresult'

theorem Accepts.of_writes {client envelope result : Fields} {ops' : StateDeltaOps Json}
    (hops : stateDeltaOps envelope = some ops')
    (hfold : ops'.writes.foldlM (step protoSkips) client = .ok result) :
    Accepts client envelope result :=
  ⟨ops', hops, fun _ _ _ hclient hsame => applyStateDelta_spec hclient hsame hfold⟩

end Frontend

open Frontend

/-- Both renderings of a delta frame, applied in Python and in the browser, give one state. -/
def RenderingsAgree (client cur : Fields) (frame : StateUpdateFrame) : Prop :=
  ∃ top state, topLevelDelta frame cur = some top ∧ applyDelta client frame = .ok state ∧
    (∃ result, applyDelta client top = .ok result ∧ SameJson (.obj result) (.obj state)) ∧
    (∃ result, Accepts client frame.envelope result ∧ SameJson (.obj result) (.obj state)) ∧
    ∃ result, Accepts client top.envelope result ∧ SameJson (.obj result) (.obj state)

/-- The frame of a call that is answered with a delta. -/
theorem encode_delta {encoder : DeltaEncoder} {args : EncodeArgs} {prev : Fields}
    (h : Session.deltaFrom encoder args = some prev) :
    let frame := (encoder.encode args).2
    let ops := diff prev args.currentState []
    frame.type = .delta ∧ frame.changed = none ∧ frame.removed = none ∧
      frame.deltaVersion = some leafDeltaVersion ∧ frame.set = some ops.set ∧
      frame.unset = if ops.unset = [] then none else some ops.unset := by
  rw [Session.deltaFrom] at h
  split at h
  · cases h
  · rename_i old hold
    split at h
    · cases h
    · rename_i hdelta
      rw [← Option.some.inj h]
      dsimp only
      rw [DeltaEncoder.encode, hold]
      dsimp only
      rw [if_neg hdelta]
      exact ⟨rfl, rfl, rfl, rfl, rfl, rfl⟩

/-- A fold that never fails. -/
theorem foldlM_ok {α β ε : Type} {f : β → α → Except ε β} {g : β → α → β}
    (h : ∀ result item, f result item = .ok (g result item)) (items : List α) (result : β) :
    items.foldlM f result = .ok (items.foldl g result) := by
  induction items generalizing result with
  | nil => rfl
  | cons item rest ih =>
      rw [List.foldlM_cons, h, List.foldl_cons, ← ih]
      rfl

/-- Applying a top-level delta in Python. -/
theorem applyDelta_topLevel {client changed : Fields} {removed : List String}
    {frame : StateUpdateFrame} (htype : frame.type = .delta) (hversion : frame.deltaVersion = none)
    (hchanged : frame.changed = some changed) (hremoved : frame.removed.getD [] = removed) :
    applyDelta client frame = (topWrites changed removed).foldlM (step noSkips) client := by
  have hput : ∀ node (entry : String × Json), step noSkips node ([entry.1], some entry.2) =
      .ok (Dict.assign entry.1 entry.2 node) := by
    intro node entry
    show Except.ok (put noSkips node entry.1 entry.2) = _
    rw [put, if_neg fun h => by cases h.1]
  have hpop : ∀ node key, step noSkips node ([key], none) = .ok (pop node key) := fun _ _ => rfl
  rw [applyDelta, htype, hversion, hchanged, hremoved, topWrites, List.foldlM_append,
    List.foldlM_map, foldlM_ok hput]
  show _ = (removed.map fun key => (([key], none) : Write)).foldlM (step noSkips) _
  rw [List.foldlM_map, foldlM_ok hpop]
  rfl

/-- A delta frame and its top-level rendering, applied in Python and in the browser, give one
state just where the objects the diff goes into at top-level keys reproduce, and where every new
key is created by an assignment in the browser. -/
theorem renderings_agree_iff {encoder : DeltaEncoder} {args : EncodeArgs} {prev client : Fields}
    (hdelta : Session.deltaFrom encoder args = some prev) (hprev : proper (.obj prev) = true)
    (hcur : proper (.obj args.currentState) = true) (hclient : proper (.obj client) = true)
    (hequal : pyEqual (.obj client) (.obj prev) = true) :
    RenderingsAgree client args.currentState (encoder.encode args).2 ↔
      TouchedReproduces prev client args.currentState ∧
        createsItems protoSkips prev args.currentState = true := by
  obtain ⟨htype, hchanged, hremoved, hversion, hset, hunset⟩ := encode_delta hdelta
  generalize (encoder.encode args).2 = frame at *
  generalize args.currentState = cur at *
  rw [pyEqual_iff hclient hprev] at hequal
  have hunset_getD : frame.unset.getD [] = (diff prev cur []).unset := by
    rw [hunset]
    split
    · rename_i hnil
      rw [hnil]
      rfl
    · rfl
  obtain ⟨changed, removed, htop, hnodup, hmem, hkeys⟩ :=
    topLevelDelta_spec hprev hcur htype hset hunset_getD
  rw [hremoved] at htop
  have hpaths : ∀ write ∈ (diff prev cur []).writes, write.1 ≠ [] := fun write => diff_path
  obtain ⟨state, hstate, hstate_patch⟩ := apply_diff noSkips hprev hcur hequal
  obtain ⟨shown, hshown, hshown_patch⟩ := apply_diff protoSkips hprev hcur hequal
  obtain ⟨state', hstate', hslots⟩ := apply_topLevel noSkips hequal hnodup hmem hkeys
  obtain ⟨shown', hshown', hslots'⟩ := apply_topLevel protoSkips hequal hnodup hmem hkeys
  have hleaf : applyDelta client frame = .ok state := by
    rw [Session.applyDelta_leaf htype hversion hset hunset_getD, hstate]
  have htopLevel : ∀ top, topLevelDelta frame cur = some top →
      applyDelta client top = .ok state' ∧ Accepts client top.envelope shown' := by
    intro top htop'
    rw [htop] at htop'
    cases htop'
    constructor
    · refine Eq.trans (applyDelta_topLevel ?_ rfl rfl ?_) hstate'
      · exact htype
      · dsimp only
        split
        · rename_i hnil
          exact hnil.symm
        · rfl
    · refine .of_writes (stateDeltaOps_topLevel rfl rfl rfl rfl rfl) ?_
      rw [StateDeltaOps.writes, LeafOps.writes, List.map_map, List.map_map]
      exact hshown'
  have hbrowser : Accepts client frame.envelope shown :=
    .of_writes (stateDeltaOps_leaf hchanged hremoved hversion hset hunset hpaths) hshown
  have hshown_iff : SameJson (.obj shown) (.obj state) ↔
    createsItems protoSkips prev cur = true := by
    rw [← patch_creates protoSkips hprev hcur hequal, SameJson, hshown_patch, hstate_patch]
    rfl
  have hstate_iff : SameJson (.obj state') (.obj state) ↔ TouchedReproduces prev client cur := by
    rw [← patch_topSlot_iff hprev hclient hcur hequal hslots, SameJson, SameJson, hstate_patch]
  constructor
  · rintro ⟨top, result, htop', hresult, ⟨result', hresult', hsame'⟩, ⟨seen, hseen, hsame⟩, -⟩
    rw [hleaf] at hresult
    rw [(htopLevel top htop').1] at hresult'
    cases hresult
    cases hresult'
    exact ⟨hstate_iff.mp hsame', hshown_iff.mp ((hbrowser.same hseen).trans hsame)⟩
  · rintro ⟨htouched, hcreates⟩
    have hsame := hstate_iff.mpr htouched
    obtain ⟨happly, haccepts⟩ := htopLevel _ htop
    refine ⟨_, state, htop, hleaf, ⟨state', happly, hsame⟩,
      ⟨shown, hbrowser, hshown_iff.mpr hcreates⟩,
      shown', haccepts, ?_⟩
    have hslots_same : SameJson (.obj shown') (.obj state') := by
      rw [SameJson, meaning_obj, meaning_obj]
      congr 1
      funext key
      rw [hslots, hslots', topSlot_skips hcur hcreates]
    exact hslots_same.trans hsame

/-- An encoder that has encoded one object. -/
def oneObject : DeltaEncoder :=
  ((DeltaEncoder.init 100).encode {
    currentState := [("a", .obj [("x", .int 1), ("y", .int 0)])] }).1

/-- Below a key, a value changes and a key is added. -/
theorem renderings_agree_changed :
    RenderingsAgree [("a", .obj [("x", .int 1), ("y", .int 0)])]
      [("a", .obj [("x", .int 1), ("y", .int 2), ("z", .null)])]
      (oneObject.encode {
        currentState := [("a", .obj [("x", .int 1), ("y", .int 2), ("z", .null)])] }).2 := by
  refine (renderings_agree_iff rfl rfl rfl rfl (by decide)).mpr ⟨?_, by decide⟩
  intro key prev' client' cur' hprev hclient hcur _
  have hclient' : client' = [("x", .int 1), ("y", .int 0)] := by
    rw [Dict.find] at hclient
    split at hclient
    · exact (Json.obj.inj (Option.some.inj hclient)).symm
    · cases hclient
  have hcur' : cur' = [("x", .int 1), ("y", .int 2), ("z", .null)] := by
    dsimp only at hcur
    rw [Dict.find] at hcur
    split at hcur
    · exact (Json.obj.inj (Option.some.inj hcur)).symm
    · cases hcur
  rw [hclient', hcur']
  decide

/-- One becomes true below a key, beside another change: the leaf delta leaves the one, and the
top-level delta replaces the object. -/
theorem renderings_disagree : ¬ RenderingsAgree [("a", .obj [("x", .int 1), ("y", .int 0)])]
      [("a", .obj [("x", .bool true), ("y", .int 1)])]
      (oneObject.encode {
        currentState := [("a", .obj [("x", .bool true), ("y", .int 1)])] }).2 := by
  rintro ⟨top, state, htop, hstate, ⟨result, hresult, hsame⟩, -⟩
  have hstate' : state = [("a", .obj [("x", .int 1), ("y", .int 1)])] :=
    (Except.ok.inj hstate).symm
  have htop' := Option.some.inj htop
  rw [← htop'] at hresult
  have hresult' : result = [("a", .obj [("x", .bool true), ("y", .int 1)])] :=
    (Except.ok.inj hresult).symm
  rw [hstate', hresult', ← same_iff rfl rfl] at hsame
  exact absurd hsame (by decide)

end Rigplane.Web
