import Rigplane.Json.Equality

/-!
# The delta encoder

`web/_delta_encoder.py`: one encoder turns consecutive snapshots of the web state into full
frames and leaf deltas, `top_level_delta` renders a leaf delta for older clients, and
`apply_delta` applies either to a snapshot.

A snapshot is the list of the items of its `dict`.  Copies are left out, since a value here
cannot be written to.
-/

namespace Rigplane.Web

open Json

/-- The items of an object. -/
abbrev Fields := List (String × Json)

/-- `StatePath`: the keys from the state root to one value. -/
abbrev StatePath := List String

/-! ## Snapshots -/

mutual

/-- `_copy_on_write_tree`. -/
def copyOnWriteTree (prev : Json) : Json → Json
  | .arr items => if pyEqual prev (.arr items) then prev else .arr items
  | .obj fields =>
      match prev with
      | .obj old =>
          if pyEqual (.obj old) (.obj fields) then .obj old else .obj (mergedTree old fields)
      | _ => .obj fields
  | cur => cur

/-- The loop of `_copy_on_write_tree`. -/
def mergedTree (prev : Fields) : Fields → Fields
  | [] => []
  | (key, value) :: rest =>
      (key, match Dict.find key prev with
        | none => value
        | some old => copyOnWriteTree old value) :: mergedTree prev rest

end

/-! ## The diff -/

/-- `LeafSetOp`. -/
abbrev LeafSetOp := StatePath × Json

/-- The two lists of operations that `_diff` appends to. -/
structure LeafOps where
  set : List LeafSetOp := []
  unset : List StatePath := []
deriving Inhabited

def LeafOps.append (ops more : LeafOps) : LeafOps := ⟨ops.set ++ more.set, ops.unset ++ more.unset⟩

/-- The keys of the previous object that the current one does not have. -/
def droppedKeys (prev cur : Fields) (path : StatePath) : LeafOps :=
  { unset := ((prev.map Prod.fst).filter fun key => Dict.find key cur = none).map
      fun key => path ++ [key] }

mutual

/-- The first loop of `_diff`. -/
def diffItems (prev : Fields) (path : StatePath) : Fields → LeafOps
  | [] => {}
  | (key, value) :: rest =>
      let ops : LeafOps :=
        match Dict.find key prev with
        | none => { set := [(path ++ [key], value)] }
        | some old => diffValue old (path ++ [key]) value
      ops.append (diffItems prev path rest)

/-- A round of the first loop of `_diff`, at a key that both objects have. -/
def diffValue (old : Json) (path : StatePath) : Json → LeafOps
  | .obj fields =>
      if pyEqual old (.obj fields) then {}
      else
        match old with
        | .obj prev => (diffItems prev path fields).append (droppedKeys prev fields path)
        | _ => { set := [(path, .obj fields)] }
  | value => if pyEqual old value then {} else { set := [(path, value)] }

end

/-- `_diff`. -/
def diff (prev cur : Fields) (path : StatePath) : LeafOps :=
  (diffItems prev path cur).append (droppedKeys prev cur path)

/-! ## Frames -/

inductive FrameType where
  | full
  | delta
deriving DecidableEq

/-- `StateUpdateFrame`. -/
structure StateUpdateFrame where
  type : FrameType
  revision : Int
  transportSeq : Int
  data : Option Fields := none
  changed : Option Fields := none
  removed : Option (List String) := none
  deltaVersion : Option Nat := none
  set : Option (List LeafSetOp) := none
  unset : Option (List StatePath) := none
  stateRevision : Option Int := none
  freshnessRevision : Option Int := none
  observationSeq : Option Int := none

/-- `LEAF_DELTA_VERSION`. -/
def leafDeltaVersion : Nat := 2

/-- `DeltaEncoder`. -/
structure DeltaEncoder where
  previousState : Option Fields := none
  transportSeq : Int := 0
  deltaCount : Int := 0
  fullStateInterval : Int

/-- `DeltaEncoder(full_state_interval)`. -/
def DeltaEncoder.init (fullStateInterval : Int) : DeltaEncoder where
  fullStateInterval := fullStateInterval

/-- The arguments of `DeltaEncoder.encode`. -/
structure EncodeArgs where
  currentState : Fields
  forceFull : Bool := false
  stateRevision : Option Int := none
  freshnessRevision : Option Int := none
  observationSeq : Option Int := none

namespace DeltaEncoder

/-- The snapshot kept for the next diff. -/
def snapshot (previous : Option Fields) (cur : Fields) : Fields :=
  match previous with
  | none => cur
  | some prev =>
      match copyOnWriteTree (.obj prev) (.obj cur) with
      | .obj fields => fields
      | _ => cur

/-- `DeltaEncoder.encode`. -/
def encode (encoder : DeltaEncoder) (args : EncodeArgs) : DeltaEncoder × StateUpdateFrame :=
  let transportSeq := encoder.transportSeq + 1
  let revision := args.stateRevision.getD transportSeq
  let full : DeltaEncoder × StateUpdateFrame :=
    ({ encoder with deltaCount := 0 },
      { type := .full, revision, transportSeq, data := some args.currentState })
  let (encoder, result) :=
    match encoder.previousState with
    | none => full
    | some prev =>
        if args.forceFull ∨ encoder.deltaCount ≥ encoder.fullStateInterval then full
        else
          let ops := diff prev args.currentState []
          ({ encoder with deltaCount := encoder.deltaCount + 1 },
            { type := .delta, revision, transportSeq, deltaVersion := some leafDeltaVersion,
              set := some ops.set, unset := if ops.unset = [] then none else some ops.unset })
  ({ encoder with
    transportSeq, previousState := some (snapshot encoder.previousState args.currentState) },
    { result with
      stateRevision := args.stateRevision.map fun _ => revision
      freshnessRevision := args.freshnessRevision
      observationSeq := args.observationSeq })

end DeltaEncoder

/-- `changed[path[0]] = current_state[path[0]]`.  A key error is none. -/
def touch (currentState changed : Fields) : StatePath → Option Fields
  | [] => none
  | key :: _ => (Dict.find key currentState).map fun value => Dict.assign key value changed

/-- A round of the second loop of `top_level_delta`. -/
def touchOrRemove (currentState : Fields) (lists : Fields × List String) :
    StatePath → Option (Fields × List String)
  | [key] => some (lists.1, lists.2 ++ [key])
  | path => (touch currentState lists.1 path).map fun changed => (changed, lists.2)

/-- `top_level_delta`.  A key error is none. -/
def topLevelDelta (envelope : StateUpdateFrame) (currentState : Fields) : Option StateUpdateFrame :=
  if envelope.type ≠ .delta then some envelope
  else do
    let changed ← ((envelope.set.getD []).map Prod.fst).foldlM (touch currentState) []
    let (changed, removed) ←
      (envelope.unset.getD []).foldlM (touchOrRemove currentState) (changed, [])
    return { envelope with
      deltaVersion := none, set := none, unset := none, changed := some changed,
      removed := if removed = [] then envelope.removed else some removed }

/-! ## Applying a frame -/

/-- The errors of `apply_delta`. -/
inductive ApplyError where
  /-- `Invalid delta path: empty`. -/
  | emptyPath
  /-- `Invalid delta path: {path!r}`. -/
  | invalidPath (path : StatePath)
deriving DecidableEq

/-- `_parent_for_write`, with the write to the parent: the objects along the keys are
replaced by copies. -/
def writeAt (path : StatePath) (write : Fields → String → Fields) :
    Fields → StatePath → Except ApplyError Fields
  | _, [] => .error .emptyPath
  | node, [key] => .ok (write node key)
  | node, key :: rest =>
      match Dict.find key node with
      | some (.obj child) =>
          match writeAt path write child rest with
          | .error raised => .error raised
          | .ok child => .ok (Dict.assign key (.obj child) node)
      | _ => .error (.invalidPath path)

/-- `node[key] = value` at the end of a path. -/
def setAt (node : Fields) (op : LeafSetOp) : Except ApplyError Fields :=
  writeAt op.1 (fun node key => Dict.assign key op.2 node) node op.1

/-- `node.pop(key, None)`. -/
def pop (node : Fields) (key : String) : Fields := node.filter fun entry => entry.1 ≠ key

/-- `node.pop(key, None)` at the end of a path. -/
def unsetAt (node : Fields) (path : StatePath) :
    Except ApplyError Fields := writeAt path pop node path

/-- `apply_delta`. -/
def applyDelta (fullState : Fields) (delta : StateUpdateFrame) : Except ApplyError Fields :=
  match delta.type with
  | .full => .ok (delta.data.getD [])
  | .delta =>
      if delta.deltaVersion ≠ some leafDeltaVersion then
        let result := (delta.changed.getD []).foldl
          (fun result entry => Dict.assign entry.1 entry.2 result) fullState
        .ok ((delta.removed.getD []).foldl pop result)
      else do
        let result ← (delta.set.getD []).foldlM setAt fullState
        (delta.unset.getD []).foldlM unsetAt result

end Rigplane.Web
