import Rigplane.Web.DeltaEncoder

/-!
# The delta applier of the browser

`frontend/src/lib/transport/state-delta.ts`: `stateDeltaOps` reads the operations of a parsed
envelope, and `applyStateDelta` applies them to a state without writing to it.

An object has an address on a heap, and its own properties.  What it inherits is left out: an
assignment to `__proto__` calls the setter where the object has no such property, which leaves
its own properties as they are.  A path that runs through `__proto__` of such an object is read
here as one through a missing value, where the browser goes on in a copy of the prototype.  A value
that is no record, an array included, is never written to and stands for itself.
-/

namespace Rigplane.Web.Frontend

open Json

/-! ## The operations of an envelope -/

/-- `StateDeltaOps`. -/
structure StateDeltaOps (ν : Type) where
  set : List (StatePath × ν)
  unset : List StatePath

/-- `isRecord`. -/
def isRecord : Json → Bool
  | .obj _ => true
  | _ => false

/-- `isPath`, with the path. -/
def asPath : Json → Option StatePath
  | .arr (key :: rest) => (key :: rest).mapM asStr
  | _ => none

/-- `isSetOperation`, with the operation. -/
def asSetOperation : Json → Option (StatePath × Json)
  | .arr [path, value] => (asPath path).map fun path => (path, value)
  | _ => none

/-- `isListOf`, with the items. -/
def asListOf {α : Type} (asItem : Json → Option α) : Json → Option (List α)
  | .arr items => items.mapM asItem
  | _ => none

/-- `value == null`. -/
def isNull : Json → Bool
  | .null => true
  | _ => false

/-- `value === 2`. -/
def isLeafVersion : Json → Bool
  | .int value => value = 2
  | .float value => value = 2
  | _ => false

/-- `hasDeltaFields`. -/
def hasDeltaFields (envelope : Fields) : Bool :=
  (isNull (Json.get envelope "changed") || isRecord (Json.get envelope "changed")) &&
  (isNull (Json.get envelope "removed") || (asListOf asStr (Json.get envelope "removed")).isSome) &&
  (isNull (Json.get envelope "deltaVersion") || isLeafVersion (Json.get envelope "deltaVersion")) &&
  (isNull (Json.get envelope "set") ||
    (asListOf asSetOperation (Json.get envelope "set")).isSome) &&
  (isNull (Json.get envelope "unset") || (asListOf asPath (Json.get envelope "unset")).isSome)

/-- `stateDeltaOps`. -/
def stateDeltaOps (envelope : Fields) : Option (StateDeltaOps Json) :=
  if hasDeltaFields envelope = false then none
  else if isNull (Json.get envelope "deltaVersion") then
    match Json.get envelope "changed" with
    | .obj changed =>
        some {
          set := changed.map fun entry => ([entry.1], entry.2)
          unset := ((asListOf asStr (Json.get envelope "removed")).getD []).map fun key => [key] }
    | _ => none
  else
    match asListOf asSetOperation (Json.get envelope "set") with
    | none => none
    | some set =>
        some { set, unset := (asListOf asPath (Json.get envelope "unset")).getD [] }

/-! ## The heap -/

/-- A value: a record by its address, or a value that is no record. -/
inductive Value where
  | plain (value : Json)
  | ref (address : Nat)

/-- The own properties of the records, by address. -/
abbrev Heap := List (List (String × Value))

def Heap.read (heap : Heap) (address : Nat) : List (String × Value) := (heap[address]?).getD []

/-- `object[key] = value`. -/
def assignProperty (object : List (String × Value)) (key : String) (value : Value) :
    List (String × Value) :=
  if key = "__proto__" ∧ Dict.find key object = none then object else Dict.assign key value object

/-- `delete object[key]`. -/
def deleteProperty (object : List (String × Value)) (key : String) : List (String × Value) :=
  object.filter fun entry => entry.1 ≠ key

/-! ## Applying -/

/-- The heap, and the copies made so far. -/
structure Applier where
  heap : Heap
  fresh : List Nat

/-- The loop of `parentFor`. -/
def parentLoop (s : Applier) (node : Nat) : List String → Applier × Option Nat
  | [] => (s, some node)
  | key :: rest =>
      match Dict.find key (s.heap.read node) with
      | some (.ref child) =>
          if child ∈ s.fresh then parentLoop s child rest
          else
            -- `{ ...child }`
            let copy := s.heap.length
            let heap := s.heap ++ [s.heap.read child]
            let heap := heap.set node (assignProperty (heap.read node) key (.ref copy))
            parentLoop ⟨heap, copy :: s.fresh⟩ copy rest
      | _ => (s, none)

/-- `parentFor`. -/
def parentFor (s : Applier) (root : Nat) (path : StatePath) : Applier × Option Nat :=
  parentLoop s root path.dropLast

/-- `path[path.length - 1]`, as a key. -/
def lastKey (path : StatePath) : String := path.getLast?.getD "undefined"

/-- A round of either loop of `applyStateDelta`, with the write to the parent. -/
def applyOperation (s : Applier) (root : Nat) (path : StatePath)
    (write : List (String × Value) → String → List (String × Value)) : Applier × Bool :=
  match parentFor s root path with
  | (s, none) => (s, false)
  | (s, some parent) =>
      ({ s with heap := s.heap.set parent (write (s.heap.read parent) (lastKey path)) }, true)

/-- The first loop of `applyStateDelta`. -/
def applySets (s : Applier) (root : Nat) : List (StatePath × Value) → Applier × Bool
  | [] => (s, true)
  | (path, value) :: rest =>
      match applyOperation s root path fun object key => assignProperty object key value with
      | (s, false) => (s, false)
      | (s, true) => applySets s root rest

/-- The second loop of `applyStateDelta`. -/
def applyUnsets (s : Applier) (root : Nat) : List StatePath → Applier × Bool
  | [] => (s, true)
  | path :: rest =>
      match applyOperation s root path deleteProperty with
      | (s, false) => (s, false)
      | (s, true) => applyUnsets s root rest

/-- `applyStateDelta`: the heap after it, and the address of the new state if it is not null. -/
def applyStateDelta (heap : Heap) (state : Nat) (ops : StateDeltaOps Value) : Heap × Option Nat :=
  let root := heap.length
  let s : Applier := ⟨heap ++ [heap.read state], [root]⟩
  match applySets s root ops.set with
  | (s, false) => (s.heap, none)
  | (s, true) =>
      match applyUnsets s root ops.unset with
      | (s, false) => (s.heap, none)
      | (s, true) => (s.heap, some root)

end Rigplane.Web.Frontend
