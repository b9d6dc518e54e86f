import Mathlib.Data.List.Basic

/-!
# Field paths

A `FieldPath` names one field of the radio's state.  `FieldPath.__post_init__` refuses a
name or receiver id that is not a lowercase token, and the combinations of scope,
family, receiver and slot that no field has.  Here a token carries its check, and a path
carries the check of its combination as a field.
-/

namespace Rigplane.StatePipeline

/-! ## Enumerations -/

inductive FieldScope where
  | global
  | receiver
  | scopeControls
  | connection
  | health
deriving DecidableEq, Repr

/-- The text of a scope, the `StrEnum` value. -/
def FieldScope.value : FieldScope → String
  | .global => "global"
  | .receiver => "receiver"
  | .scopeControls => "scope_controls"
  | .connection => "connection"
  | .health => "health"

inductive VfoSlot where
  | active
  | unselected
  | a
  | b
deriving DecidableEq, Repr

def VfoSlot.value : VfoSlot → String
  | .active => "active"
  | .unselected => "unselected"
  | .a => "A"
  | .b => "B"

/-- `ACTIVE` and `UNSELECTED`, the slots that do not name a VFO. -/
def VfoSlot.IsRelative (slot : VfoSlot) : Prop := slot = .active ∨ slot = .unselected

instance : DecidablePred VfoSlot.IsRelative :=
  fun slot => inferInstanceAs (Decidable (slot = .active ∨ slot = .unselected))

inductive FieldFamily where
  | freqMode
  | vfo
  | operatorToggles
  | operatorControls
  | meters
  | txState
  | slowState
  | display
  | connection
  | health
deriving DecidableEq, Repr

def FieldFamily.value : FieldFamily → String
  | .freqMode => "freq_mode"
  | .vfo => "vfo"
  | .operatorToggles => "operator_toggles"
  | .operatorControls => "operator_controls"
  | .meters => "meters"
  | .txState => "tx_state"
  | .slowState => "slow_state"
  | .display => "display"
  | .connection => "connection"
  | .health => "health"

/-! ## Tokens -/

/-- `_TOKEN_ALPHABET`. -/
def tokenAlphabet : List Char := "abcdefghijklmnopqrstuvwxyz0123456789_".toList

/-- What `_validate_token` accepts. -/
def IsToken (value : String) : Prop := value ≠ "" ∧ ∀ ch ∈ value.toList, ch ∈ tokenAlphabet

instance : DecidablePred IsToken := fun value =>
  @instDecidableAnd (value ≠ "") (∀ ch ∈ value.toList, ch ∈ tokenAlphabet) _
    (List.decidableBAll (· ∈ tokenAlphabet) value.toList)

/-- A validated token. -/
structure Token where
  text : String
  isToken : IsToken text
deriving DecidableEq

/-! ## Paths -/

/-- The error of `FieldPath.__post_init__` for a combination, past the checks of its
tokens. -/
def pathError (scope : FieldScope) (family : FieldFamily) (receiverId : Option Token)
    (slot : Option VfoSlot) : Option String :=
  if scope = .receiver ∧ receiverId = none then
    some "receiver field paths require receiver_id"
  else if (scope = .global ∨ scope = .connection ∨ scope = .health) ∧
      (receiverId ≠ none ∨ slot ≠ none) then
    some (scope.value ++ " field paths cannot include receiver or slot")
  else if scope = .scopeControls ∧ slot ≠ none then
    some "scope_controls field paths cannot include VFO slot"
  else if scope = .scopeControls ∧ family ≠ .display then
    some "scope_controls field paths must use display family"
  else if (slot = some .active ∨ slot = some .unselected) ∧ scope ≠ .receiver then
    some "relative VFO slot is only valid for receiver fields"
  else if slot ≠ none ∧ family ≠ .freqMode then
    some "VFO slot paths are only valid for freq_mode fields"
  else none

structure FieldPath where
  scope : FieldScope
  family : FieldFamily
  name : Token
  receiverId : Option Token
  slot : Option VfoSlot
  /-- `__post_init__` raised nothing. -/
  checked : pathError scope family receiverId slot = none
deriving DecidableEq

namespace FieldPath

/-- The constructor, which raises or builds the path. -/
def build (scope : FieldScope) (family : FieldFamily) (name : Token) (receiverId : Option Token)
    (slot : Option VfoSlot) : Except String FieldPath :=
  match h : pathError scope family receiverId slot with
  | none => .ok ⟨scope, family, name, receiverId, slot, h⟩
  | some text => .error text

def receiver (receiverId : Token) (family : FieldFamily) (name : Token) :
    Except String FieldPath :=
  build .receiver family name (some receiverId) none

/-- `vfo_slot`, for a slot that is `A` or `B`. -/
def vfoSlot (receiverId : Token) (slot : VfoSlot) (family : FieldFamily) (name : Token) :
    Except String FieldPath :=
  if slot.IsRelative then .error ("VFO slot must be A or B: " ++ slot.value)
  else build .receiver family name (some receiverId) (some slot)

def active (receiverId : Token) (family : FieldFamily) (name : Token) : Except String FieldPath :=
  build .receiver family name (some receiverId) (some .active)

def unselected (receiverId : Token) (family : FieldFamily) (name : Token) :
    Except String FieldPath :=
  build .receiver family name (some receiverId) (some .unselected)

def activeSlot (receiverId : Token) : Except String FieldPath :=
  receiver receiverId .vfo ⟨"active_slot", by decide⟩

/-- `__str__`. -/
def str (path : FieldPath) : String :=
  let tail := [path.family.value, path.name.text]
  match path.scope, path.receiverId with
  | .receiver, receiverId =>
      let rx := (receiverId.map Token.text).getD ""
      match path.slot with
      | some .active => ".".intercalate ("receiver" :: rx :: "active" :: tail)
      | some .unselected => ".".intercalate ("receiver" :: rx :: "unselected" :: tail)
      | some .a => ".".intercalate ("receiver" :: rx :: "slot" :: "A" :: tail)
      | some .b => ".".intercalate ("receiver" :: rx :: "slot" :: "B" :: tail)
      | none => ".".intercalate ("receiver" :: rx :: tail)
  | .scopeControls, none => ".".intercalate ("scope_controls" :: "global" :: tail)
  | .scopeControls, some rx =>
      ".".intercalate ("scope_controls" :: "receiver" :: rx.text :: tail)
  | scope, _ => ".".intercalate (scope.value :: tail)

/-- What the constructor builds has the parts it was given. -/
theorem build_eq_ok {scope : FieldScope} {family : FieldFamily} {name : Token}
    {receiverId : Option Token} {slot : Option VfoSlot} {path : FieldPath}
    (h : build scope family name receiverId slot = .ok path) :
    path.scope = scope ∧ path.family = family ∧ path.name = name ∧
      path.receiverId = receiverId ∧ path.slot = slot := by
  rw [build] at h
  split at h
  · cases h
    exact ⟨rfl, rfl, rfl, rfl, rfl⟩
  · cases h

end FieldPath

end Rigplane.StatePipeline
