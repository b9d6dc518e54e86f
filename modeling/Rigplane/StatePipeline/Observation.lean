import Rigplane.Clock
import Rigplane.StatePipeline.FieldPath

/-!
# Observations and changes

The records that go in and out of the state store.  The value of a field is any Python
object.  `PyValue` is what the store asks of it: which value is `None`, the operator
`==`, which VFO slot a value names, and whether it can change in place.  Two values that
are the same Lean value are the same object, or deep copies of one.

The laws of `==` are those of the values the pipeline carries (numbers, texts, flags,
enumerations and tuples of them): it is transitive, and only `None` equals `None`.
-/

namespace Rigplane.StatePipeline

/-- A type of Python values. -/
class PyValue (V : Type) where
  /-- `None`. -/
  pyNone : V
  /-- `left == right`. -/
  eq : V → V → Bool
  /-- The slot whose name the value equals, of `{"A", "B"}`. -/
  slot : V → Option VfoSlot
  /-- `is_immutable_value`. -/
  immutable : V → Bool
  eq_trans : ∀ a b c, eq a b → eq b c → eq a c
  eq_none : ∀ a, eq a pyNone → a = pyNone
  none_eq : ∀ a, eq pyNone a → a = pyNone

open PyValue

/-- Texts and `None`, as values. -/
instance : PyValue (Option String) where
  pyNone := none
  eq a b := a == b
  slot
    | some "A" => some .a
    | some "B" => some .b
    | _ => none
  immutable _ := true
  eq_trans _ _ _ hab hbc := beq_iff_eq.mpr ((beq_iff_eq.mp hab).trans (beq_iff_eq.mp hbc))
  eq_none _ h := beq_iff_eq.mp h
  none_eq _ h := (beq_iff_eq.mp h).symm

structure SourceMetadata where
  source : String
  provider : String
  transport : Option String := none
  nativeId : Option String := none
  capabilityId : Option String := none
  commandSource : Option String := none
  sessionId : Option String := none
deriving DecidableEq, Repr

/-- A decoded sample, with the checks of its `__post_init__`. -/
structure Observation (V : Type) where
  path : FieldPath
  value : V
  source : SourceMetadata
  timestampMonotonic : Time
  quality : List Token
  maxAge : Option Time
  providerGeneration : Option Nat
  clockDomain : Option String
  maxAge_nonneg : ∀ a ∈ maxAge, 0 ≤ a
  clockDomain_nonempty : clockDomain ≠ some ""

/-- `FieldChange`: a `current` of `None` is how a removal is written. -/
structure FieldChange (V : Type) where
  path : FieldPath
  previous : V
  current : V

structure ChangeSet (V : Type) where
  revision : Nat
  freshnessRevision : Nat
  observationSeq : Nat
  changes : List (FieldChange V)
  timestampMonotonic : Time
  sources : List SourceMetadata
  coalesced : Bool := false
  observedPaths : List FieldPath := []
  freshnessPaths : List FieldPath := []

namespace Observation

variable {V : Type}

theorem noAge_nonneg : ∀ a ∈ (none : Option Time), 0 ≤ a := by simp

theorem noClockDomain_nonempty : (none : Option String) ≠ some "" := by simp

/-- `replace(observation, max_age=...)`, which checks the age again. -/
def withMaxAge (o : Observation V) (age : Time) : Except String (Observation V) :=
  if h : 0 ≤ age then
    .ok { o with
      maxAge := some age
      maxAge_nonneg := by
        intro a ha
        cases ha
        exact h }
  else .error "max_age must be non-negative"

/-- `replace(observation, path=...)`. -/
def withPath (o : Observation V) (path : FieldPath) : Observation V := { o with path := path }

/-- `replace(observation, provider_generation=...)`. -/
def withGeneration (o : Observation V) (generation : Nat) : Observation V :=
  { o with providerGeneration := some generation }

/-- An aged observation differs in its age alone. -/
theorem withMaxAge_eq_ok {o o' : Observation V} {age : Time} (h : o.withMaxAge age = .ok o') :
    o'.path = o.path ∧ o'.value = o.value ∧ o'.timestampMonotonic = o.timestampMonotonic ∧
      o'.providerGeneration = o.providerGeneration ∧ o'.clockDomain = o.clockDomain ∧
      o'.maxAge = some age := by
  rw [withMaxAge] at h
  split at h
  · cases h
    exact ⟨rfl, rfl, rfl, rfl, rfl, rfl⟩
  · cases h

end Observation

end Rigplane.StatePipeline
