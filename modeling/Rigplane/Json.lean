import Mathlib.Data.Rat.Defs
import Rigplane.Lib.Dict

/-!
# JSON values

The values a document has in the Python half.  A number with a fraction or an exponent is a
`float`, any other number an `int`; the browser has one type for both.
-/

namespace Rigplane

inductive Json where
  | null
  | bool (value : Bool)
  | int (value : Int)
  /-- A finite double. -/
  | float (value : ℚ)
  | str (value : String)
  | arr (items : List Json)
  | obj (fields : List (String × Json))
deriving Inhabited

namespace Json

/-- `fields.get(key)`: what is missing is null. -/
def get (fields : List (String × Json)) (key : String) : Json := (Dict.find key fields).getD .null

/-- The text of a string. -/
def asStr : Json → Option String
  | .str value => some value
  | _ => none

end Json

end Rigplane
