import Mathlib.Algebra.Order.Ring.Rat

/-!
# Clock readings

The program reads `time.monotonic()` and an event loop's `time()`.  Every reading and every
duration is a double, and a rational here.  What it compares is compared exactly; a sum or a
difference of doubles is rounded.  The state store, where two roundings meet, passes each through
`Rounding.round`, and what is proved of it holds whatever that is.  The other components compute
exactly here: what is proved of them speaks of sums and differences that are doubles themselves.
-/

namespace Rigplane

/-- A reading of a monotonic clock, or a duration, in seconds. -/
abbrev Time := ℚ

/-- What the program gets for the exact result of an operation. -/
class Rounding where
  round : Time → Time

namespace Rounding

instance (priority := low) exact : Rounding := ⟨id⟩

/-- The integer nearest to a quotient; of two, the even one. -/
def nearest (n d : Nat) : Nat :=
  if d < 2 * (n % d) ∨ d = 2 * (n % d) ∧ n / d % 2 = 1 then n / d + 1 else n / d

/-- The exponent of the last of 53 binary digits. -/
def lastDigit (q : ℚ) : Int :=
  let e : Int := q.num.natAbs.log2 - q.den.log2
  (if q.den * 2 ^ e.toNat ≤ q.num.natAbs * 2 ^ (-e).toNat then e else e - 1) - 52

/-- Doubles, in the range of the normal ones: 53 binary digits, to the nearest. -/
@[reducible] def double : Rounding where
  round q :=
    let e := lastDigit q
    let digits := nearest (q.num.natAbs * 2 ^ (-e).toNat) (q.den * 2 ^ e.toNat)
    mkRat (q.num.sign * (digits * 2 ^ e.toNat : Nat)) (2 ^ (-e).toNat)

end Rounding

end Rigplane
