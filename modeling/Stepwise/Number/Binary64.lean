import Stepwise.Number.Power

/-!
# Binary floating-point numbers

A finite double is a sign and a magnitude `mantissa * 2 ^ exponent`. A positive
rational number rounds to the nearest magnitude, half to the even mantissa; one
that would need a larger exponent than the format has does not round.
-/
namespace Stepwise.Number

/-- A finite double. The mantissa has at most 53 bits; it has fewer only at the least
exponent. -/
structure Binary64 where
  negative : Bool
  mantissa : Nat
  exponent : Int
  deriving DecidableEq, Repr, Inhabited

/-- The least exponent of the format. -/
def minExponent : Int := -1074

/-- The greatest exponent of the format. -/
def maxExponent : Int := 971

/-- Divides and rounds to the nearest whole number, a half to the even one. -/
def roundDiv (num den : Nat) : Nat :=
  let q := num / den
  let r := num % den
  if 2 * r < den then q
  else if den < 2 * r then q + 1
  else if q % 2 == 0 then q else q + 1

/-- The quotient `num / (den * 2 ^ e)` as a fraction of natural numbers. -/
def scaled (num den : Nat) (e : Int) : Nat × Nat :=
  if 0 ≤ e then (num, den * powTwo e.toNat) else (num * powTwo (-e).toNat, den)

/-- The exponent at which a positive fraction has a mantissa of 53 bits, or the least
exponent if that is greater. -/
def fittingExponent (num den : Nat) : Int :=
  let guess : Int := (num.log2 : Int) - (den.log2 : Int) - 52
  let (n, d) := scaled num den guess
  let e := if n < d * powTwo 52 then guess - 1 else guess
  if e < minExponent then minExponent else e

/-- The double nearest to a fraction with a sign, if it is in range. -/
def Binary64.ofFraction? (negative : Bool) (num den : Nat) : Option Binary64 :=
  if num == 0 then some ⟨negative, 0, minExponent⟩
  else
    let e := fittingExponent num den
    let (n, d) := scaled num den e
    let m := roundDiv n d
    let (m, e) := if m == powTwo 53 then (powTwo 52, e + 1) else (m, e)
    if maxExponent < e then none else some ⟨negative, m, e⟩

namespace Binary64

/-- The magnitude as a fraction of natural numbers. -/
def fraction (x : Binary64) : Nat × Nat :=
  if 0 ≤ x.exponent then (x.mantissa * powTwo x.exponent.toNat, 1)
  else (x.mantissa, powTwo (-x.exponent).toNat)

/-- The whole part, toward zero. -/
def truncate (x : Binary64) : Int :=
  let (n, d) := x.fraction
  if x.negative then -((n / d : Nat) : Int) else ((n / d : Nat) : Int)

end Binary64
end Stepwise.Number
