import BracketCalc.Double.Basic
/-!
# The nearest double

A quotient of natural numbers is rounded to the nearest magnitude of a double.
Halfway between two, the one with the even code is taken, and from halfway
between the greatest finite magnitude and the next power of two on, infinity.
-/

namespace BracketCalc.Double

/-- The natural number nearest to a quotient; halfway between two, the even one. -/
def roundHalfEven (num den : Nat) : Nat :=
  let quotient := num / den
  let rest := num % den
  if 2 * rest < den then quotient
  else if den < 2 * rest then quotient + 1
  else quotient + quotient % 2

/-- The code of the magnitude nearest to a quotient. -/
def nearestCode (num den : Nat) : Nat :=
  let scale := (num * unitsOfOne / den).log2 - 52
  min infinityCode (scale * Nat.pow 2 52 + roundHalfEven (num * unitsOfOne) (den * Nat.pow 2 scale))

/-- A number of decimal digits and the power of ten that multiplies it. -/
structure Decimal where
  digits : Nat
  exponent : Int
  deriving DecidableEq, Repr

/-- The code of the magnitude nearest to a decimal.  Powers of ten that are out of reach on either
side are not computed. -/
def Decimal.code (d : Decimal) : Nat :=
  if d.digits = 0 then 0
  else
    match d.exponent with
    | .ofNat e => if 400 < e then infinityCode else nearestCode (d.digits * Nat.pow 10 e) 1
    | .negSucc e => if d.digits.log2 + 400 ≤ e then 0 else nearestCode d.digits (Nat.pow 10 (e + 1))

end BracketCalc.Double
