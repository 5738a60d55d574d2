import BracketCalc.Double.Nearest
import BracketCalc.Text.Basic
/-!
# The shortest decimal of a double

The decimals with a given power of ten form a grid, and the two points of a
grid next to a magnitude are its neighbours there.  The coarsest grid on which
a neighbour is read back as the magnitude gives the decimal with the fewest
digits.  If both neighbours are read back, the nearer one is taken, and
halfway between them the even one.
-/

namespace BracketCalc.Double

/-- The neighbours of a magnitude on the grid of a power of ten that are read back as it: the nearer
or only one. -/
def neighbour? (code : Nat) (exponent : Int) : Option Decimal :=
  let num := units code * Nat.pow 10 (-exponent).toNat
  let den := unitsOfOne * Nat.pow 10 exponent.toNat
  let below : Decimal := ⟨num / den, exponent⟩
  let above : Decimal := ⟨num / den + 1, exponent⟩
  let nearer : Decimal := ⟨roundHalfEven num den, exponent⟩
  match decide (below.code = code), decide (above.code = code) with
  | true, true => some nearer
  | true, false => some below
  | false, true => some above
  | false, false => none

/-- Searches that many grids, from the one of the given power of ten to finer ones.  The magnitude
itself lies on the grid of its unit. -/
def shortestFrom (code : Nat) (exponent : Int) : (grids : Nat) → Decimal
  | 0 => ⟨units code * Nat.pow 5 1074, -1074⟩
  | grids + 1 =>
      match neighbour? code exponent with
      | some d => d
      | none => shortestFrom code (exponent - 1) grids

/-- The decimal with the fewest digits that is read back as the magnitude. -/
def shortest (code : Nat) : Decimal :=
  let places := (Text.ofNat (units code / unitsOfOne)).length
  shortestFrom code places (places + 1075)

end BracketCalc.Double
