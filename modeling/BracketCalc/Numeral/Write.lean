import BracketCalc.Double.Shortest
/-!
# Writing numbers

Whole numbers below `10 ^ 16` are written in full.  Any other number is written
with the fewest digits that are read back as it, positionally or with an
exponent, as its size demands.
-/

namespace BracketCalc.Numeral

/-- The choices a number format makes: the powers of ten of the leading digit that are written
positionally, from the first up to before the second, and the least number of exponent digits. -/
structure Style where
  leastPositional : Int
  firstScientific : Int
  exponentPlaces : Nat
  deriving DecidableEq, Repr

/-- Leading digits from `10 ^ -4` to `10 ^ 15` are written positionally, and exponents with two
digits or more. -/
def Style.answers : Style := ⟨-4, 16, 2⟩

/-- The digits with zeros before them up to the given number of places. -/
def padded (places : Nat) (digits : Text) : Text :=
  List.replicate (places - digits.length) '0' ++ digits

/-- A point after the first `places` digits, and zeros where there is no digit. -/
def positional (digits : Text) (places : Int) : Text :=
  if places ≤ 0 then '0' :: '.' :: List.replicate (-places).toNat '0' ++ digits
  else
    let whole := digits.take places.toNat
    let fraction := digits.drop places.toNat
    whole ++ List.replicate (places.toNat - digits.length) '0'
      ++ if fraction.isEmpty then [] else '.' :: fraction

/-- One digit before the point, and the power of ten as an exponent. -/
def scientific (style : Style) (digits : Text) (power : Int) : Text :=
  let fraction := digits.drop 1
  digits.take 1 ++ (if fraction.isEmpty then [] else '.' :: fraction) ++ 'e'
    :: (if power < 0 then '-' else '+') :: padded style.exponentPlaces (Text.ofNat power.natAbs)

def layout (style : Style) (d : Double.Decimal) : Text :=
  let digits := Text.ofNat d.digits
  let power := digits.length - 1 + d.exponent
  if style.leastPositional ≤ power ∧ power < style.firstScientific then
    positional digits (power + 1)
  else scientific style digits power

/-- A magnitude that is a whole number below `10 ^ 16`. -/
def whole? (code : Nat) : Option Nat :=
  let n := Double.units code / Double.unitsOfOne
  if Double.units code % Double.unitsOfOne = 0 ∧ n < Nat.pow 10 16 then some n else none

/-- A number as it is written.  Zero has no sign. -/
def write (x : Float) : Text :=
  let sign : Text := if Double.isNegative x then ['-'] else []
  let code := Double.code x
  if Double.isNaNCode code then "nan".toList
  else if code = Double.infinityCode then sign ++ "inf".toList
  else
    match whole? code with
    | some n => if n = 0 then ['0'] else sign ++ Text.ofNat n
    | none => sign ++ layout .answers (Double.shortest code)

end BracketCalc.Numeral
