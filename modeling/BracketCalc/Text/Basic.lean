/-!
# Texts

A text is a list of characters, and every length and offset of the library
counts characters.  This module holds the few conversions that all others
share.
-/

namespace BracketCalc

/-- A sequence of characters. -/
abbrev Text := List Char

namespace Text

def spaces (count : Nat) : Text := List.replicate count ' '

/-- The decimal digits of a number, without leading zeros. -/
def ofNat (n : Nat) : Text := Nat.toDigits 10 n

/-- The decimal digits of a number, after a `-` if it is negative. -/
def ofInt : Int → Text
  | .ofNat n => ofNat n
  | .negSucc n => '-' :: ofNat (n + 1)

/-- The number that a run of decimal digits stands for, highest place first. -/
def toNat (digits : Text) : Nat := Nat.ofDigitChars 10 digits 0

@[simp] theorem toNat_ofNat (n : Nat) : toNat (ofNat n) = n :=
  Nat.ofDigitChars_ten_toDigits

end Text

end BracketCalc
