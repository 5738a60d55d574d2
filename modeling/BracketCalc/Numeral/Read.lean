import BracketCalc.Double.Nearest
import BracketCalc.Text.Basic
/-!
# Reading numerals

A numeral is an optional sign before a decimal or before one of the words
`inf`, `infinity` and `nan`.  A decimal has digits on at least one side of its
optional point, and an exponent is a sign and digits after `e`.

The words are recognised in any case, where the letter `i` has two more forms:
U+0130, the capital with a dot, and U+0131, the small one without.  A word in
which one of them stands is recognised but denotes no number.
-/

namespace BracketCalc.Numeral

/-- What a text denotes. -/
inductive Reading where
  | value (x : Float)
  | unreadable
  | notANumeral

/-- The text without its sign, and whether the sign was a minus. -/
def takeSign : Text → Bool × Text
  | '-' :: rest => (true, rest)
  | '+' :: rest => (false, rest)
  | text => (false, text)

/-- The exponent that an optional exponent part writes. -/
def exponent? : Text → Option Int
  | [] => some 0
  | mark :: rest =>
      if mark = 'e' ∨ mark = 'E' then
        let (negative, digits) := takeSign rest
        if digits.isEmpty || ! digits.all Char.isDigit then none
        else if negative then some (-(Text.toNat digits))
        else some (Text.toNat digits)
      else none

/-- The digits before the point, those after it, and what follows. -/
def mantissa (text : Text) : Text × Text × Text :=
  let whole := text.takeWhile Char.isDigit
  match text.dropWhile Char.isDigit with
  | '.' :: rest => (whole, rest.takeWhile Char.isDigit, rest.dropWhile Char.isDigit)
  | rest => (whole, [], rest)

def decimal? (text : Text) : Option Double.Decimal :=
  let (whole, fraction, rest) := mantissa text
  if whole.isEmpty && fraction.isEmpty then none
  else (exponent? rest).map fun e => ⟨Text.toNat (whole ++ fraction), e - fraction.length⟩

/-- Whether a character is a form of a small letter. -/
def isForm (letter c : Char) : Bool :=
  c = letter || c = letter.toUpper || (letter = 'i' && (c = 'İ' || c = 'ı'))

def isWord : Text → Text → Bool
  | [], [] => true
  | letter :: word, c :: text => isForm letter c && isWord word text
  | _, _ => false

/-- What a text without a sign denotes, if it is a word. -/
def word? (text : Text) : Option (Bool → Float) :=
  if isWord "inf".toList text || isWord "infinity".toList text then
    some fun negative => Double.ofCode negative Double.infinityCode
  else if isWord "nan".toList text then some fun _ => Double.notANumber
  else none

/-- What a text denotes as a numeral. -/
def read (text : Text) : Reading :=
  let (negative, unsigned) := takeSign text
  match decimal? unsigned with
  | some d => .value (Double.ofCode negative d.code)
  | none =>
      match word? unsigned with
      | some x => if unsigned.all (·.toNat < 0x80) then .value (x negative) else .unreadable
      | none => .notANumeral

end BracketCalc.Numeral
