import BracketCalc.Text.Invisible
/-!
# Quoted texts

A text in a message is quoted on one line: between apostrophes, or between
double quotes if it holds an apostrophe and no double quote.  Characters that
would not show are written as escapes, and on demand all others that are not
ASCII.
-/

namespace BracketCalc.Text

/-- The lowest places of a number in lower-case hexadecimal digits. -/
def hexPlaces : (places : Nat) → Nat → Text
  | 0, _ => []
  | places + 1, n => hexPlaces places (n / 16) ++ [Nat.digitChar (n % 16)]

/-- A character as it stands between the given quotes, as an escape unless it shows. -/
def escaped (shows : Char → Bool) (quote c : Char) : Text :=
  if c = quote ∨ c = '\\' then ['\\', c]
  else if c = '\t' then ['\\', 't']
  else if c = '\n' then ['\\', 'n']
  else if c = '\r' then ['\\', 'r']
  else if shows c then [c]
  else if c.toNat < 0x100 then '\\' :: 'x' :: hexPlaces 2 c.toNat
  else if c.toNat < 0x10000 then '\\' :: 'u' :: hexPlaces 4 c.toNat
  else '\\' :: 'U' :: hexPlaces 8 c.toNat

/-- The text in quotes, with escapes for the characters that do not show. -/
def quotedBy (shows : Char → Bool) (text : Text) : Text :=
  let quote := if text.contains '\'' && ! text.contains '"' then '"' else '\''
  quote :: text.flatMap (escaped shows quote) ++ [quote]

/-- The text in quotes, as it is shown in a message. -/
def quoted (text : Text) : Text := text.quotedBy fun c => ! isInvisible c

/-- The text in quotes, in ASCII. -/
def quotedAscii (text : Text) : Text := text.quotedBy fun c => c.toNat < 0x80 && ! isInvisible c

end BracketCalc.Text
