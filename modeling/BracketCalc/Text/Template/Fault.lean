import BracketCalc.Text.Quoted
/-!
# What is wrong with a template

A template cannot be filled if it is malformed, if no snippet answers a field,
if a field asks for a layout that texts do not have, or if the attribute that it
asks for fails in its own way.
-/

namespace BracketCalc.Template

/-- What is wrong with the layout of a field. -/
inductive LayoutFault where
  | malformed (layout : Text)
  | missingPrecision
  | bothSeparators
  | separator (mark kind : Char)
  | kind (kind : Char)
  | space
  | sign
  | negativeZero
  | alternate
  | signAware
  | tooWide
  deriving DecidableEq, Repr

/-- Why a template cannot be filled. -/
inductive Fault where
  | strayOpen
  | strayClose
  | unfinishedField
  | openInField
  | missingConversion
  | strayAfterConversion
  | unfinishedLayout
  | nestedLayouts
  | hugeNumber
  | numberAfterEmpty
  | emptyAfterNumber
  | noSnippet (number : Nat)
  | noSnippetAtAll
  | unknownName (name : Text)
  | emptyPart
  | unfinishedPart
  | strayAfterPart
  | ofAttribute (kind message : Text)
  | namedCharacter
  | noCharacter
  | conversion (mark : Char)
  | layout (fault : LayoutFault)
  deriving DecidableEq, Repr

/-- A character in a message: itself if it is one of the graphic characters from `!` up to before
`limit`, else its code point. -/
def shownCode (limit : Nat) (c : Char) : Text :=
  if 0x20 < c.toNat ∧ c.toNat < limit then [c] else '\\' :: 'x' :: Nat.toDigits 16 c.toNat

def LayoutFault.message : LayoutFault → Text
  | malformed layout =>
      "Invalid format specifier '".toList ++ layout ++ "' for object of type 'str'".toList
  | missingPrecision => "Format specifier missing precision".toList
  | bothSeparators => "Cannot specify both ',' and '_'.".toList
  | separator mark code =>
      "Cannot specify '".toList ++ mark :: "' with '".toList ++ shownCode 0x80 code ++ "'.".toList
  | kind code =>
      "Unknown format code '".toList ++ shownCode 0x80 code ++ "' for object of type 'str'".toList
  | space => "Space not allowed in string format specifier".toList
  | sign => "Sign not allowed in string format specifier".toList
  | negativeZero =>
      "Negative zero coercion (z) not allowed in string format specifier".toList
  | alternate => "Alternate form (#) not allowed in string format specifier".toList
  | signAware => "'=' alignment not allowed in string format specifier".toList
  | tooWide => []

def Fault.message : Fault → Text
  | strayOpen => "Single '\x7b' encountered in format string".toList
  | strayClose => "Single '\x7d' encountered in format string".toList
  | unfinishedField => "expected '\x7d' before end of string".toList
  | openInField => "unexpected '\x7b' in field name".toList
  | missingConversion => "end of string while looking for conversion specifier".toList
  | strayAfterConversion => "expected ':' after conversion specifier".toList
  | unfinishedLayout => "unmatched '\x7b' in format spec".toList
  | nestedLayouts => "Max string recursion exceeded".toList
  | hugeNumber => "Too many decimal digits in format string".toList
  | numberAfterEmpty =>
      "cannot switch from automatic field numbering to manual field specification".toList
  | emptyAfterNumber =>
      "cannot switch from manual field specification to automatic field numbering".toList
  | noSnippet number =>
      "Replacement index ".toList ++ Text.ofNat number
        ++ " out of range for positional args tuple".toList
  | noSnippetAtAll => "list index out of range".toList
  | unknownName name => name.quoted
  | emptyPart => "Empty attribute in format string".toList
  | unfinishedPart => "Missing ']' in format string".toList
  | strayAfterPart => "Only '.' or '[' may follow ']' in format field specifier".toList
  | ofAttribute _ message => message
  | namedCharacter => "string indices must be integers, not 'str'".toList
  | noCharacter => "string index out of range".toList
  | conversion mark => "Unknown conversion specifier ".toList ++ shownCode 0x7F mark
  | layout fault => fault.message

end BracketCalc.Template
