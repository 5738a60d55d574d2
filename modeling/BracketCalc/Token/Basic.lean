import BracketCalc.Span
import BracketCalc.Text.Basic
/-!
# Tokens

An expression is written with brackets and literals.  A token knows where in
the text it stands, but two tokens are the same if they are of one kind,
wherever they stand.
-/

namespace BracketCalc

/-- What a token is.  `other` is any token that is neither a bracket nor a literal; no text
has one. -/
inductive TokenKind where
  | left
  | right
  | literal (text : Text)
  | other
  deriving DecidableEq, Repr

structure Token where
  kind : TokenKind
  span : Span
  deriving DecidableEq, Repr

namespace TokenKind

/-- The name of the token, with the text of a literal. -/
def name : TokenKind → Text
  | left => "LeftBracket()".toList
  | right => "RightBracket()".toList
  | literal text => "Literal('".toList ++ text ++ "')".toList
  | other => "Token()".toList

/-- The token as it is written. -/
def text : TokenKind → Text
  | left => ['(']
  | right => [')']
  | literal text => text
  | other => other.name

end TokenKind

namespace Token

def text (token : Token) : Text := token.kind.text

/-- Whether two tokens are of one kind. -/
def same (a b : Token) : Bool := a.kind = b.kind

/-- The tokens without those that repeat an earlier one. -/
def distinct (tokens : List Token) : List Token :=
  (tokens.foldl (fun kept t => if kept.any t.same then kept else t :: kept) []).reverse

def left (start : Int) : Token := ⟨.left, start, start + 1⟩

def right (start : Int) : Token := ⟨.right, start, start + 1⟩

theorem same_iff {a b : Token} : a.same b = true ↔ a.kind = b.kind := by
  simp [same]

end Token

end BracketCalc
