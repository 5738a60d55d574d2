import BracketCalc.Token.Basic
/-!
# From text to tokens

Every text is a sequence of tokens.  Brackets stand for themselves, spaces
separate, and each longest run of other characters is a literal.  A newline
separates as well, or is passed over, so that a literal goes on behind it.
-/

namespace BracketCalc

/-- What a newline does to the literal before it. -/
inductive Newlines where
  | separate
  | merge
  deriving DecidableEq, Repr

/-- What a character does when it is read. -/
inductive CharRole where
  | letter
  | separator
  | skipped
  | left
  | right
  deriving DecidableEq, Repr

namespace Newlines

/-- The role of a character. -/
def role (newlines : Newlines) (c : Char) : CharRole :=
  if c = '(' then .left
  else if c = ')' then .right
  else if c = ' ' then .separator
  else if c = '\n' then
    match newlines with
    | separate => .separator
    | merge => .skipped
  else .letter

end Newlines

namespace Token

/-- A literal that is being read: the offset of its first character, and its characters, the latest
first. -/
structure Unfinished where
  start : Nat
  letters : Text

/-- The literal that ends at the given offset, if one is being read. -/
def flush (stop : Nat) : Option Unfinished → List Token
  | none => []
  | some u => [⟨.literal u.letters.reverse, u.start, stop⟩]

/-- The literal being read and the character at the given offset. -/
def extend (offset : Nat) (c : Char) : Option Unfinished → Unfinished
  | none => ⟨offset, [c]⟩
  | some u => ⟨u.start, c :: u.letters⟩

/-- The tokens of the rest of a text, from the given offset on. -/
def lexFrom (newlines : Newlines) (offset : Nat) (current : Option Unfinished) :
    Text → List Token
  | [] => flush offset current
  | c :: rest =>
      match newlines.role c with
      | .letter => lexFrom newlines (offset + 1) (some (extend offset c current)) rest
      | .skipped => lexFrom newlines (offset + 1) current rest
      | .separator => flush offset current ++ lexFrom newlines (offset + 1) none rest
      | .left => flush offset current ++ left offset :: lexFrom newlines (offset + 1) none rest
      | .right => flush offset current ++ right offset :: lexFrom newlines (offset + 1) none rest

/-- The tokens of a text. -/
def lex (newlines : Newlines) (text : Text) : List Token := lexFrom newlines 0 none text

/-- Every token that is read from a text is a bracket or a literal. -/
theorem kind_ne_other_of_mem_lexFrom (newlines : Newlines) (offset : Nat)
    (current : Option Unfinished) (text : Text) :
    ∀ t ∈ lexFrom newlines offset current text, t.kind ≠ .other := by
  have flushed : ∀ stop current, ∀ t ∈ flush stop current, t.kind ≠ .other := by
    intro stop current t h
    cases current with
    | none => simp [flush] at h
    | some u => simp [flush] at h; simp [h]
  induction text generalizing offset current with
  | nil => exact flushed offset current
  | cons c rest ih =>
      intro t h
      rw [lexFrom] at h
      split at h
      case h_1 => exact ih _ _ t h
      case h_2 => exact ih _ _ t h
      case h_3 =>
        rcases List.mem_append.1 h with h | h
        · exact flushed _ _ t h
        · exact ih _ _ t h
      case h_4 =>
        rcases List.mem_append.1 h with h | h
        · exact flushed _ _ t h
        · rcases List.mem_cons.1 h with rfl | h
          · simp [left]
          · exact ih _ _ t h
      case h_5 =>
        rcases List.mem_append.1 h with h | h
        · exact flushed _ _ t h
        · rcases List.mem_cons.1 h with rfl | h
          · simp [right]
          · exact ih _ _ t h

theorem kind_ne_other_of_mem_lex {newlines : Newlines} {text : Text} {t : Token}
    (h : t ∈ lex newlines text) : t.kind ≠ .other :=
  kind_ne_other_of_mem_lexFrom newlines 0 none text t h

end Token

end BracketCalc
