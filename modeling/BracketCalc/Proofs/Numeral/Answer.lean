import BracketCalc.Proofs.Fault.Outcome
import BracketCalc.Proofs.Numeral.Unbroken
import BracketCalc.Proofs.Numeral.Written
/-!
# Answers are typed in again

What is written for a number is a numeral, hence a single literal, whose value
is the number again.  Two doubles are therefore written alike exactly if they
are equal or neither is a number.
-/

namespace BracketCalc

/-! ### Texts of one word -/

namespace Token

variable {newlines : Newlines} {text : Text}

theorem lex_of_unbroken (h : text.Unbroken) :
    lex newlines text = [⟨.literal text, 0, text.length⟩] := by
  have hword : Lexeme newlines 0 text _ := .word (Tree.word_of_unbroken h)
  have hlexes : Lexes newlines 0 (text ++ []) _ := .token hword apart_nil .nil
  rw [Tree.lettersOf_of_unbroken h, List.append_nil, Nat.zero_add] at hlexes
  exact lexes_iff.1 hlexes

end Token

theorem Tree.parse_of_unbroken {newlines : Newlines} {text : Text} (h : text.Unbroken) :
    parse newlines text = .ok (.literal text ⟨0, text.length⟩) := by
  rw [parse, Token.lex_of_unbroken h]
  rfl

namespace Numeral

open Double

variable {x y : Float}

theorem numeric_write (x : Float) : Numeric (write x) := numeric_of_read (read_write x)

theorem evaluate_write (host : Host) (newlines : Newlines) (x : Float) :
    evaluate host newlines (write x) = .ok (if x == 0 then 0 else x) := by
  refine evaluate_of_value_eq_ok host
    (Tree.parse_of_unbroken (unbroken_of_numeric (numeric_write x))) ?_
  rw [Expr.value, read_write]

theorem beq_of_write_eq (h : write x = write y) :
    (x == y) = true ∨ x.isNaN = true ∧ y.isNaN = true := by
  have hread : (if x == 0 then 0 else x) = (if y == 0 then 0 else y) := by
    have hvalue := (read_write x).symm.trans ((congrArg read h).trans (read_write y))
    exact Reading.value.inj hvalue
  by_cases hx : (x == 0) = true
  · by_cases hy : (y == 0) = true
    · exact .inl (beq_of_code_eq_zero (beq_zero_iff.1 hx) (beq_zero_iff.1 hy))
    · rw [if_pos hx, if_neg hy] at hread
      exact absurd (by rw [← hread]; rfl) hy
  · by_cases hy : (y == 0) = true
    · rw [if_neg hx, if_pos hy] at hread
      exact absurd (by rw [hread]; rfl) hx
    · rw [if_neg hx, if_neg hy] at hread
      subst hread
      cases hnan : x.isNaN with
      | false => exact .inl (beq_self hnan)
      | true => exact .inr ⟨rfl, rfl⟩

theorem write_eq_of_beq (h : (x == y) = true) : write x = write y := by
  rcases eq_or_zero_of_beq h with rfl | ⟨hx, hy⟩
  · rfl
  · rw [write_zero hx, write_zero hy]

theorem write_eq_of_isNaN (hx : x.isNaN = true) (hy : y.isNaN = true) : write x = write y := by
  rw [eq_notANumber (isNaN_iff.1 hx), eq_notANumber (isNaN_iff.1 hy)]

/-- What is written for a number is a single literal and a numeral, and its value is the number
again, though zero loses its sign.  Two doubles are written alike exactly if they are equal or
neither is a number. -/
theorem write_typed_again (host : Host) (newlines : Newlines) (x : Float) :
    Token.lex newlines (write x) = [⟨.literal (write x), 0, (write x).length⟩] ∧
      Numeric (write x) ∧
      evaluate host newlines (write x) = .ok (if x == 0 then 0 else x) ∧
      ∀ y, write x = write y ↔ (x == y) = true ∨ x.isNaN = true ∧ y.isNaN = true := by
  refine ⟨Token.lex_of_unbroken (unbroken_of_numeric (numeric_write x)), numeric_write x,
    evaluate_write host newlines x, fun y => ⟨beq_of_write_eq, ?_⟩⟩
  rintro (h | ⟨hx, hy⟩)
  · exact write_eq_of_beq h
  · exact write_eq_of_isNaN hx hy

end Numeral

end BracketCalc
