import BracketCalc.Proofs.Expr.RoundTrip
import BracketCalc.Proofs.Numeral.Grammar
/-!
# Numerals are words

No numeral has a blank or a bracket in it, so that it is read as a single literal
wherever blanks or brackets stand around it.
-/

namespace BracketCalc.Numeral

/-- The character belongs to a literal. -/
def Inner (c : Char) : Prop := c ≠ ' ' ∧ c ≠ '\n' ∧ c ≠ '(' ∧ c ≠ ')'

variable {text : Text} {c : Char}

theorem inner_of_isDigit (h : c.isDigit = true) : Inner c := by
  refine ⟨?_, ?_, ?_, ?_⟩ <;>
  · rintro rfl
    cases h

theorem Sign.inner (h : Sign text) : ∀ c ∈ text, Inner c := by
  cases h with
  | none => exact nofun
  | plus => simp [Inner]
  | minus => simp [Inner]

theorem Digits.inner (h : Digits text) : ∀ c ∈ text, Inner c :=
  fun c hc => inner_of_isDigit (h.2 c hc)

theorem inner_point : Inner '.' := by
  unfold Inner
  decide

theorem Mantissa.inner (h : Mantissa text) : ∀ c ∈ text, Inner c := by
  cases h with
  | whole hdigits => exact hdigits.inner
  | point hdigits hfraction =>
      rw [List.forall_mem_append, List.forall_mem_cons]
      exact ⟨hdigits.inner, inner_point, fun c hc => inner_of_isDigit (hfraction c hc)⟩
  | fraction hfraction =>
      rw [List.forall_mem_cons]
      exact ⟨inner_point, hfraction.inner⟩

theorem Exponent.inner (h : Exponent text) : ∀ c ∈ text, Inner c := by
  cases h with
  | absent => exact nofun
  | present hmark hsign hdigits =>
      rw [List.forall_mem_cons, List.forall_mem_append]
      refine ⟨?_, hsign.inner, hdigits.inner⟩
      rcases hmark with rfl | rfl <;>
      · unfold Inner
        decide

theorem Decimal.inner (h : Decimal text) : ∀ c ∈ text, Inner c := by
  obtain ⟨mantissa, exponent, rfl, hmantissa, hexponent⟩ := h
  rw [List.forall_mem_append]
  exact ⟨hmantissa.inner, hexponent.inner⟩

theorem inner_of_mem_names : ∀ name ∈ names, ∀ letter ∈ name,
    Inner letter ∧ Inner letter.toUpper := by
  simp [names, Inner]

theorem Word.inner (h : Word text) : ∀ c ∈ text, Inner c := by
  obtain ⟨name, hname, hspelled⟩ := h
  have hletters := inner_of_mem_names name hname
  clear hname
  induction hspelled with
  | nil => exact nofun
  | cons hc _ ih =>
      rw [List.forall_mem_cons] at hletters ⊢
      refine ⟨?_, ih hletters.2⟩
      rcases hc with rfl | rfl
      · exact hletters.1.1
      · exact hletters.1.2

theorem Decimal.ne_nil (h : Decimal text) : text ≠ [] := by
  rintro rfl
  obtain ⟨c, hc, -⟩ := head_of_decimal h
  cases hc

theorem Word.ne_nil (h : Word text) : text ≠ [] := by
  rintro rfl
  obtain ⟨name, hname, hspelled⟩ := h
  cases hspelled
  simp [names] at hname

/-- Numerals are read as single literals. -/
theorem unbroken_of_numeric (h : Numeric text) : text.Unbroken := by
  obtain ⟨sign, unsigned, rfl, hsign, hunsigned⟩ := h
  have hinner : ∀ c ∈ unsigned, Inner c :=
    hunsigned.elim Decimal.inner Word.inner
  have hne : unsigned ≠ [] := hunsigned.elim Decimal.ne_nil Word.ne_nil
  refine ⟨List.append_ne_nil_of_right_ne_nil sign hne, ?_⟩
  rw [List.forall_mem_append]
  exact ⟨hsign.inner, hinner⟩

end BracketCalc.Numeral
