import BracketCalc.Proofs.Fault.FirstFault
/-!
# What is not a number

Of the texts in ASCII, the numerals of the grammar have a value as literals, and all
others have the fault of not being a number.  The forms of the letter `i` whose dot is
wrong are not in ASCII, so no such text is recognised and then cannot be read.
-/

namespace BracketCalc

open Numeral

/-- All characters of the text are in ASCII. -/
def Text.Ascii (text : Text) : Prop := ∀ c ∈ text, c.toNat < 0x80

instance (text : Text) : Decidable text.Ascii :=
  decidable_of_iff _ all_ascii_iff

variable {text : Text} {span : Span}

theorem not_dotted_of_ascii (h : text.Ascii) : ¬ Dotted text := by
  rintro ⟨sign, unsigned, rfl, -, -, c, hc, hdot⟩
  exact not_ascii_of_wrongDot hdot (h c (List.mem_append_right sign hc))

theorem value_literal_of_numeric (h : Numeric text) (span : Span) :
    ∃ x, Expr.value (.literal text span : Tree) = .ok x := by
  obtain ⟨x, hx⟩ := read_of_numeric h
  exact ⟨x, by rw [Expr.value, hx]⟩

theorem value_literal_of_neither (hnumeric : ¬ Numeric text) (hdotted : ¬ Dotted text)
    (span : Span) : Expr.value (.literal text span : Tree) = .error (.notANumber text span) := by
  rw [Expr.value, read_of_neither hnumeric hdotted]

/-- The fault has the span of the literal, unless the end of that is not known. -/
theorem Fault.span_notANumber (host : Host) (text : Text) (h : span.stop ≠ unknownEnd) :
    (notANumber host text span).span = span := by
  simp only [notANumber, quoting, if_neg h]

/-- A text in ASCII has a value as a literal exactly if it is a numeral of the grammar, and else it
has the fault of not being a number, with the span of the literal. -/
theorem value_literal_iff_numeric (host : Host) (h : text.Ascii) (span : Span) :
    ((∃ x, Expr.value (.literal text span : Tree) = .ok x) ↔ Numeric text) ∧
      (¬ Numeric text →
        Expr.value (.literal text span : Tree) = .error (.notANumber text span) ∧
        ∃ fault, Expr.Tells host (.literal text span) fault ∧
          fault.topic = .notANumber ∧ fault.subject = text ∧
          fault.message = "'".toList ++ (text ++ "' is not a number".toList) ∧
          (span.stop ≠ Fault.unknownEnd → fault.span = span)) := by
  have hother : ¬ Numeric text →
      Expr.value (.literal text span : Tree) = .error (.notANumber text span) :=
    fun hnumeric => value_literal_of_neither hnumeric (not_dotted_of_ascii h) span
  constructor
  · refine ⟨?_, fun hnumeric => value_literal_of_numeric hnumeric span⟩
    rintro ⟨x, hx⟩
    by_contra hnumeric
    rw [hother hnumeric] at hx
    cases hx
  · intro hnumeric
    exact ⟨hother hnumeric, .notANumber host text span,
      ⟨_, hother hnumeric, EvalError.stop_notANumber⟩, rfl, rfl, rfl,
      Fault.span_notANumber host text⟩

/-- A point needs a digit on one side only, but an exponent needs digits. -/
theorem value_literal_iff_numeric_point :
    (∃ x, Expr.value (.literal "+.5E-03".toList ⟨0, 7⟩ : Tree) = .ok x) ∧
      ∃ fault, Expr.Tells .plain (.literal "5.e".toList ⟨0, 3⟩) fault ∧
        fault.topic = .notANumber ∧ fault.span = ⟨0, 3⟩ := by
  have hpoint : Text.Ascii "+.5E-03".toList := by decide
  have hempty : Text.Ascii "5.e".toList := by decide
  constructor
  · refine (value_literal_iff_numeric .plain hpoint _).1.2 ?_
    exact numeric_iff.2 (.inl (decimal?_isSome_iff.1 (by decide)))
  · have hread : read "5.e".toList = .notANumeral := rfl
    have hnumeric : ¬ Numeric "5.e".toList := fun h => by
      obtain ⟨x, hx⟩ := read_of_numeric h
      cases hread.symm.trans hx
    obtain ⟨-, fault, htells, htopic, -, -, hspan⟩ :=
      (value_literal_iff_numeric .plain hempty ⟨0, 3⟩).2 hnumeric
    exact ⟨fault, htells, htopic, hspan (by decide)⟩

end BracketCalc
