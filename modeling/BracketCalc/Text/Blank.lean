import BracketCalc.Text.Basic
/-!
# Blank characters

The blank characters are the white space of Unicode together with the four
information separators U+001C to U+001F.  Stripping removes them from the end,
or from both ends, of a text.
-/

namespace BracketCalc.Text

/-- Whether a character is white space or an information separator. -/
def isBlank (c : Char) : Bool :=
  let n := c.toNat
  (0x09 ≤ n && n ≤ 0x0D) || (0x1C ≤ n && n ≤ 0x20) || n == 0x85 || n == 0xA0 || n == 0x1680
    || (0x2000 ≤ n && n ≤ 0x200A) || n == 0x2028 || n == 0x2029 || n == 0x202F || n == 0x205F
    || n == 0x3000

/-- The text without the blank characters at its end. -/
def stripRight (text : Text) : Text := (text.reverse.dropWhile isBlank).reverse

/-- The text without the blank characters at its two ends. -/
def strip (text : Text) : Text := stripRight (text.dropWhile isBlank)

@[simp] theorem stripRight_nil : stripRight [] = [] := rfl

/-- Stripping cuts a run of blank characters off the end and nothing else. -/
theorem stripRight_append_blanks (text : Text) :
    ∃ blanks : Text, text = stripRight text ++ blanks ∧ ∀ c ∈ blanks, isBlank c = true := by
  refine ⟨(text.reverse.takeWhile isBlank).reverse, ?_, ?_⟩
  · rw [stripRight, ← List.reverse_append, List.takeWhile_append_dropWhile, List.reverse_reverse]
  · intro c h
    exact List.all_eq_true.1 List.all_takeWhile c (List.mem_reverse.1 h)

end BracketCalc.Text
