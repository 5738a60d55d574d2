import BracketCalc.Text.Basic
/-!
# Lines

A text with `n` newlines has `n + 1` lines.  Taking the lines of a text and
joining them with newlines gives the text back.
-/

namespace BracketCalc.Text

/-- The lines of a text, of which there is always at least one. -/
def lines (text : Text) : List Text := text.splitOn '\n'

/-- The lines one after another, with a newline between each and the next. -/
def joinLines (lines : List Text) : Text := ['\n'].intercalate lines

/-- The text with each of the three line ends `CR LF`, `CR` and `LF` written as a newline. -/
def unifyNewlines : Text → Text
  | '\r' :: '\n' :: rest => '\n' :: unifyNewlines rest
  | c :: rest => (if c = '\r' then '\n' else c) :: unifyNewlines rest
  | [] => []

/-- The lines of a stream: a newline at the end finishes the last line and starts none. -/
def streamLines (text : Text) : List Text :=
  let all := lines text
  if all.getLast? = some [] then all.dropLast else all

@[simp] theorem joinLines_lines (text : Text) : joinLines (lines text) = text :=
  List.intercalate_splitOn '\n'

theorem lines_joinLines {ls : List Text} (hne : ls ≠ []) (h : ∀ l ∈ ls, '\n' ∉ l) :
    lines (joinLines ls) = ls :=
  List.splitOn_intercalate '\n' h hne

end BracketCalc.Text
