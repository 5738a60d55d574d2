import BracketCalc.Text.Blank
import BracketCalc.Text.Lines
/-!
# Sources without comments

A comment runs from `;;` to the end of its line.  Comments are removed, and
then the blank characters at the end of each line, so that everything else
keeps its line and its column.

An expression that is typed in goes on while it has more left brackets than
right ones.
-/

namespace BracketCalc.Source

/-- A line up to its comment. -/
def beforeComment : Text → Text
  | ';' :: ';' :: _ => []
  | c :: rest => c :: beforeComment rest
  | [] => []

/-- A line without its comment and without blanks at its end. -/
def cleanLine (line : Text) : Text := (beforeComment line).stripRight

/-- A text without its comments. -/
def clean (text : Text) : Text := Text.joinLines (text.lines.map cleanLine)

/-- The text typed in so far, after one more line.  `held` is the text before it, empty if the line
starts an expression. -/
def resume (held line : Text) : Text :=
  if held.isEmpty then clean line else held ++ '\n' :: clean line

/-- Whether the text goes on in the next line. -/
def isOpen (text : Text) : Bool := text.count ')' < text.count '('

end BracketCalc.Source
