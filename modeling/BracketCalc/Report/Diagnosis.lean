import BracketCalc.Report.Place
import BracketCalc.Span
import BracketCalc.Text.Style
/-!
# Marked source

A diagnosis shows the line of a source where a span starts.  The span is
marked in the line and underlined below it.  At least one column is underlined,
and never more than the rest of the line.
-/

namespace BracketCalc.Diagnosis

/-- How many columns of a line are marked, from a column on. -/
def width (line : Text) (column : Nat) (span : Span) : Nat :=
  max 1 (min (span.stop - span.start).toNat (line.length - column))

def underline (width : Nat) : Text := '^' :: List.replicate (width - 1) '~'

/-- The marked line of the source and its underlining. -/
def render (palette : Palette) (source : Text) (span : Span) : Text :=
  let place := Place.ofOffset source span.start.toNat
  let width := width place.line place.column span
  let behind := place.line.drop place.column
  Text.spaces 2 ++ place.line.take place.column ++ palette.alarm (behind.take width)
    ++ behind.drop width ++ '\n' :: Text.spaces 2 ++ Text.spaces place.column
    ++ palette.alarm (underline width)

end BracketCalc.Diagnosis
