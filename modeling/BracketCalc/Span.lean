/-!
# Spans

A span marks a stretch of a text by the offsets of its first character and of
the first character after it.  A span that a program makes by hand may have any
offsets; those before the text stand for its start.
-/

namespace BracketCalc

structure Span where
  start : Int
  stop : Int
  deriving DecidableEq, Repr, Inhabited

namespace Span

/-- The stretch of a text that a span marks. -/
def slice {α : Type} (span : Span) (text : List α) : List α :=
  (text.take span.stop.toNat).drop span.start.toNat

/-- A span cuts a text out from between what stands before and behind it. -/
theorem slice_append {α : Type} {span : Span} {a b : List α} (c : List α)
    (start : span.start = a.length) (stop : span.stop = a.length + b.length) :
    span.slice (a ++ (b ++ c)) = b := by
  have first : span.start.toNat = a.length := by omega
  have last : span.stop.toNat = (a ++ b).length := by rw [List.length_append]; omega
  rw [slice, first, last, ← List.append_assoc, List.take_left, List.drop_left]

end Span

end BracketCalc
