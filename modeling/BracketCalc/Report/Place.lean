import BracketCalc.Text.Basic
/-!
# Places in a source

An offset into a source is shown as a line and a column.  The newline that ends
a line belongs to it, and an offset behind the source lies on its last line.
-/

namespace BracketCalc

/-- The number of a line, counted from zero, the line, and a column in it. -/
structure Place where
  lineIndex : Nat
  line : Text
  column : Nat
  deriving DecidableEq, Repr

namespace Place

def ofOffset (source : Text) (offset : Nat) : Place :=
  let before := source.take offset
  let head := (before.reverse.takeWhile (· ≠ '\n')).reverse
  let tail := (source.drop offset).takeWhile (· ≠ '\n')
  ⟨before.count '\n', head ++ tail, head.length + (offset - before.length)⟩

end Place

end BracketCalc
