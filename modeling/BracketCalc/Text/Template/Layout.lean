import BracketCalc.Text.Digit
import BracketCalc.Text.Template.Fault
/-!
# Layouts of fields

The layout of a field cuts a text to a number of characters and then pads it to
a width, with a fill character on one or both sides.  Layouts are written as
those of numbers are, but what only numbers have is refused.
-/

namespace BracketCalc.Template

/-- Where a padded text stands. -/
inductive Alignment where
  | left
  | right
  | center
  deriving DecidableEq, Repr

structure Layout where
  fill : Char
  alignment : Alignment
  width : Nat
  precision : Option Nat
  deriving DecidableEq, Repr

/-- The number at the start of a text, if there is one, and what follows it. -/
def takeNumber (text : Text) : Except Fault (Option Nat × Text) :=
  match Text.number? (text.takeWhile Text.isDecimal) with
  | none => .ok (none, text)
  | some n =>
      if Nat.pow 2 63 ≤ n then .error .hugeNumber else .ok (some n, text.dropWhile Text.isDecimal)

/-- The first character of a text if it is one of the marks, and what follows it. -/
def takeMark (marks : List Char) : Text → Option Char × Text
  | [] => (none, [])
  | c :: rest => if c ∈ marks then (some c, rest) else (none, c :: rest)

/-- The marks in which a layout is written, of which texts do not have all. -/
structure LayoutMarks where
  fill : Option Char
  alignment : Option Char
  sign : Option Char
  negativeZero : Option Char
  alternate : Option Char
  zero : Option Char
  width : Option Nat
  separator : Option Char
  precision : Option Nat
  kind : Char
  deriving DecidableEq, Repr

namespace LayoutMarks

/-- The marks of the alignments.  With `=`, the padding of a number stands behind its sign. -/
def alignments : List Char := ['<', '>', '^', '=']

/-- The fill character, which only stands before an alignment, the alignment, and what follows
them. -/
def takeAlignment (text : Text) : Option Char × Option Char × Text :=
  match text with
  | fill :: mark :: rest =>
      if mark ∈ alignments then (some fill, some mark, rest) else (none, takeMark alignments text)
  | _ => (none, takeMark alignments text)

/-- The separator of groups of digits, and what follows it. -/
def takeSeparator (text : Text) : Except Fault (Option Char × Text) :=
  let (comma, rest) := takeMark [','] text
  let (underscore, rest) := takeMark ['_'] rest
  if underscore.isSome ∧ (comma.isSome ∨ rest.head? = some ',') then
    .error (.layout .bothSeparators)
  else .ok (comma.or underscore, rest)

/-- The number of characters after a point, and what follows it. -/
def takePrecision (text : Text) : Except Fault (Option Nat × Text) :=
  match text with
  | '.' :: rest =>
      match takeNumber rest with
      | .ok (none, _) => .error (.layout .missingPrecision)
      | found => found
  | _ => .ok (none, text)

/-- The marks of a layout, which come in this order.  The kind is that of texts unless it is
given. -/
def ofText (text : Text) : Except Fault LayoutMarks := do
  let (fill, alignment, rest) := takeAlignment text
  let (sign, rest) := takeMark ['+', '-', ' '] rest
  let (negativeZero, rest) := takeMark ['z'] rest
  let (alternate, rest) := takeMark ['#'] rest
  let (zero, rest) := takeMark (if fill.isSome then [] else ['0']) rest
  let (width, rest) ← takeNumber rest
  let (separator, rest) ← takeSeparator rest
  let (precision, rest) ← takePrecision rest
  match rest with
  | [] | [_] =>
      .ok ⟨fill, alignment, sign, negativeZero, alternate, zero, width, separator, precision,
        rest.headD 's'⟩
  | _ => .error (.layout (.malformed text))

/-- Whether numbers of a kind may have a separator of groups of digits. -/
def allowsSeparator (mark kind : Char) : Bool :=
  kind ∈ ['d', 'e', 'f', 'g', 'E', 'G', '%', 'F', '\x00']
    || (mark = '_' && kind ∈ ['b', 'o', 'x', 'X'])

/-- What texts do not have, if it is among the marks. -/
def fault? (marks : LayoutMarks) : Option LayoutFault :=
  match marks.separator.filter (! allowsSeparator · marks.kind) with
  | some separator => some (.separator separator marks.kind)
  | none =>
      if marks.kind ≠ 's' then some (.kind marks.kind)
      else if marks.sign = some ' ' then some .space
      else if marks.sign.isSome then some .sign
      else if marks.negativeZero.isSome then some .negativeZero
      else if marks.alternate.isSome then some .alternate
      else if marks.alignment = some '=' then some .signAware
      else none

end LayoutMarks

namespace Layout

/-- The layout that marks stand for.  Texts stand on the left unless told otherwise. -/
def ofMarks (marks : LayoutMarks) : Layout where
  fill := (marks.fill.or marks.zero).getD ' '
  alignment :=
    match marks.alignment with
    | some '>' => .right
    | some '^' => .center
    | _ => .left
  width := marks.width.getD 0
  precision := marks.precision

/-- The layout that a text writes. -/
def ofText (text : Text) : Except Fault Layout :=
  match LayoutMarks.ofText text with
  | .error fault => .error fault
  | .ok marks =>
      match marks.fault? with
      | some fault => .error (.layout fault)
      | none => .ok (ofMarks marks)

/-- The text, cut to the precision if the layout has one. -/
def cut (layout : Layout) (text : Text) : Text :=
  match layout.precision with
  | some precision => text.take precision
  | none => text

/-- How much of the padding stands before the text.  In the middle, an odd place is left behind
it. -/
def lead (layout : Layout) (padding : Nat) : Nat :=
  match layout.alignment with
  | .left => 0
  | .right => padding
  | .center => padding / 2

/-- The widest padding that is made. -/
def widest : Nat := Nat.pow 2 40

/-- The text in the layout. -/
def apply (layout : Layout) (text : Text) : Except Fault Text :=
  let text := layout.cut text
  let padding := layout.width - text.length
  let lead := layout.lead padding
  if widest ≤ padding then .error (.layout .tooWide)
  else
    .ok (List.replicate lead layout.fill ++ text ++ List.replicate (padding - lead) layout.fill)

end Layout

end BracketCalc.Template
