import BracketCalc.Report.Diagnosis
import BracketCalc.Report.Trace
import BracketCalc.Stop
/-!
# Reports of faults

A report names each file in work with the line in which the fault starts, tells
the message, and shows the fault in the source of the last of these files.
-/

namespace BracketCalc

/-- Who reports faults: whether a fault ends the program, and the files in work. -/
structure Reporter where
  fatal : Bool
  trace : Trace
  deriving DecidableEq, Repr

namespace Reporter

def fresh (fatal : Bool) : Reporter := ⟨fatal, []⟩

/-- The file and the line in which an offset lies. -/
def heading (path : Text) (passage : Passage) (offset : Nat) : Text :=
  let place := Place.ofOffset passage.source offset
  "  File '".toList ++ path ++ "', line ".toList ++ Text.ofInt (passage.number + place.lineIndex)
    ++ ":\n    ".toList ++ place.line ++ ['\n']

def report (palette : Palette) (trace : Trace) (fault : Fault) : Text :=
  let passages := trace.passages
  let title := if 1 < passages.length then "Traceback:\n".toList else []
  let offset := fault.span.start.toNat
  let headings := passages.flatMap fun (path, passage) => heading path passage offset
  let mark := if fault.internal then palette.alarm "[internal] ".toList else []
  let shown :=
    match passages.getLast? with
    | some (_, passage) =>
        if fault.located && ! fault.internal then
          Diagnosis.render palette passage.source fault.span ++ ['\n']
        else []
    | none => []
  title ++ headings ++ mark ++ palette.alarm "error: ".toList ++ fault.styled
    ++ '\n' :: shown

end Reporter

end BracketCalc
