import BracketCalc.Text.Basic
/-!
# Files in work

While a file is worked on, a trace holds the passage of it that is in work.
Files keep the order in which they were first met.
-/

namespace BracketCalc

/-- A source and the number of its first line. -/
structure Passage where
  source : Text
  number : Int
  deriving DecidableEq, Repr

/-- The files met so far, each with the passage that is in work. -/
abbrev Trace := List (Text × Option Passage)

namespace Trace

/-- Sets the passage of a file, which comes last if it is new. -/
def set (trace : Trace) (path : Text) (passage : Option Passage) : Trace :=
  match trace with
  | [] => [(path, passage)]
  | entry :: rest =>
      if entry.1 = path then (path, passage) :: rest else entry :: set rest path passage

def clear (trace : Trace) : Trace := trace.map fun entry => (entry.1, none)

def paths (trace : Trace) : List Text := trace.map Prod.fst

/-- The passages in work and their files.  An empty source is no passage. -/
def passages (trace : Trace) : List (Text × Passage) :=
  trace.filterMap fun
    | (path, some passage) => if passage.source.isEmpty then none else some (path, passage)
    | (_, none) => none

@[simp] theorem paths_clear (trace : Trace) : trace.clear.paths = trace.paths := by
  simp [paths, clear]

theorem paths_set (trace : Trace) (path : Text) (passage : Option Passage) :
    (trace.set path passage).paths
      = if path ∈ trace.paths then trace.paths else trace.paths ++ [path] := by
  induction trace with
  | nil => rfl
  | cons entry rest ih =>
      rw [set]
      split
      next h => simp [paths, h]
      next h =>
        have : path ≠ entry.1 := fun e => h e.symm
        simp only [paths, List.map_cons, List.mem_cons, this, false_or] at ih ⊢
        rw [ih]
        by_cases met : path ∈ rest.map Prod.fst <;> simp [met]

end Trace

end BracketCalc
