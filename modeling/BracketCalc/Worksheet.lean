import BracketCalc.Expr.Layout
import BracketCalc.Numeral.Write
import BracketCalc.Report.Action
import BracketCalc.Source
/-!
# Worksheets

A worksheet takes expressions from one file, or from the console, and keeps them
by the number of their line until it is run.  A run displays and evaluates the
pending expressions in order.  One that has no value stops the run and is gone,
those behind it stay pending.
-/

namespace BracketCalc

/-- How expressions are read and shown. -/
structure Settings where
  newlines : Newlines
  showTree : Bool
  deriving DecidableEq, Repr

/-- An expression to evaluate, and the number of its line. -/
structure Pending where
  number : Int
  source : Text
  tree : Tree

structure Result where
  source : Text
  tree : Tree
  value : Float

/-- The work on one file. -/
structure Worksheet where
  path : Text
  settings : Settings
  pending : List Pending
  results : List Result

/-- Expressions by their line numbers: one that comes again under a number takes the place of the
one before. -/
def Pending.insert (new : Pending) : List Pending → List Pending
  | [] => [new]
  | old :: rest => if old.number = new.number then new :: rest else old :: insert new rest

namespace Worksheet

/-- The name that stands for the console. -/
def consolePath : Text := "<in>".toList

def idle (path : Text) (settings : Settings) : Worksheet := ⟨path, settings, [], []⟩

/-- The shown form of a value. -/
def answer (palette : Palette) (x : Float) : Text :=
  palette.blue "=>".toList ++ ' ' :: Numeral.write x

/-- Reads an expression and keeps it until the next run. -/
def add (host : Host) (source : Text) (number : Int) : Action Worksheet Unit := do
  let sheet ← Action.get
  Action.enterPassage sheet.path ⟨source, number⟩
  match Tree.parse sheet.settings.newlines source with
  | .error error => Action.stop (error.stop host)
  | .ok tree =>
      Action.modify fun s => { s with pending := Pending.insert ⟨number, source, tree⟩ s.pending }
      Action.leavePassage sheet.path

/-- Prints a tree, with an empty line behind it. -/
def printTree {σ : Type} (palette : Palette) (tree : Tree) : Action σ Unit :=
  match tree.renderWithin palette.yellow Tree.callLimit 0 with
  | none => Action.stop .tooDeep
  | some text => Action.print (text ++ ['\n'])

/-- Displays and evaluates one pending expression, which is no longer pending whatever comes of
it. -/
def runOne (host : Host) (next : Pending) : Action Worksheet Unit := do
  let sheet ← Action.get
  Action.enterPassage sheet.path ⟨next.source, next.number⟩
  Action.modify fun s => { s with pending := s.pending.filter (·.number ≠ next.number) }
  if sheet.settings.showTree then
    printTree host next.tree
  match next.tree.evaluateWithin host Tree.callLimit with
  | .error reason => Action.stop reason
  | .ok value =>
      Action.modify fun s => { s with results := s.results ++ [⟨next.source, next.tree, value⟩] }
      Action.leavePassage sheet.path

def runEach (host : Host) : List Pending → Action Worksheet Unit
  | [] => pure ()
  | next :: rest => do
      runOne host next
      runEach host rest

def run (host : Host) : Action Worksheet Unit := do
  let sheet ← Action.get
  runEach host sheet.pending

/-- Takes the earliest result. -/
def takeResult : Action Worksheet Result := do
  let sheet ← Action.get
  match sheet.results with
  | [] => Action.stop (.failure .noResult)
  | result :: rest =>
      Action.modify fun s => { s with results := rest }
      pure result

/-- The text of a file, with its line ends unified. -/
def readFile {σ : Type} (host : Host) (files : Text → Option (List UInt8)) (path : Text) :
    Action σ Text :=
  if path.contains '\x00' then Action.stop (.failure .nulInPath)
  else
    match files path with
    | none =>
        let message (path : Text) := '\'' :: path ++ "' could not be opened".toList
        Action.stop (.fault (Fault.remark (message path) (message (host.bold path)) path))
    | some bytes =>
        match Utf8.decode bytes with
        | .error fault => Action.stop (.failure (.undecodable fault))
        | .ok text => pure text.unifyNewlines

/-- Opens a worksheet.  A file is one expression, which is read at once.  Interactive work survives
faults, and the console is for interactive work only. -/
def start {σ : Type} (host : Host) (files : Text → Option (List UInt8)) (path : Text)
    (interactive : Bool) (settings : Settings) : Action σ Worksheet := do
  Action.enterFile path
  if interactive then
    Action.modifyReporter fun r => { r with fatal := false }
  if path = consolePath then
    if interactive then pure (idle path settings)
    else Action.stop (.fault (Fault.plain "'<in>' is a reserved filename"))
  else
    let text ← readFile host files path
    let ((), sheet) ← Action.onOwn (idle path settings) (add host (Source.clean text) 1)
    pure sheet

end Worksheet

end BracketCalc
