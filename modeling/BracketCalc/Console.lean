import BracketCalc.Report.Guard
import BracketCalc.Worksheet
/-!
# The console

The console takes lines.  A line is a command, or it belongs to an expression,
which goes on in the next line while brackets are open.  A finished expression
is evaluated, and its answer is printed.
-/

namespace BracketCalc

/-- What a line asks for. -/
inductive Command where
  | blank
  | help
  | exit
  | endOfInput
  | expression (line : Text)
  deriving DecidableEq, Repr

namespace Command

/-- The letters, digits and the underscore of ASCII, of which the names of commands are made. -/
def isNameChar (c : Char) : Bool := c.isAlphanum || c = '_'

/-- What a line asks for.  A command is known by the name that the line starts with, `?` is a name
of its own for help. -/
def ofLine (line : Text) : Command :=
  let line := line.strip
  let name := line.takeWhile isNameChar
  if line.isEmpty then blank
  else if line.head? = some '?' || name = "help".toList then help
  else if name = "exit".toList then exit
  else if name = "EOF".toList then endOfInput
  else expression line

end Command

/-- Interactive work on a worksheet: what asks for the next line, the text of an unfinished
expression, the number of its first line, and the number of lines of expressions so far. -/
structure Console where
  sheet : Worksheet
  prompt : Text
  held : Text
  firstLine : Nat
  lineCount : Nat

namespace Console

/-- What is printed when the console starts. -/
def intro : Text :=
  "lispcalc :: Python backend\nType '?' or 'help' for more information.\n".toList

/-- What is printed on demand. -/
def helpText : Text :=
  ("Welcome to lispcalc!\n\n"
    ++ "Expressions are written in prefix notation: the first item in a group of \n"
    ++ "parentheses is the operation, the rest are its arguments. Only '+' and '*' are \n"
    ++ "supported, and both take exactly two arguments. Groups can be nested.\n\n"
    ++ "Try it out by typing '(* 2 (+ 3 4))'. The parsed tree will be displayed, and \n"
    ++ "then its value: 14. Outer parentheses are optional: '+ 1 2' gives 3. Lines \n"
    ++ "with unclosed parentheses are continued on the next line.\n").toList

/-- What asks for an expression. -/
def firstPrompt : Text := "> ".toList

/-- What asks for the rest of an expression. -/
def secondPrompt : Text := ". ".toList

def fresh (sheet : Worksheet) : Console := ⟨sheet, firstPrompt, [], 0, 0⟩

def onWorksheet {α : Type} (act : Action Worksheet α) : Action Console α :=
  Action.onPart Console.sheet (fun s sheet => { s with sheet := sheet }) act

def printAnswers (palette : Palette) : Action Worksheet Unit := do
  let sheet ← Action.get
  Action.print (sheet.results.flatMap fun r => Worksheet.answer palette r.value ++ ['\n'])
  Action.modify fun s => { s with results := [] }

/-- Evaluates a finished expression that starts at the given line. -/
def evaluate (host : Host) (source : Text) (number : Nat) : Action Worksheet Unit := do
  Worksheet.add host source number
  Worksheet.run host
  printAnswers host

def takeLine (host : Host) (line : Text) : Action Console Unit := do
  Action.modify fun s =>
    { s with
      firstLine := if s.held.isEmpty then s.lineCount + 1 else s.firstLine
      lineCount := s.lineCount + 1 }
  let console ← Action.get
  let text := Source.resume console.held line
  if Source.isOpen text then
    Action.modify fun s => { s with held := text, prompt := secondPrompt }
  else
    Action.modify fun s => { s with held := [], prompt := firstPrompt }
    if ! text.strip.isEmpty then
      onWorksheet (evaluate host text console.firstLine)

/-- Takes a line of an expression and reports what stops it. -/
def takeLineGuarded (host : Host) (line : Text) : Action Console Unit := do
  let _ ← Action.guarded host (takeLine host line)
  pure ()

/-- Does what a line asks for, and returns whether the console is left.  A blank line belongs to an
expression that goes on, and is ignored otherwise. -/
def obey (host : Host) : Command → Action Console Bool
  | .blank => do
      let console ← Action.get
      if ! console.held.isEmpty then takeLineGuarded host []
      pure false
  | .help => do
      Action.print helpText
      pure false
  | .exit => pure true
  | .endOfInput => do
      Action.print ['\n']
      pure true
  | .expression line => do
      takeLineGuarded host line
      pure false

/-- Takes lines until the console is left, at the latest when they end. -/
def loop (host : Host) : List Text → Action Console Unit
  | [] => do
      Action.print (← Action.get).prompt
      let _ ← obey host .endOfInput
      pure ()
  | line :: rest => do
      Action.print (← Action.get).prompt
      if ! (← obey host (Command.ofLine line)) then loop host rest

/-- Greets, and takes lines. -/
def converse (host : Host) (lines : List Text) : Action Console Unit := do
  Action.print intro
  loop host lines

end Console

end BracketCalc
