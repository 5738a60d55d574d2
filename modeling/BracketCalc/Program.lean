import BracketCalc.CommandLine
import BracketCalc.Console
/-!
# The program

The program evaluates the expression in a file and prints its answer, or works
interactively on the lines it is given.
-/

namespace BracketCalc.Program

/-- What a run of the program leaves: the texts it printed on its two outputs, and how it ended. -/
structure Outcome where
  out : Text
  err : Text
  ended : Except Stop Unit

def evaluateFile (host : Host) (files : Text → Option (List UInt8)) (path : Text)
    (settings : Settings) : Action Unit Unit := do
  let sheet ← Worksheet.start host files path false settings
  let ((), sheet) ← Action.onOwn sheet (Worksheet.run host)
  Action.print (sheet.results.flatMap fun r => Worksheet.answer host r.value ++ ['\n'])

def converse (host : Host) (files : Text → Option (List UInt8)) (lines : List Text)
    (settings : Settings) : Action Unit Unit := do
  let sheet ← Worksheet.start host files Worksheet.consolePath true settings
  let _ ← Action.onOwn (Console.fresh sheet) (Console.converse host lines)

/-- The action with its own reporter, which ends the program at a fault until the action asks for
another. -/
def runGuarded (host : Host) (act : Action Unit Unit) : Outcome :=
  let step := Action.guarded host act (Reporter.fresh true) ()
  ⟨step.printed, [], step.ended.map fun _ => ()⟩

/-- Runs the program on its arguments, the files it can read, and its input. -/
def run (host : Host) (files : Text → Option (List UInt8)) (arguments : List Text)
    (input : Text) : Outcome :=
  match CommandLine.request arguments with
  | .help => ⟨CommandLine.helpText, [], .error (.exit (.code 0))⟩
  | .refuse complaint => ⟨[], CommandLine.refusal complaint, .error (.exit (.code 2))⟩
  | .evaluate path settings => runGuarded host (evaluateFile host files path settings)
  | .converse settings =>
      runGuarded host
        (converse host files (Text.streamLines input.unifyNewlines) settings)

end BracketCalc.Program
