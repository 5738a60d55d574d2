import BracketCalc.Program

/-!
# The executable

Reads the file or the lines that the program works on, and prints what it says.
-/

open BracketCalc

/-- Prints a text at once. -/
def write (stream : IO.FS.Stream) (text : Text) : IO Unit := do
  stream.putStr (String.ofList text)
  stream.flush

/-- The bytes of a file, if it can be read. -/
def readBytes? (path : Text) : IO (Option (List UInt8)) := do
  try
    return some (← IO.FS.readBinFile (String.ofList path)).toList
  catch _ =>
    return none

/-- What a program that stopped tells its caller. -/
def exitCode : Stop → UInt32
  | .exit .none => 0
  | .exit (.code code) => UInt32.ofNat (code % 256).toNat
  | _ => 1

/-- Takes lines from the input while the console goes on. -/
partial def converse (host : Host) (input output : IO.FS.Stream) (reporter : Reporter)
    (console : Console) : IO UInt32 := do
  write output console.prompt
  let line ← input.getLine
  let command :=
    if line.isEmpty then Command.endOfInput
    else Command.ofLine (Text.unifyNewlines line.toList)
  let step := Console.obey host command reporter console
  write output step.printed
  match step.ended with
  | .error reason => do
      let outer : Step Unit Unit := Action.settle host reason step.reporter ()
      write output outer.printed
      return 1
  | .ok true => return 0
  | .ok false => converse host input output step.reporter step.state

def main (arguments : List String) : IO UInt32 := do
  let output ← IO.getStdout
  let host := if ← output.isTty then Host.ansi else Host.plain
  let arguments := arguments.map String.toList
  match CommandLine.request arguments with
  | .converse settings =>
      let opened : Step Unit Worksheet :=
        Worksheet.start host (fun _ => none) Worksheet.consolePath true settings
          (Reporter.fresh true) ()
      match opened.ended with
      | .error reason => return exitCode reason
      | .ok sheet => do
          write output Console.intro
          converse host (← IO.getStdin) output opened.reporter (Console.fresh sheet)
  | request =>
      let bytes ←
        match request with
        | .evaluate path _ => readBytes? path
        | _ => pure none
      let outcome := Program.run host (fun _ => bytes) arguments []
      write output outcome.out
      write (← IO.getStderr) outcome.err
      match outcome.ended with
      | .ok () => return 0
      | .error reason => return exitCode reason
