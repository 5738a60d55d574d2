import BracketCalc.Worksheet
import BracketCalc.Text.Digit
import BracketCalc.Text.Quoted
/-!
# The command line

The program takes options and at most one file.  Long options may be shortened
as long as they stay unique, short ones may be written together, and no option
takes a value.  Everything after `--` is a file, as is a lone dash, a negative
number, and what holds a space and is no option.
-/

namespace BracketCalc

/-- What an option asks for. -/
inductive Flag where
  | help
  | mergeNewlines
  | quiet
  deriving DecidableEq, Repr

/-- What the command line asks for. -/
inductive Request where
  | evaluate (file : Text) (settings : Settings)
  | converse (settings : Settings)
  | help
  | refuse (complaint : Text)
  deriving DecidableEq, Repr

namespace Flag

def spellings : List (Text × Flag) :=
  [("-h".toList, help), ("--help".toList, help), ("--merge-newlines".toList, mergeNewlines),
    ("-q".toList, quiet), ("--quiet".toList, quiet)]

/-- The option with a spelling. -/
def ofSpelling? (spelling : Text) : Option Flag := spellings.lookup spelling

/-- The spellings of one option. -/
def title (flag : Flag) : Text :=
  ['/'].intercalate ((spellings.filter fun entry => entry.2 = flag).map Prod.fst)

end Flag

namespace CommandLine

/-- The usage of the program. -/
def usage : Text := "usage: lispcalc [-h] [--merge-newlines] [-q] [file]\n".toList

/-- The usage and the meaning of all options. -/
def helpText : Text :=
  usage ++ ("\npositional arguments:\n"
    ++ "  file              file to evaluate (if empty, goes to command-line mode)\n"
    ++ "\noptions:\n"
    ++ "  -h, --help        show this help message and exit\n"
    ++ "  --merge-newlines  don't end literals at newlines: '1\\n2' is read as '12'\n"
    ++ "  -q, --quiet       only print answers, not parsed trees\n").toList

/-- What the program says when it refuses a command line. -/
def refusal (complaint : Text) : Text :=
  usage ++ "lispcalc: error: ".toList ++ complaint ++ ['\n']

/-- An argument by its form: an option, perhaps with a value or more options written on to it, what
looks like an option, a word, or the end of the options. -/
inductive Argument where
  | option (flag : Flag) (isLong : Bool) (attached : Option Text)
  | unknown (text : Text)
  | word (text : Text)
  | terminator
  deriving DecidableEq, Repr

/-- Whether an argument is a dash before digits, which may hold a point with digits behind it. -/
def isNegativeNumber (text : Text) : Bool :=
  let text := if text.getLast? = some '\n' then text.dropLast else text
  match text with
  | '-' :: rest =>
      match rest.dropWhile Text.isDecimal with
      | [] => ! rest.isEmpty
      | '.' :: fraction => ! fraction.isEmpty && fraction.all Text.isDecimal
      | _ => false
  | _ => false

/-- A text up to its first `=`, and what follows that. -/
def splitValue (text : Text) : Text × Option Text :=
  match text.dropWhile (· ≠ '=') with
  | [] => (text, none)
  | _ :: value => (text.takeWhile (· ≠ '='), some value)

/-- The options that a shortened long option, or a short option with something written on to it, may
stand for. -/
def candidates (text : Text) : List (Text × Flag × Option Text) :=
  if text.take 2 = ['-', '-'] then
    let (stem, value) := splitValue text
    (Flag.spellings.filter fun entry => stem.isPrefixOf entry.1).map fun entry =>
      (entry.1, entry.2, value)
  else
    Flag.spellings.filterMap fun entry =>
      if entry.1 = text.take 2 then some (entry.1, entry.2, some (text.drop 2)) else none

/-- Whether a spelling is that of a long option. -/
def isLong (spelling : Text) : Bool := spelling.take 2 = ['-', '-']

/-- An argument that starts with a dash and is no option as it stands. -/
def classifyDashed (text : Text) : Except Text Argument :=
  match splitValue text with
  | (stem, some value) =>
      match Flag.ofSpelling? stem with
      | some flag => .ok (.option flag (isLong stem) (some value))
      | none => guess
  | (_, none) => guess
where
  guess : Except Text Argument :=
    match candidates text with
    | [(spelling, flag, value)] => .ok (.option flag (isLong spelling) value)
    | [] =>
        if isNegativeNumber text || text.contains ' ' then .ok (.word text) else .ok (.unknown text)
    | several =>
        .error ("ambiguous option: ".toList ++ text ++ " could match ".toList
          ++ [',', ' '].intercalate (several.map Prod.fst))

/-- The form of an argument before the end of the options. -/
def classify (text : Text) : Except Text Argument :=
  match text with
  | '-' :: _ :: _ =>
      match Flag.ofSpelling? text with
      | some flag => .ok (.option flag (isLong text) none)
      | none => classifyDashed text
  | _ => .ok (.word text)

def classifyAll : List Text → Except Text (List Argument)
  | [] => .ok []
  | text :: rest =>
      if text = ['-', '-'] then .ok (.terminator :: rest.map .word)
      else
        match classify text with
        | .error complaint => .error complaint
        | .ok argument => (argument :: ·) <$> classifyAll rest

/-- The options that are written on to a short option, after it.  The complaint is about the last
option that was recognised. -/
def unfold (flag : Flag) : (attached : Text) → Except Text (List Flag)
  | [] => .ok [flag]
  | c :: rest =>
      match Flag.ofSpelling? ['-', c] with
      | some next => (flag :: ·) <$> unfold next rest
      | none => .error (ignored flag (c :: rest))
where
  /-- The complaint about a value that an option does not take. -/
  ignored (flag : Flag) (value : Text) : Text :=
    "argument ".toList ++ flag.title ++ ": ignored explicit argument ".toList ++ value.quoted

/-- The options that an argument asks for. -/
def flags (flag : Flag) (isLong : Bool) (attached : Option Text) : Except Text (List Flag) :=
  match attached with
  | none => .ok [flag]
  | some value =>
      if isLong || value.isEmpty then .error (unfold.ignored flag value) else unfold flag value

/-- What has been found on the command line so far: the options, whether the place of the file is
taken, the file, and the arguments left over. -/
structure Found where
  settings : Settings
  filled : Bool
  file : Option Text
  extras : List Text

namespace Found

/-- The findings with one more option, unless that asks for help. -/
def addFlag (found : Found) : Flag → Option Found
  | .help => none
  | .mergeNewlines => some { found with settings.newlines := .merge }
  | .quiet => some { found with settings.showTree := false }

/-- The findings with an argument left over. -/
def leave (found : Found) (text : Text) : Found := { found with extras := found.extras ++ [text] }

/-- The findings with the place of the file taken. -/
def fill (found : Found) (file : Option Text) : Found :=
  { found with filled := true, file := file }

def request (found : Found) : Request :=
  if ! found.extras.isEmpty then
    .refuse ("unrecognized arguments: ".toList ++ [' '].intercalate found.extras)
  else
    match found.file with
    | some file => .evaluate file found.settings
    | none => .converse found.settings

end Found

/-- Works through the arguments.  The file takes the end of the options next to it. -/
def collect (found : Found) : List Argument → Request
  | [] => found.request
  | .option flag isLong attached :: rest =>
      match flags flag isLong attached with
      | .error complaint => .refuse complaint
      | .ok flags =>
          match flags.foldlM Found.addFlag found with
          | none => .help
          | some found => collect found rest
  | .unknown text :: rest => collect (found.leave text) rest
  | .word text :: .terminator :: rest =>
      if found.filled then collect (found.leave text) (.terminator :: rest)
      else collect (found.fill (some text)) rest
  | .word text :: rest =>
      collect (if found.filled then found.leave text else found.fill (some text)) rest
  | .terminator :: .word text :: rest =>
      if found.filled then collect (found.leave ['-', '-']) (.word text :: rest)
      else collect (found.fill (some text)) rest
  | .terminator :: rest =>
      collect (if found.filled then found.leave ['-', '-'] else found.fill none) rest

/-- What a command line asks for. -/
def request (arguments : List Text) : Request :=
  match classifyAll arguments with
  | .error complaint => .refuse complaint
  | .ok arguments => collect ⟨⟨.separate, true⟩, false, none, []⟩ arguments

end CommandLine

end BracketCalc
