import BracketCalc.Fault
import BracketCalc.Text.Utf8
/-!
# Reasons to stop

Work stops with a fault, at the limit on nesting, when the user interrupts it,
when the program is left, or with a failure from outside the calculator.  Such
a failure has a name and a message, by which it is reported.
-/

namespace BracketCalc

/-- What a program that is left tells its caller. -/
inductive ExitStatus where
  | none
  | code (code : Int)
  | note (text : Text)
  deriving DecidableEq, Repr

/-- A failure from outside the calculator. -/
inductive Failure where
  | unreadableNumeral (text : Text)
  | nulInPath
  | undecodable (fault : Utf8.Fault)
  | noResult
  | noToken
  | unopened
  | template (fault : Template.Fault)
  | named (name message : Text)
  deriving DecidableEq, Repr

namespace Failure

/-- The name of the kind of failure when a template cannot be filled. -/
def templateName : Template.Fault → Text
  | .noSnippet _ | .noSnippetAtAll | .noCharacter => "IndexError".toList
  | .unknownName _ => "KeyError".toList
  | .ofAttribute kind _ => kind
  | .namedCharacter => "TypeError".toList
  | .layout .tooWide => "MemoryError".toList
  | _ => "ValueError".toList

/-- The name of the kind of failure. -/
def name : Failure → Text
  | unreadableNumeral _ | nulInPath => "ValueError".toList
  | undecodable _ => "UnicodeDecodeError".toList
  | noResult | noToken => "IndexError".toList
  | unopened => "AttributeError".toList
  | template fault => templateName fault
  | named name _ => name

def message : Failure → Text
  | unreadableNumeral text => "could not convert string to float: ".toList ++ text.quoted
  | nulInPath => "embedded null byte".toList
  | undecodable fault => fault.message
  | noResult => "pop from empty list".toList
  | noToken => "list index out of range".toList
  | unopened => "'NoneType' object has no attribute 'start'".toList
  | template fault => fault.message
  | named _ message => message

end Failure

/-- Why work stops. -/
inductive Stop where
  | fault (fault : Fault)
  | tooDeep
  | interrupt
  | exit (status : ExitStatus)
  | failure (failure : Failure)
  deriving DecidableEq, Repr

namespace Stop

/-- Stops with a fault, or because its message cannot be composed. -/
def ofFault : Except Template.Fault Fault → Stop
  | .ok composed => .fault composed
  | .error broken => .failure (.template broken)

end Stop

/-- Tokens that form no tree stop the work with a fault at the token to blame. -/
def ParseError.stop (host : Host) : ParseError → Stop
  | noTokens => .ofFault (Fault.compose host .noTokens [[]] ⟨0, Fault.unknownEnd⟩ false false)
  | loneToken token => blame .loneBracket token
  | surplusRight token => blame .surplusBracket token
  | unclosed opening => blame .unclosedBracket opening
  | unknownToken token => .ofFault (Fault.unrecognized host "token" token.kind.name)
  | noToken => .failure .noToken
  | unopened => .failure .unopened
  | tooDeep => .tooDeep
where
  blame (topic : Topic) (token : Token) : Stop :=
    .ofFault
      (Fault.compose host topic [token.text] ⟨token.span.start, Fault.unknownEnd⟩ true false)

/-- An expression without a value stops the work with a fault at the snippet to blame. -/
def EvalError.stop {α : Type} [Labelled α] (host : Host) : EvalError α → Stop
  | notANumber text span => blame .notANumber [text] span
  | emptyGroup group span => blame .emptyGroup [group] span
  | groupAsOperation operation span => blame .groupAsOperation [operation] span
  | unknownOperation operation span => blame .unknownOperation [operation] span
  | argumentCount group operation count span =>
      blame .argumentCount [group, operation, Text.ofNat count] span
  | unreadable text => .failure (.unreadableNumeral text)
  | foreign value => .ofFault (Fault.unrecognized host "node" (Labelled.label value))
where
  blame (topic : Topic) (snippets : List Text) (span : Span) : Stop :=
    .ofFault (Fault.compose host topic snippets span true false)

/-- The value of an expression, unless something stops the work on it: what the expression is, or
the limit on calls in progress. -/
def Expr.evaluateWithin {α : Type} [Labelled α] (host : Host) (calls : Nat) (e : Expr α) :
    Except Stop Float :=
  match e.valueWithin calls with
  | none => .error .tooDeep
  | some (.error error) => .error (error.stop host)
  | some (.ok x) => .ok x

end BracketCalc
