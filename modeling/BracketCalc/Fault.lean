import BracketCalc.Expr.OfTokens
import BracketCalc.Expr.Value
import BracketCalc.Host
/-!
# Faults

A fault is an error as it is told to the user: a message that quotes snippets,
the snippet that is to blame, and the span of that snippet in the source.  The
errors of reading and evaluating each have a topic with a message of its own.
-/

namespace BracketCalc

/-- What a fault is about. -/
inductive Topic where
  | general (template : Template)
  | parsing
  | noTokens
  | loneBracket
  | surplusBracket
  | unclosedBracket
  | evaluating
  | emptyGroup
  | groupAsOperation
  | argumentCount
  | unknownOperation
  | notANumber
  deriving DecidableEq, Repr

namespace Topic

private def words (s : String) : Template.Piece := .words s.toList

private def next : Template.Piece := .field ⟨[], none, []⟩

private def number (digit : Char) : Template.Piece := .field ⟨[digit], none, []⟩

def template : Topic → Template
  | general template => template
  | parsing => [words "parse error"]
  | noTokens => [words "expression is empty"]
  | loneBracket => [words "'", next, words "' cannot stand on its own"]
  | surplusBracket => [words "unexpected '", next, words "' with no open group to close"]
  | unclosedBracket => [words "unexpected end of expression, '", next, words "' is never closed"]
  | evaluating => [words "evaluation error"]
  | emptyGroup => [words "'", next, words "' is an empty group"]
  | groupAsOperation => [words "operation '", next, words "' is a group, expected '+' or '*'"]
  | argumentCount => [words "'", number '1', words "' expects 2 arguments, got ", number '2']
  | unknownOperation => [words "unknown operation '", next, words "', expected '+' or '*'"]
  | notANumber => [words "'", next, words "' is not a number"]

/-- Whether the topic belongs to the reading of expressions. -/
def isParsing : Topic → Bool
  | parsing | noTokens | loneBracket | surplusBracket | unclosedBracket => true
  | _ => false

/-- Whether the topic belongs to the evaluation of expressions. -/
def isEvaluating : Topic → Bool
  | evaluating | emptyGroup | groupAsOperation | argumentCount | unknownOperation | notANumber =>
      true
  | _ => false

end Topic

/-- An error as it is told to the user.  The message is `styled` where it is printed.  A fault that
is `located` is shown in its source, and one that is `internal` is no error of the user. -/
structure Fault where
  topic : Topic
  message : Text
  styled : Text
  subject : Text
  span : Span
  located : Bool
  internal : Bool
  deriving DecidableEq, Repr

namespace Fault

/-- The end of a span that ends with its snippet. -/
def unknownEnd : Int := -1

/-- The fault with the message of its topic, in which the snippets are bold where it is printed.
The first snippet is to blame; without a known end its span has the length of the snippet. -/
def compose (host : Host) (topic : Topic) (snippets : List Text) (span : Span)
    (located internal : Bool) : Except Template.Fault Fault := do
  let message ← topic.template.fill host.attributes snippets
  let styled ← topic.template.fill host.attributes (snippets.map host.bold)
  match snippets with
  | [] => .error .noSnippetAtAll
  | subject :: _ =>
      let stop := if span.stop = unknownEnd then span.start + subject.length else span.stop
      .ok ⟨topic, message, styled, subject, ⟨span.start, stop⟩, located, internal⟩

/-- A fault that quotes no source. -/
def remark (message styled subject : Text) : Fault :=
  ⟨.general [], message, styled, subject, ⟨0, subject.length⟩, false, false⟩

/-- A fault that quotes nothing. -/
def plain (message : String) : Fault := remark message.toList message.toList []

/-- A fault about something that has no place in the library. -/
def unrecognized (host : Host) (what : String) (name : Text) : Except Template.Fault Fault :=
  compose host (.general [.words ("unrecognized ".toList ++ what.toList ++ " '".toList),
    .field ⟨[], none, []⟩, .words ['\'']]) [name] ⟨0, unknownEnd⟩ true true

end Fault

end BracketCalc
