import BracketCalc.Expr.Basic
import BracketCalc.Numeral.Read
/-!
# Values of expressions

A literal is a numeral.  A group applies the operation that its first item
names to its two arguments, whose values are found first, in order.  The
operations are the sum and the product of doubles.
-/

namespace BracketCalc

inductive Operation where
  | add
  | mul
  deriving DecidableEq, Repr

namespace Operation

def ofName? (name : Text) : Option Operation :=
  if name = ['+'] then some add else if name = ['*'] then some mul else none

def apply : Operation → Float → Float → Float
  | add, x, y => x + y
  | mul, x, y => x * y

end Operation

/-- Why an expression has no value.  Each error has the snippet it is about and the span of that
snippet. -/
inductive EvalError (α : Type) where
  | notANumber (text : Text) (span : Span)
  | emptyGroup (group : Text) (span : Span)
  | groupAsOperation (operation : Text) (span : Span)
  | unknownOperation (operation : Text) (span : Span)
  | argumentCount (group operation : Text) (count : Nat) (span : Span)
  | unreadable (text : Text)
  | foreign (value : α)
  deriving DecidableEq

namespace Expr

variable {α : Type} [Labelled α]

/-- The value of an expression, or the first error met. -/
def value : Expr α → Except (EvalError α) Float
  | literal text span =>
      match Numeral.read text with
      | .value x => .ok x
      | .unreadable => .error (.unreadable text)
      | .notANumeral => .error (.notANumber text span)
  | group [] span depth => .error (.emptyGroup (text (group ([] : List (Expr α)) span depth)) span)
  | group [literal op opSpan, a, b] _ _ =>
      match Operation.ofName? op with
      | none => .error (.unknownOperation op opSpan)
      | some operation =>
          match value a with
          | .error e => .error e
          | .ok x =>
              match value b with
              | .error e => .error e
              | .ok y => .ok (operation.apply x y)
  | group (literal op opSpan :: arguments) span depth =>
      match Operation.ofName? op with
      | none => .error (.unknownOperation op opSpan)
      | some _ =>
          .error (.argumentCount (text (group (literal op opSpan :: arguments) span depth)) op
            arguments.length span)
  | group (group items opSpan depth :: _) _ _ =>
      .error (.groupAsOperation (text (group items opSpan depth)) opSpan)
  | group (foreign value :: _) _ _ => .error (.foreign value)
  | foreign value => .error (.foreign value)

/-- The value of an expression, or the first error met, found with no more than so many calls in
progress.  An application takes two of them while its arguments are evaluated, and a snippet as many
as its text takes. -/
def valueWithin : (calls : Nat) → Expr α → Option (Except (EvalError α) Float)
  | calls, group [] span depth =>
      (textWithin calls (group ([] : List (Expr α)) span depth)).map fun snippet =>
        .error (.emptyGroup snippet span)
  | calls, group [literal op opSpan, a, b] _ _ =>
      match Operation.ofName? op with
      | none => some (.error (.unknownOperation op opSpan))
      | some operation =>
          if calls < 2 then none
          else
            match valueWithin (calls - 2) a with
            | none => none
            | some (.error e) => some (.error e)
            | some (.ok x) =>
                match valueWithin (calls - 2) b with
                | none => none
                | some (.error e) => some (.error e)
                | some (.ok y) => some (.ok (operation.apply x y))
  | calls, group (literal op opSpan :: arguments) span depth =>
      match Operation.ofName? op with
      | none => some (.error (.unknownOperation op opSpan))
      | some _ =>
          (textWithin calls (group (literal op opSpan :: arguments) span depth)).map fun snippet =>
            .error (.argumentCount snippet op arguments.length span)
  | calls, group (group items opSpan depth :: _) _ _ =>
      (textWithin calls (group items opSpan depth)).map fun snippet =>
        .error (.groupAsOperation snippet opSpan)
  | _, e => some (value e)

end Expr

end BracketCalc
