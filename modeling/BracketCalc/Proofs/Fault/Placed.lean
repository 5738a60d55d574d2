import BracketCalc.Proofs.Expr.Placed
import BracketCalc.Proofs.Fault.Within
/-!
# Errors at other places

Evaluation finds the same value or the same error at other places, within the
same limits, and an error is told by the same message wherever it is.  So the
tokens of a text, up to places, decide what comes of it up to the place of the
fault.
-/

namespace BracketCalc

/-- The error with the number of its place. -/
def EvalError.placed (f : Int → Int) : EvalError Empty → EvalError Empty
  | notANumber text span => notANumber text (span.placed f)
  | emptyGroup group span => emptyGroup group (span.placed f)
  | groupAsOperation operation span => groupAsOperation operation (span.placed f)
  | unknownOperation operation span => unknownOperation operation (span.placed f)
  | argumentCount group operation count span =>
      argumentCount group operation count (span.placed f)
  | unreadable text => unreadable text

/-- The fault with the number of its place. -/
def Fault.placed (f : Int → Int) (fault : Fault) : Fault :=
  { fault with span := fault.span.placed f }

/-- The reason to stop with the number of the place of its fault. -/
def Stop.placed (f : Int → Int) : Stop → Stop
  | .fault told => .fault (told.placed f)
  | .tooDeep => .tooDeep
  | .interrupt => .interrupt
  | .exit status => .exit status
  | .failure cause => .failure cause

variable {f g : Int → Int} {host : Host}

theorem EvalError.placed_eq_relabel (e : EvalError Empty) :
    e.placed f = e.relabel (Span.placed f) := by
  cases e with
  | foreign value => exact nomatch value
  | _ => rfl

namespace Expr

/-- An expression has the same value at other places, or the same error. -/
theorem value_placed (e : Tree) :
    (e.placed f).value = e.value.mapError (EvalError.placed f) := by
  rw [placed_eq_relabel, value_relabel]
  cases e.value with
  | error e => exact congrArg Except.error (EvalError.placed_eq_relabel e).symm
  | ok x => rfl

end Expr

/-! ### Faults -/

/-- The message of a fault does not depend on its place. -/
theorem Stop.ofFault_placed {topic : Topic} {snippets : List Text} {span span' : Span}
    {located internal : Bool} (h : f span.start = g span'.start) :
    (ofFault (Fault.compose host topic snippets span located internal)).placed f =
      (ofFault (Fault.compose host topic snippets span' located internal)).placed g := by
  unfold Fault.compose
  cases topic.template.fill host.attributes snippets with
  | error broken => rfl
  | ok message =>
      cases topic.template.fill host.attributes (snippets.map host.bold) with
      | error broken => rfl
      | ok styled =>
          cases snippets with
          | nil => rfl
          | cons subject others =>
              have hspan : ∀ stop stop' : Int,
                  Span.placed f ⟨span.start, stop⟩ = Span.placed g ⟨span'.start, stop'⟩ :=
                fun _ _ => congrArg (Span.mk · 0) h
              exact congrArg (fun span => Stop.fault
                ⟨topic, message, styled, subject, span, located, internal⟩) (hspan _ _)

theorem Stop.noTokens_placed (hf : f 0 = 0) (host : Host) :
    (ParseError.noTokens.stop host).placed f = (ParseError.noTokens.stop host).placed id := by
  unfold ParseError.stop
  exact ofFault_placed hf

theorem Stop.unrecognized_placed (hf : f 0 = 0) (host : Host) (what : String) (name : Text) :
    (ofFault (Fault.unrecognized host what name)).placed f =
      (ofFault (Fault.unrecognized host what name)).placed id := by
  unfold Fault.unrecognized
  exact ofFault_placed hf

theorem ParseError.blame_placed (topic : Topic) (t : Token) :
    (stop.blame host topic t).placed f = (stop.blame host topic (t.placed f)).placed id := by
  unfold stop.blame
  exact Stop.ofFault_placed rfl

/-- An error of reading is told by the same message at other places. -/
theorem ParseError.stop_placed (hf : f 0 = 0) (e : ParseError) :
    (e.stop host).placed f = ((e.placed f).stop host).placed id := by
  cases e with
  | noTokens => exact Stop.noTokens_placed hf host
  | loneToken t => exact blame_placed .loneBracket t
  | surplusRight t => exact blame_placed .surplusBracket t
  | unclosed t => exact blame_placed .unclosedBracket t
  | unknownToken t => exact Stop.unrecognized_placed hf host "token" t.kind.name
  | noToken => rfl
  | unopened => rfl
  | tooDeep => rfl

theorem EvalError.blame_placed (topic : Topic) (snippets : List Text) (span : Span) :
    (stop.blame host topic snippets span).placed f =
      (stop.blame host topic snippets (span.placed f)).placed id := by
  unfold stop.blame
  exact Stop.ofFault_placed rfl

/-- An error of evaluating is told by the same message at other places. -/
theorem EvalError.stop_placed (e : EvalError Empty) :
    (e.stop host).placed f = ((e.placed f).stop host).placed id := by
  cases e with
  | notANumber text span => exact blame_placed .notANumber [text] span
  | emptyGroup group span => exact blame_placed .emptyGroup [group] span
  | groupAsOperation operation span => exact blame_placed .groupAsOperation [operation] span
  | unknownOperation operation span => exact blame_placed .unknownOperation [operation] span
  | argumentCount group operation count span =>
      exact blame_placed .argumentCount [group, operation, Text.ofNat count] span
  | unreadable text => rfl
  | foreign value => exact nomatch value

namespace Expr

/-- Expressions with the same value, or the same error at another place, come to the same. -/
theorem mapError_evaluateWithin {calls : Nat} {e e' : Tree}
    (h : e'.valueWithin calls =
      (e.valueWithin calls).map (Except.mapError (EvalError.placed f))) :
    (e.evaluateWithin host calls).mapError (Stop.placed f) =
      (e'.evaluateWithin host calls).mapError (Stop.placed id) := by
  unfold evaluateWithin
  rw [h]
  cases e.valueWithin calls with
  | none => rfl
  | some evaluated =>
      cases evaluated with
      | error e => exact congrArg Except.error (EvalError.stop_placed e)
      | ok x => rfl

theorem valueWithin_placed (calls : Nat) (e : Tree) :
    (e.placed f).valueWithin calls =
      (e.valueWithin calls).map (Except.mapError (EvalError.placed f)) := by
  have hplaced : EvalError.placed f = EvalError.relabel (Span.placed f) :=
    funext EvalError.placed_eq_relabel
  rw [placed_eq_relabel, valueWithin_relabel, hplaced]

end Expr

/-! ### Texts -/

/-- What comes of what a text is read as, when trees come to what is given. -/
def Tree.outcome (host : Host) (evaluated : Tree → Except Stop Float) :
    Except ParseError Tree → Except Stop Float
  | .error e => .error (e.stop host)
  | .ok t => evaluated t

variable {newlines newlines' : Newlines} {a b : Text} {evaluated : Tree → Except Stop Float}

theorem Tree.mapError_outcome (hf : f 0 = 0) (host : Host)
    (h : ∀ t : Tree, (evaluated t).mapError (Stop.placed f) =
      (evaluated (t.placed f)).mapError (Stop.placed id)) (result : Except ParseError Tree) :
    (outcome host evaluated result).mapError (Stop.placed f) =
      (outcome host evaluated (placedResult f result)).mapError (Stop.placed id) := by
  cases result with
  | error e => exact congrArg Except.error (ParseError.stop_placed hf e)
  | ok t => exact h t

theorem Tree.outcome_placed (host : Host) (hf : f 0 = 0) (hg : g 0 = 0)
    (hvalue : ∀ (f : Int → Int) (t : Tree), (evaluated t).mapError (Stop.placed f) =
      (evaluated (t.placed f)).mapError (Stop.placed id))
    (h : (Token.lex newlines a).map (Token.placed f) =
      (Token.lex newlines' b).map (Token.placed g)) :
    (outcome host evaluated (parse newlines a)).mapError (Stop.placed f) =
      (outcome host evaluated (parse newlines' b)).mapError (Stop.placed g) := by
  rw [mapError_outcome hf host (hvalue f), mapError_outcome hg host (hvalue g), parse_placed h]

/-- Texts with the same tokens, up to places, have the same value, or what stops their evaluation is
the same, up to its place. -/
theorem evaluate_placed (host : Host) (hf : f 0 = 0) (hg : g 0 = 0)
    (h : (Token.lex newlines a).map (Token.placed f) =
      (Token.lex newlines' b).map (Token.placed g)) :
    (evaluate host newlines a).mapError (Stop.placed f) =
      (evaluate host newlines' b).mapError (Stop.placed g) := by
  refine Tree.outcome_placed host hf hg (fun f t => ?_) h
  rw [Expr.value_placed]
  cases t.value with
  | error e => exact congrArg Except.error (EvalError.stop_placed e)
  | ok x => rfl

theorem evaluateWithin_placed (host : Host) (calls : Nat) (hf : f 0 = 0) (hg : g 0 = 0)
    (h : (Token.lex newlines a).map (Token.placed f) =
      (Token.lex newlines' b).map (Token.placed g)) :
    (evaluateWithin host calls newlines a).mapError (Stop.placed f) =
      (evaluateWithin host calls newlines' b).mapError (Stop.placed g) :=
  Tree.outcome_placed host hf hg
    (fun _ t => Expr.mapError_evaluateWithin (Expr.valueWithin_placed calls t)) h

end BracketCalc
