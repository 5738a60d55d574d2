import BracketCalc.Proofs.Expr.Values
import BracketCalc.Proofs.Fault.Outcome
/-!
# What comes of a text within a limit

With a limit on the calls in progress, a text that is read comes to the value or
the fault that it comes to without the limit, or the limit stops the work.  The
snippet of a fault is written within the limit, too.
-/

namespace BracketCalc

/-- The value of a text, or the reason to stop, with no more than so many calls in progress while
the value is found. -/
def evaluateWithin (host : Host) (calls : Nat) (newlines : Newlines) (text : Text) :
    Except Stop Float :=
  match Tree.parse newlines text with
  | .error e => .error (e.stop host)
  | .ok tree => tree.evaluateWithin host calls

variable {host : Host} {calls : Nat} {newlines : Newlines} {text : Text} {tree : Tree}
  {fault : Fault} {e : ParseError} {x : Float} {reason : Stop}

/-! ### Trees -/

namespace Expr

theorem evaluateWithin_eq_ok (h : tree.evaluateWithin host calls = .ok x) : tree.value = .ok x := by
  unfold evaluateWithin at h
  split at h
  · cases h
  · cases h
  · next hvalue =>
      cases h
      exact value_of_valueWithin hvalue

theorem evaluateWithin_eq_error (h : tree.evaluateWithin host calls = .error reason) :
    reason = .tooDeep ∨
      ∃ f, tree.valueWithin calls = some (.error f) ∧ tree.value = .error f ∧
        f.stop host = reason := by
  unfold evaluateWithin at h
  split at h
  · exact .inl (Except.error.inj h).symm
  · next f hvalue => exact .inr ⟨f, hvalue, value_of_valueWithin hvalue, Except.error.inj h⟩
  · cases h

theorem evaluateWithin_of_height_le (h : 3 * tree.height ≤ calls) (host : Host) :
    tree.evaluateWithin host calls = tree.value.mapError (EvalError.stop host) := by
  rw [evaluateWithin, valueWithin_of_height_le h]
  cases tree.value <;> rfl

end Expr

/-! ### Texts -/

theorem evaluateWithin_of_parse_eq_error (h : Tree.parse newlines text = .error e) :
    evaluateWithin host calls newlines text = .error (e.stop host) := by
  rw [evaluateWithin, h]

theorem evaluateWithin_of_parse_eq_ok (h : Tree.parse newlines text = .ok tree) :
    evaluateWithin host calls newlines text = tree.evaluateWithin host calls := by
  rw [evaluateWithin, h]

theorem exists_tree_of_evaluateWithin (h : evaluateWithin host calls newlines text = .ok x) :
    ∃ tree, Tree.parse newlines text = .ok tree ∧ tree.evaluateWithin host calls = .ok x := by
  cases hparse : Tree.parse newlines text with
  | error e =>
      rw [evaluateWithin_of_parse_eq_error hparse] at h
      cases h
  | ok tree => exact ⟨tree, rfl, (evaluateWithin_of_parse_eq_ok hparse).symm.trans h⟩

/-- A limit does not change what comes of a text, unless it stops the work. -/
theorem evaluateWithin_eq (host : Host) (calls : Nat) (newlines : Newlines) (text : Text) :
    evaluateWithin host calls newlines text = .error .tooDeep ∨
      evaluateWithin host calls newlines text = evaluate host newlines text := by
  cases hparse : Tree.parse newlines text with
  | error e =>
      rw [evaluateWithin_of_parse_eq_error hparse, evaluate_of_parse_eq_error hparse]
      exact .inr rfl
  | ok tree =>
      rw [evaluateWithin_of_parse_eq_ok hparse]
      cases hvalue : tree.evaluateWithin host calls with
      | ok x =>
          exact .inr (evaluate_of_value_eq_ok host hparse (Expr.evaluateWithin_eq_ok hvalue)).symm
      | error reason =>
          rcases Expr.evaluateWithin_eq_error hvalue with rfl | ⟨f, -, hf, rfl⟩
          · exact .inl rfl
          · exact .inr (evaluate_of_value_eq_error hparse hf).symm

theorem evaluate_of_evaluateWithin (hne : reason ≠ .tooDeep)
    (h : evaluateWithin host calls newlines text = .error reason) :
    evaluate host newlines text = .error reason := by
  rcases evaluateWithin_eq host calls newlines text with hdeep | hsame
  · rw [hdeep, Except.error.injEq] at h
    exact absurd h.symm hne
  · rw [← hsame, h]

/-! ### Snippets -/

theorem EvalError.subject_of_stop {f : EvalError Empty} (h : f.stop host = .fault fault) :
    fault.subject = f.snippet := by
  have hblamed : ∀ {topic : Topic} {subject others span}, topic.isEvaluating = true →
      (subject :: others).length = topic.quoted →
      stop.blame host topic (subject :: others) span = .fault fault → fault.subject = subject := by
    intro topic subject others span htopic hcount hstop
    obtain ⟨told, htold, -, hsubject, -⟩ := EvalError.blames htopic host hcount span
    obtain rfl : told = fault := Stop.fault.inj (htold.symm.trans hstop)
    exact hsubject
  cases f with
  | notANumber _ _ => exact hblamed rfl rfl h
  | emptyGroup _ _ => exact hblamed rfl rfl h
  | groupAsOperation _ _ => exact hblamed rfl rfl h
  | unknownOperation _ _ => exact hblamed rfl rfl h
  | argumentCount _ _ _ _ => exact hblamed rfl rfl h
  | unreadable text => cases h
  | foreign value => exact value.elim

/-- The snippet of a fault of evaluating is the text of a node that is written within the limit. -/
theorem Expr.exists_subject_of_evaluateWithin
    (h : tree.evaluateWithin host calls = .error (.fault fault)) :
    ∃ n ∈ tree.nodes, fault.subject = n.text ∧ 3 * n.height ≤ calls := by
  rcases evaluateWithin_eq_error h with hdeep | ⟨f, hvalue, -, hstop⟩
  · cases hdeep
  · obtain ⟨n, hn, hsnippet, hlow⟩ := exists_snippet_of_valueWithin hvalue
    exact ⟨n, hn, (EvalError.subject_of_stop hstop).trans hsnippet, hlow⟩

end BracketCalc
