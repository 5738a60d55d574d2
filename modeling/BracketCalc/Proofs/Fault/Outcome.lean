import BracketCalc.Proofs.Expr.Evaluation
import BracketCalc.Proofs.Expr.Verdict
import BracketCalc.Proofs.Numeral.Grammar
/-!
# What comes of a text

A text has a value, or it is told why not by a fault of reading or of
evaluating.  There is one exception: an evaluation that comes to a dotted word
before any other fault fails with an error from outside the calculator.
-/

namespace BracketCalc

open Token

/-- The value of a text, or the reason to stop. -/
def evaluate (host : Host) (newlines : Newlines) (text : Text) : Except Stop Float :=
  match Tree.parse newlines text with
  | .error e => .error (e.stop host)
  | .ok tree =>
      match tree.value with
      | .error e => .error (e.stop host)
      | .ok x => .ok x

/-- There is a value, or a fault of reading or of evaluating. -/
def Reported : Except Stop Float → Prop
  | .ok _ => True
  | .error (.fault fault) => fault.topic.isParsing = true ∨ fault.topic.isEvaluating = true
  | .error _ => False

/-- The evaluation of a text comes to a dotted word before any fault. -/
def MeetsDotted (newlines : Newlines) (text word : Text) : Prop :=
  ∃ tree before span behind, Tree.parse newlines text = .ok tree ∧
    Expr.visited tree = before ++ .literal word span :: behind ∧
    (∀ n ∈ before, Expr.ownFault n = none) ∧ Numeral.Dotted word

variable {host : Host} {newlines : Newlines} {text word : Text} {tree : Tree} {span : Span}
  {before behind : List Tree} {f : EvalError Empty}

/-! ### Faults of reading -/

theorem exists_fault_of_parse_eq_error {e : ParseError}
    (hshallow : Shallow Tree.nestingLimit (lex newlines text))
    (h : Tree.parse newlines text = .error e) :
    ∃ fault, e.stop host = .fault fault ∧ fault.topic.isParsing = true := by
  rw [Tree.parse_eq_of_shallow hshallow] at h
  obtain ⟨v, hv⟩ := Verdict.exists_foretold (Tree.known_lex newlines text)
  have hshown : v.Shown host (.error e) := h ▸ Verdict.shown_of_foretold hv
  have htold : ∀ {e' topic letters span}, Topic.isParsing topic = true →
      Verdict.Told host e' topic letters span (.error e) →
      ∃ fault, e.stop host = .fault fault ∧ fault.topic.isParsing = true := by
    rintro e' topic letters span htopic ⟨he, fault, hstop, hfault, -, -⟩
    cases he
    exact ⟨fault, hstop, hfault ▸ htopic⟩
  cases v with
  | empty => exact htold rfl hshown
  | loneBracket t => exact htold rfl hshown
  | literal letters span => cases hshown
  | surplusRight t => exact htold rfl hshown
  | unclosedLeft t => exact htold rfl hshown
  | enclosed =>
      obtain ⟨items, span, hok⟩ := hshown
      cases hok
  | implicit =>
      obtain ⟨items, span, hok⟩ := hshown
      cases hok

/-! ### Faults of evaluating -/

theorem exists_literal_of_ownFault {n : Tree} (h : Expr.ownFault n = some (.unreadable word)) :
    ∃ span, n = .literal word span ∧ Numeral.Dotted word := by
  cases n with
  | literal letters span =>
      rw [Expr.ownFault] at h
      cases hread : Numeral.read letters with
      | value x => simp [hread] at h
      | notANumeral => simp [hread] at h
      | unreadable =>
          simp only [hread, Option.some.injEq, EvalError.unreadable.injEq] at h
          rw [← h]
          exact ⟨span, rfl, Numeral.read_eq_unreadable_iff.1 hread⟩
  | foreign value => exact value.elim
  | group items span depth =>
      cases items with
      | nil => cases h
      | cons head arguments =>
          cases head with
          | group _ _ _ => cases h
          | foreign value => exact value.elim
          | literal op opSpan =>
              rw [Expr.ownFault] at h
              split at h
              · cases h
              · split at h
                · cases h
                · cases h

theorem ownFault_of_dotted (h : Numeral.Dotted word) (span : Span) :
    Expr.ownFault (.literal word span : Tree) = some (.unreadable word) := by
  rw [Expr.ownFault, Numeral.read_of_dotted h]

theorem meetsDotted_iff (h : Tree.parse newlines text = .ok tree) :
    MeetsDotted newlines text word ↔ tree.value = .error (.unreadable word) := by
  rw [Expr.value_eq_error_iff, List.findSome?_eq_some_iff]
  constructor
  · rintro ⟨other, before, span, behind, hother, hvisited, hbefore, hdotted⟩
    rw [h] at hother
    cases hother
    exact ⟨before, _, behind, hvisited, ownFault_of_dotted hdotted span, hbefore⟩
  · rintro ⟨before, n, behind, hvisited, hown, hbefore⟩
    obtain ⟨span, rfl, hdotted⟩ := exists_literal_of_ownFault hown
    exact ⟨tree, before, span, behind, h, hvisited, hbefore, hdotted⟩

theorem evaluate_of_value_eq_ok (host : Host) (h : Tree.parse newlines text = .ok tree)
    {x : Float} (hvalue : tree.value = .ok x) : evaluate host newlines text = .ok x := by
  simp only [evaluate, h, hvalue]

theorem evaluate_of_value_eq_error (h : Tree.parse newlines text = .ok tree)
    (hvalue : tree.value = .error f) :
    evaluate host newlines text = .error (f.stop host) := by
  simp only [evaluate, h, hvalue]

theorem evaluate_of_parse_eq_error {e : ParseError} (h : Tree.parse newlines text = .error e) :
    evaluate host newlines text = .error (e.stop host) := by
  simp only [evaluate, h]

theorem exists_value_of_evaluate {x : Float} (h : evaluate host newlines text = .ok x) :
    ∃ tree, Tree.parse newlines text = .ok tree ∧ tree.value = .ok x := by
  cases hparse : Tree.parse newlines text with
  | error e => simp [evaluate, hparse] at h
  | ok tree =>
      refine ⟨tree, rfl, ?_⟩
      cases hvalue : tree.value with
      | error f => simp [evaluate, hparse, hvalue] at h
      | ok y => simpa [evaluate, hparse, hvalue] using h

theorem evaluate_of_meetsDotted (h : MeetsDotted newlines text word) :
    evaluate host newlines text = .error (.failure (.unreadableNumeral word)) := by
  obtain ⟨tree, _, _, _, hparse, -⟩ := id h
  exact evaluate_of_value_eq_error hparse ((meetsDotted_iff hparse).1 h)

theorem exists_fault_of_value_eq_error (h : Tree.parse newlines text = .ok tree)
    (hvalue : tree.value = .error f) (hdotted : ∀ word, ¬ MeetsDotted newlines text word) :
    ∃ fault, evaluate host newlines text = .error (.fault fault) ∧
      fault.topic.isEvaluating = true := by
  have hreadable : ∀ word, f ≠ .unreadable word := by
    rintro word rfl
    exact hdotted word ((meetsDotted_iff h).2 hvalue)
  obtain ⟨fault, hstop, htopic⟩ := f.exists_fault host hreadable
  rw [evaluate_of_value_eq_error h hvalue, hstop]
  exact ⟨fault, rfl, htopic⟩

theorem reported_of_not_meetsDotted (hshallow : Shallow Tree.nestingLimit (lex newlines text))
    (h : ∀ word, ¬ MeetsDotted newlines text word) :
    Reported (evaluate host newlines text) := by
  cases hparse : Tree.parse newlines text with
  | error e =>
      obtain ⟨fault, hstop, htopic⟩ := exists_fault_of_parse_eq_error hshallow hparse
      rw [evaluate_of_parse_eq_error hparse, hstop]
      exact Or.inl htopic
  | ok tree =>
      cases hvalue : tree.value with
      | ok x =>
          simp only [evaluate, hparse, hvalue]
          trivial
      | error f =>
          obtain ⟨fault, hfault, htopic⟩ := exists_fault_of_value_eq_error hparse hvalue h
          rw [hfault]
          exact Or.inr htopic

/-- A literal that is evaluated but is no numeral has a fault. -/
theorem exists_ownFault_of_not_numeric (h : ¬ Numeral.Numeric word) (span : Span) :
    ∃ f, Expr.ownFault (.literal word span : Tree) = some f ∧
      (¬ Numeral.Dotted word → f = .notANumber word span) := by
  by_cases hdotted : Numeral.Dotted word
  · exact ⟨_, ownFault_of_dotted hdotted span, absurd hdotted⟩
  · refine ⟨.notANumber word span, ?_, fun _ => rfl⟩
    rw [Expr.ownFault, Numeral.read_of_neither h hdotted]

theorem fault_of_not_numeric (hparse : Tree.parse newlines text = .ok tree)
    (hvisited : Expr.visited tree = before ++ .literal word span :: behind)
    (hword : ¬ Numeral.Numeric word) (h : ∀ w, ¬ MeetsDotted newlines text w) :
    ∃ fault, evaluate host newlines text = .error (.fault fault) ∧
      fault.topic.isEvaluating = true ∧
      ((∀ n ∈ before, Expr.ownFault n = none) →
        fault.topic = .notANumber ∧ fault.subject = word) := by
  obtain ⟨f, hown, hplain⟩ := exists_ownFault_of_not_numeric hword span
  have hmem : (.literal word span : Tree) ∈ Expr.visited tree := by simp [hvisited]
  obtain ⟨g, hg⟩ := Expr.exists_error_of_mem_visited hmem hown
  obtain ⟨fault, hfault, htopic⟩ : ∃ fault, evaluate host newlines text = _ ∧ _ :=
    exists_fault_of_value_eq_error hparse hg h
  refine ⟨fault, hfault, htopic, fun hbefore => ?_⟩
  have hvalue : tree.value = .error f := by
    rw [Expr.value_eq_error_iff, List.findSome?_eq_some_iff]
    exact ⟨before, _, behind, hvisited, hown, hbefore⟩
  have hdotted : ¬ Numeral.Dotted word := by
    intro hdotted
    exact h word ⟨tree, before, span, behind, hparse, hvisited, hbefore, hdotted⟩
  obtain ⟨other, hstop, hother, hsubject⟩ :
      ∃ fault, (EvalError.notANumber word span : EvalError Empty).stop host = .fault fault ∧ _ :=
    EvalError.exists_fault_notANumber host word span
  rw [evaluate_of_value_eq_error hparse hvalue, hplain hdotted, hstop] at hfault
  cases hfault
  exact ⟨hother, hsubject⟩

/-- Within the limit on nesting, all that comes of a text is reported, except that the evaluation
may meet a dotted word.  A literal that is evaluated but is no numeral is always a fault. -/
theorem reported_iff (host : Host) (newlines : Newlines) (text : Text)
    (hshallow : Shallow Tree.nestingLimit (lex newlines text)) :
    (Reported (evaluate host newlines text) ↔ ∀ word, ¬ MeetsDotted newlines text word) ∧
      (∀ word, MeetsDotted newlines text word →
        evaluate host newlines text = .error (.failure (.unreadableNumeral word))) ∧
      ∀ tree before word span behind, Tree.parse newlines text = .ok tree →
        Expr.visited tree = before ++ .literal word span :: behind → ¬ Numeral.Numeric word →
        (∀ w, ¬ MeetsDotted newlines text w) →
        ∃ fault, evaluate host newlines text = .error (.fault fault) ∧
          fault.topic.isEvaluating = true ∧
          ((∀ n ∈ before, Expr.ownFault n = none) →
            fault.topic = .notANumber ∧ fault.subject = word) := by
  refine ⟨⟨fun hreported word hmeets => ?_, reported_of_not_meetsDotted hshallow⟩,
    fun word hmeets => evaluate_of_meetsDotted hmeets,
    fun tree before word span behind hparse hvisited hword h =>
      fault_of_not_numeric hparse hvisited hword h⟩
  rw [evaluate_of_meetsDotted hmeets] at hreported
  exact hreported

theorem not_reported_dotless :
    Shallow Tree.nestingLimit (lex .separate ['ı', 'n', 'f']) ∧
      MeetsDotted .separate ['ı', 'n', 'f'] ['ı', 'n', 'f'] ∧
      ¬ Reported (evaluate .plain .separate ['ı', 'n', 'f']) := by
  have hshallow : Shallow Tree.nestingLimit (lex .separate ['ı', 'n', 'f']) :=
    (Tree.exceeds_eq_false_iff (Tree.known_lex _ _)).1 (by decide)
  have hforms : List.Forall₂ Numeral.Form "inf".toList ['ı', 'n', 'f'] :=
    Numeral.isWord_iff.1 (by decide)
  have hdotted : Numeral.Dotted ['ı', 'n', 'f'] :=
    ⟨[], _, rfl, .none, ⟨_, List.mem_cons_self, hforms⟩, 'ı', List.mem_cons_self, .inr rfl⟩
  have hvisited : Expr.visited (.literal ['ı', 'n', 'f'] ⟨0, 3⟩ : Tree) =
      [.literal ['ı', 'n', 'f'] ⟨0, 3⟩] := Expr.visited_of_ne nofun
  have hmeets : MeetsDotted .separate ['ı', 'n', 'f'] ['ı', 'n', 'f'] :=
    ⟨.literal _ ⟨0, 3⟩, [], ⟨0, 3⟩, [], rfl, hvisited, nofun, hdotted⟩
  have houtcome := (reported_iff .plain .separate _ hshallow).1
  exact ⟨hshallow, hmeets, fun hreported => houtcome.1 hreported _ hmeets⟩

end BracketCalc
