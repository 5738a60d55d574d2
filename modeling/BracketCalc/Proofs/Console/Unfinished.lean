import BracketCalc.Proofs.Console.Kept
import BracketCalc.Proofs.Source.Open
/-!
# Expressions that are not finished

The console takes another line while a text is open, and has a text read only
when it is not.  So it never tells that an expression is not finished, whatever
is typed in, and never holds back an expression that can be read.
-/

namespace BracketCalc

open Token

/-- The fault tells that an expression is not finished. -/
def Fault.Unfinished (fault : Fault) : Prop :=
  fault.topic = .unclosedBracket ∨ fault.topic = .loneBracket ∧ fault.subject = ['(']

/-- The choice to take another line agrees with what comes of reading the text. -/
structure Source.Foreseen (newlines : Newlines) (text : Text) : Prop where
  goesOn : ∀ e, Tree.parse newlines text = .error e → e.Unfinished → isOpen text = true
  fails : isOpen text = true → Shallow Tree.nestingLimit (lex newlines text) →
    ∃ e, Tree.parse newlines text = .error e ∧ (e.Unfinished ∨ ∃ t, e = .surplusRight t)
  givesUp : ¬ Shallow Tree.nestingLimit (lex newlines text) →
    Tree.parse newlines text = .error .tooDeep

/-- What a console prints at a command, and the fault that it tells if there is one. -/
inductive Console.Responds (host : Host) (settings : Settings) (console : Console)
    (command : Command) : Text → Option Fault → Prop where
  | silent {printed : Text} : console.addition? command = none →
      printed ∈ [[], helpText, ['\n']] → Responds host settings console command printed none
  | goesOn {line : Text} : console.addition? command = some line →
      Source.isOpen (Source.resume console.held line) = true →
      Responds host settings console command [] none
  | blank {line : Text} : console.addition? command = some line →
      Source.isOpen (Source.resume console.held line) = false →
      (Source.resume console.held line).strip = [] →
      Responds host settings console command [] none
  | answered {line : Text} {x : Float} : console.addition? command = some line →
      Source.isOpen (Source.resume console.held line) = false →
      evaluateWithin host Tree.callLimit settings.newlines (Source.resume console.held line) =
        .ok x →
      Responds host settings console command
        (Worksheet.display host settings (Source.resume console.held line) ++
          (Worksheet.answer host x ++ ['\n'])) none
  | reported {line : Text} {reason : Stop} {fault : Fault} :
      console.addition? command = some line →
      Source.isOpen (Source.resume console.held line) = false →
      evaluateWithin host Tree.callLimit settings.newlines (Source.resume console.held line) =
        .error reason →
      reason.report? host = some fault →
      Responds host settings console command
        (Worksheet.display host settings (Source.resume console.held line) ++
          Reporter.report host
            [(Worksheet.consolePath, some
              ⟨Source.resume console.held line, (console.behind line).firstLine⟩)] fault)
        (some fault)

variable {host : Host} {settings : Settings} {newlines : Newlines} {text line : Text}
  {e : ParseError} {reason : Stop} {fault : Fault} {console : Console} {command : Command}
  {reporter : Reporter} {calls : Nat}

/-! ### Faults of texts that are not open -/

theorem Stop.Blames.unfinished {topic : Topic} {subject : Text} {span : Span}
    (h : reason.Blames topic subject span) (hreport : reason.report? host = some fault)
    (hfault : fault.Unfinished) :
    topic = .unclosedBracket ∨ topic = .loneBracket ∧ subject = ['('] := by
  obtain ⟨told, rfl, rfl, rfl, -⟩ := h
  cases hreport
  exact hfault

theorem ParseError.unfinished_of_report (hparse : Tree.parse newlines text = .error e)
    (hreport : (e.stop host).report? host = some fault) (hfault : fault.Unfinished) :
    e.Unfinished := by
  have hdeep : e ≠ .tooDeep := by
    rintro rfl
    cases hreport
    rcases hfault with h | ⟨h, -⟩ <;> cases h
  obtain ⟨v, hforetold, hv⟩ := Verdict.exists_foretold_of_error hparse hdeep
  cases e with
  | unclosed t => trivial
  | loneToken t =>
      obtain rfl := Option.some.inj hv
      have htold := (blames rfl host t).unfinished hreport hfault
      have hsubject : t.text = ['('] := by simpa using htold
      refine hforetold.2.resolve_right fun hright => ?_
      rw [Token.text, hright] at hsubject
      cases hsubject
  | noTokens =>
      have htold := (blames_noTokens host).unfinished hreport hfault
      simp at htold
  | surplusRight t =>
      have htold := (blames rfl host t).unfinished hreport hfault
      simp at htold
  | unknownToken t => cases hv
  | noToken => cases hv
  | unopened => cases hv
  | tooDeep => exact absurd rfl hdeep

theorem EvalError.not_unfinished {f : EvalError Empty} {tree : Tree}
    (hparse : Tree.parse newlines text = .ok tree) (hvalue : tree.value = .error f)
    (hreport : (f.stop host).report? host = some fault) : ¬ fault.Unfinished := by
  by_cases hword : ∃ word, f = .unreadable word
  · obtain ⟨word, rfl⟩ := hword
    obtain ⟨-, -, -, -, -, -, -, hdotted⟩ := (meetsDotted_iff hparse).2 hvalue
    cases (Failure.report?_unreadable host hdotted).symm.trans hreport
    rintro (h | ⟨h, -⟩) <;> cases h
  · obtain ⟨told, hstop, htopic⟩ := f.exists_fault host (not_exists.1 hword)
    rw [hstop] at hreport
    cases hreport
    rintro (h | ⟨h, -⟩) <;> simp [h, Topic.isEvaluating] at htopic

/-- Of a text that is not open it is never told that it is not finished. -/
theorem not_unfinished_of_not_isOpen (hopen : Source.isOpen text = false)
    (h : evaluateWithin host calls newlines text = .error reason)
    (hreport : reason.report? host = some fault) : ¬ fault.Unfinished := by
  cases hparse : Tree.parse newlines text with
  | error e =>
      rw [evaluateWithin_of_parse_eq_error hparse, Except.error.injEq] at h
      intro hfault
      have he := ParseError.unfinished_of_report hparse (h ▸ hreport) hfault
      rw [Source.isOpen_of_unfinished hparse he] at hopen
      cases hopen
  | ok tree =>
      rw [evaluateWithin_of_parse_eq_ok hparse] at h
      rcases Expr.evaluateWithin_eq_error h with rfl | ⟨f, -, hvalue, rfl⟩
      · cases hreport
        rintro (htopic | ⟨htopic, -⟩) <;> cases htopic
      · exact EvalError.not_unfinished hparse hvalue hreport

/-! ### The choice to take another line -/

namespace Source

theorem resume_nil (line : Text) : resume [] line = clean line := rfl

theorem clean_lefts (count : Nat) :
    clean (List.replicate count '(') = List.replicate count '(' := by
  induction count with
  | zero => rfl
  | succ count ih => rw [List.replicate_succ, clean_ink rfl (by simp), ih]

theorem not_mem_lefts (count : Nat) : ')' ∉ List.replicate count '(' := by
  intro h
  exact absurd (List.eq_of_mem_replicate h) (by decide)

theorem foreseen (newlines : Newlines) (text : Text) : Foreseen newlines text where
  goesOn _ := isOpen_of_unfinished
  fails := exists_error_of_isOpen
  givesUp := Verdict.parse_eq_tooDeep_iff.2

/-- Left brackets alone make an open text, but too many of them are read as nesting that is too
deep. -/
theorem tooDeep_of_lefts :
    isOpen (resume [] (List.replicate 5000 '(')) = true ∧
      ∀ newlines,
        Tree.parse newlines (resume [] (List.replicate 5000 '(')) = .error .tooDeep := by
  have hlefts : (List.replicate 5000 '(').count '(' = 5000 := List.count_replicate_self
  rw [resume_nil, clean_lefts]
  constructor
  · rw [isOpen, hlefts, List.count_eq_zero.2 (not_mem_lefts 5000)]
    rfl
  · intro newlines
    rw [Verdict.parse_eq_tooDeep_iff]
    refine not_shallow_lex ?_ (not_mem_lefts 5000)
    rw [hlefts]
    decide

end Source

/-! ### What the console prints -/

namespace Console

theorem printed_of_no_addition (host : Host) (reporter : Reporter)
    (h : console.addition? command = none) :
    (obey host command reporter console).printed ∈ [[], helpText, ['\n']] := by
  cases command with
  | blank =>
      have hheld : console.held = [] := by simpa [addition?] using h
      unfold obey
      simp [Action.get_bind_apply, hheld, Action.pure_apply]
  | expression text => simp [addition?] at h
  | help => simp [obey, Action.print_bind_apply, Action.pure_apply, Step.after]
  | exit => simp [obey, Action.pure_apply]
  | endOfInput => simp [obey, Action.print_bind_apply, Action.pure_apply, Step.after]

theorem exists_responds (host : Host) (command : Command)
    (hsheet : console.sheet = Worksheet.idle Worksheet.consolePath settings) :
    ∃ told, Responds host settings console command
        (obey host command resting console).printed told ∧
      ∀ fault, told = some fault → ¬ fault.Unfinished := by
  cases hadded : console.addition? command with
  | none => exact ⟨none, .silent hadded (printed_of_no_addition host resting hadded), nofun⟩
  | some line =>
      rw [obey_of_addition hadded rfl]
      cases hfinishes : console.finishes line with
      | false =>
          rw [takeLineGuarded_of_not_finishes hfinishes]
          cases hopen : Source.isOpen (Source.resume console.held line) with
          | true => exact ⟨none, .goesOn hadded hopen, nofun⟩
          | false =>
              have hblank : (Source.resume console.held line).strip = [] := by
                simpa [finishes, hopen] using hfinishes
              exact ⟨none, .blank hadded hopen hblank, nofun⟩
      | true =>
          have hopen : Source.isOpen (Source.resume console.held line) = false := by
            simp only [finishes, Bool.and_eq_true, Bool.not_eq_true'] at hfinishes
            exact hfinishes.1
          cases h : evaluateWithin host Tree.callLimit settings.newlines
              (Source.resume console.held line) with
          | ok x =>
              rw [takeLineGuarded_of_value hsheet hfinishes h]
              exact ⟨none, .answered hadded hopen h, nofun⟩
          | error reason =>
              obtain ⟨fault, hreport⟩ := exists_report_of_evaluateWithin h
              rw [takeLineGuarded_of_stop hsheet hfinishes h hreport]
              refine ⟨some fault, .reported hadded hopen h hreport, ?_⟩
              rintro _ ⟨⟩
              exact not_unfinished_of_not_isOpen hopen h hreport

end Console

namespace Dialogue

theorem Kept.parse_held_ne_ok {fed : List Text} {d : Dialogue} (h : Kept settings fed d)
    (newlines : Newlines) (tree : Tree) : Tree.parse newlines d.console.held ≠ .ok tree := by
  by_cases hheld : d.console.held = []
  · rw [hheld]
    exact nofun
  · exact Source.parse_ne_ok_of_isOpen newlines (decide_eq_true (h.goesOn hheld)) tree

/-- Whatever is typed in, it is never told that an expression is not finished, and no text that can
be read is held back. -/
theorem never_unfinished (host : Host) (settings : Settings) :
    (∀ held line newlines, Source.Foreseen newlines (Source.resume held line)) ∧
      ∀ fed line,
        (∀ newlines tree,
          Tree.parse newlines (after host settings fed).console.held ≠ .ok tree) ∧
        ∃ told,
          Console.Responds host settings (after host settings fed).console
            (Command.ofLine line) (step host (after host settings fed) line).printed told ∧
          ∀ fault, told = some fault → ¬ fault.Unfinished := by
  refine ⟨fun held line newlines => Source.foreseen newlines _, fun fed line => ?_⟩
  have hkept := kept_after host settings fed
  refine ⟨hkept.parse_held_ne_ok, ?_⟩
  rw [step, hkept.reporter]
  exact Console.exists_responds host (Command.ofLine line) hkept.sheet

end Dialogue

end BracketCalc
