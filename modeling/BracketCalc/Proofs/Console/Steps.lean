import BracketCalc.Console
import BracketCalc.Proofs.Report.Guarded
import BracketCalc.Proofs.Source.Lines
import BracketCalc.Proofs.Worksheet.Steps
/-!
# What a line does

Between lines the console is at rest: nothing is in work, nothing is pending and
no answer is kept.  A line of an expression is kept, dropped or evaluated.  An
evaluation prints what it displays, and then the answer or the report of what
stopped it, and whatever comes of it the console is at rest behind it.
-/

namespace BracketCalc

namespace Console

open Worksheet

variable {host : Host} {settings : Settings} {source : Text} {number : Nat}
  {reporter : Reporter} {console : Console} {line : Text} {reason : Stop} {fault : Fault}
  {x : Float} {path : Text}

/-- The reporter between two lines. -/
def resting : Reporter := ⟨false, [(consolePath, none)]⟩

theorem resting_at (passage : Option Passage) :
    resting.at consolePath passage = ⟨false, [(consolePath, passage)]⟩ :=
  Reporter.at_only false consolePath none passage

theorem printAnswers_apply (sheet : Worksheet) :
    printAnswers host reporter sheet =
      ⟨sheet.results.flatMap fun r => answer host r.value ++ ['\n'], .ok (), reporter,
        { sheet with results := [] }⟩ := by
  unfold printAnswers
  simp [Action.get_bind_apply, Action.print_bind_apply, Action.modify, Step.after]

theorem evaluate_of_error (reporter : Reporter)
    (h : evaluateWithin host Tree.callLimit settings.newlines source = .error reason) :
    evaluate host source number reporter (idle path settings) =
      ⟨display host settings source, .error reason,
        reporter.at path (some ⟨source, number⟩), idle path settings⟩ := by
  unfold evaluate
  cases hparse : Tree.parse settings.newlines source with
  | error e =>
      rw [evaluateWithin_of_parse_eq_error hparse, Except.error.injEq] at h
      rw [Action.bind_of_error (add_idle_of_error hparse), h, display, hparse]
  | ok tree =>
      rw [evaluateWithin_of_parse_eq_ok hparse] at h
      rw [Action.bind_of_ok (add_idle_of_ok hparse),
        Action.bind_of_error (run_added_of_error hparse h), Reporter.at_at]
      rfl

theorem evaluate_of_ok (reporter : Reporter)
    (h : evaluateWithin host Tree.callLimit settings.newlines source = .ok x) :
    evaluate host source number reporter (idle path settings) =
      ⟨display host settings source ++ (answer host x ++ ['\n']), .ok (),
        reporter.at path none, idle path settings⟩ := by
  obtain ⟨tree, hparse, hvalue⟩ := exists_tree_of_evaluateWithin h
  unfold evaluate
  rw [Action.bind_of_ok (add_idle_of_ok hparse), Action.bind_of_ok (run_added_of_ok hparse hvalue),
    printAnswers_apply, Reporter.at_at]
  simp [Step.after, idle]

/-! ### Lines of expressions -/

/-- The console behind a line of an expression, whatever comes of the expression. -/
def behind (console : Console) (line : Text) : Console :=
  let text := Source.resume console.held line
  let goesOn := Source.isOpen text
  { console with
    prompt := if goesOn then secondPrompt else firstPrompt
    held := if goesOn then text else []
    firstLine := if console.held.isEmpty then console.lineCount + 1 else console.firstLine
    lineCount := console.lineCount + 1 }

@[simp] theorem behind_prompt :
    (console.behind line).prompt =
      if Source.isOpen (Source.resume console.held line) then secondPrompt else firstPrompt := rfl

@[simp] theorem behind_held :
    (console.behind line).held =
      if Source.isOpen (Source.resume console.held line) then Source.resume console.held line
      else [] := rfl

@[simp] theorem behind_firstLine :
    (console.behind line).firstLine =
      if console.held.isEmpty then console.lineCount + 1 else console.firstLine := rfl

@[simp] theorem behind_lineCount :
    (console.behind line).lineCount = console.lineCount + 1 := rfl

/-- Whether a line finishes an expression, which is then evaluated. -/
def finishes (console : Console) (line : Text) : Bool :=
  let text := Source.resume console.held line
  ! Source.isOpen text && ! text.strip.isEmpty

theorem takeLine_of_not_finishes (h : console.finishes line = false) :
    takeLine host line reporter console = ⟨[], .ok (), reporter, console.behind line⟩ := by
  unfold takeLine behind
  rw [Action.modify_bind_apply, Action.get_bind_apply]
  cases hopen : Source.isOpen (Source.resume console.held line) with
  | true => simp [hopen, Action.modify]
  | false =>
      have hblank : (Source.resume console.held line).strip.isEmpty = true := by
        simpa [finishes, hopen] using h
      simp only [hopen, hblank]
      rfl

theorem takeLine_of_finishes (host : Host) (reporter : Reporter)
    (h : console.finishes line = true) :
    takeLine host line reporter console =
      onWorksheet (evaluate host (Source.resume console.held line)
        (console.behind line).firstLine) reporter (console.behind line) := by
  simp only [finishes, Bool.and_eq_true, Bool.not_eq_true'] at h
  obtain ⟨hopen, hblank⟩ := h
  unfold takeLine behind
  rw [Action.modify_bind_apply, Action.get_bind_apply]
  simp only [hopen, hblank]
  rfl

/-- The evaluation of a finished expression leaves the worksheet as it was. -/
theorem takeLine_of_evaluate {printed : Text} {ended : Except Stop Unit} {reporter' : Reporter}
    (hsheet : console.sheet = idle path settings) (hfinishes : console.finishes line = true)
    (h : evaluate host (Source.resume console.held line) (console.behind line).firstLine reporter
      (idle path settings) = ⟨printed, ended, reporter', idle path settings⟩) :
    takeLine host line reporter console =
      ⟨printed, ended, reporter', console.behind line⟩ := by
  have hbehind : (console.behind line).sheet = idle path settings := hsheet
  rw [takeLine_of_finishes host reporter hfinishes, onWorksheet, Action.onPart, hbehind, h,
    ← hbehind]

theorem takeLineGuarded_apply {step : Step Console (Option Unit)}
    (h : Action.guarded host (takeLine host line) reporter console = step) :
    takeLineGuarded host line reporter console =
      ⟨step.printed, step.ended.map fun _ => (), step.reporter, step.state⟩ := by
  rw [takeLineGuarded, Action.bind_pure_apply, h]

theorem takeLineGuarded_of_not_finishes (h : console.finishes line = false) :
    takeLineGuarded host line reporter console =
      ⟨[], .ok (), reporter, console.behind line⟩ :=
  takeLineGuarded_apply (Action.guarded_of_ok (takeLine_of_not_finishes h))

/-- A finished expression with a value is displayed and answered. -/
theorem takeLineGuarded_of_value (hsheet : console.sheet = idle consolePath settings)
    (hfinishes : console.finishes line = true)
    (h : evaluateWithin host Tree.callLimit settings.newlines
      (Source.resume console.held line) = .ok x) :
    takeLineGuarded host line resting console =
      ⟨display host settings (Source.resume console.held line) ++
          (answer host x ++ ['\n']),
        .ok (), resting, console.behind line⟩ := by
  have hstep := takeLine_of_evaluate hsheet hfinishes (evaluate_of_ok resting h)
  exact takeLineGuarded_apply (Action.guarded_of_ok hstep)

/-- A finished expression without a value is displayed as far as it can be read, and what stopped
it is reported. -/
theorem takeLineGuarded_of_stop (hsheet : console.sheet = idle consolePath settings)
    (hfinishes : console.finishes line = true)
    (h : evaluateWithin host Tree.callLimit settings.newlines
      (Source.resume console.held line) = .error reason)
    (hreport : reason.report? host = some fault) :
    takeLineGuarded host line resting console =
      ⟨display host settings (Source.resume console.held line) ++
          Reporter.report host
            [(consolePath, some
              ⟨Source.resume console.held line, (console.behind line).firstLine⟩)] fault,
        reason.passedOn, resting, console.behind line⟩ := by
  have hstep := takeLine_of_evaluate hsheet hfinishes (evaluate_of_error resting h)
  rw [takeLineGuarded_apply (Action.guarded_of_not_fatal hstep hreport rfl), Stop.map_passedOn,
    resting_at]
  rfl

/-- Whatever comes of a line, the console is at rest behind it. -/
theorem takeLineGuarded_rests (host : Host)
    (hsheet : console.sheet = idle consolePath settings) (line : Text) :
    (takeLineGuarded host line resting console).reporter = resting ∧
      (takeLineGuarded host line resting console).state = console.behind line := by
  cases hfinishes : console.finishes line with
  | false => simp [takeLineGuarded_of_not_finishes hfinishes]
  | true =>
      cases h : evaluateWithin host Tree.callLimit settings.newlines
          (Source.resume console.held line) with
      | ok x => simp [takeLineGuarded_of_value hsheet hfinishes h]
      | error reason =>
          obtain ⟨fault, hreport⟩ := exists_report_of_evaluateWithin h
          simp [takeLineGuarded_of_stop hsheet hfinishes h hreport]

/-! ### Commands -/

/-- The line that a command adds to an expression.  A blank line belongs to an expression that goes
on. -/
def addition? (console : Console) : Command → Option Text
  | .blank => if console.held.isEmpty then none else some []
  | .expression line => some line
  | .help | .exit | .endOfInput => none

theorem obey_of_addition {command : Command} {step : Step Console Unit}
    (h : console.addition? command = some line)
    (hstep : takeLineGuarded host line reporter console = step) :
    obey host command reporter console =
      ⟨step.printed, step.ended.map fun _ => false, step.reporter, step.state⟩ := by
  cases command with
  | blank =>
      by_cases hheld : console.held = []
      · simp [addition?, hheld] at h
      · obtain rfl : [] = line := by simpa [addition?, hheld] using h
        have hobey : obey host .blank reporter console =
            (takeLineGuarded host [] >>= fun _ => pure false) reporter console := by
          unfold obey
          simp [Action.get_bind_apply, hheld]
        rw [hobey, Action.bind_pure_apply, hstep]
  | expression text =>
      obtain rfl : text = line := by simpa [addition?] using h
      rw [obey, Action.bind_pure_apply, hstep]
  | help => simp [addition?] at h
  | exit => simp [addition?] at h
  | endOfInput => simp [addition?] at h

theorem obey_of_no_addition (host : Host) (reporter : Reporter) {command : Command}
    (h : console.addition? command = none) :
    (obey host command reporter console).reporter = reporter ∧
      (obey host command reporter console).state = console := by
  cases command with
  | blank =>
      have hheld : console.held = [] := by simpa [addition?] using h
      unfold obey
      simp [Action.get_bind_apply, hheld, Action.pure_apply]
  | expression text => simp [addition?] at h
  | help => exact ⟨rfl, rfl⟩
  | exit => exact ⟨rfl, rfl⟩
  | endOfInput => exact ⟨rfl, rfl⟩

end Console

end BracketCalc
