import BracketCalc.Proofs.Fault.Within
import BracketCalc.Proofs.Text.Braces
import BracketCalc.Report.Guard
/-!
# What guards do

A guard reports a reason to stop by one fault, unless the program is left.  The
work goes on behind the report, except that a failure is passed on, and that a
fatal fault ends the program.

All reasons to stop that come of a text are reported.  A failure is put into its
message as a template, which cannot go wrong because dotted words have no braces.
-/

namespace BracketCalc

/-- The fault by which a reason to stop is reported. -/
def Stop.report? (host : Host) : Stop → Option Fault
  | .fault told => some told
  | .tooDeep => some (Fault.plain "expression nested too deeply")
  | .interrupt => some (Fault.plain "keyboard interrupt")
  | .exit _ => none
  | .failure cause => (Action.failureFault host cause).toOption

/-- How work ends behind the report of a reason to stop that is not fatal. -/
def Stop.passedOn : Stop → Except Stop Unit
  | .failure cause => .error (.failure cause)
  | _ => .ok ()

variable {host : Host} {reason : Stop} {fault : Fault} {text : Text}

namespace Action

theorem map_map {α β γ : Type} (ended : Except Stop α) (f : α → β) (g : β → γ) :
    (ended.map f).map g = ended.map fun a => g (f a) := by
  cases ended <;> rfl

end Action

theorem Stop.map_passedOn {α : Type} (a : α) :
    (reason.passedOn.map fun _ => a).map (fun _ => ()) = reason.passedOn := by
  rw [Action.map_map]
  cases reason <;> rfl

namespace Action

variable {σ α β : Type} {reporter reporter' : Reporter} {state state' : σ} {act : Action σ α}
  {next : α → Action σ β} {printed : Text}

theorem bind_of_ok {a : α} (h : act reporter state = ⟨printed, .ok a, reporter', state'⟩) :
    (act >>= next) reporter state = (next a reporter' state').after printed := by
  rw [bind_apply, h, Step.andThen]

theorem bind_of_error (h : act reporter state = ⟨printed, .error reason, reporter', state'⟩) :
    (act >>= next) reporter state = ⟨printed, .error reason, reporter', state'⟩ := by
  rw [bind_apply, h, Step.andThen]

theorem bind_pure_apply {b : β} (act : Action σ α) (reporter : Reporter) (state : σ) :
    (act >>= fun _ => pure b) reporter state =
      ⟨(act reporter state).printed, (act reporter state).ended.map fun _ => b,
        (act reporter state).reporter, (act reporter state).state⟩ := by
  rw [bind_apply]
  obtain ⟨printed, ended, reporter', state'⟩ := act reporter state
  cases ended with
  | error reason => rfl
  | ok a => simp [Step.andThen, pure_apply, Step.after, Except.map]

theorem onOwn_of_eq {τ : Type} {act : Action τ α} {own own' : τ} {ended : Except Stop α}
    (h : act reporter own = ⟨printed, ended, reporter', own'⟩) (state : σ) :
    onOwn own act reporter state = ⟨printed, ended.map (·, own'), reporter', state⟩ := by
  rw [onOwn, h]

theorem reportFault_of_fatal (h : reporter.fatal = true) :
    reportFault host fault reporter state =
      ⟨Reporter.report host reporter.trace fault, .error (.exit (.code 1)), reporter,
        state⟩ := by
  simp [reportFault, h]

theorem reportFault_of_not_fatal (h : reporter.fatal = false) :
    reportFault host fault reporter state =
      ⟨Reporter.report host reporter.trace fault, .ok (),
        { reporter with trace := reporter.trace.clear }, state⟩ := by
  simp [reportFault, h]

theorem report?_failure {cause : Failure} (h : failureFault host cause = .ok fault) :
    (Stop.failure cause).report? host = some fault := by
  rw [Stop.report?, h]
  rfl

theorem failureFault_of_report {cause : Failure}
    (h : (Stop.failure cause).report? host = some fault) :
    failureFault host cause = .ok fault := by
  cases hfault : failureFault host cause with
  | error broken => simp [Stop.report?, hfault, Except.toOption] at h
  | ok told => simpa [Stop.report?, hfault, Except.toOption] using h

theorem settle_failure (host : Host) (cause : Failure) :
    ∀ composed, failureFault host cause = composed →
      (settle host (.failure cause) : Action σ Unit) =
        match composed with
        | .error broken => stop (.failure (.template broken))
        | .ok fault => reportFault host fault >>= fun () => stop (.failure cause) := by
  rintro _ rfl
  rfl

theorem settle_of_fatal (h : reason.report? host = some fault) (hfatal : reporter.fatal = true) :
    settle host reason reporter state =
      ⟨Reporter.report host reporter.trace fault, .error (.exit (.code 1)), reporter,
        state⟩ := by
  cases reason with
  | exit status => simp [Stop.report?] at h
  | failure cause =>
      rw [settle_failure host cause _ (failureFault_of_report h)]
      simp only [bind_apply, reportFault_of_fatal hfatal, Step.andThen]
  | fault told =>
      obtain rfl : told = fault := Option.some.inj h
      exact reportFault_of_fatal hfatal
  | tooDeep =>
      obtain rfl : Fault.plain "expression nested too deeply" = fault := Option.some.inj h
      exact reportFault_of_fatal hfatal
  | interrupt =>
      obtain rfl : Fault.plain "keyboard interrupt" = fault := Option.some.inj h
      exact reportFault_of_fatal hfatal

theorem settle_of_not_fatal (h : reason.report? host = some fault)
    (hfatal : reporter.fatal = false) :
    settle host reason reporter state =
      ⟨Reporter.report host reporter.trace fault, reason.passedOn,
        { reporter with trace := reporter.trace.clear }, state⟩ := by
  cases reason with
  | exit status => simp [Stop.report?] at h
  | failure cause =>
      rw [settle_failure host cause _ (failureFault_of_report h)]
      simp only [bind_apply, reportFault_of_not_fatal hfatal, Step.andThen, stop, Step.after,
        Stop.passedOn, List.append_nil]
  | fault told =>
      obtain rfl : told = fault := Option.some.inj h
      exact reportFault_of_not_fatal hfatal
  | tooDeep =>
      obtain rfl : Fault.plain "expression nested too deeply" = fault := Option.some.inj h
      exact reportFault_of_not_fatal hfatal
  | interrupt =>
      obtain rfl : Fault.plain "keyboard interrupt" = fault := Option.some.inj h
      exact reportFault_of_not_fatal hfatal

theorem guarded_congr {act' : Action σ α} (host : Host)
    (h : act reporter state = act' reporter' state') :
    guarded host act reporter state = guarded host act' reporter' state' := by
  rw [guarded, guarded, h]

theorem guarded_of_ok {a : α} (h : act reporter state = ⟨printed, .ok a, reporter', state'⟩) :
    guarded host act reporter state = ⟨printed, .ok (some a), reporter', state'⟩ := by
  rw [guarded, h]

theorem guarded_of_fatal (h : act reporter state = ⟨printed, .error reason, reporter', state'⟩)
    (hreport : reason.report? host = some fault) (hfatal : reporter'.fatal = true) :
    guarded host act reporter state =
      ⟨printed ++ Reporter.report host reporter'.trace fault, .error (.exit (.code 1)),
        reporter', state'⟩ := by
  rw [guarded, h]
  simp [settle_of_fatal hreport hfatal, Step.after, Except.map]

theorem guarded_of_not_fatal
    (h : act reporter state = ⟨printed, .error reason, reporter', state'⟩)
    (hreport : reason.report? host = some fault) (hfatal : reporter'.fatal = false) :
    guarded host act reporter state =
      ⟨printed ++ Reporter.report host reporter'.trace fault, reason.passedOn.map fun _ => none,
        { reporter' with trace := reporter'.trace.clear }, state'⟩ := by
  rw [guarded, h]
  simp [settle_of_not_fatal hreport hfatal, Step.after]

/-- Whether it is fatal or not, a reason to stop is reported behind what was printed. -/
theorem printed_guarded_of_error
    (h : act reporter state = ⟨printed, .error reason, reporter', state'⟩)
    (hreport : reason.report? host = some fault) :
    (guarded host act reporter state).printed =
      printed ++ Reporter.report host reporter'.trace fault := by
  cases hfatal : reporter'.fatal with
  | true => rw [guarded_of_fatal h hreport hfatal]
  | false => rw [guarded_of_not_fatal h hreport hfatal]

end Action

/-! ### Reasons that come of texts -/

theorem Fault.compose_of_fill {topic : Topic} {subject message styled : Text} {others : List Text}
    {span : Span} {located internal : Bool}
    (hmessage : topic.template.fill host.attributes (subject :: others) = .ok message)
    (hstyled :
      topic.template.fill host.attributes ((subject :: others).map host.bold) = .ok styled) :
    compose host topic (subject :: others) span located internal =
      .ok ⟨topic, message, styled, subject,
        ⟨span.start, if span.stop = unknownEnd then span.start + subject.length else span.stop⟩,
        located, internal⟩ := by
  unfold compose
  rw [hmessage, hstyled]
  rfl

namespace Failure

variable {cause : Failure}

/-- What is told of a failure. -/
def wording (cause : Failure) : Text :=
  "unknown error: '".toList ++ cause.name ++ ": ".toList ++ cause.message ++ ['\'']

/-- The fault that tells of a failure in its own words. -/
def told (cause : Failure) : Fault :=
  ⟨.general (Template.ofText cause.wording), cause.wording, cause.wording, [], ⟨0, 0⟩, true, true⟩

theorem braceless_wording_iff :
    cause.wording.Braceless ↔ cause.name.Braceless ∧ cause.message.Braceless := by
  have hfirst : Text.Braceless "unknown error: '".toList := by simp [Text.Braceless]
  have hcolon : Text.Braceless ": ".toList := by simp [Text.Braceless]
  have hlast : Text.Braceless ['\''] := by simp [Text.Braceless]
  unfold wording
  simp only [Text.braceless_append, hfirst, hcolon, hlast, true_and, and_true]

/-- A failure without braces is reported in its own words. -/
theorem report?_of_braceless (host : Host) (hname : cause.name.Braceless)
    (hmessage : cause.message.Braceless) :
    (Stop.failure cause).report? host = some cause.told := by
  have hwording := braceless_wording_iff.2 ⟨hname, hmessage⟩
  have hfill := fun snippets =>
    Template.fill_ofText_of_no_brace host.attributes _ snippets hwording
  exact Action.report?_failure (Fault.compose_of_fill (hfill _) (hfill _))

theorem report?_unreadable (host : Host) (h : Numeral.Dotted text) :
    (Stop.failure (.unreadableNumeral text)).report? host =
      some (unreadableNumeral text).told := by
  have hname : Text.Braceless "ValueError".toList := by simp [Text.Braceless]
  have hlead : Text.Braceless "could not convert string to float: ".toList := by
    simp [Text.Braceless]
  have hmessage := Text.braceless_append.2
    ⟨hlead, Text.braceless_quoted (Numeral.braceless_of_dotted h)⟩
  exact report?_of_braceless host hname hmessage

theorem report?_nul (host : Host) :
    (Stop.failure .nulInPath).report? host = some nulInPath.told := by
  have hname : Text.Braceless "ValueError".toList := by simp [Text.Braceless]
  have hmessage : Text.Braceless "embedded null byte".toList := by simp [Text.Braceless]
  exact report?_of_braceless host hname hmessage

theorem report?_undecodable (host : Host) (broken : Utf8.Fault) :
    (Stop.failure (.undecodable broken)).report? host = some (undecodable broken).told := by
  have hname : Text.Braceless "UnicodeDecodeError".toList := by simp [Text.Braceless]
  exact report?_of_braceless host hname (Utf8.braceless_message broken)

end Failure

/-- Whatever stops the evaluation of a text is reported. -/
theorem exists_report_of_evaluate {newlines : Newlines}
    (h : evaluate host newlines text = .error reason) :
    ∃ fault, reason.report? host = some fault := by
  cases hparse : Tree.parse newlines text with
  | error e =>
      rw [evaluate_of_parse_eq_error hparse, Except.error.injEq] at h
      by_cases hshallow : Token.Shallow Tree.nestingLimit (Token.lex newlines text)
      · obtain ⟨fault, hstop, -⟩ := exists_fault_of_parse_eq_error hshallow hparse
        exact ⟨fault, by rw [← h, hstop]; rfl⟩
      · rw [Verdict.parse_eq_tooDeep_iff.2 hshallow, Except.error.injEq] at hparse
        subst hparse
        exact ⟨_, by rw [← h]; rfl⟩
  | ok tree =>
      cases hvalue : tree.value with
      | ok x => simp [evaluate, hparse, hvalue] at h
      | error f =>
          by_cases hdotted : ∃ word, MeetsDotted newlines text word
          · obtain ⟨word, hword⟩ := hdotted
            rw [evaluate_of_meetsDotted hword, Except.error.injEq] at h
            obtain ⟨-, -, -, -, -, -, -, hdotted⟩ := hword
            exact ⟨_, h ▸ Failure.report?_unreadable host hdotted⟩
          · obtain ⟨fault, hfault, -⟩ :=
              exists_fault_of_value_eq_error hparse hvalue (not_exists.1 hdotted)
            rw [h, Except.error.injEq] at hfault
            exact ⟨fault, by rw [hfault]; rfl⟩

theorem exists_report_of_evaluateWithin {newlines : Newlines} {calls : Nat}
    (h : evaluateWithin host calls newlines text = .error reason) :
    ∃ fault, reason.report? host = some fault := by
  rcases evaluateWithin_eq host calls newlines text with hdeep | hsame
  · rw [hdeep, Except.error.injEq] at h
    exact ⟨_, by rw [← h]; rfl⟩
  · exact exists_report_of_evaluate (hsame.symm.trans h)

end BracketCalc
