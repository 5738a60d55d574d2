import BracketCalc.Proofs.Report.Guarded
import BracketCalc.Proofs.Text.Filled
/-!
# Failures in their own words

A failure is reported as what its wording gives when it is filled as a template.
That is the wording itself exactly if the name and the message of the failure
have no braces, as long as they ask for no attribute of a text.  Where the wording
cannot be filled, nothing is reported, and the failure to fill it takes the place
of the failure itself.
-/

namespace BracketCalc

/-- What a report says of the files in work, when the fault starts at an offset. -/
def Reporter.headings (trace : Trace) (offset : Nat) : Text :=
  (if 1 < trace.passages.length then "Traceback:\n".toList else []) ++
    trace.passages.flatMap fun (path, passage) => heading path passage offset

/-- The last words of the report of an internal fault. -/
def Reporter.internalNotice (host : Host) (text : Text) : Text :=
  host.alarm "[internal] ".toList ++ host.alarm "error: ".toList ++ text ++ ['\n']

theorem Reporter.report_of_internal {host : Host} {fault : Fault} (trace : Trace)
    (h : fault.internal = true) :
    report host trace fault =
      headings trace fault.span.start.toNat ++ internalNotice host fault.styled := by
  unfold report headings internalNotice
  cases hlast : trace.passages.getLast? with
  | none => simp only [h, hlast, if_true, List.append_assoc]
  | some last =>
      simp only [h, hlast, if_true, List.append_assoc, Bool.not_true, Bool.and_false,
        Bool.false_eq_true, if_false]

/-- The host without attributes of texts. -/
def Host.bare (host : Host) : Host := { host with attributes := .none }

/-- A fault that can be composed without attributes is composed alike with them. -/
theorem Fault.compose_of_bare {host : Host} {topic : Topic} {snippets : List Text} {span : Span}
    {located internal : Bool} {fault : Fault}
    (h : compose host.bare topic snippets span located internal = .ok fault) :
    compose host topic snippets span located internal = .ok fault := by
  unfold compose Host.bare at h
  unfold compose
  cases hmessage : topic.template.fill .none snippets with
  | error broken =>
      rw [hmessage] at h
      cases h
  | ok message =>
      cases hstyled : topic.template.fill .none (snippets.map host.bold) with
      | error broken =>
          rw [hmessage, hstyled] at h
          cases h
      | ok styled =>
          rw [hmessage, hstyled] at h
          rw [Template.fill_of_none hmessage, Template.fill_of_none hstyled]
          exact h

namespace Action

variable {σ α : Type} {host : Host} {cause : Failure} {act : Action σ α}
  {reporter reporter' : Reporter} {state state' : σ} {printed : Text} {fault : Fault}

/-- The step that prints one report of a failure, with the given text, and then passes the failure
on with nothing in work, or ends the program. -/
def reportedAs (host : Host) (cause : Failure) (text printed : Text) (reporter : Reporter)
    (state : σ) : Step σ (Option α) :=
  let report := Reporter.headings reporter.trace 0 ++ Reporter.internalNotice host text
  if reporter.fatal then ⟨printed ++ report, .error (.exit (.code 1)), reporter, state⟩
  else
    ⟨printed ++ report, .error (.failure cause), { reporter with trace := reporter.trace.clear },
      state⟩

theorem guarded_of_failureFault
    (h : act reporter state = ⟨printed, .error (.failure cause), reporter', state'⟩)
    (hfault : failureFault host cause = .ok fault) :
    guarded host act reporter state =
      reportedAs host cause fault.styled printed reporter' state' := by
  have hreport := report?_failure hfault
  obtain ⟨-, hstart, -, hinternal⟩ := Fault.compose_eq_ok hfault
  have htold : Reporter.report host reporter'.trace fault =
      Reporter.headings reporter'.trace 0 ++ Reporter.internalNotice host fault.styled := by
    rw [Reporter.report_of_internal _ hinternal, hstart]
    rfl
  unfold reportedAs
  cases hfatal : reporter'.fatal with
  | true => rw [guarded_of_fatal h hreport hfatal, htold, if_pos rfl]
  | false =>
      rw [guarded_of_not_fatal h hreport hfatal, htold, if_neg Bool.false_ne_true, hfatal]
      rfl

theorem guarded_of_broken {broken : Template.Fault}
    (h : act reporter state = ⟨printed, .error (.failure cause), reporter', state'⟩)
    (hfault : failureFault host cause = .error broken) :
    guarded host act reporter state =
      ⟨printed, .error (.failure (.template broken)), reporter', state'⟩ := by
  unfold guarded
  rw [h]
  simp only [settle_failure host cause _ hfault, stop, Step.after, List.append_nil, Except.map]

theorem braceless_of_failureFault (hbold : Style.Wraps host.bold)
    (h : failureFault host.bare cause = .ok fault) (hstyled : fault.styled = cause.wording) :
    cause.wording.Braceless := by
  have hfill : (Template.ofText cause.wording).fill .none [host.bold []] = .ok fault.styled :=
    (Fault.compose_eq_ok h).1
  rw [hstyled] at hfill
  refine (Template.fill_ofText_eq_iff fun s hs => ?_).1 hfill
  rw [List.mem_singleton.1 hs]
  exact hbold.braceless Text.braceless_nil

theorem styled_of_reportedAs {text text' : Text}
    (h : (reportedAs host cause text printed reporter state : Step σ (Option α)) =
      reportedAs host cause text' printed reporter state) : text = text' := by
  have hprinted := congrArg Step.printed h
  unfold reportedAs Reporter.internalNotice at hprinted
  cases hfatal : reporter.fatal with
  | true => simpa [hfatal] using hprinted
  | false => simpa [hfatal] using hprinted

theorem printed_reportedAs_ne (text : Text) :
    (reportedAs host cause text printed reporter state : Step σ (Option α)).printed ≠
      printed := by
  unfold reportedAs Reporter.internalNotice
  split <;> simp

/-- A guard reports a failure in its own words exactly if these have no braces, or if they can only
be filled with an attribute, which then gives them back.  Whenever the words can be filled, it
reports what they give.  Otherwise it reports nothing and is stopped by the failure to fill them. -/
theorem guarded_failure_verbatim_iff (hbold : Style.Wraps host.bold)
    (h : act reporter state = ⟨printed, .error (.failure cause), reporter', state'⟩) :
    (guarded host act reporter state =
        reportedAs host cause cause.wording printed reporter' state' ↔
      cause.name.Braceless ∧ cause.message.Braceless ∨
        (∃ broken, failureFault host.bare cause = .error broken) ∧
          ∃ fault, failureFault host cause = .ok fault ∧ fault.styled = cause.wording) ∧
    (∀ fault, failureFault host cause = .ok fault →
      guarded host act reporter state =
        reportedAs host cause fault.styled printed reporter' state') ∧
    ∀ broken, failureFault host cause = .error broken →
      guarded host act reporter state =
        ⟨printed, .error (.failure (.template broken)), reporter', state'⟩ := by
  refine ⟨?_, fun _ => guarded_of_failureFault h, fun _ => guarded_of_broken h⟩
  constructor
  · intro hverbatim
    cases hfault : failureFault host cause with
    | error broken =>
        rw [guarded_of_broken h hfault] at hverbatim
        exact absurd (congrArg Step.printed hverbatim).symm (printed_reportedAs_ne _)
    | ok fault =>
        rw [guarded_of_failureFault h hfault] at hverbatim
        have hstyled := styled_of_reportedAs hverbatim
        cases hbare : failureFault host.bare cause with
        | error broken => exact .inr ⟨⟨broken, rfl⟩, fault, rfl, hstyled⟩
        | ok told =>
            have hsame : failureFault host cause = .ok told := Fault.compose_of_bare hbare
            obtain rfl : fault = told := Except.ok.inj (hfault.symm.trans hsame)
            exact .inl (Failure.braceless_wording_iff.1
              (braceless_of_failureFault hbold hbare hstyled))
  · rintro (⟨hname, hmessage⟩ | ⟨-, fault, hfault, hstyled⟩)
    · have hreport := Failure.report?_of_braceless host hname hmessage
      exact guarded_of_failureFault h (failureFault_of_report hreport)
    · rw [guarded_of_failureFault h hfault, hstyled]

/-- A message with a field: nothing is reported, and a failure of the template takes the place of
the one that stopped the work. -/
theorem guarded_failure_masked :
    let cause : Failure := .named "ValueError".toList ['\x7b', 'x', '\x7d']
    let act : Action Unit Unit := stop (.failure cause)
    Style.Wraps Host.plain.bold ∧
      act (Reporter.fresh false) () = ⟨[], .error (.failure cause), Reporter.fresh false, ()⟩ ∧
      guarded .plain act (Reporter.fresh false) () ≠
        reportedAs .plain cause cause.wording [] (Reporter.fresh false) () ∧
      guarded .plain act (Reporter.fresh false) () =
        ⟨[], .error (.failure (.template (.unknownName ['x']))), Reporter.fresh false, ()⟩ := by
  intro cause act
  have hbold : Style.Wraps Host.plain.bold := Style.wraps_id
  have hact : act (Reporter.fresh false) () =
      ⟨[], .error (.failure cause), Reporter.fresh false, ()⟩ := rfl
  have hmasked : failureFault Host.plain cause = .error (.unknownName ['x']) := rfl
  obtain ⟨hiff, -, hbroken⟩ := guarded_failure_verbatim_iff hbold hact
  refine ⟨hbold, hact, fun hverbatim => ?_, hbroken _ hmasked⟩
  rcases hiff.1 hverbatim with ⟨-, hbraceless⟩ | ⟨-, fault, hfault, -⟩
  · exact (hbraceless '\x7b' List.mem_cons_self).1 rfl
  · rw [hmasked] at hfault
    cases hfault

/-- A message that asks for the class of a text is reported with the name of the class in it. -/
example :
    let shown : Template.Selected := fun _ => .ok fun _ => .ok "<class 'str'>".toList
    let host : Host := ⟨.plain, fun _ _ _ => .ok shown⟩
    let cause : Failure := .named "ValueError".toList "\x7b.__class__\x7d".toList
    (guarded host (stop (.failure cause) : Action Unit Unit) (Reporter.fresh false) ()).printed =
      "[internal] error: unknown error: 'ValueError: <class 'str'>'\n".toList := by
  decide +kernel

end Action

end BracketCalc
