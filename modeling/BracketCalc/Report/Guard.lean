import BracketCalc.Report.Action
/-!
# Guards

A guard reports why an action stopped, and lets the work behind it go on,
unless the fault is fatal, the program was to be left, or the calculator itself
has failed.
-/

namespace BracketCalc.Action

variable {σ α : Type}

/-- Reports a fault.  A fatal one ends the program, after any other nothing is in work. -/
def reportFault (host : Host) (fault : Fault) : Action σ Unit :=
  fun reporter state =>
    let report := Reporter.report host reporter.trace fault
    if reporter.fatal then ⟨report, .error (.exit (.code 1)), reporter, state⟩
    else ⟨report, .ok (), { reporter with trace := reporter.trace.clear }, state⟩

/-- The report of a failure, which is put into the message as a template. -/
def failureFault (host : Host) (failure : Failure) : Except Template.Fault Fault :=
  let text := "unknown error: '".toList ++ failure.name ++ ": ".toList ++ failure.message ++ ['\'']
  Fault.compose host (.general (Template.ofText text)) [[]] ⟨0, Fault.unknownEnd⟩ true true

/-- Reports why work stopped.  Leaving the program needs no report, and a failure stops the work
beyond its report, too. -/
def settle (host : Host) : Stop → Action σ Unit
  | .fault fault => reportFault host fault
  | .tooDeep => reportFault host (Fault.plain "expression nested too deeply")
  | .interrupt => reportFault host (Fault.plain "keyboard interrupt")
  | .exit status => stop (.exit status)
  | .failure failure =>
      match failureFault host failure with
      | .error fault => stop (.failure (.template fault))
      | .ok fault => do
          reportFault host fault
          stop (.failure failure)

/-- The action with a report of why it stopped.  It has no result then. -/
def guarded (host : Host) (act : Action σ α) : Action σ (Option α) :=
  fun reporter state =>
    match act reporter state with
    | ⟨printed, .ok a, reporter, state⟩ => ⟨printed, .ok (some a), reporter, state⟩
    | ⟨printed, .error reason, reporter, state⟩ =>
        let step := settle host reason reporter state
        Step.after ⟨step.printed, step.ended.map fun _ => none, step.reporter, step.state⟩ printed

end BracketCalc.Action
