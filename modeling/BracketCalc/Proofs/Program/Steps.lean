import BracketCalc.Program
import BracketCalc.Proofs.Worksheet.Files
/-!
# What the program does

The program reads the expression in a file and evaluates it.  What it leaves is
given in full, for an expression with a value, for one without, and for a file
that gives no text.
-/

namespace BracketCalc.Program

open Worksheet

variable {host : Host} {files : Text → Option (List UInt8)} {path text : Text}
  {settings : Settings} {x : Float} {reason : Stop} {fault : Fault} {fatal : Bool}

theorem runGuarded_eq {act : Action Unit Unit} {step : Step Unit (Option Unit)}
    (h : Action.guarded host act (Reporter.fresh true) () = step) :
    runGuarded host act = ⟨step.printed, [], step.ended.map fun _ => ()⟩ := by
  rw [runGuarded, h]

theorem entered_fresh (path : Text) (fatal : Bool) :
    entered path false (Reporter.fresh fatal) = ⟨fatal, [(path, none)]⟩ := rfl

theorem start_fresh_of_ok {tree : Tree} (hgives : Gives files path text)
    (h : Tree.parse settings.newlines (Source.clean text) = .ok tree) :
    start host files path false settings (Reporter.fresh fatal) () =
      ⟨[], .ok ⟨path, settings, [⟨1, Source.clean text, tree⟩], []⟩, ⟨fatal, [(path, none)]⟩,
        ()⟩ := by
  rw [start_of_gives hgives (add_idle_of_ok h), entered_fresh, Reporter.at_only]
  rfl

theorem evaluateFile_apply_of_value (hgives : Gives files path text)
    (h : evaluateWithin host Tree.callLimit settings.newlines (Source.clean text) = .ok x) :
    evaluateFile host files path settings (Reporter.fresh fatal) () =
      ⟨display host settings (Source.clean text) ++ (answer host x ++ ['\n']), .ok (),
        ⟨fatal, [(path, none)]⟩, ()⟩ := by
  obtain ⟨tree, hparse, hvalue⟩ := exists_tree_of_evaluateWithin h
  have hrun : Worksheet.run host ⟨fatal, [(path, none)]⟩
      ⟨path, settings, [⟨1, Source.clean text, tree⟩], []⟩ =
        ⟨display host settings (Source.clean text), .ok (), ⟨fatal, [(path, none)]⟩,
          ⟨path, settings, [], [⟨Source.clean text, tree, x⟩]⟩⟩ := by
    rw [run_added_of_ok hparse hvalue, Reporter.at_only]
  have hown := Action.onOwn_of_eq hrun ()
  rw [evaluateFile, Action.bind_of_ok (start_fresh_of_ok hgives hparse), Action.bind_of_ok hown]
  simp [Action.print, Step.after]

/-- A file whose expression has a value is answered. -/
theorem evaluateFile_of_value (hgives : Gives files path text)
    (h : evaluateWithin host Tree.callLimit settings.newlines (Source.clean text) = .ok x) :
    runGuarded host (evaluateFile host files path settings) =
      ⟨display host settings (Source.clean text) ++ (answer host x ++ ['\n']), [],
        .ok ()⟩ :=
  runGuarded_eq (Action.guarded_of_ok (evaluateFile_apply_of_value hgives h))

/-- What stops the expression in a file stops the program, with the expression in work. -/
theorem evaluateFile_apply_of_stop (hgives : Gives files path text)
    (h : evaluateWithin host Tree.callLimit settings.newlines (Source.clean text) = .error reason) :
    evaluateFile host files path settings (Reporter.fresh fatal) () =
      ⟨display host settings (Source.clean text), .error reason,
        ⟨fatal, [(path, some ⟨Source.clean text, 1⟩)]⟩, ()⟩ := by
  cases hparse : Tree.parse settings.newlines (Source.clean text) with
  | error e =>
      rw [evaluateWithin_of_parse_eq_error hparse, Except.error.injEq] at h
      have hstart : start host files path false settings (Reporter.fresh fatal) () =
          ⟨[], .error reason, ⟨fatal, [(path, some ⟨Source.clean text, 1⟩)]⟩, ()⟩ := by
        rw [start_of_gives hgives (add_idle_of_error hparse), entered_fresh,
          Reporter.at_only, h]
        rfl
      rw [evaluateFile, Action.bind_of_error hstart, display, hparse]
  | ok tree =>
      rw [evaluateWithin_of_parse_eq_ok hparse] at h
      have hrun : Worksheet.run host ⟨fatal, [(path, none)]⟩
          ⟨path, settings, [⟨1, Source.clean text, tree⟩], []⟩ =
            ⟨display host settings (Source.clean text), .error reason,
              ⟨fatal, [(path, some ⟨Source.clean text, 1⟩)]⟩, idle path settings⟩ := by
        rw [run_added_of_error hparse h, Reporter.at_only]
      have hown := Action.onOwn_of_eq hrun ()
      rw [evaluateFile, Action.bind_of_ok (start_fresh_of_ok hgives hparse),
        Action.bind_of_error hown]
      rfl

/-- The program is stopped by what stops the evaluation of the text in its file. -/
theorem evaluateWithin_of_evaluateFile_ended (hgives : Gives files path text)
    (h : (evaluateFile host files path settings (Reporter.fresh fatal) ()).ended =
      .error reason) :
    evaluateWithin host Tree.callLimit settings.newlines (Source.clean text) = .error reason := by
  cases hevaluate : evaluateWithin host Tree.callLimit settings.newlines (Source.clean text) with
  | ok x =>
      rw [evaluateFile_apply_of_value hgives hevaluate] at h
      cases h
  | error other =>
      rw [evaluateFile_apply_of_stop hgives hevaluate] at h
      exact congrArg Except.error (Except.error.inj h)

/-- What stops the expression in a file is reported, and ends the program. -/
theorem evaluateFile_of_stop (hgives : Gives files path text)
    (h : evaluateWithin host Tree.callLimit settings.newlines (Source.clean text) = .error reason)
    (hreport : reason.report? host = some fault) :
    runGuarded host (evaluateFile host files path settings) =
      ⟨display host settings (Source.clean text) ++
          Reporter.report host [(path, some ⟨Source.clean text, 1⟩)] fault, [],
        .error (.exit (.code 1))⟩ :=
  runGuarded_eq (Action.guarded_of_fatal (evaluateFile_apply_of_stop hgives h) hreport rfl)

theorem evaluateFile_apply_of_unreadable (hpath : path ≠ consolePath)
    (h : Unreadable host files path reason) :
    evaluateFile host files path settings (Reporter.fresh true) () =
      ⟨[], .error reason, ⟨true, [(path, none)]⟩, ()⟩ := by
  have hstart : start host files path false settings (Reporter.fresh true) () =
      ⟨[], .error reason, ⟨true, [(path, none)]⟩, ()⟩ := by
    rw [start_of_unreadable hpath h, entered_fresh]
  rw [evaluateFile, Action.bind_of_error hstart]

/-- A file that gives no text is reported, with no passage in work, and ends the program. -/
theorem evaluateFile_of_unreadable (hpath : path ≠ consolePath)
    (h : Unreadable host files path reason) (hreport : reason.report? host = some fault) :
    runGuarded host (evaluateFile host files path settings) =
      ⟨Reporter.report host [(path, none)] fault, [], .error (.exit (.code 1))⟩ :=
  runGuarded_eq (Action.guarded_of_fatal (evaluateFile_apply_of_unreadable hpath h) hreport rfl)

end BracketCalc.Program
