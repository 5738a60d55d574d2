import BracketCalc.Proofs.CommandLine
import BracketCalc.Proofs.Program.Steps
/-!
# How the program ends on a file

The program ends with the answer and its tree, or with one report and the exit
code 1.  A report stands behind the tree if the expression was read, and alone
otherwise.  How the file is evaluated is said by the options on the command
line.
-/

namespace BracketCalc.Program

open Worksheet

variable {host : Host} {files : Text → Option (List UInt8)} {path text : Text}
  {settings : Settings} {outcome : Outcome} {arguments options : List Text}

/-- What the program leaves when it reports a fault behind what it has shown. -/
def reported (host : Host) (shown : Text) (trace : Trace) (fault : Fault) : Outcome :=
  ⟨shown ++ Reporter.report host trace fault, [], .error (.exit (.code 1))⟩

/-- The outcomes of the evaluation of a file. -/
inductive Ends (host : Host) (files : Text → Option (List UInt8)) (path : Text)
    (settings : Settings) : Outcome → Prop where
  | answered {text : Text} {tree : Tree} {x : Float} : Gives files path text →
      Tree.parse settings.newlines (Source.clean text) = .ok tree →
      tree.evaluateWithin host Tree.callLimit = .ok x →
      Ends host files path settings
        ⟨displayed host settings tree ++ (answer host x ++ ['\n']), [], .ok ()⟩
  | notRead {reason : Stop} {fault : Fault} : Unreadable host files path reason →
      reason.report? host = some fault →
      Ends host files path settings (reported host [] [(path, none)] fault)
  | notParsed {text : Text} {error : ParseError} {fault : Fault} : Gives files path text →
      Tree.parse settings.newlines (Source.clean text) = .error error →
      (error.stop host).report? host = some fault →
      Ends host files path settings
        (reported host [] [(path, some ⟨Source.clean text, 1⟩)] fault)
  | notEvaluated {text : Text} {tree : Tree} {reason : Stop} {fault : Fault} :
      Gives files path text → Tree.parse settings.newlines (Source.clean text) = .ok tree →
      tree.evaluateWithin host Tree.callLimit = .error reason →
      reason.report? host = some fault →
      Ends host files path settings
        (reported host (displayed host settings tree)
          [(path, some ⟨Source.clean text, 1⟩)] fault)

theorem ends_of_gives (host : Host) (settings : Settings) (hgives : Gives files path text) :
    Ends host files path settings
      (runGuarded host (evaluateFile host files path settings)) := by
  cases hparse : Tree.parse settings.newlines (Source.clean text) with
  | error error =>
      have hevaluate : evaluateWithin host Tree.callLimit settings.newlines (Source.clean text) =
          .error (error.stop host) := evaluateWithin_of_parse_eq_error hparse
      obtain ⟨fault, hreport⟩ := exists_report_of_evaluateWithin hevaluate
      rw [evaluateFile_of_stop hgives hevaluate hreport, display, hparse]
      exact .notParsed hgives hparse hreport
  | ok tree =>
      have hevaluate : evaluateWithin host Tree.callLimit settings.newlines (Source.clean text) =
          tree.evaluateWithin host Tree.callLimit := evaluateWithin_of_parse_eq_ok hparse
      cases hvalue : tree.evaluateWithin host Tree.callLimit with
      | error reason =>
          rw [hvalue] at hevaluate
          obtain ⟨fault, hreport⟩ := exists_report_of_evaluateWithin hevaluate
          rw [evaluateFile_of_stop hgives hevaluate hreport, display, hparse]
          exact .notEvaluated hgives hparse hvalue hreport
      | ok x =>
          rw [hvalue] at hevaluate
          rw [evaluateFile_of_value hgives hevaluate, display, hparse]
          exact .answered hgives hparse hvalue

theorem ends_evaluateFile (host : Host) (files : Text → Option (List UInt8))
    (settings : Settings) (hpath : path ≠ consolePath) :
    Ends host files path settings
      (runGuarded host (evaluateFile host files path settings)) := by
  rcases gives_or_unreadable host files hpath with ⟨text, hgives⟩ | ⟨reason, hunreadable⟩
  · exact ends_of_gives host settings hgives
  · obtain ⟨fault, hreport⟩ := hunreadable.exists_report
    rw [evaluateFile_of_unreadable hpath hunreadable hreport]
    exact .notRead hunreadable hreport

namespace Ends

theorem ended_eq (h : Ends host files path settings outcome) :
    outcome.ended = .ok () ∨ outcome.ended = .error (.exit (.code 1)) := by
  cases h with
  | answered _ _ _ => exact .inl rfl
  | notRead _ _ => exact .inr rfl
  | notParsed _ _ _ => exact .inr rfl
  | notEvaluated _ _ _ _ => exact .inr rfl

/-- The program ends normally exactly if the file gives a text with a value. -/
theorem ended_ok_iff (h : Ends host files path settings outcome) :
    outcome.ended = .ok () ↔ ∃ text x, Gives files path text ∧
      evaluateWithin host Tree.callLimit settings.newlines (Source.clean text) = .ok x := by
  constructor
  · intro hok
    cases h with
    | answered hgives hparse hvalue =>
        exact ⟨_, _, hgives, (evaluateWithin_of_parse_eq_ok hparse).trans hvalue⟩
    | notRead _ _ => cases hok
    | notParsed _ _ _ => cases hok
    | notEvaluated _ _ _ _ => cases hok
  · rintro ⟨text, x, hgives, hx⟩
    obtain ⟨tree, hparse, hvalue⟩ := exists_tree_of_evaluateWithin hx
    cases h with
    | answered _ _ _ => rfl
    | notRead hunreadable _ => exact absurd hgives (hunreadable.not_gives text)
    | notParsed hgives' hparse' _ =>
        rw [hgives'.unique hgives, hparse] at hparse'
        cases hparse'
    | notEvaluated hgives' hparse' hvalue' _ =>
        rw [hgives'.unique hgives, hparse, Except.ok.injEq] at hparse'
        rw [← hparse', hvalue] at hvalue'
        cases hvalue'

end Ends

end BracketCalc.Program
