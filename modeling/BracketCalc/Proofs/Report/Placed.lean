import BracketCalc.Proofs.Fault.Placed
import BracketCalc.Proofs.Report.Guarded
import BracketCalc.Proofs.Token.Lines
/-!
# Reports at other places

What stops the work is reported by the same fault wherever it is, up to its
place.  When one file is in work, the report names the line of the file in which
the fault starts.
-/

namespace BracketCalc

variable {f g : Int → Int} {host : Host} {reason reason' : Stop} {fault : Fault}

/-- Only faults have places. -/
theorem Stop.cases_of_placed (h : reason.placed f = reason'.placed g) :
    (∃ told told', reason = .fault told ∧ reason' = .fault told' ∧
      told.placed f = told'.placed g) ∨
    reason' = reason ∧ ∀ told, reason ≠ .fault told := by
  cases reason <;> cases reason' <;> simp_all [Stop.placed]

theorem Stop.start_of_report (h : reason.report? host = some fault)
    (hfault : ∀ told, reason ≠ .fault told) : fault.span.start = 0 := by
  cases reason with
  | fault told => exact absurd rfl (hfault told)
  | tooDeep =>
      obtain rfl : Fault.plain "expression nested too deeply" = fault := Option.some.inj h
      rfl
  | interrupt =>
      obtain rfl : Fault.plain "keyboard interrupt" = fault := Option.some.inj h
      rfl
  | exit status => cases h
  | failure cause => exact (Fault.compose_eq_ok (Action.failureFault_of_report h)).2.1

/-- What stops the work is reported by the same fault, up to its place, and the work goes on behind
the report in the same way. -/
theorem Stop.report?_placed (hf : f 0 = 0) (hg : g 0 = 0)
    (h : reason.placed f = reason'.placed g) (hreport : reason.report? host = some fault) :
    reason'.passedOn = reason.passedOn ∧
      ∃ fault', reason'.report? host = some fault' ∧ fault'.placed g = fault.placed f := by
  rcases cases_of_placed h with ⟨told, told', rfl, rfl, htold⟩ | ⟨rfl, hfault⟩
  · obtain rfl : told = fault := Option.some.inj hreport
    exact ⟨rfl, told', rfl, htold.symm⟩
  · refine ⟨rfl, fault, hreport, ?_⟩
    have hstart := start_of_report hreport hfault
    simp only [Fault.placed, Span.placed, hstart, hf, hg]

/-- Faults that are the same up to their places have the same message, and the numbers of their
places are the same. -/
theorem Fault.same_of_placed {fault' : Fault} (h : fault'.placed g = fault.placed f) :
    fault'.topic = fault.topic ∧ fault'.message = fault.message ∧ fault'.styled = fault.styled ∧
      g fault'.span.start = f fault.span.start := by
  obtain ⟨topic, message, styled, subject, span, located, internal⟩ := fault
  obtain ⟨topic', message', styled', subject', span', located', internal'⟩ := fault'
  simp only [placed, Span.placed, Fault.mk.injEq, Span.mk.injEq] at h
  exact ⟨h.1, h.2.1, h.2.2.1, h.2.2.2.2.1.1⟩

/-! ### Lines in reports -/

/-- The number of the line in which a fault starts. -/
def Fault.line (passage : Passage) (fault : Fault) : Int :=
  passage.number + Token.lineOf passage.source fault.span.start

/-- A report starts with the name of a file and the number of a line. -/
def Reporter.Names (told path : Text) (line : Int) : Prop :=
  "  File '".toList ++ path ++ "', line ".toList ++ Text.ofInt line ++ [':', '\n'] <+: told

theorem Reporter.heading_eq (path : Text) (passage : Passage) (fault : Fault) :
    heading path passage fault.span.start.toNat =
      "  File '".toList ++ path ++ "', line ".toList ++ Text.ofInt (fault.line passage) ++
        [':', '\n'] ++
        ("    ".toList ++ (Place.ofOffset passage.source fault.span.start.toNat).line ++
          ['\n']) := by
  have hcolon : ":\n    ".toList = [':', '\n'] ++ "    ".toList := rfl
  unfold heading Fault.line Token.lineOf
  rw [hcolon]
  simp only [List.append_assoc]

theorem Reporter.names_line {path : Text} {passage : Passage} (h : passage.source ≠ [])
    (host : Host) (fault : Fault) :
    Names (report host [(path, some passage)] fault) path (fault.line passage) := by
  have hpassages : Trace.passages [(path, some passage)] = [(path, passage)] := by
    simp [Trace.passages, h]
  have htold : heading path passage fault.span.start.toNat <+:
      report host [(path, some passage)] fault := by
    unfold report
    simp only [hpassages, List.length_singleton, Nat.lt_irrefl, if_false, List.flatMap_singleton,
      List.nil_append, List.append_assoc]
    exact List.prefix_append _ _
  rw [heading_eq] at htold
  exact (List.prefix_append _ _).trans htold

end BracketCalc
