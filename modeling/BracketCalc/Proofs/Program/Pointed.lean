import BracketCalc.Proofs.Fault.Offender
import BracketCalc.Proofs.Program.Steps
import BracketCalc.Proofs.Report.Place
/-!
# Reports point into the file

What is evaluated is the text of a file without its comments, but each of its
lines is a first part of the line of the file.  So a report names the line of
the file in which the fault starts, and points at the column of the file where
the bracket or the node to blame begins.
-/

namespace BracketCalc

/-! ### Lines of files -/

/-- An offset in a cleaned text lies in a cleaned line of the text. -/
theorem Place.exists_line_of_clean (text : Text) (offset : Nat) :
    let place := ofOffset (Source.clean text) offset
    ∃ line, text.lines[place.lineIndex]? = some line ∧ place.line = Source.cleanLine line := by
  intro place
  have hshown : (Source.clean text).lines[place.lineIndex]? = some place.line :=
    getElem?_lines (Source.clean text) offset
  rw [Source.lines_clean, List.getElem?_map, Option.map_eq_some_iff] at hshown
  obtain ⟨line, hline, hclean⟩ := hshown
  exact ⟨line, hline, hclean.symm⟩

/-! ### Reports -/

/-- The report of a fault in a line of a file, of which a first part is shown.  It names the number
of the line, tells the message, and points at some characters of the line from a column on. -/
def Reporter.pointing (host : Host) (path line shown styled : Text)
    (number column width : Nat) : Text :=
  "  File '".toList ++ path ++ "', line ".toList ++ Text.ofNat number ++ ":\n    ".toList ++ shown
    ++ '\n' :: host.alarm "error: ".toList ++ styled
    ++ '\n' :: Text.spaces 2 ++ line.take column ++ host.alarm ((line.drop column).take width)
    ++ shown.drop (column + width)
    ++ '\n' :: Text.spaces 2 ++ Text.spaces column
    ++ host.alarm ('^' :: List.replicate (width - 1) '~') ++ ['\n']

section Report

variable {host : Host} {path line source : Text} {fault : Fault} {place : Place}
  {width : Nat}

theorem Diagnosis.render_of_isPrefix {span : Span}
    (hplace : Place.ofOffset source span.start.toNat = place) (hline : place.line <+: line)
    (hwidth : width = min (span.stop - span.start).toNat (place.line.length - place.column))
    (hpos : 1 ≤ width) :
    render host source span =
      Text.spaces 2 ++ line.take place.column
        ++ host.alarm ((line.drop place.column).take width)
        ++ place.line.drop (place.column + width)
        ++ '\n' :: Text.spaces 2 ++ Text.spaces place.column
        ++ host.alarm ('^' :: List.replicate (width - 1) '~') := by
  obtain ⟨k, shown, column⟩ := place
  obtain ⟨rest, rfl⟩ := hline
  dsimp only at hwidth ⊢
  have hmarked : Diagnosis.width shown column span = width := by
    unfold Diagnosis.width
    omega
  have hcolumn : column ≤ shown.length := by omega
  have hbefore : (shown ++ rest).take column = shown.take column :=
    List.take_append_of_le_length hcolumn
  have hfits : width ≤ (shown.drop column).length := by
    rw [List.length_drop]
    omega
  have hwithin : ((shown ++ rest).drop column).take width = (shown.drop column).take width := by
    rw [List.drop_append_of_le_length hcolumn, List.take_append_of_le_length hfits]
  unfold render underline
  simp only [hplace, hmarked, hbefore, hwithin, List.drop_drop]

theorem Reporter.report_eq_pointing (hsource : source ≠ []) (hlocated : fault.located = true)
    (hinternal : fault.internal = false)
    (hplace : Place.ofOffset source fault.span.start.toNat = place)
    (hline : place.line <+: line)
    (hwidth : width =
      min (fault.span.stop - fault.span.start).toNat (place.line.length - place.column))
    (hpos : 1 ≤ width) :
    report host [(path, some ⟨source, 1⟩)] fault =
      pointing host path line place.line fault.styled (place.lineIndex + 1) place.column
        width := by
  have hpassages : Trace.passages [(path, some ⟨source, 1⟩)] = [(path, ⟨source, 1⟩)] := by
    simp [Trace.passages, hsource]
  have hnumber : Text.ofInt (1 + (place.lineIndex : Int)) = Text.ofNat (place.lineIndex + 1) := by
    rw [Int.add_comm]
    rfl
  have hrender : Diagnosis.render host source fault.span = _ :=
    Diagnosis.render_of_isPrefix hplace hline hwidth hpos
  unfold report heading pointing
  simp only [hpassages, hlocated, hinternal, hplace, hnumber, hrender, List.length_singleton,
    List.flatMap_singleton, List.getLast?_singleton, Nat.lt_irrefl, if_false, Bool.false_eq_true,
    Bool.not_false, Bool.and_self, if_true, List.nil_append, List.append_assoc, List.cons_append]

end Report

namespace Program

open Worksheet

variable {host : Host} {files : Text → Option (List UInt8)} {path text : Text}
  {settings : Settings} {fault : Fault} {fatal : Bool}

/-- The report of a located fault of a file names the line of the file in which the fault starts,
shows the line without its comment, and points at the characters of the line that the span of the
fault has in it, of which the first is that of the bracket or the node to blame. -/
theorem evaluateFile_report_points (hgives : Gives files path text)
    (hended : (evaluateFile host files path settings (Reporter.fresh fatal) ()).ended =
      .error (.fault fault)) (hlocated : fault.located = true) :
    let source := Source.clean text
    let place := Place.ofOffset source fault.span.start.toNat
    let width := min (fault.span.stop - fault.span.start).toNat (place.line.length - place.column)
    ∃ whole tokens first c,
      text.lines[place.lineIndex]? = some whole ∧ place.line = Source.cleanLine whole ∧
      Offender host settings.newlines source fault tokens ∧
      tokens.head? = some first ∧ first.text.head? = some c ∧
      place.column < place.line.length ∧ whole[place.column]? = some c ∧ 1 ≤ width ∧
      (Action.guarded host (evaluateFile host files path settings) (Reporter.fresh fatal)
          ()).printed =
        display host settings source ++
          Reporter.pointing host path whole place.line fault.styled (place.lineIndex + 1)
            place.column width := by
  intro source place width
  have hevaluate := evaluateWithin_of_evaluateFile_ended hgives hended
  obtain ⟨hinternal, tokens, hoffender⟩ :=
    exists_offender (evaluate_of_evaluateWithin nofun hevaluate) hlocated
  obtain ⟨first, c, hfirst, hletter, hat, hc, hlt, hle⟩ := hoffender.exists_first
  have hoffset : fault.span.start.toNat < source.length := (List.getElem?_eq_some_iff.1 hat).1
  obtain ⟨whole, hwhole, hclean⟩ := Place.exists_line_of_clean _ _
  have hshown : place.line[place.column]? = some c := Place.getElem?_ofOffset hat hc
  have hcolumn : place.column < place.line.length := (List.getElem?_eq_some_iff.1 hshown).1
  have hprefix : place.line <+: whole := hclean ▸ Source.cleanLine_isPrefix whole
  have hwidth : 1 ≤ width := by omega
  have hsource : source ≠ [] := List.ne_nil_of_length_pos (by omega)
  have hreport : Reporter.report host [(path, some ⟨source, 1⟩)] fault =
      Reporter.pointing host path whole place.line fault.styled (place.lineIndex + 1)
        place.column width :=
    Reporter.report_eq_pointing hsource hlocated hinternal rfl hprefix rfl hwidth
  refine ⟨whole, tokens, first, c, hwhole, hclean, hoffender, hfirst, hletter, hcolumn, ?_, hwidth,
    ?_⟩
  · rw [← hshown]
    obtain ⟨rest, rfl⟩ := hprefix
    exact List.getElem?_append_left hcolumn
  · have hfault : (Stop.fault fault).report? host = some fault := rfl
    have hstep : evaluateFile host files path settings (Reporter.fresh fatal) () =
        ⟨display host settings source, .error (.fault fault),
          ⟨fatal, [(path, some ⟨source, 1⟩)]⟩, ()⟩ := evaluateFile_apply_of_stop hgives hevaluate
    rw [Action.printed_guarded_of_error hstep hfault, hreport]

/-- Behind a comment, a bracket on the second line is never closed. -/
theorem evaluateFile_report_points_unclosed :
    let files : Text → Option (List UInt8) := fun _ => some [0x31, 0x3B, 0x3B, 0x0A, 0x20, 0x28]
    let message := "unexpected end of expression, '(' is never closed".toList
    let fault : Fault := ⟨.unclosedBracket, message, message, ['('], ⟨3, 4⟩, true, false⟩
    Gives files ['f'] "1;;\n (".toList ∧
      (evaluateFile .plain files ['f'] ⟨.separate, true⟩ (Reporter.fresh true) ()).ended =
        .error (.fault fault) ∧
      fault.located = true ∧
      (Action.guarded .plain (evaluateFile .plain files ['f'] ⟨.separate, true⟩)
          (Reporter.fresh true) ()).printed =
        Reporter.pointing .plain ['f'] [' ', '('] [' ', '('] message 2 1 1 := by
  intro files message fault
  have hgives : Gives files ['f'] "1;;\n (".toList :=
    ⟨"1;;\n (".toList, ⟨by decide, by decide, _, rfl, rfl⟩, rfl⟩
  have hevaluate : evaluateWithin .plain Tree.callLimit .separate
      (Source.clean "1;;\n (".toList) = .error (.fault fault) := rfl
  have hended : (evaluateFile .plain files ['f'] ⟨.separate, true⟩ (Reporter.fresh true) ()).ended =
      .error (.fault fault) := by
    rw [evaluateFile_apply_of_stop hgives hevaluate]
  obtain ⟨whole, -, -, -, hwhole, -, -, -, -, -, -, -, hprinted⟩ :=
    evaluateFile_report_points hgives hended rfl
  obtain rfl : [' ', '('] = whole := Option.some.inj hwhole
  exact ⟨hgives, hended, rfl, hprinted⟩

end Program

end BracketCalc
