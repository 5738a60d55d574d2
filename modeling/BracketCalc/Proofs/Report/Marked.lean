import BracketCalc.Proofs.Report.Place
import BracketCalc.Report.Diagnosis
import Mathlib.Algebra.GroupWithZero.Nat
/-!
# Marked lines

The place of an offset is the only one that stands for it: a line of the source
with its number, and a column in the line or right behind it.  A diagnosis shows
this line as it is, and marks it from the column on, in the line and below it.
-/

namespace BracketCalc

namespace Text

theorem length_ended (before : List Text) :
    (ended before).length = (before.map fun line => line.length + 1).sum := by
  induction before with
  | nil => rfl
  | cons line before ih => rw [length_ended_cons, ih, List.map_cons, List.sum_cons]

theorem not_mem_spaces (count : Nat) : '\n' ∉ spaces count := by
  intro h
  have hspace := List.eq_of_mem_replicate h
  cases hspace

theorem take_append_take_append_drop (line : Text) (column count : Nat) :
    line.take column ++ (line.drop column).take count ++ line.drop (column + count) = line := by
  rw [← List.drop_drop, List.append_assoc, List.take_append_drop, List.take_append_drop]

end Text

namespace Place

/-- The offset counts the characters before the column, and those of the lines before, each with its
newline. -/
structure StandsFor (source : Text) (place : Place) (offset : Nat) : Prop where
  line_eq : source.lines[place.lineIndex]? = some place.line
  column_le : place.column ≤ place.line.length
  offset_eq : offset =
    place.column + ((source.lines.take place.lineIndex).map fun line => line.length + 1).sum

variable {source : Text} {place : Place} {offset : Nat}

theorem standsFor_ofOffset (h : offset ≤ source.length) :
    StandsFor source (ofOffset source offset) offset := by
  obtain ⟨before, behind, hlines, hindex, hcolumn, hoffset⟩ := exists_lines h
  refine ⟨getElem?_lines source offset, hcolumn, ?_⟩
  rw [hlines, hindex, List.take_left, ← Text.length_ended]
  omega

/-- No other place stands for an offset. -/
theorem StandsFor.eq_ofOffset (h : StandsFor source place offset) :
    place = ofOffset source offset := by
  obtain ⟨hindex, hline⟩ := List.getElem?_eq_some_iff.1 h.line_eq
  have hlines : source.lines = source.lines.take place.lineIndex ++
      place.line :: source.lines.drop (place.lineIndex + 1) := by
    rw [← hline, ← List.drop_eq_getElem_cons hindex, List.take_append_drop]
  have hlength : (source.lines.take place.lineIndex).length = place.lineIndex :=
    List.length_take_of_le (Nat.le_of_lt hindex)
  have hoffset := h.offset_eq
  rw [← Text.length_ended, Nat.add_comm] at hoffset
  rw [hoffset, ofOffset_of_lines hlines h.column_le, hlength]

theorem standsFor_iff (h : offset ≤ source.length) :
    StandsFor source place offset ↔ place = ofOffset source offset := by
  constructor
  · exact StandsFor.eq_ofOffset
  · rintro rfl
    exact standsFor_ofOffset h

theorem StandsFor.not_mem_line (h : StandsFor source place offset) : '\n' ∉ place.line :=
  Text.not_mem_of_mem_lines (List.mem_of_getElem? h.line_eq)

end Place

namespace Diagnosis

variable {source line : Text} {place : Place} {offset column : Nat} {stop : Int}

/-- Spans that end before they start, or behind the line, are marked as far as the line goes, and at
least in one column. -/
theorem width_eq (h : column ≤ line.length) :
    (width line column ⟨offset, stop⟩ : Int) =
      max 1 (min (stop - offset) (line.length - column)) := by
  show ((max 1 (min (stop - offset).toNat (line.length - column)) : Nat) : Int) = _
  omega

theorem render_eq (palette : Palette) (h : Place.ofOffset source offset = place) :
    let marked := width place.line place.column ⟨offset, stop⟩
    render palette source ⟨offset, stop⟩ =
      Text.spaces 2 ++ (place.line.take place.column
        ++ palette.alarm ((place.line.drop place.column).take marked)
        ++ place.line.drop (place.column + marked))
      ++ '\n' :: (Text.spaces 2 ++ Text.spaces place.column
        ++ palette.alarm ('^' :: List.replicate (marked - 1) '~')) := by
  have hplace : Place.ofOffset source (Int.toNat (offset : Int)) = place := h
  unfold render underline
  simp only [hplace, List.drop_drop, List.append_assoc, List.cons_append]

theorem lines_render (h : Place.StandsFor source place offset) :
    (render .plain source ⟨offset, stop⟩).lines =
      [Text.spaces 2 ++ place.line, Text.spaces 2 ++ Text.spaces place.column ++
        '^' :: List.replicate (width place.line place.column ⟨offset, stop⟩ - 1) '~'] := by
  have hrender : render .plain source ⟨offset, stop⟩ = _ := render_eq .plain h.eq_ofOffset.symm
  have hshown : '\n' ∉ Text.spaces 2 ++ place.line := by
    rw [List.mem_append, not_or]
    exact ⟨Text.not_mem_spaces 2, h.not_mem_line⟩
  have hbelow : ∀ count,
      '\n' ∉ Text.spaces 2 ++ Text.spaces place.column ++ '^' :: List.replicate count '~' := by
    intro count hmem
    rw [List.mem_append, List.mem_append, List.mem_cons] at hmem
    rcases hmem with (hmem | hmem) | hmem | hmem
    · exact Text.not_mem_spaces _ hmem
    · exact Text.not_mem_spaces _ hmem
    · cases hmem
    · cases List.eq_of_mem_replicate hmem
  rw [hrender, Palette.alarm_plain, Palette.alarm_plain, Text.take_append_take_append_drop,
    Text.lines_append hshown, Text.lines_of_not_mem (hbelow _)]

/-- An offset in a source has one place, and the diagnosis of a span that starts there shows the
line of the place unchanged and marks it from the column on, up to the end of the span or of the
line and in one column at least. -/
theorem place_marked (h : offset ≤ source.length) :
    ∃ place, Place.ofOffset source offset = place ∧
      (∀ other, Place.StandsFor source other offset ↔ other = place) ∧
      ∀ stop : Int, ∃ marked : Nat,
        (marked : Int) = max 1 (min (stop - offset) (place.line.length - place.column)) ∧
        (render .plain source ⟨offset, stop⟩).lines =
          [Text.spaces 2 ++ place.line,
            Text.spaces 2 ++ Text.spaces place.column ++ '^' :: List.replicate (marked - 1) '~'] ∧
        ∀ palette, render palette source ⟨offset, stop⟩ =
          Text.spaces 2 ++ (place.line.take place.column
            ++ palette.alarm ((place.line.drop place.column).take marked)
            ++ place.line.drop (place.column + marked))
          ++ '\n' :: (Text.spaces 2 ++ Text.spaces place.column
            ++ palette.alarm ('^' :: List.replicate (marked - 1) '~')) := by
  have hstands := Place.standsFor_ofOffset h
  refine ⟨_, rfl, fun other => Place.standsFor_iff h, fun stop => ?_⟩
  exact ⟨_, width_eq hstands.column_le, lines_render hstands, fun palette => render_eq palette rfl⟩

/-- The newline of a line is marked right behind the line. -/
theorem place_marked_newline :
    4 ≤ "(+ 1\n2".toList.length ∧
      (render .plain "(+ 1\n2".toList ⟨4, 9⟩).lines = ["  (+ 1".toList, "      ^".toList] := by
  have hoffset : 4 ≤ "(+ 1\n2".toList.length := by decide
  obtain ⟨place, hplace, -, hmarked⟩ := place_marked hoffset
  obtain rfl : ⟨0, "(+ 1".toList, 4⟩ = place := hplace
  obtain ⟨marked, hwidth, hlines, -⟩ := hmarked 9
  obtain rfl : marked = 1 := by
    apply Int.ofNat_inj.1
    rw [hwidth]
    rfl
  exact ⟨hoffset, hlines⟩

end Diagnosis

end BracketCalc
