import BracketCalc.Source
import Mathlib.Data.List.Basic
/-!
# Cleaning line by line

Cleaning a text cleans each of its lines, and keeps a first part of each.  Read
from the end, it keeps each newline, each character that is not blank and starts
no comment, and each blank character that is not the last of its line.
-/

namespace BracketCalc

namespace Text

variable {l text : Text} {ls ms : List Text}

@[simp] theorem joinLines_singleton (l : Text) : joinLines [l] = l :=
  List.intercalate_singleton

theorem joinLines_cons (l : Text) (h : ls ≠ []) :
    joinLines (l :: ls) = l ++ '\n' :: joinLines ls := by
  obtain ⟨first, rest, rfl⟩ := List.exists_cons_of_ne_nil h
  simp [joinLines, List.intercalate_cons_cons]

theorem joinLines_append (hls : ls ≠ []) (hms : ms ≠ []) :
    joinLines (ls ++ ms) = joinLines ls ++ '\n' :: joinLines ms := by
  induction ls with
  | nil => exact absurd rfl hls
  | cons l rest ih =>
      cases rest with
      | nil => rw [joinLines_singleton, List.singleton_append, joinLines_cons l hms]
      | cons next rest =>
          rw [List.cons_append, joinLines_cons l (by simp), joinLines_cons l (by simp),
            ih (by simp), List.append_assoc, List.cons_append]

theorem joinLines_concat (l : Text) (h : ls ≠ []) :
    joinLines (ls ++ [l]) = joinLines ls ++ '\n' :: l := by
  rw [joinLines_append h (by simp), joinLines_singleton]

theorem mem_joinLines {c : Char} (h : c ∈ joinLines ls) : c = '\n' ∨ ∃ l ∈ ls, c ∈ l := by
  induction ls with
  | nil => cases h
  | cons l rest ih =>
      by_cases hrest : rest = []
      · rw [hrest, joinLines_singleton] at h
        exact .inr ⟨l, by simp, h⟩
      · rw [joinLines_cons l hrest, List.mem_append, List.mem_cons] at h
        rcases h with h | h | h
        · exact .inr ⟨l, by simp, h⟩
        · exact .inl h
        · refine (ih h).imp_right ?_
          rintro ⟨m, hm, hc⟩
          exact ⟨m, List.mem_cons_of_mem l hm, hc⟩

theorem lines_of_not_mem (h : '\n' ∉ l) : lines l = [l] := by
  have hjoined : lines (joinLines [l]) = [l] := lines_joinLines (by simp) (by simpa using h)
  rwa [joinLines_singleton] at hjoined

theorem lines_ne_nil (text : Text) : lines text ≠ [] := List.splitOn_ne_nil _ _

theorem lines_cons_newline (text : Text) : lines ('\n' :: text) = [] :: lines text := by
  simp [lines, List.splitOn, List.splitOnP_cons_eq_if_modifyHead]

theorem lines_cons {c : Char} (hc : c ≠ '\n') (text : Text) :
    lines (c :: text) = (lines text).modifyHead (c :: ·) := by
  simp [lines, List.splitOn, List.splitOnP_cons_eq_if_modifyHead, hc]

/-- A newline parts the lines before it from those behind it. -/
theorem lines_append_newline (a b : Text) : lines (a ++ '\n' :: b) = lines a ++ lines b := by
  induction a with
  | nil => exact lines_cons_newline b
  | cons c a ih =>
      rw [List.cons_append]
      by_cases hc : c = '\n'
      · rw [hc, lines_cons_newline, lines_cons_newline, ih, List.cons_append]
      · obtain ⟨first, rest, hfirst⟩ := List.exists_cons_of_ne_nil (lines_ne_nil a)
        rw [lines_cons hc, lines_cons hc, ih, hfirst]
        rfl

theorem lines_append (h : '\n' ∉ l) (text : Text) :
    lines (l ++ '\n' :: text) = l :: lines text := by
  rw [lines_append_newline, lines_of_not_mem h, List.singleton_append]

theorem not_mem_of_mem_lines (h : l ∈ lines text) : '\n' ∉ l := by
  induction text generalizing l with
  | nil =>
      rw [List.mem_singleton.1 h]
      exact List.not_mem_nil
  | cons c text ih =>
      by_cases hc : c = '\n'
      · rw [hc, lines_cons_newline] at h
        rcases List.mem_cons.1 h with rfl | h
        · exact List.not_mem_nil
        · exact ih h
      · rw [lines_cons hc] at h
        cases hlines : lines text with
        | nil => exact absurd hlines (lines_ne_nil text)
        | cons first rest =>
            rw [hlines, List.modifyHead_cons] at h
            rw [hlines] at ih
            rcases List.mem_cons.1 h with rfl | h
            · rw [List.mem_cons, not_or]
              exact ⟨Ne.symm hc, ih List.mem_cons_self⟩
            · exact ih (List.mem_cons_of_mem first h)

theorem stripRight_cons (c : Char) (text : Text) :
    stripRight (c :: text) =
      if isBlank c = true ∧ stripRight text = [] then [] else c :: stripRight text := by
  unfold stripRight
  rw [List.reverse_cons, List.dropWhile_append]
  by_cases hrest : text.reverse.dropWhile isBlank = []
  · cases hc : isBlank c with
    | true => simp [hrest, hc]
    | false => simp [hrest, hc]
  · simp [hrest]

theorem stripRight_isPrefix (text : Text) : stripRight text <+: text := by
  obtain ⟨blanks, hblanks, -⟩ := stripRight_append_blanks text
  exact ⟨blanks, hblanks.symm⟩

theorem strip_sublist (text : Text) : (strip text).Sublist text :=
  (stripRight_isPrefix _).sublist.trans (List.dropWhile_sublist _)

end Text

namespace Source

variable {line : Text} {ls : List Text}

theorem beforeComment_isPrefix (line : Text) : beforeComment line <+: line := by
  induction line using beforeComment.induct with
  | case1 rest => exact List.nil_prefix
  | case2 c rest hcomment ih =>
      rw [beforeComment]
      · exact (List.prefix_cons_inj c).2 ih
      · exact hcomment
  | case3 => exact List.nil_prefix

theorem cleanLine_isPrefix (line : Text) : cleanLine line <+: line :=
  (Text.stripRight_isPrefix _).trans (beforeComment_isPrefix line)

theorem clean_of_not_mem (h : '\n' ∉ line) : clean line = cleanLine line := by
  rw [clean, Text.lines_of_not_mem h, List.map_singleton, Text.joinLines_singleton]

theorem lines_clean (text : Text) : (clean text).lines = text.lines.map cleanLine := by
  refine Text.lines_joinLines (by simpa using Text.lines_ne_nil text) fun l hl => ?_
  obtain ⟨line, hline, rfl⟩ := List.mem_map.1 hl
  exact fun hmem => Text.not_mem_of_mem_lines hline ((cleanLine_isPrefix line).subset hmem)

theorem not_mem_clean (h : '\n' ∉ line) : '\n' ∉ clean line := by
  rw [clean_of_not_mem h]
  exact fun hmem => h ((cleanLine_isPrefix line).subset hmem)

theorem clean_joinLines (hne : ls ≠ []) (h : ∀ l ∈ ls, '\n' ∉ l) :
    clean (Text.joinLines ls) = Text.joinLines (ls.map cleanLine) := by
  rw [clean, Text.lines_joinLines hne h]

/-! ### Character by character -/

/-- Nothing more stands on the line. -/
def LineEnds (text : Text) : Prop := ∀ c ∈ text.head?, c = '\n'

instance (text : Text) : Decidable (LineEnds text) :=
  inferInstanceAs (Decidable (∀ c ∈ text.head?, c = '\n'))

variable {c : Char} {rest : Text}

theorem clean_append (a b : Text) : clean (a ++ '\n' :: b) = clean a ++ '\n' :: clean b := by
  rw [clean, Text.lines_append_newline, List.map_append, Text.joinLines_append]
  · rfl
  · simpa using Text.lines_ne_nil a
  · simpa using Text.lines_ne_nil b

theorem clean_newline (rest : Text) : clean ('\n' :: rest) = '\n' :: clean rest :=
  clean_append [] rest

/-- The first line of a text is cleaned by itself, and another line in its place likewise. -/
theorem exists_first_line (text : Text) :
    ∃ line behind cleaned, text = line ++ behind ∧ '\n' ∉ line ∧ LineEnds cleaned ∧
      ∀ other, '\n' ∉ other → clean (other ++ behind) = cleanLine other ++ cleaned := by
  have hline : '\n' ∉ text.takeWhile (· ≠ '\n') := by
    intro hmem
    simpa using List.all_eq_true.1 List.all_takeWhile _ hmem
  have hsplit := (List.takeWhile_append_dropWhile (p := (· ≠ '\n')) (l := text)).symm
  cases hbehind : text.dropWhile (· ≠ '\n') with
  | nil =>
      rw [hbehind] at hsplit
      refine ⟨_, _, [], hsplit, hline, nofun, fun other hother => ?_⟩
      rw [List.append_nil, List.append_nil, clean_of_not_mem hother]
  | cons c rest =>
      have hc : c = '\n' := by
        have hhead := List.head?_dropWhile_not (· ≠ '\n') text
        rw [hbehind] at hhead
        simpa using hhead
      rw [hbehind, hc] at hsplit
      refine ⟨_, _, '\n' :: clean rest, hsplit, hline, ?_, fun other hother => ?_⟩
      · simp [LineEnds]
      · rw [clean, Text.lines_append hother, List.map_cons, Text.joinLines_cons]
        · rfl
        · simpa using Text.lines_ne_nil rest

theorem beforeComment_cons (h : c = ';' → rest.head? ≠ some ';') :
    beforeComment (c :: rest) = c :: beforeComment rest := by
  rw [beforeComment]
  rintro more hc rfl
  exact h hc rfl

/-- What is not blank and starts no comment stays. -/
theorem clean_ink (hc : Text.isBlank c = false) (hcomment : c = ';' → rest.head? ≠ some ';') :
    clean (c :: rest) = c :: clean rest := by
  obtain ⟨line, behind, cleaned, rfl, hline, -, hclean⟩ := exists_first_line rest
  have hne : '\n' ≠ c := by
    rintro rfl
    cases hc
  have hnext : '\n' ∉ c :: line := by simp [hne, hline]
  have hstart : c = ';' → line.head? ≠ some ';' := by
    intro hsemicolon hhead
    exact hcomment hsemicolon (by simp [hhead])
  have hcleanLine : cleanLine (c :: line) = c :: cleanLine line := by
    rw [cleanLine, beforeComment_cons hstart, Text.stripRight_cons, if_neg (by simp [hc])]
    rfl
  rw [hclean line hline, ← List.cons_append, hclean _ hnext, hcleanLine, List.cons_append]

/-- Blanks go at the end of a line. -/
theorem clean_blank (hc : Text.isBlank c = true) (hne : c ≠ '\n') :
    clean (c :: rest) = if LineEnds (clean rest) then clean rest else c :: clean rest := by
  obtain ⟨line, behind, cleaned, rfl, hline, hends, hclean⟩ := exists_first_line rest
  have hnext : '\n' ∉ c :: line := by simp [hne.symm, hline]
  have hstart : c = ';' → line.head? ≠ some ';' := by
    rintro rfl
    cases hc
  have hcleanLine : cleanLine (c :: line) =
      if Text.isBlank c = true ∧ cleanLine line = [] then [] else c :: cleanLine line := by
    rw [cleanLine, beforeComment_cons hstart, Text.stripRight_cons]
    rfl
  rw [← List.cons_append, hclean _ hnext, hclean line hline, hcleanLine]
  cases hcleaned : cleanLine line with
  | nil => simp [hends, hc]
  | cons d more =>
      have hd : d ≠ '\n' := by
        rintro rfl
        exact hline ((cleanLine_isPrefix line).subset (by simp [hcleaned]))
      simp [LineEnds, hd]

end Source

end BracketCalc
