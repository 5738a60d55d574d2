import BracketCalc.Proofs.Source.Lines
import Mathlib.Data.List.TakeWhile
/-!
# Stripped lines

A line that is typed in is stripped before it is cleaned.  It then lacks the
blanks that it starts with, and keeps all that is not blank.  So brackets are
open in the lines as they are typed in if they are in the lines as they stand.
-/

namespace BracketCalc

namespace Text

/-- What is not blank in a text. -/
def ink (text : Text) : Text := text.filter (! isBlank ·)

variable {text blanks : Text} {c : Char}

@[simp] theorem ink_append (a b : Text) : ink (a ++ b) = ink a ++ ink b := List.filter_append a b

theorem ink_eq_nil_iff : ink text = [] ↔ ∀ c ∈ text, isBlank c = true := by
  simp [ink, List.filter_eq_nil_iff]

theorem stripRight_append (text : Text) (h : ∀ c ∈ blanks, isBlank c = true) :
    stripRight (text ++ blanks) = stripRight text := by
  unfold stripRight
  rw [List.reverse_append, List.dropWhile_append_of_pos]
  exact fun c hc => h c (List.mem_reverse.1 hc)

/-- Stripping cuts runs of blanks off the two ends of a text and nothing else. -/
theorem exists_strip (text : Text) :
    ∃ front back : Text, text = front ++ (strip text ++ back) ∧
      (∀ c ∈ front, isBlank c = true) ∧ ∀ c ∈ back, isBlank c = true := by
  obtain ⟨back, hback, hblanks⟩ := stripRight_append_blanks (text.dropWhile isBlank)
  refine ⟨text.takeWhile isBlank, back, ?_, ?_, hblanks⟩
  · rw [strip, ← hback, List.takeWhile_append_dropWhile]
  · exact fun c hc => List.all_eq_true.1 List.all_takeWhile c hc

theorem ink_strip (text : Text) : ink (strip text) = ink text := by
  obtain ⟨front, back, htext, hfront, hback⟩ := exists_strip text
  conv_rhs => rw [htext]
  rw [ink_append, ink_append, ink_eq_nil_iff.2 hfront, ink_eq_nil_iff.2 hback, List.append_nil,
    List.nil_append]

theorem strip_eq_nil_iff : strip text = [] ↔ ink text = [] := by
  constructor
  · intro h
    rw [← ink_strip, h]
    rfl
  · intro h
    rw [strip, List.dropWhile_eq_nil_iff.2 (ink_eq_nil_iff.1 h), stripRight_nil]

theorem count_ink (hc : isBlank c = false) (text : Text) : (ink text).count c = text.count c := by
  rw [ink, List.count_filter]
  simp [hc]

theorem ink_joinLines (ls : List Text) : ink (joinLines ls) = ls.flatMap ink := by
  induction ls with
  | nil => rfl
  | cons l rest ih =>
      cases rest with
      | nil => simp
      | cons next rest =>
          have hnewline : ∀ text, ink ('\n' :: text) = ink text := fun _ => rfl
          rw [joinLines_cons l (by simp), ink_append, hnewline, ih, List.flatMap_cons (x := l)]

end Text

namespace Source

variable {line blanks : Text} {c : Char}

theorem isOpen_eq_of_ink {a b : Text} (h : a.ink = b.ink) : isOpen a = isOpen b := by
  have hcount : ∀ c, Text.isBlank c = false → a.count c = b.count c := by
    intro c hc
    rw [← Text.count_ink hc, h, Text.count_ink hc]
  rw [isOpen, isOpen, hcount '(' rfl, hcount ')' rfl]

/-- A blank at the start of a line stays, or the whole line goes. -/
theorem cleanLine_blank (hc : Text.isBlank c = true) (rest : Text) :
    cleanLine (c :: rest) = [] ∧ cleanLine rest = [] ∨
      cleanLine (c :: rest) = c :: cleanLine rest := by
  have hstart : c = ';' → rest.head? ≠ some ';' := by
    rintro rfl
    cases hc
  unfold cleanLine
  rw [beforeComment_cons hstart, Text.stripRight_cons]
  split
  · next h => exact .inl ⟨rfl, h.2⟩
  · exact .inr rfl

theorem exists_cleanLine_append (h : ∀ c ∈ blanks, Text.isBlank c = true) (line : Text) :
    ∃ kept, cleanLine (blanks ++ line) = kept ++ cleanLine line ∧ ∀ c ∈ kept, c ∈ blanks := by
  induction blanks with
  | nil => exact ⟨[], rfl, nofun⟩
  | cons c blanks ih =>
      obtain ⟨hc, hblanks⟩ := List.forall_mem_cons.1 h
      obtain ⟨kept, hkept, hmem⟩ := ih hblanks
      rcases cleanLine_blank hc (blanks ++ line) with ⟨hline, hrest⟩ | hline
      · rw [hrest] at hkept
        exact ⟨[], by rw [List.cons_append, hline, (List.append_eq_nil_iff.1 hkept.symm).2]; rfl,
          nofun⟩
      · refine ⟨c :: kept, by rw [List.cons_append, hline, hkept]; rfl, fun d hd => ?_⟩
        rcases List.mem_cons.1 hd with rfl | hd
        · exact List.mem_cons_self
        · exact List.mem_cons_of_mem c (hmem d hd)

/-- Blanks at the end of a line stay in front of no comment. -/
theorem exists_beforeComment_append (h : ∀ c ∈ blanks, Text.isBlank c = true) (line : Text) :
    ∃ more, beforeComment (line ++ blanks) = beforeComment line ++ more ∧
      ∀ c ∈ more, Text.isBlank c = true := by
  induction line using beforeComment.induct with
  | case1 rest => exact ⟨[], rfl, List.forall_mem_nil _⟩
  | case2 c rest hcomment ih =>
      obtain ⟨more, hmore, hblanks⟩ := ih
      refine ⟨more, ?_, hblanks⟩
      rw [List.cons_append, beforeComment_cons, hmore, beforeComment]
      · rfl
      · exact hcomment
      · rintro rfl hhead
        cases rest with
        | nil =>
            have hmem : ';' ∈ blanks := List.mem_of_head? hhead
            cases h _ hmem
        | cons d rest =>
            obtain rfl : d = ';' := by simpa using hhead
            exact hcomment rest rfl rfl
  | case3 =>
      refine ⟨beforeComment blanks, rfl, fun c hc => h c ?_⟩
      exact (beforeComment_isPrefix blanks).subset hc

theorem cleanLine_append (h : ∀ c ∈ blanks, Text.isBlank c = true) (line : Text) :
    cleanLine (line ++ blanks) = cleanLine line := by
  obtain ⟨more, hmore, hblanks⟩ := exists_beforeComment_append h line
  rw [cleanLine, hmore, Text.stripRight_append _ hblanks, cleanLine]

/-- A line that is stripped first lacks blanks at its start. -/
theorem exists_cleanLine_strip (line : Text) :
    ∃ kept, cleanLine line = kept ++ cleanLine line.strip ∧
      ∀ c ∈ kept, c ∈ line ∧ Text.isBlank c = true := by
  obtain ⟨front, back, hline, hfront, hback⟩ := Text.exists_strip line
  obtain ⟨kept, hkept, hmem⟩ := exists_cleanLine_append hfront (line.strip ++ back)
  refine ⟨kept, ?_, fun c hc => ⟨?_, hfront c (hmem c hc)⟩⟩
  · conv_lhs => rw [hline]
    rw [hkept, cleanLine_append hback]
  · rw [hline]
    exact List.mem_append_left _ (hmem c hc)

theorem ink_cleanLine_strip (line : Text) : (cleanLine line.strip).ink = (cleanLine line).ink := by
  obtain ⟨kept, hline, hkept⟩ := exists_cleanLine_strip line
  rw [hline, Text.ink_append, Text.ink_eq_nil_iff.2 fun c hc => (hkept c hc).2, List.nil_append]

/-! ### Lines that are typed in -/

/-- The text of some lines that are typed in, each of them stripped and cleaned by itself. -/
def typed (lines : List Text) : Text := Text.joinLines (lines.map fun line => cleanLine line.strip)

variable {lines : List Text}

theorem ink_typed (hne : lines ≠ []) (h : ∀ line ∈ lines, '\n' ∉ line) :
    (typed lines).ink = (clean (Text.joinLines lines)).ink := by
  rw [typed, clean_joinLines hne h, Text.ink_joinLines, Text.ink_joinLines, List.flatMap_map,
    List.flatMap_map]
  exact List.flatMap_congr fun line _ => ink_cleanLine_strip line

theorem isOpen_typed (hne : lines ≠ []) (h : ∀ line ∈ lines, '\n' ∉ line) :
    isOpen (typed lines) = isOpen (clean (Text.joinLines lines)) :=
  isOpen_eq_of_ink (ink_typed hne h)

theorem strip_typed_eq_nil_iff (hne : lines ≠ []) (h : ∀ line ∈ lines, '\n' ∉ line) :
    (typed lines).strip = [] ↔ (clean (Text.joinLines lines)).strip = [] := by
  rw [Text.strip_eq_nil_iff, Text.strip_eq_nil_iff, ink_typed hne h]

/-- A line goes on with what was typed in before, if there was anything. -/
theorem resume_typed {line : Text} (hline : '\n' ∉ line) (h : lines ≠ [] → typed lines ≠ []) :
    resume (typed lines) line.strip = typed (lines ++ [line]) := by
  have hclean : clean line.strip = cleanLine line.strip :=
    clean_of_not_mem fun hmem => hline ((Text.strip_sublist line).subset hmem)
  cases lines with
  | nil => simp [typed, resume, Text.joinLines, hclean]
  | cons first more =>
      have hne : typed (first :: more) ≠ [] := h (by simp)
      rw [resume, if_neg (by simpa using hne), hclean, typed, typed, List.map_append,
        List.map_singleton, Text.joinLines_concat _ (by simp)]

end Source

end BracketCalc
