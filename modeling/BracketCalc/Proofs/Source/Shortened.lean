import BracketCalc.Proofs.Source.Stripped
import Mathlib.Data.List.Forall2
import Mathlib.Data.List.Induction
import Mathlib.Data.Nat.Find
/-!
# Shortened lines

A line is shortened when its comment is cut off, together with the blanks that
then stand at its end.  `shortened_iff` says that this describes exactly one
text for each line, the cleaned line, so that cleaning twice is cleaning once.

A text may also be cleaned while it is typed in.  As long as each line leaves
it open, this comes to the same as cleaning the whole text at its end.
-/

namespace BracketCalc

/-! ### Ends of texts -/

namespace Text

variable {text : Text} {c : Char}

theorem not_isBlank_of_mem_getLast?_stripRight (h : c ∈ (stripRight text).getLast?) :
    isBlank c = false := by
  rw [stripRight, List.getLast?_reverse] at h
  have hfirst := List.head?_dropWhile_not isBlank text.reverse
  rw [h] at hfirst
  simpa using hfirst

theorem stripRight_eq_self (h : ∀ c ∈ text.getLast?, isBlank c = false) :
    stripRight text = text := by
  have hkept : text.reverse.dropWhile isBlank = text.reverse := by
    rw [List.dropWhile_eq_self_iff]
    intro hlength hblank
    have hlast : text.getLast? = some text.reverse[0] := by
      rw [← List.head?_reverse, List.head?_eq_getElem?, List.getElem?_eq_getElem hlength]
    rw [h _ hlast] at hblank
    cases hblank
  rw [stripRight, hkept, List.reverse_reverse]

end Text

namespace Source

/-- Two semicolons stand in the text from the offset on. -/
def CommentAt (text : Text) (offset : Nat) : Prop :=
  text[offset]? = some ';' ∧ text[offset + 1]? = some ';'

/-- The comment of the line starts at the offset, where two semicolons stand for the first time. -/
structure FirstComment (line : Text) (offset : Nat) : Prop where
  commentAt : CommentAt line offset
  not_before : ∀ earlier < offset, ¬ CommentAt line earlier

/-- What is left of a line without its comment and without blanks at its end. -/
structure Shortened (line short : Text) : Prop where
  isPrefix : short <+: line
  noComment : ∀ offset, ¬ CommentAt short offset
  noBlankEnd : ∀ c ∈ short.getLast?, Text.isBlank c = false
  /-- Blanks are cut off, and the comment if there is one. -/
  cut : ∃ blanks comment, line.drop short.length = blanks ++ comment ∧
    (∀ c ∈ blanks, Text.isBlank c = true) ∧
      (comment = [] ∨ FirstComment line (short.length + blanks.length))

variable {line short rest blanks : Text} {offset : Nat} {lines : List Text}

/-! ### Comments -/

theorem CommentAt.lt_length (h : CommentAt line offset) : offset + 1 < line.length := by
  obtain ⟨hlt, -⟩ := List.getElem?_eq_some_iff.1 h.2
  exact hlt

theorem CommentAt.append (h : CommentAt line offset) (rest : Text) :
    CommentAt (line ++ rest) offset := by
  have hlength := h.lt_length
  constructor
  · rw [List.getElem?_append_left (by omega)]
    exact h.1
  · rw [List.getElem?_append_left hlength]
    exact h.2

theorem CommentAt.of_append (h : CommentAt (line ++ rest) offset)
    (hlength : offset + 1 < line.length) : CommentAt line offset := by
  have hfirst := h.1
  have hnext := h.2
  rw [List.getElem?_append_left (by omega)] at hfirst
  rw [List.getElem?_append_left hlength] at hnext
  exact ⟨hfirst, hnext⟩

/-- No comment reaches into blanks. -/
theorem not_commentAt_append (h : ∀ offset, ¬ CommentAt short offset)
    (hblanks : ∀ c ∈ blanks, Text.isBlank c = true) (offset : Nat) :
    ¬ CommentAt (short ++ blanks) offset := by
  intro hcomment
  by_cases hlength : offset + 1 < short.length
  · exact h offset (hcomment.of_append hlength)
  · have hnext := hcomment.2
    rw [List.getElem?_append_right (by omega)] at hnext
    have hblank := hblanks ';' (List.mem_of_getElem? hnext)
    cases hblank

/-- What stands before the first comment stays. -/
theorem beforeComment_eq_append (h : ∀ earlier < offset, ¬ CommentAt line earlier) :
    beforeComment line = line.take offset ++ beforeComment (line.drop offset) := by
  induction offset generalizing line with
  | zero => rfl
  | succ offset ih =>
      cases line with
      | nil => rfl
      | cons c line =>
          have hstart : c = ';' → line.head? ≠ some ';' := by
            rintro rfl hhead
            apply h 0 (Nat.succ_pos offset)
            exact ⟨rfl, by rwa [List.getElem?_cons_succ, ← List.head?_eq_getElem?]⟩
          have hlater : ∀ earlier < offset, ¬ CommentAt line earlier := by
            intro earlier hearlier hcomment
            apply h (earlier + 1) (by omega)
            exact hcomment
          rw [beforeComment_cons hstart, ih hlater]
          rfl

theorem FirstComment.beforeComment_eq (h : FirstComment line offset) :
    beforeComment line = line.take offset := by
  have hlength := h.commentAt.lt_length
  have hrest : line.drop offset = ';' :: ';' :: line.drop (offset + 2) := by
    rw [List.drop_eq_getElem_cons (by omega), List.drop_eq_getElem_cons hlength,
      (List.getElem_eq_iff _).2 h.commentAt.1, (List.getElem_eq_iff _).2 h.commentAt.2]
  rw [beforeComment_eq_append h.not_before, hrest, beforeComment, List.append_nil]

theorem beforeComment_eq_self (h : ∀ offset, ¬ CommentAt line offset) :
    beforeComment line = line := by
  have hnone : ∀ earlier < line.length, ¬ CommentAt line earlier := fun earlier _ => h earlier
  rw [beforeComment_eq_append hnone, List.take_length, List.drop_length, beforeComment,
    List.append_nil]

/-- A line has a first comment or none. -/
theorem exists_firstComment (line : Text) :
    (∃ offset, FirstComment line offset) ∨ ∀ offset, ¬ CommentAt line offset := by
  by_cases h : ∃ offset, CommentAt line offset
  · classical
    exact .inl ⟨Nat.find h, Nat.find_spec h, fun _ hearlier => Nat.find_min h hearlier⟩
  · exact .inr fun offset hcomment => h ⟨offset, hcomment⟩

/-- A line is what stands before its comment, and the comment if there is one. -/
theorem exists_comment (line : Text) :
    ∃ comment, line = beforeComment line ++ comment ∧
      (comment = [] ∨ FirstComment line (beforeComment line).length) ∧
      ∀ offset, ¬ CommentAt (beforeComment line) offset := by
  rcases exists_firstComment line with ⟨offset, hfirst⟩ | hnone
  · have hcomment := hfirst.commentAt.lt_length
    have hlength : (line.take offset).length = offset := List.length_take_of_le (by omega)
    rw [hfirst.beforeComment_eq]
    refine ⟨line.drop offset, (List.take_append_drop offset line).symm, .inr ?_, ?_⟩
    · rwa [hlength]
    · intro earlier hearlier
      have hbound := hearlier.lt_length
      apply hfirst.not_before earlier (by omega)
      rw [← List.take_append_drop offset line]
      exact hearlier.append _
  · rw [beforeComment_eq_self hnone]
    exact ⟨[], (List.append_nil line).symm, .inl rfl, hnone⟩

/-! ### Cleaned lines -/

theorem shortened_cleanLine (line : Text) : Shortened line (cleanLine line) := by
  obtain ⟨comment, hline, hcomment, hnone⟩ := exists_comment line
  obtain ⟨blanks, hkept, hblanks⟩ := Text.stripRight_append_blanks (beforeComment line)
  change beforeComment line = cleanLine line ++ blanks at hkept
  refine ⟨cleanLine_isPrefix line, fun offset hoffset => ?_, fun c hc => ?_,
    blanks, comment, ?_, hblanks, ?_⟩
  · apply hnone offset
    rw [hkept]
    exact hoffset.append blanks
  · exact Text.not_isBlank_of_mem_getLast?_stripRight hc
  · calc line.drop (cleanLine line).length
        = (beforeComment line ++ comment).drop (cleanLine line).length := by rw [← hline]
      _ = (cleanLine line ++ (blanks ++ comment)).drop (cleanLine line).length := by
          rw [hkept, List.append_assoc]
      _ = blanks ++ comment := List.drop_left
  · rwa [hkept, List.length_append] at hcomment

theorem Shortened.eq_cleanLine (h : Shortened line short) : short = cleanLine line := by
  obtain ⟨blanks, comment, hcut, hblanks, hcomment⟩ := h.cut
  have hline : line = short ++ (blanks ++ comment) := by
    rw [← hcut, ← List.prefix_iff_eq_append.1 h.isPrefix]
    simp
  have hkept : beforeComment line = short ++ blanks := by
    rcases hcomment with rfl | hfirst
    · rw [List.append_nil] at hline
      rw [hline]
      exact beforeComment_eq_self (not_commentAt_append h.noComment hblanks)
    · rw [hfirst.beforeComment_eq, hline, ← List.append_assoc, ← List.length_append,
        List.take_left]
  rw [cleanLine, hkept, Text.stripRight_append short hblanks, Text.stripRight_eq_self h.noBlankEnd]

/-- The cleaned line is the only one that a line is shortened to. -/
theorem shortened_iff : Shortened line short ↔ short = cleanLine line := by
  constructor
  · exact Shortened.eq_cleanLine
  · rintro rfl
    exact shortened_cleanLine line

theorem cleanLine_cleanLine (line : Text) : cleanLine (cleanLine line) = cleanLine line := by
  have hshort := shortened_cleanLine line
  have hself : Shortened (cleanLine line) (cleanLine line) := by
    refine ⟨List.prefix_refl _, hshort.noComment, hshort.noBlankEnd, [], [], ?_, nofun, .inl rfl⟩
    rw [List.drop_length, List.append_nil]
  exact hself.eq_cleanLine.symm

theorem clean_clean (text : Text) : clean (clean text) = clean text := by
  have hlines : (clean text).lines.map cleanLine = text.lines.map cleanLine := by
    rw [lines_clean, List.map_map]
    exact List.map_congr_left fun line _ => cleanLine_cleanLine line
  rw [clean, hlines, clean]

/-! ### Texts that are typed in -/

/-- The text that is held after some lines are typed in, the first of which starts it. -/
def heldAfter (lines : List Text) : Text := lines.foldl resume []

/-- Each line but the last one asks for another line. -/
def GoesOn (lines : List Text) : Prop :=
  ∀ k < lines.length, 0 < k → isOpen (heldAfter (lines.take k)) = true

instance (lines : List Text) : Decidable (GoesOn lines) :=
  inferInstanceAs (Decidable (∀ k < lines.length, 0 < k → isOpen (heldAfter (lines.take k)) = true))

theorem GoesOn.init (h : GoesOn (lines ++ [line])) : GoesOn lines := by
  intro k hk hpos
  have hopen := h k (by rw [List.length_append]; omega) hpos
  rwa [List.take_append_of_le_length (Nat.le_of_lt hk)] at hopen

theorem GoesOn.isOpen_init (h : GoesOn (lines ++ [line])) (hne : lines ≠ []) :
    isOpen (heldAfter lines) = true := by
  have hpos := List.length_pos_iff.2 hne
  have hopen := h lines.length (by rw [List.length_append]; exact Nat.lt_succ_self _) hpos
  rwa [List.take_left] at hopen

/-- A text with a bracket that is open is not empty, so the next line goes on with it. -/
theorem resume_of_isOpen {held : Text} (h : isOpen held = true) (line : Text) :
    resume held line = held ++ '\n' :: clean line := by
  cases held with
  | nil => cases h
  | cons c held => rfl

theorem heldAfter_eq_clean (hne : lines ≠ []) (h : GoesOn lines) :
    heldAfter lines = clean (Text.joinLines lines) := by
  induction lines using List.reverseRecOn with
  | nil => exact absurd rfl hne
  | append_singleton front line ih =>
      have hstep : heldAfter (front ++ [line]) = resume (heldAfter front) line := by
        rw [heldAfter, List.foldl_concat]
        rfl
      rw [hstep]
      by_cases hfront : front = []
      · rw [hfront, List.nil_append, Text.joinLines_singleton]
        rfl
      · rw [resume_of_isOpen (h.isOpen_init hfront), ih hfront h.init,
          Text.joinLines_concat line hfront, clean_append]

/-- Cleaning keeps the number of lines and shortens each of them, and does so only once.  Lines that
are cleaned as they are typed in, each but the last one asking for the next, are in the end the
cleaned text of them all, which is open if it has more left than right brackets. -/
theorem clean_shortens :
    (∀ text : Text,
      (clean text).lines.length = text.lines.length ∧
        List.Forall₂ Shortened text.lines (clean text).lines ∧ clean (clean text) = clean text) ∧
      ∀ lines : List Text, lines ≠ [] → GoesOn lines →
        heldAfter lines = clean (Text.joinLines lines) ∧
          (isOpen (heldAfter lines) = true ↔
            (clean (Text.joinLines lines)).count ')' <
              (clean (Text.joinLines lines)).count '(') := by
  constructor
  · intro text
    refine ⟨?_, ?_, clean_clean text⟩
    · rw [lines_clean, List.length_map]
    · rw [lines_clean, List.forall₂_map_right_iff, List.forall₂_same]
      exact fun line _ => shortened_cleanLine line
  · intro lines hne hlines
    rw [heldAfter_eq_clean hne hlines]
    exact ⟨rfl, by rw [isOpen, decide_eq_true_iff]⟩

/-- The first of three semicolons starts the comment, and an empty line is a line. -/
theorem clean_shortens_typed :
    GoesOn ["(+ 1  ;;; (".toList, [], " 2) ".toList] ∧
      heldAfter ["(+ 1  ;;; (".toList, [], " 2) ".toList] = "(+ 1\n\n 2)".toList := by
  have hlines : GoesOn ["(+ 1  ;;; (".toList, [], " 2) ".toList] := by decide
  refine ⟨hlines, (clean_shortens.2 _ (by simp) hlines).1.trans ?_⟩
  rfl

end Source

end BracketCalc
