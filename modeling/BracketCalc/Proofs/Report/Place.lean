import BracketCalc.Proofs.Source.Lines
import BracketCalc.Report.Place
import Mathlib.Data.List.TakeWhile
/-!
# Lines and columns

An offset is the number of characters in the lines before its own, each with
its newline, and of those before it in its own line.  Every offset up to the
length of a source has such a place, and the place of an offset is this one.
-/

namespace BracketCalc

namespace Text

variable {line text : Text} {before : List Text}

/-- Lines, each with a newline at its end. -/
def ended (before : List Text) : Text := before.flatMap (· ++ ['\n'])

theorem length_ended_cons (line : Text) (before : List Text) :
    (ended (line :: before)).length = line.length + 1 + (ended before).length := by
  simp only [ended, List.flatMap_cons, List.length_append, List.length_singleton]

theorem count_ended (h : ∀ l ∈ before, '\n' ∉ l) : (ended before).count '\n' = before.length := by
  induction before with
  | nil => rfl
  | cons l before ih =>
      rw [List.forall_mem_cons] at h
      have hnone : l.count '\n' = 0 := List.count_eq_zero.2 h.1
      have hrest := ih h.2
      unfold ended at hrest ⊢
      rw [List.flatMap_cons, List.count_append, List.count_append, hnone, hrest, List.length_cons]
      simp
      omega

/-- Nothing or a newline stands in front of what comes behind the lines. -/
theorem takeWhile_ended_reverse (before : List Text) :
    (ended before).reverse.takeWhile (· ≠ '\n') = [] := by
  rcases List.eq_nil_or_concat before with rfl | ⟨front, l, rfl⟩
  · rfl
  · simp [ended]

/-- What stands behind a line. -/
def following (behind : List Text) : Text :=
  if behind = [] then [] else '\n' :: joinLines behind

theorem takeWhile_following (behind : List Text) :
    (following behind).takeWhile (· ≠ '\n') = [] := by
  unfold following
  split <;> simp

theorem joinLines_around (before : List Text) (line : Text) (behind : List Text) :
    joinLines (before ++ line :: behind) = ended before ++ (line ++ following behind) := by
  induction before with
  | nil =>
      unfold following ended
      split
      · next hnil => simp [hnil]
      · next hne => rw [List.nil_append, joinLines_cons line hne]; rfl
  | cons l before ih =>
      rw [List.cons_append, joinLines_cons l (by simp), ih]
      simp [ended]

end Text

namespace Place

variable {source line : Text} {before behind ls : List Text} {offset column : Nat}

open Text

/-- The place of an offset in a line. -/
theorem ofOffset_of_lines (h : source.lines = before ++ line :: behind)
    (hcolumn : column ≤ line.length) :
    ofOffset source ((ended before).length + column) = ⟨before.length, line, column⟩ := by
  have hnewlines : ∀ l ∈ before ++ line :: behind, '\n' ∉ l := by
    rw [← h]
    exact fun l hl => not_mem_of_mem_lines hl
  rw [List.forall_mem_append, List.forall_mem_cons] at hnewlines
  obtain ⟨hbefore, hline, -⟩ := hnewlines
  have hsource : source = ended before ++ (line ++ following behind) := by
    rw [← joinLines_around, ← h, joinLines_lines]
  have htake : source.take ((ended before).length + column) = ended before ++ line.take column := by
    rw [hsource, List.take_length_add_append, List.take_append_of_le_length hcolumn]
  have hdrop : source.drop ((ended before).length + column) =
      line.drop column ++ following behind := by
    rw [hsource, List.drop_length_add_append, List.drop_append_of_le_length hcolumn]
  have hkept : ∀ part : Text, (∀ c ∈ part, c ∈ line) → ∀ c ∈ part, (c ≠ '\n' : Bool) := by
    intro part hpart c hc
    rw [decide_eq_true_eq]
    rintro rfl
    exact hline (hpart _ hc)
  have hhead : ((ended before ++ line.take column).reverse.takeWhile (· ≠ '\n')).reverse =
      line.take column := by
    rw [List.reverse_append, List.takeWhile_append_of_pos, takeWhile_ended_reverse,
      List.append_nil, List.reverse_reverse]
    exact hkept _ fun c hc => List.mem_of_mem_take (List.mem_reverse.1 hc)
  have htail : (line.drop column ++ following behind).takeWhile (· ≠ '\n') =
      line.drop column := by
    rw [List.takeWhile_append_of_pos, takeWhile_following, List.append_nil]
    exact hkept _ fun c hc => List.mem_of_mem_drop hc
  have hcount : (ended before ++ line.take column).count '\n' = before.length := by
    rw [List.count_append, count_ended hbefore, List.count_eq_zero.2, Nat.add_zero]
    exact fun hmem => hline (List.mem_of_mem_take hmem)
  have hoffset : (line.take column).length +
      ((ended before).length + column - (ended before ++ line.take column).length) = column := by
    rw [List.length_append, List.length_take]
    omega
  unfold ofOffset
  simp only [htake, hdrop, hhead, htail, hcount, hoffset, List.take_append_drop]

theorem exists_of_le_length (hls : ls ≠ []) (h : offset ≤ (joinLines ls).length) :
    ∃ before line behind column, ls = before ++ line :: behind ∧ column ≤ line.length ∧
      offset = (ended before).length + column := by
  induction ls generalizing offset with
  | nil => exact absurd rfl hls
  | cons l ls ih =>
      by_cases hfirst : offset ≤ l.length
      · exact ⟨[], l, ls, offset, rfl, hfirst, by simp [ended]⟩
      · have hrest : ls ≠ [] := by
          rintro rfl
          rw [joinLines_singleton] at h
          exact hfirst h
        rw [joinLines_cons l hrest, List.length_append, List.length_cons] at h
        have hless : offset - (l.length + 1) ≤ (joinLines ls).length := by omega
        obtain ⟨before, line, behind, column, rfl, hcolumn, hoffset⟩ := ih hrest hless
        refine ⟨l :: before, line, behind, column, rfl, hcolumn, ?_⟩
        rw [length_ended_cons]
        omega

/-- Every offset in a source has a place in its lines. -/
theorem exists_lines (h : offset ≤ source.length) :
    ∃ before behind, source.lines = before ++ (ofOffset source offset).line :: behind ∧
      (ofOffset source offset).lineIndex = before.length ∧
      (ofOffset source offset).column ≤ (ofOffset source offset).line.length ∧
      offset = (ended before).length + (ofOffset source offset).column := by
  rw [← joinLines_lines source] at h
  obtain ⟨before, line, behind, column, hlines, hcolumn, rfl⟩ :=
    exists_of_le_length (lines_ne_nil source) h
  rw [ofOffset_of_lines hlines hcolumn]
  exact ⟨before, behind, hlines, rfl, hcolumn, rfl⟩

/-- The line of an offset is the line of the source with its index. -/
theorem getElem?_lines (source : Text) (offset : Nat) :
    source.lines[(ofOffset source offset).lineIndex]? = some (ofOffset source offset).line := by
  by_cases h : offset ≤ source.length
  · obtain ⟨before, behind, hlines, hindex, -, -⟩ := exists_lines h
    rw [hlines, hindex]
    simp
  · -- behind the source the line is the last one
    obtain ⟨before, behind, hlines, hindex, -, -⟩ := exists_lines (Nat.le_refl source.length)
    have hline : (ofOffset source offset).line = (ofOffset source source.length).line := by
      simp [ofOffset, List.take_of_length_le, List.drop_of_length_le, Nat.le_of_not_le h]
    have hlast : (ofOffset source offset).lineIndex =
        (ofOffset source source.length).lineIndex := by
      simp [ofOffset, List.take_of_length_le, Nat.le_of_not_le h]
    rw [hline, hlast, hlines, hindex]
    simp

/-- A character that is no newline stands in the line of its offset, at the column of the offset. -/
theorem getElem?_ofOffset {c : Char} (h : source[offset]? = some c) (hc : c ≠ '\n') :
    (ofOffset source offset).line[(ofOffset source offset).column]? = some c := by
  obtain ⟨hlt, -⟩ := List.getElem?_eq_some_iff.1 h
  obtain ⟨before, behind, hlines, -, hcolumn, hoffset⟩ := exists_lines (Nat.le_of_lt hlt)
  generalize (ofOffset source offset).line = line,
    (ofOffset source offset).column = column at hlines hcolumn hoffset
  have hsource : source = ended before ++ (line ++ following behind) := by
    rw [← joinLines_around, ← hlines, joinLines_lines]
  rw [hsource, hoffset, List.getElem?_append_right (by omega),
    Nat.add_sub_cancel_left] at h
  by_cases hend : column < line.length
  · rwa [List.getElem?_append_left hend] at h
  · -- behind the line there is a newline or nothing
    obtain rfl : column = line.length := by omega
    rw [List.getElem?_append_right (Nat.le_refl _), Nat.sub_self] at h
    unfold following at h
    split at h
    · cases h
    · exact absurd (Option.some.inj h).symm hc

end Place

end BracketCalc
