import BracketCalc.Proofs.Expr.Placed
import BracketCalc.Proofs.Source.Lines
import BracketCalc.Proofs.Token.Kinds
import BracketCalc.Report.Place
/-!
# The lines of tokens

Where newlines separate, no token goes beyond its line.  So the tokens of a text,
each with the number of its line, are those of its lines one after another, and
depend on nothing but the kinds of tokens in each line.
-/

namespace BracketCalc.Token

/-- The number of the line that an offset lies on, counted from zero. -/
def lineOf (text : Text) (offset : Int) : Int := (Place.ofOffset text offset.toNat).lineIndex

/-- The tokens of the kinds in some lines, each with the number of its line. -/
def numbered (number : Nat) : List (List TokenKind) → List Token
  | [] => []
  | kinds :: rest => kinds.map (fun kind => ⟨kind, ⟨number, 0⟩⟩) ++ numbered (number + 1) rest

variable {front line rest text : Text} {ls ms : List Text} {offset : Nat}

theorem lineOf_eq (text : Text) (offset : Int) :
    lineOf text offset = ((text.take offset.toNat).count '\n' : Nat) := rfl

theorem lineOf_zero (text : Text) : lineOf text 0 = 0 := by simp [lineOf_eq]

/-- All offsets in a line have the number of newlines in front of it. -/
theorem lineOf_append (hline : '\n' ∉ line) (rest : Text) {offset : Int}
    (hlow : (front.length : Int) ≤ offset) (hhigh : offset ≤ (front.length + line.length : Nat)) :
    lineOf (front ++ (line ++ rest)) offset = (front.count '\n' : Nat) := by
  obtain ⟨more, rfl⟩ : ∃ more : Nat, offset = (front.length + more : Nat) :=
    ⟨offset.toNat - front.length, by omega⟩
  have hmore : more ≤ line.length := by omega
  rw [lineOf_eq, Int.toNat_natCast, List.take_length_add_append,
    List.take_append_of_le_length hmore, List.count_append]
  have hnone : (line.take more).count '\n' = 0 :=
    List.count_eq_zero.2 fun hmem => hline (List.mem_of_mem_take hmem)
  rw [hnone, Nat.add_zero]

/-- A newline that separates ends what stands before it. -/
theorem lexFrom_separate_append (offset : Nat) (current : Option Unfinished) (line rest : Text) :
    lexFrom .separate offset current (line ++ '\n' :: rest) =
      lexFrom .separate offset current line ++
        lexFrom .separate (offset + line.length + 1) none rest := by
  induction line generalizing offset current with
  | nil => rfl
  | cons c line ih =>
      have hlength : offset + (c :: line).length + 1 = offset + 1 + line.length + 1 := by
        rw [List.length_cons]
        omega
      rw [List.cons_append, lexFrom, lexFrom, hlength]
      cases Newlines.separate.role c <;> simp [ih]

/-- The tokens of one line of a text have its number. -/
theorem map_placed_lexFrom_line (front rest : Text) (hline : '\n' ∉ line) :
    (lexFrom .separate front.length none line).map
        (Token.placed (lineOf (front ++ (line ++ rest)))) =
      (kindsFrom .separate [] line).map fun kind => ⟨kind, ⟨(front.count '\n' : Nat), 0⟩⟩ := by
  rw [← (map_kind_lexFrom .separate line).1 front.length, List.map_map]
  refine List.map_congr_left fun t ht => ?_
  have hlexes : Lexes .separate front.length line (lexFrom .separate front.length none line) :=
    lexes_iff.2 rfl
  have hlow := hlexes.le_start ht
  have hhigh := (hlexes.stands ht).bounds
  rw [List.length_append] at hhigh
  have hnumber := lineOf_append hline rest hlow (by omega)
  simp only [Function.comp, Token.placed, Span.placed, hnumber]

theorem map_placed_lexFrom_joinLines (front : Text) (hne : ls ≠ []) (h : ∀ l ∈ ls, '\n' ∉ l) :
    (lexFrom .separate front.length none (Text.joinLines ls)).map
        (Token.placed (lineOf (front ++ Text.joinLines ls))) =
      numbered (front.count '\n') (ls.map (kindsFrom .separate [])) := by
  induction ls generalizing front with
  | nil => exact absurd rfl hne
  | cons l rest ih =>
      have hl := h l List.mem_cons_self
      cases rest with
      | nil =>
          have hone := map_placed_lexFrom_line front [] hl
          rw [List.append_nil] at hone
          rw [Text.joinLines_singleton, hone, List.map_singleton, numbered, numbered,
            List.append_nil]
      | cons next rest =>
          have hrest := ih (front ++ (l ++ ['\n'])) (by simp)
            fun line hline => h line (List.mem_cons_of_mem l hline)
          have hlength : (front ++ (l ++ ['\n'])).length = front.length + l.length + 1 := by
            simp
            omega
          have hcount : (front ++ (l ++ ['\n'])).count '\n' = front.count '\n' + 1 := by
            simp [List.count_eq_zero.2 hl]
          rw [hlength, hcount] at hrest
          have hone := map_placed_lexFrom_line front ('\n' :: Text.joinLines (next :: rest)) hl
          rw [Text.joinLines_cons l (by simp), lexFrom_separate_append, List.map_append, hone,
            List.map_cons, numbered, ← hrest]
          simp

/-- Texts whose lines have tokens of the same kinds have the same tokens, up to their places in the
lines. -/
theorem map_placed_lex_joinLines (hls : ls ≠ []) (hms : ms ≠ []) (hl : ∀ l ∈ ls, '\n' ∉ l)
    (hm : ∀ l ∈ ms, '\n' ∉ l)
    (h : ls.map (kindsFrom .separate []) = ms.map (kindsFrom .separate [])) :
    (lex .separate (Text.joinLines ls)).map (Token.placed (lineOf (Text.joinLines ls))) =
      (lex .separate (Text.joinLines ms)).map (Token.placed (lineOf (Text.joinLines ms))) := by
  have hleft := map_placed_lexFrom_joinLines [] hls hl
  have hright := map_placed_lexFrom_joinLines [] hms hm
  rw [← h] at hright
  exact hleft.trans hright.symm

end BracketCalc.Token
