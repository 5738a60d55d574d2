import BracketCalc.Proofs.Source.Lines
import BracketCalc.Proofs.Token.Kinds
/-!
# The tokens of a cleaned text

A text is plain if it has no comments, and no blanks but spaces and newlines.
Cleaning it removes the spaces at the ends of its lines.

Where newlines separate, this changes no token.  Where literals go on behind
newlines, such a space may be all that parts a literal from the next one, and
then the two are joined.  Each joint is one literal less, and a text without
joints keeps its tokens.
-/

namespace BracketCalc

/-- A character of literals. -/
def Text.IsLetter (c : Char) : Prop := c ≠ ' ' ∧ c ≠ '\n' ∧ c ≠ '(' ∧ c ≠ ')'

namespace Source

/-- There are no comments, and all blanks are spaces or newlines. -/
structure Plain (text : Text) : Prop where
  noComment : ¬ [';', ';'] <:+: text
  blanks : ∀ c ∈ text, Text.isBlank c = true → c = ' ' ∨ c = '\n'

/-- Behind blanks, of which the last is a newline, a literal starts. -/
inductive Resumes : Text → Prop where
  | newline {b : Char} {behind : Text} : Text.IsLetter b → Resumes ('\n' :: b :: behind)
  | blank {c : Char} {rest : Text} : c = ' ' ∨ c = '\n' → Resumes rest → Resumes (c :: rest)

/-- Behind blanks, of which one is a space and the last is a newline, a literal starts. -/
inductive Parted : Text → Prop where
  | space {rest : Text} : Resumes rest → Parted (' ' :: rest)
  | newline {rest : Text} : Parted rest → Parted ('\n' :: rest)

/-- Somewhere a literal ends, and the next one starts on a later line, behind no space of that line
but with a space before it. -/
inductive Joined : Text → Prop where
  | here {a : Char} {rest : Text} : Text.IsLetter a → Parted rest → Joined (a :: rest)
  | later {c : Char} {rest : Text} : Joined rest → Joined (c :: rest)

variable {text rest : Text} {c : Char}

/-! ### Plain texts -/

theorem Plain.tail (h : Plain (c :: rest)) : Plain rest :=
  ⟨fun hpair => h.noComment (hpair.trans (List.suffix_cons c rest).isInfix),
    fun d hd => h.blanks d (List.mem_cons_of_mem c hd)⟩

theorem Plain.head (h : Plain (c :: rest)) : c = ';' → rest.head? ≠ some ';' := by
  rintro rfl hhead
  obtain ⟨more, rfl⟩ := List.head?_eq_some_iff.1 hhead
  exact h.noComment ⟨[], more, rfl⟩

/-- What holds of the empty text, and is kept by a newline, a space and a character that cleaning
keeps in front, holds of all plain texts. -/
@[elab_as_elim]
theorem Plain.induction {motive : ∀ text, Plain text → Prop} (nil : ∀ h, motive [] h)
    (newline : ∀ rest h hrest, motive rest hrest → motive ('\n' :: rest) h)
    (space : ∀ rest h hrest, motive rest hrest → motive (' ' :: rest) h)
    (ink : ∀ c rest h hrest, Text.isBlank c = false → clean (c :: rest) = c :: clean rest →
      motive rest hrest → motive (c :: rest) h)
    {text : Text} (h : Plain text) : motive text h := by
  induction text with
  | nil => exact nil h
  | cons c rest ih =>
      cases hc : Text.isBlank c with
      | false => exact ink c rest h h.tail hc (clean_ink hc h.head) (ih h.tail)
      | true =>
          rcases h.blanks c List.mem_cons_self hc with rfl | rfl
          · exact space rest h h.tail (ih h.tail)
          · exact newline rest h h.tail (ih h.tail)

theorem clean_space (rest : Text) :
    clean (' ' :: rest) = if LineEnds (clean rest) then clean rest else ' ' :: clean rest :=
  clean_blank rfl (by decide)

/-! ### Where newlines separate -/

open Token

variable {letters : Text}

theorem kindsFrom_of_lineEnds (h : LineEnds text) (letters : Text) :
    kindsFrom .separate letters text = pendingKind letters ++ kindsFrom .separate [] text := by
  cases text with
  | nil => simp [kindsFrom, pendingKind]
  | cons c rest =>
      obtain rfl : c = '\n' := h c rfl
      rfl

/-- Cleaning a plain text changes no token where newlines separate. -/
theorem kindsFrom_separate_clean (h : Plain text) (letters : Text) :
    kindsFrom .separate letters (clean text) = kindsFrom .separate letters text := by
  induction h using Plain.induction generalizing letters with
  | nil => rfl
  | newline rest _ _ ih =>
      rw [clean_newline]
      exact congrArg (pendingKind letters ++ ·) (ih [])
  | space rest _ _ ih =>
      have hspace : kindsFrom .separate letters (' ' :: rest) =
          pendingKind letters ++ kindsFrom .separate [] (clean rest) := by
        rw [ih]
        rfl
      rw [clean_space, hspace]
      split
      · next hends => exact kindsFrom_of_lineEnds hends letters
      · rfl
  | ink c rest _ _ _ hclean ih =>
      rw [hclean, kindsFrom, kindsFrom]
      simp only [ih]

/-! ### Where literals go on behind newlines -/

/-- Behind newlines a literal starts. -/
inductive Sticks : Text → Prop where
  | letter {b : Char} {behind : Text} : Text.IsLetter b → Sticks (b :: behind)
  | newline {rest : Text} : Sticks rest → Sticks ('\n' :: rest)

/-- A joint is in the text, or between the letters in front of it and the text. -/
def Joins (letters text : Text) : Prop := Joined text ∨ letters ≠ [] ∧ Parted text

variable {letters' : Text} {newlines : Newlines}

theorem role_letter (h : Text.IsLetter c) : newlines.role c = .letter :=
  Newlines.role_eq_letter_iff.2 h

theorem literals_kindsFrom (h : letters ≠ []) (h' : letters' ≠ []) :
    literals (kindsFrom newlines letters text) = literals (kindsFrom newlines letters' text) := by
  induction text generalizing letters letters' with
  | nil => simp [kindsFrom, literals_pendingKind h, literals_pendingKind h']
  | cons c rest ih =>
      rw [kindsFrom, kindsFrom]
      cases newlines.role c with
      | letter => exact ih (by simp) (by simp)
      | skipped => exact ih h h'
      | separator =>
          simp only [literals_append, literals_pendingKind h, literals_pendingKind h']
      | left => simp only [literals_append, literals_pendingKind h, literals_pendingKind h']
      | right => simp only [literals_append, literals_pendingKind h, literals_pendingKind h']

theorem literals_of_sticks (h : Sticks text) (letters : Text) :
    literals (kindsFrom .merge letters text) = literals (kindsFrom .merge [] text) := by
  induction h with
  | letter hb =>
      rw [kindsFrom, kindsFrom, role_letter hb]
      exact literals_kindsFrom (by simp) (by simp)
  | newline _ ih => exact ih

theorem kindsFrom_of_not_sticks (h : ¬ Sticks text) (letters : Text) :
    kindsFrom .merge letters text = pendingKind letters ++ kindsFrom .merge [] text := by
  induction text with
  | nil => simp [kindsFrom, pendingKind]
  | cons c rest ih =>
      cases hrole : Newlines.merge.role c with
      | letter => exact absurd (.letter (Newlines.role_eq_letter_iff.1 hrole)) h
      | skipped =>
          obtain rfl := Newlines.eq_newline_of_role_eq_skipped hrole
          exact ih fun hrest => h (.newline hrest)
      | separator => simp [kindsFrom, hrole, pendingKind]
      | left => simp [kindsFrom, hrole, pendingKind]
      | right => simp [kindsFrom, hrole, pendingKind]

theorem not_lineEnds_cons (hc : Text.isBlank c = false) (rest : Text) : ¬ LineEnds (c :: rest) := by
  intro h
  obtain rfl : c = '\n' := h c rfl
  cases hc

theorem clean_letter (h : Plain (c :: rest)) (hc : Text.IsLetter c) :
    clean (c :: rest) = c :: clean rest := by
  refine clean_ink ?_ h.head
  by_contra hblank
  rcases h.blanks c List.mem_cons_self (by simpa using hblank) with rfl | rfl
  · exact hc.1 rfl
  · exact hc.2.1 rfl

theorem exists_letter_of_clean (h : Plain text) (hsticks : Sticks (clean text))
    (hends : ¬ LineEnds (clean text)) :
    ∃ b behind, text = b :: behind ∧ Text.IsLetter b := by
  induction h using Plain.induction with
  | nil => cases hsticks
  | newline rest _ _ _ =>
      rw [clean_newline] at hends
      exact absurd (by simp [LineEnds]) hends
  | space rest _ _ _ =>
      rw [clean_space] at hsticks hends
      split at hends
      · next hrest => exact absurd hrest hends
      · next hrest =>
          rw [if_neg hrest] at hsticks
          cases hsticks with
          | letter hb => exact absurd rfl hb.1
  | ink c rest _ _ hc hclean _ =>
      rw [hclean] at hsticks
      cases hsticks with
      | letter hb => exact ⟨c, rest, rfl, hb⟩
      | newline _ => cases hc

/-- A literal starts behind blanks if it does so in the cleaned text behind newlines. -/
theorem resumes_iff (h : Plain text) :
    Resumes text ↔ LineEnds (clean text) ∧ Sticks (clean text) := by
  induction h using Plain.induction with
  | nil =>
      constructor
      · nofun
      · rintro ⟨-, hsticks⟩
        cases hsticks
  | newline rest _ hrest ih =>
      rw [clean_newline]
      constructor
      · intro hresumes
        refine ⟨by simp [LineEnds], .newline ?_⟩
        cases hresumes with
        | newline hb =>
            rw [clean_letter hrest hb]
            exact .letter hb
        | blank _ hresumes => exact (ih.1 hresumes).2
      · rintro ⟨-, hsticks⟩
        cases hsticks with
        | letter hb => exact absurd rfl hb.2.1
        | newline hsticks =>
            by_cases hends : LineEnds (clean rest)
            · exact .blank (.inr rfl) (ih.2 ⟨hends, hsticks⟩)
            · obtain ⟨b, behind, rfl, hb⟩ := exists_letter_of_clean hrest hsticks hends
              exact .newline hb
  | space rest _ _ ih =>
      have hspace : Resumes (' ' :: rest) ↔ Resumes rest := by
        constructor
        · intro hresumes
          cases hresumes
          assumption
        · exact .blank (.inl rfl)
      rw [hspace, ih, clean_space]
      split
      · rfl
      · next hends =>
          have hspaceEnds : ¬ LineEnds (' ' :: clean rest) := by simp [LineEnds]
          simp only [hends, hspaceEnds, false_and]
  | ink c rest _ _ hc hclean _ =>
      rw [hclean]
      constructor
      · intro hresumes
        cases hresumes with
        | newline _ => cases hc
        | blank hblank _ => rcases hblank with rfl | rfl <;> cases hc
      · rintro ⟨hends, -⟩
        exact absurd hends (not_lineEnds_cons hc _)

/-! ### Joints -/

theorem joined_cons : Joined (c :: rest) ↔ Text.IsLetter c ∧ Parted rest ∨ Joined rest := by
  constructor
  · intro h
    cases h with
    | here hc hparted => exact .inl ⟨hc, hparted⟩
    | later hrest => exact .inr hrest
  · rintro (⟨hc, hparted⟩ | hrest)
    · exact .here hc hparted
    · exact .later hrest

theorem not_joins_nil : ¬ Joins letters [] := by
  rintro (h | ⟨-, h⟩) <;> cases h

theorem joins_newline : Joins letters ('\n' :: rest) ↔ Joins letters rest := by
  have hparted : Parted ('\n' :: rest) ↔ Parted rest := by
    constructor
    · intro h
      cases h
      assumption
    · exact .newline
  simp [Joins, joined_cons, hparted, Text.IsLetter]

theorem joins_space :
    Joins letters (' ' :: rest) ↔ Joins [] rest ∨ letters ≠ [] ∧ Resumes rest := by
  have hparted : Parted (' ' :: rest) ↔ Resumes rest := by
    constructor
    · intro h
      cases h
      assumption
    · exact .space
  simp [Joins, joined_cons, hparted, Text.IsLetter]

theorem joins_letter (hc : Text.IsLetter c) :
    Joins letters (c :: rest) ↔ Joins (c :: letters) rest := by
  have hparted : ¬ Parted (c :: rest) := by
    intro h
    cases h with
    | space _ => exact hc.1 rfl
    | newline _ => exact hc.2.1 rfl
  simp [Joins, joined_cons, hparted, hc, or_comm]

theorem joins_bracket (hc : c = '(' ∨ c = ')') : Joins letters (c :: rest) ↔ Joins [] rest := by
  have hparted : ¬ Parted (c :: rest) := by
    intro h
    cases h <;> simp at hc
  have hletter : ¬ Text.IsLetter c := fun h => hc.elim h.2.2.1 h.2.2.2
  simp [Joins, joined_cons, hparted, hletter]

/-- The kinds stay the same if there is no joint, and else there are fewer literals. -/
def Shrinks (joins : Prop) (cleaned kinds : List TokenKind) : Prop :=
  joins ∧ literals cleaned < literals kinds ∨ ¬ joins ∧ cleaned = kinds

variable {joins : Prop} {cleaned kinds : List TokenKind}

theorem Shrinks.le (h : Shrinks joins cleaned kinds) : literals cleaned ≤ literals kinds := by
  rcases h with ⟨-, hless⟩ | ⟨-, rfl⟩
  · exact Nat.le_of_lt hless
  · exact Nat.le_refl _

theorem Shrinks.append_left (h : Shrinks joins cleaned kinds) (front : List TokenKind) :
    Shrinks joins (front ++ cleaned) (front ++ kinds) := by
  rcases h with ⟨hjoins, hless⟩ | ⟨hjoins, rfl⟩
  · exact .inl ⟨hjoins, by simpa [literals_append] using hless⟩
  · exact .inr ⟨hjoins, rfl⟩

/-- Where literals go on behind newlines, a plain text keeps its tokens if it has no joint, and else
it has fewer literals when it is cleaned. -/
theorem kindsFrom_merge_clean (h : Plain text) (letters : Text) :
    Shrinks (Joins letters text) (kindsFrom .merge letters (clean text))
      (kindsFrom .merge letters text) := by
  induction h using Plain.induction generalizing letters with
  | nil => exact .inr ⟨not_joins_nil, rfl⟩
  | newline rest _ _ ih =>
      rw [clean_newline, joins_newline]
      exact ih letters
  | space rest _ hrest ih =>
      have hkinds : kindsFrom .merge letters (' ' :: rest) =
          pendingKind letters ++ kindsFrom .merge [] rest := rfl
      have hbehind := (ih []).append_left (pendingKind letters)
      rw [joins_space, hkinds, resumes_iff hrest, clean_space]
      split
      · next hends =>
          by_cases hsticks : Sticks (clean rest)
          · -- the space goes, and the letters meet the next literal
            by_cases hletters : letters = []
            · simpa [hletters, pendingKind] using ih []
            · refine .inl ⟨.inr ⟨hletters, hends, hsticks⟩, ?_⟩
              have hle := (ih []).le
              rw [literals_of_sticks hsticks, literals_append, literals_pendingKind hletters]
              omega
          · rw [kindsFrom_of_not_sticks hsticks]
            simpa [hsticks] using hbehind
      · next hends =>
          have hspace : kindsFrom .merge letters (' ' :: clean rest) =
              pendingKind letters ++ kindsFrom .merge [] (clean rest) := rfl
          simpa [hspace, hends] using hbehind
  | ink c rest _ _ hc hclean ih =>
      rw [hclean, kindsFrom, kindsFrom]
      cases hrole : Newlines.merge.role c with
      | letter =>
          rw [joins_letter (Newlines.role_eq_letter_iff.1 hrole)]
          exact ih (c :: letters)
      | skipped =>
          obtain rfl := Newlines.eq_newline_of_role_eq_skipped hrole
          cases hc
      | separator =>
          have hspace : c = ' ' := by
            unfold Newlines.role at hrole
            grind
          subst hspace
          cases hc
      | left =>
          rw [joins_bracket (.inl (Newlines.role_eq_left_iff.1 hrole))]
          exact ((ih []).append_left [.left]).append_left (pendingKind letters)
      | right =>
          rw [joins_bracket (.inr (Newlines.role_eq_right_iff.1 hrole))]
          exact ((ih []).append_left [.right]).append_left (pendingKind letters)

/-! ### What cleaning keeps -/

theorem filterMap_clean {α : Type} {f : Char → Option α} (h : Plain text) (hf : f ' ' = none) :
    (clean text).filterMap f = text.filterMap f := by
  induction h using Plain.induction with
  | nil => rfl
  | newline rest _ _ ih => rw [clean_newline, List.filterMap_cons, List.filterMap_cons, ih]
  | space rest _ _ ih =>
      rw [clean_space, List.filterMap_cons, hf]
      split
      · exact ih
      · rw [List.filterMap_cons, hf, ih]
  | ink c rest _ _ _ hclean ih => rw [hclean, List.filterMap_cons, List.filterMap_cons, ih]

theorem mem_clean_iff (h : Plain text) (hc : c ≠ ' ') : c ∈ clean text ↔ c ∈ text := by
  have hkeeps : (clean text).filterMap (Option.guard (· = c)) =
      text.filterMap (Option.guard (· = c)) := filterMap_clean h (by simp [hc.symm])
  have hmem : ∀ other : Text, c ∈ other ↔ c ∈ other.filterMap (Option.guard (· = c)) := by
    intro other
    simp
  rw [hmem, hkeeps, ← hmem]

theorem brackets_clean (h : Plain text) (newlines : Newlines) :
    brackets (kindsFrom newlines [] (clean text)) = brackets (kindsFrom newlines [] text) := by
  rw [brackets_kindsFrom, brackets_kindsFrom]
  exact filterMap_clean h rfl

theorem literals_clean_eq_zero_iff (h : Plain text) (newlines : Newlines) :
    literals (kindsFrom newlines [] (clean text)) = 0 ↔
      literals (kindsFrom newlines [] text) = 0 := by
  have hmem : ∀ c, newlines.role c = .letter → (c ∈ clean text ↔ c ∈ text) :=
    fun c hc => mem_clean_iff h (Newlines.role_eq_letter_iff.1 hc).1
  rw [literals_kindsFrom_eq_zero_iff, literals_kindsFrom_eq_zero_iff]
  grind

end Source

end BracketCalc
