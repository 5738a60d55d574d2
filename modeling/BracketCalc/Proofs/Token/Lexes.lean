import BracketCalc.Token.Lexer
/-!
# What a text lexes to

`Lexes` says which tokens stand in a text before which no literal is being read:
blanks are passed over, and a token stands at each lexeme, which is a bracket or
a run of letters that no letter follows.  A text lexes to the tokens of
`lexFrom` and to no others (`lexes_iff`), so that facts about tokens are proved
by induction on lexemes instead of characters.

A text may be cut before and behind each token, and the parts lex to the tokens
on either side.  Hence the stretch from one token to another lexes to the
tokens from the one to the other (`Lexes.exists_stretch`).
-/

namespace BracketCalc

namespace Newlines

variable {newlines : Newlines} {c : Char}

theorem role_eq_left_iff : newlines.role c = .left ↔ c = '(' := by
  unfold role
  cases newlines <;> grind

theorem role_eq_right_iff : newlines.role c = .right ↔ c = ')' := by
  unfold role
  cases newlines <;> grind

theorem role_eq_letter_iff :
    newlines.role c = .letter ↔ c ≠ ' ' ∧ c ≠ '\n' ∧ c ≠ '(' ∧ c ≠ ')' := by
  unfold role
  cases newlines <;> grind

theorem eq_newline_of_role_eq_skipped (h : newlines.role c = .skipped) : c = '\n' := by
  unfold role at h
  cases newlines <;> grind

end Newlines

namespace Token

variable {newlines : Newlines} {offset : Nat} {text run rest : Text} {tokens : List Token}
  {t : Token} {c : Char}

/-! ### Words -/

/-- The letters of a run, without the newlines that are skipped in it. -/
def lettersOf (newlines : Newlines) (run : Text) : Text :=
  run.filter (newlines.role · = .letter)

/-- A run of letters and skipped newlines that begins with a letter. -/
structure Word (newlines : Newlines) (run : Text) : Prop where
  head : ∃ c rest, run = c :: rest ∧ newlines.role c = .letter
  only : ∀ c ∈ run, newlines.role c = .letter ∨ newlines.role c = .skipped

theorem word_singleton (h : newlines.role c = .letter) : Word newlines [c] := by
  refine ⟨⟨c, [], rfl, h⟩, fun d hd => ?_⟩
  rw [List.mem_singleton.1 hd]
  exact .inl h

theorem Word.concat (hrun : Word newlines run)
    (h : newlines.role c = .letter ∨ newlines.role c = .skipped) : Word newlines (run ++ [c]) := by
  obtain ⟨⟨first, rest, rfl, hfirst⟩, honly⟩ := hrun
  refine ⟨⟨first, rest ++ [c], rfl, hfirst⟩, fun d hd => ?_⟩
  rcases List.mem_append.1 hd with hd | hd
  · exact honly d hd
  · rw [List.mem_singleton.1 hd]
    exact h

theorem Word.length_pos (h : Word newlines run) : 0 < run.length := by
  obtain ⟨⟨c, rest, rfl, -⟩, -⟩ := h
  simp

theorem Word.lettersOf_ne_nil (h : Word newlines run) : lettersOf newlines run ≠ [] := by
  obtain ⟨⟨c, rest, rfl, hc⟩, -⟩ := h
  simp [lettersOf, hc]

theorem lettersOf_concat_letter (h : newlines.role c = .letter) :
    lettersOf newlines (run ++ [c]) = lettersOf newlines run ++ [c] := by
  simp [lettersOf, h]

theorem lettersOf_concat_skipped (h : newlines.role c = .skipped) :
    lettersOf newlines (run ++ [c]) = lettersOf newlines run := by
  simp [lettersOf, h]

/-! ### Lexemes -/

/-- The run of characters at which a token stands. -/
inductive Lexeme (newlines : Newlines) (offset : Nat) : Text → Token → Prop where
  | left : Lexeme newlines offset ['('] (Token.left offset)
  | right : Lexeme newlines offset [')'] (Token.right offset)
  | word {run : Text} : Word newlines run →
      Lexeme newlines offset run
        ⟨.literal (lettersOf newlines run), offset, (offset + run.length : Nat)⟩

theorem Lexeme.span_eq (h : Lexeme newlines offset run t) :
    t.span = ⟨offset, (offset + run.length : Nat)⟩ := by
  cases h <;> rfl

theorem Lexeme.length_pos (h : Lexeme newlines offset run t) : 0 < run.length := by
  cases h with
  | left => simp
  | right => simp
  | word hrun => exact hrun.length_pos

/-- The text does not go on with the literal. -/
def Apart (newlines : Newlines) (t : Token) (rest : Text) : Prop :=
  ∀ letters, t.kind = .literal letters →
    ∀ c ∈ rest.head?, newlines.role c ≠ .letter ∧ newlines.role c ≠ .skipped

theorem apart_nil : Apart newlines t [] := nofun

theorem apart_cons (h : newlines.role c ≠ .letter) (h' : newlines.role c ≠ .skipped) :
    Apart newlines t (c :: rest) := by
  intro letters _ d hd
  cases hd
  exact ⟨h, h'⟩

theorem apart_left : Apart newlines (Token.left offset) rest := nofun

theorem apart_right : Apart newlines (Token.right offset) rest := nofun

theorem Apart.left {front : Text} (h : Apart newlines t (front ++ rest)) :
    Apart newlines t front := by
  cases front with
  | nil => exact apart_nil
  | cons c front => exact h

/-! ### Lexing -/

/-- The tokens that stand in a text which begins at the given offset. -/
inductive Lexes (newlines : Newlines) : Nat → Text → List Token → Prop where
  | nil {offset : Nat} : Lexes newlines offset [] []
  | blank {offset : Nat} {c : Char} {rest : Text} {tokens : List Token} :
      newlines.role c = .separator ∨ newlines.role c = .skipped →
      Lexes newlines (offset + 1) rest tokens → Lexes newlines offset (c :: rest) tokens
  | token {offset : Nat} {run rest : Text} {t : Token} {tokens : List Token} :
      Lexeme newlines offset run t → Apart newlines t rest →
      Lexes newlines (offset + run.length) rest tokens →
      Lexes newlines offset (run ++ rest) (t :: tokens)

theorem Lexes.left (h : Lexes newlines (offset + 1) rest tokens) :
    Lexes newlines offset ('(' :: rest) (Token.left offset :: tokens) :=
  .token .left apart_left h

theorem Lexes.right (h : Lexes newlines (offset + 1) rest tokens) :
    Lexes newlines offset (')' :: rest) (Token.right offset :: tokens) :=
  .token .right apart_right h

theorem Lexes.word_append (h : Lexes newlines (offset + run.length) (c :: rest) tokens)
    (hrun : Word newlines run) (hletter : newlines.role c ≠ .letter)
    (hskipped : newlines.role c ≠ .skipped) :
    Lexes newlines offset (run ++ c :: rest)
      (⟨.literal (lettersOf newlines run), offset, (offset + run.length : Nat)⟩ :: tokens) :=
  .token (.word hrun) (apart_cons hletter hskipped) h

/-- A text lexes to the tokens of `lexFrom`, and so does the text with a word in front that is still
being read. -/
theorem lexes_lexFrom_both (newlines : Newlines) (text : Text) :
    (∀ offset, Lexes newlines offset text (lexFrom newlines offset none text)) ∧
      ∀ offset run, Word newlines run →
        Lexes newlines offset (run ++ text)
          (lexFrom newlines (offset + run.length) (some ⟨offset, (lettersOf newlines run).reverse⟩)
            text) := by
  induction text with
  | nil =>
      refine ⟨fun offset => .nil, fun offset run hrun => ?_⟩
      rw [lexFrom, flush, List.reverse_reverse]
      exact .token (.word hrun) apart_nil .nil
  | cons c rest ih =>
      obtain ⟨ihNone, ihSome⟩ := ih
      constructor
      · intro offset
        rw [lexFrom]
        cases hrole : newlines.role c with
        | letter =>
            have hword := ihSome offset [c] (word_singleton hrole)
            simpa [lettersOf, hrole, extend] using hword
        | skipped => exact .blank (.inr hrole) (ihNone (offset + 1))
        | separator => exact .blank (.inl hrole) (ihNone (offset + 1))
        | left =>
            rw [Newlines.role_eq_left_iff.1 hrole]
            exact .left (ihNone (offset + 1))
        | right =>
            rw [Newlines.role_eq_right_iff.1 hrole]
            exact .right (ihNone (offset + 1))
      · intro offset run hrun
        -- a letter or a skipped newline makes the word longer, any other character completes it
        have hlonger : offset + (run ++ [c]).length = offset + run.length + 1 := by simp; omega
        have hrest := ihNone (offset + run.length + 1)
        rw [lexFrom]
        cases hrole : newlines.role c with
        | letter =>
            have hword := ihSome offset (run ++ [c]) (hrun.concat (.inl hrole))
            rw [hlonger, lettersOf_concat_letter hrole, List.append_assoc] at hword
            simpa [extend] using hword
        | skipped =>
            have hword := ihSome offset (run ++ [c]) (hrun.concat (.inr hrole))
            rw [hlonger, lettersOf_concat_skipped hrole, List.append_assoc] at hword
            exact hword
        | separator =>
            have hblank := Lexes.blank (.inl hrole) hrest
            simpa [flush] using hblank.word_append hrun (by simp [hrole]) (by simp [hrole])
        | left =>
            cases Newlines.role_eq_left_iff.1 hrole
            simpa [flush] using hrest.left.word_append hrun (by simp [hrole]) (by simp [hrole])
        | right =>
            cases Newlines.role_eq_right_iff.1 hrole
            simpa [flush] using hrest.right.word_append hrun (by simp [hrole]) (by simp [hrole])

theorem lexFrom_word_append {letters : Text}
    (hrest : Apart newlines ⟨.literal letters, default⟩ rest) (start : Nat) (read : Text)
    (h : ∀ c ∈ run, newlines.role c = .letter ∨ newlines.role c = .skipped) :
    lexFrom newlines offset (some ⟨start, read⟩) (run ++ rest) =
      ⟨.literal (read.reverse ++ lettersOf newlines run), start, (offset + run.length : Nat)⟩ ::
        lexFrom newlines (offset + run.length) none rest := by
  induction run generalizing offset read with
  | nil =>
      cases rest with
      | nil => simp [lexFrom, flush, lettersOf]
      | cons c rest =>
          have hc := hrest letters rfl c rfl
          rw [List.nil_append, lexFrom, lexFrom]
          cases hrole : newlines.role c <;> simp_all [flush, lettersOf]
  | cons c run ih =>
      have hrun := fun d hd => h d (List.mem_cons_of_mem c hd)
      have hlength : offset + (c :: run).length = offset + 1 + run.length := by simp; omega
      rw [List.cons_append, lexFrom, hlength]
      rcases h c List.mem_cons_self with hc | hc
      · simp [hc, extend, ih _ hrun, lettersOf]
      · simp [hc, ih _ hrun, lettersOf]

theorem lexFrom_lexeme_append (h : Lexeme newlines offset run t) (hapart : Apart newlines t rest) :
    lexFrom newlines offset none (run ++ rest) =
      t :: lexFrom newlines (offset + run.length) none rest := by
  cases h with
  | left => simp [lexFrom, Newlines.role_eq_left_iff.2, flush]
  | right => simp [lexFrom, Newlines.role_eq_right_iff.2, flush]
  | word hrun =>
      obtain ⟨⟨c, more, rfl, hc⟩, honly⟩ := hrun
      have hmore := fun d hd => honly d (List.mem_cons_of_mem c hd)
      have hlength : offset + (c :: more).length = offset + 1 + more.length := by simp; omega
      have happend : lexFrom newlines (offset + 1) (some ⟨offset, [c]⟩) (more ++ rest) = _ :=
        lexFrom_word_append hapart offset [c] hmore
      rw [hlength, List.cons_append, lexFrom]
      simp [hc, extend, happend, lettersOf]

/-- A text lexes to the tokens that are read from it and to no others. -/
theorem lexes_iff : Lexes newlines offset text tokens ↔
    lexFrom newlines offset none text = tokens := by
  constructor
  · intro h
    induction h with
    | nil => rfl
    | blank hc _ ih => rcases hc with hc | hc <;> simp [lexFrom, hc, flush, ih]
    | token hlexeme hapart _ ih => rw [lexFrom_lexeme_append hlexeme hapart, ih]
  · rintro rfl
    exact (lexes_lexFrom_both newlines text).1 offset

theorem lexes_lex (newlines : Newlines) (text : Text) :
    Lexes newlines 0 text (lex newlines text) := lexes_iff.2 rfl

/-! ### Other offsets -/

/-- The token in a text with so many characters more in front. -/
def shift (count : Int) (t : Token) : Token :=
  ⟨t.kind, t.span.start + count, t.span.stop + count⟩

theorem map_kind_map_shift (count : Int) (tokens : List Token) :
    (tokens.map (shift count)).map Token.kind = tokens.map Token.kind := by
  rw [List.map_map]
  rfl

theorem Lexeme.shift (h : Lexeme newlines offset run t) (count : Nat) :
    Lexeme newlines (offset + count) run (t.shift count) := by
  have hspan := h.span_eq
  have hmoved : t.shift count =
      ⟨t.kind, (offset + count : Nat), (offset + count + run.length : Nat)⟩ := by
    simp only [Token.shift, hspan, Token.mk.injEq, Span.mk.injEq, true_and]
    omega
  rw [hmoved]
  cases h with
  | left => exact .left
  | right => exact .right
  | word hrun => exact .word hrun

theorem Lexes.shift (h : Lexes newlines offset text tokens) (count : Nat) :
    Lexes newlines (offset + count) text (tokens.map (Token.shift count)) := by
  induction h with
  | nil => exact .nil
  | blank hc _ ih =>
      rw [Nat.add_right_comm] at ih
      exact .blank hc ih
  | token hlexeme hapart _ ih =>
      rw [Nat.add_right_comm] at ih
      exact .token (hlexeme.shift count) hapart ih

/-! ### Joins -/

theorem Apart.append {behind : Text} (h : Apart newlines t rest)
    (hbehind : Apart newlines t behind) :
    Apart newlines t (rest ++ behind) := by
  cases rest with
  | nil => exact hbehind
  | cons c rest => exact h

/-- Texts may be joined where the second one does not go on with a literal. -/
theorem Lexes.append {behind : Text} {others : List Token} (h : Lexes newlines offset text tokens)
    (hapart : ∀ t, Apart newlines t behind)
    (hbehind : Lexes newlines (offset + text.length) behind others) :
    Lexes newlines offset (text ++ behind) (tokens ++ others) := by
  induction h with
  | nil => exact hbehind
  | @blank offset c rest tokens hc _ ih =>
      rw [List.length_cons, Nat.add_comm rest.length, ← Nat.add_assoc] at hbehind
      exact .blank hc (ih hbehind)
  | @token offset run rest first tokens hlexeme hrest _ ih =>
      rw [List.length_append, ← Nat.add_assoc] at hbehind
      rw [List.append_assoc]
      exact .token hlexeme (hrest.append (hapart first)) (ih hbehind)

/-! ### Cuts -/

variable {front behind : List Token}

/-- The text may be cut before a token. -/
theorem Lexes.exists_cut_before (h : Lexes newlines offset text (front ++ t :: behind)) :
    ∃ a b, text = a ++ b ∧ t.span.start = (offset + a.length : Nat) ∧
      Lexes newlines offset a front ∧ Lexes newlines (offset + a.length) b (t :: behind) := by
  generalize hall : front ++ t :: behind = tokens at h
  induction h generalizing front with
  | nil => simp at hall
  | @blank offset c rest tokens hc _ ih =>
      obtain ⟨a, b, rfl, hstart, ha, hb⟩ := ih hall
      rw [Nat.add_assoc, Nat.add_comm 1] at hstart hb
      exact ⟨c :: a, b, rfl, hstart, .blank hc ha, hb⟩
  | @token offset run rest first tokens hlexeme hapart hrest ih =>
      -- the first token is the one sought, or it belongs to the front
      rcases List.append_eq_cons_iff.1 hall with ⟨rfl, heq⟩ | ⟨front, rfl, heq⟩
      · cases heq
        exact ⟨[], _, rfl, by rw [hlexeme.span_eq]; rfl, .nil, .token hlexeme hapart hrest⟩
      · obtain ⟨a, b, rfl, hstart, ha, hb⟩ := ih heq.symm
        rw [Nat.add_assoc, ← List.length_append] at hstart hb
        exact ⟨run ++ a, b, (List.append_assoc ..).symm, hstart, .token hlexeme hapart.left ha, hb⟩

/-- The text may be cut behind a token. -/
theorem Lexes.exists_cut_behind (h : Lexes newlines offset text (front ++ t :: behind)) :
    ∃ a b, text = a ++ b ∧ t.span.stop = (offset + a.length : Nat) ∧
      Lexes newlines offset a (front ++ [t]) ∧ Lexes newlines (offset + a.length) b behind := by
  generalize hall : front ++ t :: behind = tokens at h
  induction h generalizing front with
  | nil => simp at hall
  | @blank offset c rest tokens hc _ ih =>
      obtain ⟨a, b, rfl, hstop, ha, hb⟩ := ih hall
      rw [Nat.add_assoc, Nat.add_comm 1] at hstop hb
      exact ⟨c :: a, b, rfl, hstop, .blank hc ha, hb⟩
  | @token offset run rest first tokens hlexeme hapart hrest ih =>
      rcases List.append_eq_cons_iff.1 hall with ⟨rfl, heq⟩ | ⟨front, rfl, heq⟩
      · cases heq
        have hfirst : Lexes newlines offset (run ++ []) [t] := .token hlexeme apart_nil .nil
        rw [List.append_nil] at hfirst
        exact ⟨run, _, rfl, by rw [hlexeme.span_eq], hfirst, hrest⟩
      · obtain ⟨a, b, rfl, hstop, ha, hb⟩ := ih heq.symm
        rw [Nat.add_assoc, ← List.length_append] at hstop hb
        exact ⟨run ++ a, b, (List.append_assoc ..).symm, hstop, .token hlexeme hapart.left ha, hb⟩

/-- The stretch of a text from the start of a token to the end of the same or a later token lexes to
the tokens between them, and what is before and behind it to the others. -/
theorem Lexes.exists_stretch {stretch : List Token} {first last : Token}
    (h : Lexes newlines offset text (front ++ (stretch ++ behind)))
    (hfirst : stretch.head? = some first) (hlast : stretch.getLast? = some last) :
    ∃ a b c, text = a ++ (b ++ c) ∧ first.span.start = (offset + a.length : Nat) ∧
      last.span.stop = (offset + a.length + b.length : Nat) ∧
      Lexes newlines offset a front ∧ Lexes newlines (offset + a.length) b stretch ∧
      Lexes newlines (offset + a.length + b.length) c behind := by
  obtain ⟨more, rfl⟩ := List.head?_eq_some_iff.1 hfirst
  obtain ⟨a, rest, rfl, hstart, ha, hrest⟩ := h.exists_cut_before
  obtain ⟨init, hinit⟩ := List.getLast?_eq_some_iff.1 hlast
  have hrest : Lexes newlines (offset + a.length) rest (first :: more ++ behind) := hrest
  rw [hinit, List.append_assoc] at hrest
  obtain ⟨b, c, rfl, hstop, hb, hc⟩ := hrest.exists_cut_behind
  exact ⟨a, b, c, rfl, hstart, hstop, ha, hinit ▸ hb, hc⟩

/-! ### Places of tokens -/

/-- The run of characters at which a token stands in a text. -/
def Stands (newlines : Newlines) (text : Text) (t : Token) : Prop :=
  ∃ a run b, text = a ++ (run ++ b) ∧ Lexeme newlines a.length run t

theorem Lexes.stands {front : Text} (h : Lexes newlines front.length text tokens)
    (ht : t ∈ tokens) : Stands newlines (front ++ text) t := by
  generalize hoffset : front.length = offset at h
  induction h generalizing front with
  | nil => cases ht
  | @blank offset c rest tokens _ _ ih =>
      have hnext : (front ++ [c]).length = offset + 1 := by simp [hoffset]
      rw [List.append_cons]
      exact ih ht hnext
  | @token offset run rest first tokens hlexeme _ _ ih =>
      rcases List.mem_cons.1 ht with rfl | ht
      · exact ⟨front, run, rest, rfl, hoffset ▸ hlexeme⟩
      · have hnext : (front ++ run).length = offset + run.length := by simp [hoffset]
        rw [← List.append_assoc]
        exact ih ht hnext

theorem stands_of_mem_lex (h : t ∈ lex newlines text) : Stands newlines text t := by
  have hlexes : Lexes newlines ([] : Text).length text (lex newlines text) :=
    lexes_lex newlines text
  exact hlexes.stands h

theorem Stands.bounds (h : Stands newlines text t) :
    0 ≤ t.span.start ∧ t.span.start < t.span.stop ∧ t.span.stop ≤ text.length := by
  obtain ⟨a, run, b, rfl, hrun⟩ := h
  have hpos := hrun.length_pos
  rw [hrun.span_eq]
  simp only [List.length_append]
  omega

theorem Stands.slice_span (h : Stands newlines text t) :
    Lexeme newlines t.span.start.toNat (t.span.slice text) t := by
  obtain ⟨a, run, b, rfl, hrun⟩ := h
  have hslice : t.span.slice (a ++ (run ++ b)) = run := by
    apply Span.slice_append b
    · rw [hrun.span_eq]
    · rw [hrun.span_eq, Int.natCast_add]
  rw [hslice, hrun.span_eq]
  exact hrun

theorem Stands.stop_eq (h : Stands newlines text t) (hbracket : t.kind = .left ∨ t.kind = .right) :
    t.span.stop = t.span.start + t.text.length := by
  obtain ⟨a, run, b, -, hrun⟩ := h
  cases hrun with
  | left => rfl
  | right => rfl
  | word _ => simp at hbracket

theorem Stands.eq_left (h : Stands newlines text t) (hkind : t.kind = .left) :
    t = Token.left t.span.start ∧ text[t.span.start.toNat]? = some '(' := by
  obtain ⟨a, run, b, rfl, hrun⟩ := h
  cases hrun with
  | left => simp [Token.left]
  | right => cases hkind
  | word _ => cases hkind

theorem Stands.eq_right (h : Stands newlines text t) (hkind : t.kind = .right) :
    t = Token.right (t.span.stop - 1) ∧ text[(t.span.stop - 1).toNat]? = some ')' := by
  obtain ⟨a, run, b, rfl, hrun⟩ := h
  cases hrun with
  | left => cases hkind
  | right => simp [Token.right]
  | word _ => cases hkind

theorem lettersOf_eq_filter
    (h : ∀ c ∈ run, newlines.role c = .letter ∨ newlines.role c = .skipped) :
    lettersOf newlines run = run.filter (· ≠ '\n') := by
  apply List.filter_congr
  intro c hc
  rcases h c hc with hrole | hrole
  · have hne := (Newlines.role_eq_letter_iff.1 hrole).2.1
    simp [hrole, hne]
  · have heq := Newlines.eq_newline_of_role_eq_skipped hrole
    rw [hrole, heq]
    rfl

theorem Stands.eq_literal (h : Stands newlines text t) {letters : Text}
    (hkind : t.kind = .literal letters) : letters = (t.span.slice text).filter (· ≠ '\n') := by
  have hlexeme := h.slice_span
  generalize t.span.slice text = run, t.span.start.toNat = offset at hlexeme
  cases hlexeme with
  | left => cases hkind
  | right => cases hkind
  | word hrun =>
      cases hkind
      exact lettersOf_eq_filter hrun.only

/-- The first character of a token stands where its span starts. -/
theorem Stands.exists_first (h : Stands newlines text t) :
    ∃ c, text[t.span.start.toNat]? = some c ∧ t.text.head? = some c ∧ c ≠ ' ' ∧ c ≠ '\n' := by
  obtain ⟨a, run, b, rfl, hrun⟩ := h
  cases hrun with
  | left => exact ⟨'(', by simp [Token.left], rfl, by decide, by decide⟩
  | right => exact ⟨')', by simp [Token.right], rfl, by decide, by decide⟩
  | word hword =>
      obtain ⟨c, rest, rfl, hc⟩ := hword.head
      obtain ⟨hspace, hnewline, -, -⟩ := Newlines.role_eq_letter_iff.1 hc
      exact ⟨c, by simp, by simp [Token.text, TokenKind.text, lettersOf, hc], hspace, hnewline⟩

theorem Lexes.le_start (h : Lexes newlines offset text tokens) (ht : t ∈ tokens) :
    (offset : Int) ≤ t.span.start := by
  obtain ⟨front, behind, rfl⟩ := List.append_of_mem ht
  obtain ⟨a, b, -, hstart, -⟩ := h.exists_cut_before
  omega

/-- Each token ends before the next one starts. -/
theorem Lexes.pairwise (h : Lexes newlines offset text tokens) :
    tokens.Pairwise fun t u => t.span.stop ≤ u.span.start := by
  induction h with
  | nil => exact .nil
  | blank _ _ ih => exact ih
  | token hlexeme _ hrest ih =>
      refine .cons (fun u hu => ?_) ih
      rw [hlexeme.span_eq]
      exact hrest.le_start hu

theorem bounds_of_stretch {stretch : List Token} {first last : Token} {span : Span}
    (h : lex newlines text = front ++ (stretch ++ behind)) (hfirst : stretch.head? = some first)
    (hlast : stretch.getLast? = some last) (hspan : span = ⟨first.span.start, last.span.stop⟩) :
    0 ≤ span.start ∧ span.start < span.stop ∧ span.stop ≤ text.length := by
  have hlexes := lexes_lex newlines text
  rw [h] at hlexes
  obtain ⟨a, b, c, rfl, hstart, hstop, -, hb, -⟩ := hlexes.exists_stretch hfirst hlast
  have hpos : 0 < b.length := by
    apply List.length_pos_iff.2
    rintro rfl
    have hnil : [] = stretch := lexes_iff.1 hb
    rw [← hnil] at hfirst
    cases hfirst
  simp only [hspan, hstart, hstop, List.length_append]
  omega

/-- The text from the start of a token to the end of the same or a later token lexes to tokens of
the same kinds as those between them. -/
theorem map_kind_lex_slice {stretch : List Token} {first last : Token} {span : Span}
    (h : lex newlines text = front ++ (stretch ++ behind)) (hfirst : stretch.head? = some first)
    (hlast : stretch.getLast? = some last) (hspan : span = ⟨first.span.start, last.span.stop⟩) :
    (lex newlines (span.slice text)).map Token.kind = stretch.map Token.kind := by
  have hlexes := lexes_lex newlines text
  rw [h] at hlexes
  obtain ⟨a, b, c, rfl, hstart, hstop, -, hb, -⟩ := hlexes.exists_stretch hfirst hlast
  have hslice : span.slice (a ++ (b ++ c)) = b := by
    apply Span.slice_append c
    · rw [hspan, hstart, Nat.zero_add]
    · rw [hspan, hstop, Nat.zero_add, Int.natCast_add]
  -- the tokens of the slice and those of the text differ by the offset of the slice
  have hshift : stretch = (lex newlines b).map (shift a.length) := by
    have hmoved := (lexes_lex newlines b).shift a.length
    exact (lexes_iff.1 hb).symm.trans (lexes_iff.1 hmoved)
  rw [hslice, hshift, map_kind_map_shift]

end Token

end BracketCalc
