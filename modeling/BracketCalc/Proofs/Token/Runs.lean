import BracketCalc.Proofs.Expr.RoundTrip
import BracketCalc.Proofs.Token.Kinds
import Mathlib.Data.List.Pairwise
import Mathlib.Data.List.Sort
/-!
# Brackets and maximal runs

`MaximalRuns` describes the tokens of a text by the characters at their places,
without a reading from left to right: each bracket is a token, and a literal is
a run of letters that cannot be made longer.  There is exactly one such list of
tokens, which is the one that the text lexes to.
-/

namespace BracketCalc

theorem Newlines.role_eq_separator_iff {newlines : Newlines} {c : Char} :
    newlines.role c = .separator ↔ c = ' ' ∨ newlines = .separate ∧ c = '\n' := by
  unfold role
  cases newlines <;> grind

namespace Token

/-- The offset lies in the span of the token. -/
def Covers (t : Token) (offset : Nat) : Prop :=
  t.span.start ≤ offset ∧ (offset : Int) < t.span.stop

/-- The token is the bracket at the offset. -/
def BracketAt (text : Text) (offset : Nat) (t : Token) : Prop :=
  text[offset]? = some '(' ∧ t = Token.left offset ∨
    text[offset]? = some ')' ∧ t = Token.right offset

/-- The token stands at a run of letters, which begins with its first letter and which no letter
follows. -/
structure Run (newlines : Newlines) (text : Text) (t : Token) (letters : Text) : Prop where
  unbroken : letters.Unbroken
  shown : letters = (t.span.slice text).filter (· ≠ '\n')
  whole : newlines = .separate → letters = t.span.slice text
  first : ∃ c, text[t.span.start.toNat]? = some c ∧ c ≠ '\n'
  ends : ∀ c, text[t.span.stop.toNat]? = some c →
    newlines.role c ≠ .letter ∧ newlines.role c ≠ .skipped

/-- The tokens are the brackets of the text and its maximal runs of letters, in order. -/
structure MaximalRuns (newlines : Newlines) (text : Text) (tokens : List Token) : Prop where
  bounds : ∀ t ∈ tokens,
    0 ≤ t.span.start ∧ t.span.start < t.span.stop ∧ t.span.stop ≤ text.length
  ordered : tokens.Pairwise fun t u => t.span.stop ≤ u.span.start
  covered : ∀ (offset : Nat) c, text[offset]? = some c → c ≠ ' ' → c ≠ '\n' →
    ∃! t, t ∈ tokens ∧ t.Covers offset
  brackets : ∀ t, t ∈ tokens ∧ t.kind.isLiteral = false ↔ ∃ offset, BracketAt text offset t
  run : ∀ t ∈ tokens, ∀ letters, t.kind = .literal letters → Run newlines text t letters
  apart : ∀ front t u behind, tokens = front ++ t :: u :: behind →
    t.kind.isLiteral = true → u.kind.isLiteral = true →
    ∃ offset : Nat, t.span.stop ≤ (offset : Int) ∧ (offset : Int) < u.span.start ∧
      (text[offset]? = some ' ' ∨ newlines = .separate ∧ text[offset]? = some '\n')

variable {newlines : Newlines} {offset : Nat} {text run letters : Text} {t u : Token} {c : Char}
  {tokens others front behind : List Token}

/-! ### Characters in spans -/

theorem mem_slice_of_covers (h : t.Covers offset) (hc : text[offset]? = some c) :
    c ∈ t.span.slice text := by
  obtain ⟨hstart, hstop⟩ := h
  refine List.mem_of_getElem? (i := offset - t.span.start.toNat) ?_
  rw [Span.slice, List.getElem?_drop, List.getElem?_take_of_lt (by omega)]
  rwa [Nat.add_sub_cancel' (by omega)]

/-- In a run there are letters, and newlines where these are skipped. -/
theorem Run.role_of_covers (h : Run newlines text t letters) (hcovers : t.Covers offset)
    (hc : text[offset]? = some c) : newlines.role c = .letter ∨ newlines.role c = .skipped := by
  have hmem := mem_slice_of_covers hcovers hc
  by_cases hnewline : c = '\n'
  · cases newlines with
    | merge => exact .inr (by rw [hnewline]; rfl)
    | separate =>
        rw [← h.whole rfl] at hmem
        exact absurd hnewline (h.unbroken.2 c hmem).2.1
  · have hletters : c ∈ letters := by
      rw [h.shown]
      exact List.mem_filter.2 ⟨hmem, decide_eq_true hnewline⟩
    exact .inl (Newlines.role_eq_letter_iff.2 (h.unbroken.2 c hletters))

/-- Tokens in order that cover the same offset are the same. -/
theorem eq_of_covers (h : tokens.Pairwise fun t u => t.span.stop ≤ u.span.start) (ht : t ∈ tokens)
    (hu : u ∈ tokens) (htc : t.Covers offset) (huc : u.Covers offset) : t = u := by
  have hsymm : Std.Symm fun t u : Token =>
      t.span.stop ≤ u.span.start ∨ u.span.stop ≤ t.span.start := ⟨fun _ _ => Or.symm⟩
  have hapart : tokens.Pairwise fun t u =>
      t.span.stop ≤ u.span.start ∨ u.span.stop ≤ t.span.start := h.imp Or.inl
  by_contra hne
  have hone := hapart.forall ht hu hne
  unfold Covers at htc huc
  omega

/-- Where a run ends no other run goes on. -/
theorem Run.not_covers_stop {more : Text} (h : Run newlines text t letters)
    (hother : Run newlines text u more) (hstop : t.span.stop.toNat < text.length) :
    ¬ u.Covers t.span.stop.toNat := by
  intro hcovers
  have hc := List.getElem?_eq_getElem hstop
  obtain ⟨hletter, hskipped⟩ := h.ends _ hc
  rcases hother.role_of_covers hcovers hc with hrole | hrole
  · exact hletter hrole
  · exact hskipped hrole

theorem MaximalRuns.covers_start (h : MaximalRuns newlines text tokens) (ht : t ∈ tokens) :
    t.Covers t.span.start.toNat := by
  have hbounds := h.bounds t ht
  unfold Covers
  omega

theorem exists_literal_of_isLiteral (h : t.kind.isLiteral = true) :
    ∃ letters, t.kind = .literal letters := by
  cases hkind : t.kind with
  | literal letters => exact ⟨letters, rfl⟩
  | left | right | other =>
      rw [hkind] at h
      cases h

/-! ### The tokens of a text -/

theorem Lexes.exists_lexeme (h : Lexes newlines offset text tokens) (ht : t ∈ tokens) :
    ∃ front run rest, text = front ++ (run ++ rest) ∧
      Lexeme newlines (offset + front.length) run t ∧ Apart newlines t rest := by
  induction h with
  | nil => cases ht
  | @blank offset c rest tokens _ _ ih =>
      obtain ⟨front, run, behind, rfl, hlexeme, hapart⟩ := ih ht
      rw [Nat.add_assoc, Nat.add_comm 1] at hlexeme
      exact ⟨c :: front, run, behind, rfl, hlexeme, hapart⟩
  | @token offset run rest first tokens hlexeme hapart _ ih =>
      rcases List.mem_cons.1 ht with rfl | ht
      · exact ⟨[], run, rest, rfl, hlexeme, hapart⟩
      · obtain ⟨front, more, behind, rfl, hmore, hbehind⟩ := ih ht
        rw [Nat.add_assoc, ← List.length_append] at hmore
        exact ⟨run ++ front, more, behind, (List.append_assoc ..).symm, hmore, hbehind⟩

theorem Lexes.exists_covers (h : Lexes newlines offset text tokens) {place : Nat}
    (hc : text[place]? = some c) (hspace : c ≠ ' ') (hnewline : c ≠ '\n') :
    ∃ t ∈ tokens, t.Covers (offset + place) := by
  induction h generalizing place with
  | nil => simp at hc
  | @blank offset d rest tokens hd _ ih =>
      cases place with
      | zero =>
          obtain rfl : d = c := by simpa using hc
          rcases hd with hd | hd
          · rcases Newlines.role_eq_separator_iff.1 hd with h | ⟨-, h⟩
            · exact absurd h hspace
            · exact absurd h hnewline
          · exact absurd (Newlines.eq_newline_of_role_eq_skipped hd) hnewline
      | succ place =>
          obtain ⟨t, ht, hcovers⟩ := ih (by simpa using hc)
          rw [Nat.add_assoc, Nat.add_comm 1] at hcovers
          exact ⟨t, ht, hcovers⟩
  | @token offset run rest first tokens hlexeme _ _ ih =>
      by_cases hplace : place < run.length
      · refine ⟨first, List.mem_cons_self, ?_⟩
        simp only [Covers, hlexeme.span_eq]
        omega
      · rw [List.getElem?_append_right (by omega)] at hc
        obtain ⟨t, ht, hcovers⟩ := ih hc
        rw [Nat.add_assoc, Nat.add_sub_cancel' (by omega)] at hcovers
        exact ⟨t, List.mem_cons_of_mem first ht, hcovers⟩

/-- A token that is read from a text stands at its lexeme, and a literal ends there. -/
theorem exists_lexeme_of_mem_lex (h : t ∈ lex newlines text) :
    ∃ front run rest, text = front ++ (run ++ rest) ∧ Lexeme newlines front.length run t ∧
      Apart newlines t rest := by
  obtain ⟨front, run, rest, htext, hlexeme, hapart⟩ := (lexes_lex newlines text).exists_lexeme h
  rw [Nat.zero_add] at hlexeme
  exact ⟨front, run, rest, htext, hlexeme, hapart⟩

theorem lettersOf_separate (h : Word .separate run) : lettersOf .separate run = run := by
  refine List.filter_eq_self.2 fun c hc => decide_eq_true ?_
  rcases h.only c hc with hrole | hrole
  · exact hrole
  · rw [Newlines.eq_newline_of_role_eq_skipped hrole] at hrole
    cases hrole

theorem run_of_mem_lex (h : t ∈ lex newlines text) (hkind : t.kind = .literal letters) :
    Run newlines text t letters where
  unbroken := Tree.unbroken_of_mem_lex h hkind
  shown := (stands_of_mem_lex h).eq_literal hkind
  whole := by
    rintro rfl
    have hlexeme := (stands_of_mem_lex h).slice_span
    generalize t.span.slice text = run, t.span.start.toNat = offset at hlexeme
    cases hlexeme with
    | left => cases hkind
    | right => cases hkind
    | word hrun =>
        cases hkind
        exact lettersOf_separate hrun
  first := by
    obtain ⟨c, hc, -, -, hnewline⟩ := (stands_of_mem_lex h).exists_first
    exact ⟨c, hc, hnewline⟩
  ends := by
    obtain ⟨front, run, rest, rfl, hlexeme, hapart⟩ := exists_lexeme_of_mem_lex h
    intro c hc
    refine hapart letters hkind c ?_
    have hstop : t.span.stop.toNat = front.length + run.length := by
      rw [hlexeme.span_eq]
      rfl
    rw [hstop, ← List.append_assoc, ← List.length_append,
      List.getElem?_append_right (Nat.le_refl _), Nat.sub_self] at hc
    rwa [List.head?_eq_getElem?]

theorem exists_bracketAt_of_mem_lex (h : t ∈ lex newlines text)
    (hkind : t.kind.isLiteral = false) : ∃ offset, BracketAt text offset t := by
  obtain ⟨front, run, rest, rfl, hlexeme, -⟩ := exists_lexeme_of_mem_lex h
  cases hlexeme with
  | left => exact ⟨front.length, .inl ⟨by simp, rfl⟩⟩
  | right => exact ⟨front.length, .inr ⟨by simp, rfl⟩⟩
  | word _ => cases hkind

theorem BracketAt.isLiteral_eq_false (h : BracketAt text offset t) : t.kind.isLiteral = false := by
  rcases h with ⟨-, rfl⟩ | ⟨-, rfl⟩ <;> rfl

theorem BracketAt.exists_char (h : BracketAt text offset t) :
    ∃ c, text[offset]? = some c ∧ (c = '(' ∨ c = ')') := by
  rcases h with ⟨hc, -⟩ | ⟨hc, -⟩
  · exact ⟨_, hc, .inl rfl⟩
  · exact ⟨_, hc, .inr rfl⟩

theorem BracketAt.offset_eq {place : Nat} (h : BracketAt text place t) (hcovers : t.Covers offset) :
    place = offset := by
  obtain ⟨hstart, hstop⟩ := hcovers
  rcases h with ⟨-, rfl⟩ | ⟨-, rfl⟩
  · simp only [Token.left] at hstart hstop
    omega
  · simp only [Token.right] at hstart hstop
    omega

theorem BracketAt.eq (h : BracketAt text offset t) (hother : BracketAt text offset u) : u = t := by
  rcases h with ⟨hc, rfl⟩ | ⟨hc, rfl⟩ <;> rcases hother with ⟨hd, rfl⟩ | ⟨hd, rfl⟩
  · rfl
  · simp [hc] at hd
  · simp [hc] at hd
  · rfl

/-- A run has no brackets in it. -/
theorem BracketAt.not_covers (h : BracketAt text offset t) (hrun : Run newlines text u letters) :
    ¬ u.Covers offset := by
  intro hcovers
  obtain ⟨c, hc, hbracket⟩ := h.exists_char
  have hrole := hrun.role_of_covers hcovers hc
  rcases hbracket with rfl | rfl <;> cases newlines <;> rcases hrole with h | h <;> cases h

theorem mem_lex_of_bracketAt (h : BracketAt text offset t) : t ∈ lex newlines text := by
  obtain ⟨c, hc, hbracket⟩ := h.exists_char
  have hspace : c ≠ ' ' := by rcases hbracket with rfl | rfl <;> decide
  have hnewline : c ≠ '\n' := by rcases hbracket with rfl | rfl <;> decide
  obtain ⟨u, hu, hcovers⟩ := (lexes_lex newlines text).exists_covers hc hspace hnewline
  rw [Nat.zero_add] at hcovers
  cases hkind : u.kind with
  | literal letters => exact absurd hcovers (h.not_covers (run_of_mem_lex hu hkind))
  | left | right | other =>
      obtain ⟨place, hother⟩ := exists_bracketAt_of_mem_lex hu (by rw [hkind]; rfl)
      obtain rfl := hother.offset_eq hcovers
      exact h.eq hother ▸ hu

theorem not_covers_between {v : Token} (ht : t.span.start < t.span.stop)
    (hu : u.span.start < u.span.stop)
    (hordered : (front ++ t :: u :: behind).Pairwise fun t u => t.span.stop ≤ u.span.start)
    (hv : v ∈ front ++ t :: u :: behind) (hlow : t.span.stop ≤ (offset : Int))
    (hhigh : (offset : Int) < u.span.start) : ¬ v.Covers offset := by
  rw [List.pairwise_append, List.pairwise_cons, List.pairwise_cons] at hordered
  obtain ⟨-, ⟨-, hbehind, -⟩, hfront⟩ := hordered
  rintro ⟨hstart, hstop⟩
  rw [List.mem_append, List.mem_cons, List.mem_cons] at hv
  rcases hv with hv | rfl | rfl | hv
  · have hbefore := hfront v hv t List.mem_cons_self
    omega
  · omega
  · omega
  · have hafter := hbehind v hv
    omega

/-- Right behind a literal that another one follows there is a separator. -/
theorem separator_of_literals (h : lex newlines text = front ++ t :: u :: behind)
    (ht : t.kind.isLiteral = true) (hu : u.kind.isLiteral = true) :
    ∃ offset : Nat, t.span.stop ≤ (offset : Int) ∧ (offset : Int) < u.span.start ∧
      (text[offset]? = some ' ' ∨ newlines = .separate ∧ text[offset]? = some '\n') := by
  have hlexes := lexes_lex newlines text
  have hordered := h ▸ hlexes.pairwise
  have htmem : t ∈ lex newlines text := by simp [h]
  have humem : u ∈ lex newlines text := by simp [h]
  have htbounds := (stands_of_mem_lex htmem).bounds
  have hubounds := (stands_of_mem_lex humem).bounds
  obtain ⟨letters, htkind⟩ := exists_literal_of_isLiteral ht
  obtain ⟨more, hukind⟩ := exists_literal_of_isLiteral hu
  have hnext : t.span.stop ≤ u.span.start := by
    rw [List.pairwise_append, List.pairwise_cons] at hordered
    exact hordered.2.1.1 u List.mem_cons_self
  have hlt : t.span.stop.toNat < text.length := by omega
  have hrun := run_of_mem_lex htmem htkind
  have hbefore : t.span.stop < u.span.start := by
    by_contra hat
    refine hrun.not_covers_stop (run_of_mem_lex humem hukind) hlt ?_
    unfold Covers
    omega
  have hc := List.getElem?_eq_getElem hlt
  generalize text[t.span.stop.toNat] = c at hc
  have hblank : c = ' ' ∨ c = '\n' := by
    by_contra hink
    obtain ⟨hspace, hnewline⟩ := not_or.1 hink
    obtain ⟨v, hv, hcovers⟩ := hlexes.exists_covers hc hspace hnewline
    rw [Nat.zero_add] at hcovers
    exact not_covers_between htbounds.2.1 hubounds.2.1 hordered (h ▸ hv) (by omega) (by omega)
      hcovers
  refine ⟨t.span.stop.toNat, by omega, by omega, ?_⟩
  rcases hblank with rfl | rfl
  · exact .inl hc
  · cases newlines with
    | separate => exact .inr ⟨rfl, hc⟩
    | merge => exact absurd rfl (hrun.ends _ hc).2

theorem maximalRuns_lex (newlines : Newlines) (text : Text) :
    MaximalRuns newlines text (lex newlines text) where
  bounds t ht := (stands_of_mem_lex ht).bounds
  ordered := (lexes_lex newlines text).pairwise
  covered offset c hc hspace hnewline := by
    have hlexes := lexes_lex newlines text
    obtain ⟨t, ht, hcovers⟩ := hlexes.exists_covers hc hspace hnewline
    rw [Nat.zero_add] at hcovers
    exact ⟨t, ⟨ht, hcovers⟩, fun u ⟨hu, hother⟩ =>
      eq_of_covers hlexes.pairwise hu ht hother hcovers⟩
  brackets t := by
    constructor
    · rintro ⟨ht, hkind⟩
      exact exists_bracketAt_of_mem_lex ht hkind
    · rintro ⟨offset, h⟩
      exact ⟨mem_lex_of_bracketAt h, h.isLiteral_eq_false⟩
  run t ht letters hkind := run_of_mem_lex ht hkind
  apart front t u behind h ht hu := separator_of_literals h ht hu

/-! ### No other tokens -/

namespace MaximalRuns

variable (h : MaximalRuns newlines text tokens) (hothers : MaximalRuns newlines text others)
include h hothers

/-- A literal lies within a literal of any other such tokens. -/
theorem exists_wider (ht : t ∈ tokens) (hkind : t.kind.isLiteral = true) :
    ∃ u ∈ others, u.kind.isLiteral = true ∧ u.span.start ≤ t.span.start ∧
      t.span.stop ≤ u.span.stop := by
  obtain ⟨letters, hletters⟩ := exists_literal_of_isLiteral hkind
  have hrun := h.run t ht letters hletters
  have hbounds := h.bounds t ht
  have hstart := h.covers_start ht
  obtain ⟨c, hc, hnewline⟩ := hrun.first
  have hspace : c ≠ ' ' := by
    rintro rfl
    have hrole := hrun.role_of_covers hstart hc
    cases newlines <;> rcases hrole with h | h <;> cases h
  obtain ⟨u, ⟨hu, hcovers⟩, -⟩ := hothers.covered _ c hc hspace hnewline
  cases hukind : u.kind.isLiteral with
  | false =>
      obtain ⟨offset, hat⟩ := (hothers.brackets u).1 ⟨hu, hukind⟩
      obtain rfl := hat.offset_eq hcovers
      exact absurd hstart (hat.not_covers hrun)
  | true =>
      refine ⟨u, hu, hukind, by unfold Covers at hcovers; omega, ?_⟩
      by_contra hshorter
      obtain ⟨more, hmore⟩ := exists_literal_of_isLiteral hukind
      have hubounds := hothers.bounds u hu
      refine (hothers.run u hu more hmore).not_covers_stop hrun (by omega) ?_
      unfold Covers at hcovers ⊢
      omega

theorem subset : tokens ⊆ others := by
  intro t ht
  cases hkind : t.kind.isLiteral with
  | false =>
      obtain ⟨offset, hat⟩ := (h.brackets t).1 ⟨ht, hkind⟩
      exact ((hothers.brackets t).2 ⟨offset, hat⟩).1
  | true =>
      -- a literal around it lies in turn within a literal, which can only be the first one
      obtain ⟨u, hu, hukind, hstart, hstop⟩ := h.exists_wider hothers ht hkind
      obtain ⟨v, hv, -, hustart, hustop⟩ := hothers.exists_wider h hu hukind
      have hbounds := h.bounds t ht
      have hcovers : v.Covers t.span.start.toNat := by
        unfold Covers
        omega
      obtain rfl := eq_of_covers h.ordered hv ht hcovers (h.covers_start ht)
      obtain ⟨letters, hletters⟩ := exists_literal_of_isLiteral hkind
      obtain ⟨more, hmore⟩ := exists_literal_of_isLiteral hukind
      have hsameStart : v.span.start = u.span.start := by omega
      have hsameStop : v.span.stop = u.span.stop := by omega
      have hspan : v.span = u.span := congrArg₂ Span.mk hsameStart hsameStop
      have hsame : v.kind = u.kind := by
        rw [hletters, hmore, (h.run v ht letters hletters).shown,
          (hothers.run u hu more hmore).shown, hspan]
      have heq : v = u := congrArg₂ Token.mk hsame hspan
      exact heq ▸ hu

theorem unique : tokens = others := by
  have hirrefl : Std.Irrefl fun t u : Token => t.span.start < u.span.start :=
    ⟨fun t => Int.lt_irrefl t.span.start⟩
  have hantisymm : Std.Antisymm fun t u : Token => t.span.start < u.span.start :=
    ⟨fun t u htu hut => absurd hut (Int.lt_asymm htu)⟩
  have hsorted : ∀ {tokens : List Token}, MaximalRuns newlines text tokens →
      tokens.Pairwise fun t u => t.span.start < u.span.start := by
    intro tokens h
    refine h.ordered.imp_of_mem fun ht _ hle => ?_
    have hbounds := h.bounds _ ht
    omega
  exact (hsorted h).eq_of_mem_iff (hsorted hothers) fun t =>
    ⟨fun ht => h.subset hothers ht, fun ht => hothers.subset h ht⟩

end MaximalRuns

/-- A text lexes to its brackets and maximal runs, and to no other tokens. -/
theorem maximalRuns_iff : MaximalRuns newlines text tokens ↔ tokens = lex newlines text := by
  constructor
  · intro h
    exact h.unique (maximalRuns_lex newlines text)
  · rintro rfl
    exact maximalRuns_lex newlines text

end Token

end BracketCalc
