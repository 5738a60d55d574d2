import BracketCalc.Proofs.Expr.Calls
import BracketCalc.Proofs.Expr.Reading
import BracketCalc.Proofs.Token.Lexes
/-!
# Reading what was written

The text of an expression is read as the expression, provided that each of its
literals is one word.  All trees that are read from a text are of this kind.
The text has all brackets of the expression, so one whose groups are nested
deeper than the limit is not read at all.  To write the text, and to compare what
is read with the expression, takes more calls, so that these fail first.
-/

namespace BracketCalc

/-- A text that is read as a single literal. -/
def Text.Unbroken (text : Text) : Prop :=
  text ≠ [] ∧ ∀ c ∈ text, c ≠ ' ' ∧ c ≠ '\n' ∧ c ≠ '(' ∧ c ≠ ')'

namespace Tree

open Token

/-- All literals of the tree are unbroken. -/
inductive Legible : Tree → Prop where
  | literal {text : Text} {span : Span} : text.Unbroken → Legible (.literal text span)
  | group {items : List Tree} {span : Span} {depth : Int} :
      (∀ e ∈ items, Legible e) → Legible (.group items span depth)

/-- The tree is written, its text is read, and what is read is found to be the same as the tree, all
within the limit on calls in progress. -/
def ReadsItself (newlines : Newlines) (e : Tree) : Prop :=
  ∃ (text : Text) (t : Tree), e.textWithin callLimit = some text ∧ parse newlines text = .ok t ∧
    t.sameWithin callLimit e = some true

/-- The text of the tree is read as the tree, as far as the limits allow. -/
structure RoundTrips (newlines : Newlines) (e : Tree) : Prop where
  /-- To write the text takes three calls for each of the groups that stand in one another. -/
  written : ∀ calls, e.textWithin calls = if 3 * e.height ≤ calls then some e.text else none
  /-- Reading the text takes one, and comparing what is read with the tree takes three again. -/
  read : ∃ t : Tree, t.same e = true ∧ ofTokens (lex newlines e.text) = .ok t ∧
    (parse newlines e.text = if e.height ≤ nestingLimit then .ok t else .error .tooDeep) ∧
    ∀ calls, t.sameWithin calls e = if 3 * e.height ≤ calls then some true else none
  /-- So it is the writing that fails first. -/
  reads_itself : ReadsItself newlines e ↔ 3 * e.height ≤ callLimit

/-- Tokens of the given kinds stand in the text, whatever is behind it, unless that goes on with a
literal. -/
def Writes (newlines : Newlines) (text : Text) (kinds : List TokenKind) : Prop :=
  ∀ offset rest tokens, (∀ t, Apart newlines t rest) →
    Lexes newlines (offset + text.length) rest tokens →
    ∃ front, Lexes newlines offset (text ++ rest) (front ++ tokens) ∧
      front.map Token.kind = kinds

variable {newlines : Newlines} {offset : Nat} {text other rest : Text} {tokens : List Token}
  {kinds kinds' : List TokenKind} {items : List Tree} {e a b : Tree}

/-! ### The tokens of a written tree -/

theorem role_letter_of_unbroken (h : text.Unbroken) :
    ∀ c ∈ text, newlines.role c = .letter :=
  fun c hc => Newlines.role_eq_letter_iff.2 (h.2 c hc)

theorem word_of_unbroken (h : text.Unbroken) : Word newlines text := by
  have hletters : ∀ c ∈ text, newlines.role c = .letter := role_letter_of_unbroken h
  obtain ⟨c, more, rfl⟩ := List.exists_cons_of_ne_nil h.1
  exact ⟨⟨c, more, rfl, hletters c List.mem_cons_self⟩, fun d hd => .inl (hletters d hd)⟩

theorem lettersOf_of_unbroken (h : text.Unbroken) : lettersOf newlines text = text :=
  List.filter_eq_self.2 fun c hc => decide_eq_true (role_letter_of_unbroken h c hc)

theorem writes_literal (h : text.Unbroken) : Writes newlines text [.literal text] := by
  intro offset rest tokens hapart hrest
  have hword : Lexeme newlines offset text _ := .word (word_of_unbroken h)
  refine ⟨[_], .token hword (hapart _) hrest, ?_⟩
  rw [List.map_singleton, lettersOf_of_unbroken h]

theorem Writes.append (h : Writes newlines text kinds) (hother : Writes newlines other kinds') :
    Writes newlines (text ++ [' '] ++ other) (kinds ++ kinds') := by
  intro offset rest tokens hapart hrest
  have hlength : offset + (text ++ [' '] ++ other).length =
      offset + text.length + 1 + other.length := by
    simp only [List.length_append, List.length_singleton]
    omega
  rw [hlength] at hrest
  obtain ⟨back, hback, hkinds'⟩ := hother (offset + text.length + 1) rest tokens hapart hrest
  have hspace : newlines.role ' ' = .separator := by cases newlines <;> rfl
  have hblank : Lexes newlines (offset + text.length) (' ' :: (other ++ rest)) (back ++ tokens) :=
    .blank (.inl hspace) hback
  have hends : ∀ t, Apart newlines t (' ' :: (other ++ rest)) :=
    fun t => apart_cons (by simp [hspace]) (by simp [hspace])
  obtain ⟨front, hfront, hkinds⟩ := h offset _ _ hends hblank
  refine ⟨front ++ back, ?_, by rw [List.map_append, hkinds, hkinds']⟩
  simpa using hfront

theorem writes_items (h : ∀ e ∈ items, Writes newlines e.text (Expr.kinds e)) :
    Writes newlines ([' '].intercalate (items.map Expr.text)) (Expr.kindsOf items) := by
  induction items with
  | nil =>
      intro offset rest tokens _ hrest
      exact ⟨[], hrest, rfl⟩
  | cons e items ih =>
      have hhead := h e List.mem_cons_self
      have htail := ih fun other hother => h other (List.mem_cons_of_mem e hother)
      cases items with
      | nil => simpa [Expr.kindsOf] using hhead
      | cons next items =>
          rw [List.map_cons, List.map_cons, List.intercalate_cons_cons, Expr.kindsOf]
          exact hhead.append htail

theorem Writes.enclose (h : Writes newlines text kinds) :
    Writes newlines ('(' :: text ++ [')']) (.left :: (kinds ++ [.right])) := by
  intro offset rest tokens _ hrest
  have hlength : offset + ('(' :: text ++ [')']).length = offset + 1 + text.length + 1 := by
    simp only [List.length_append, List.length_cons, List.length_nil]
    omega
  rw [hlength] at hrest
  have hright : newlines.role ')' = .right := Newlines.role_eq_right_iff.2 rfl
  have hends : ∀ t, Apart newlines t (')' :: rest) :=
    fun t => apart_cons (by simp [hright]) (by simp [hright])
  obtain ⟨front, hfront, hkinds⟩ := h (offset + 1) _ _ hends hrest.right
  refine ⟨Token.left offset :: (front ++ [Token.right (offset + 1 + text.length : Nat)]), ?_, ?_⟩
  · simpa using hfront.left
  · simp [hkinds, Token.left, Token.right]

theorem Legible.writes (h : Legible e) : Writes newlines e.text e.kinds := by
  induction e using Expr.induction with
  | literal text span =>
      cases h with
      | literal htext => exact writes_literal htext
  | group items span depth ih =>
      cases h with
      | group hitems =>
          rw [Expr.text, Expr.texts_eq_map, Expr.kinds]
          exact (writes_items fun e he => ih e he (hitems e he)).enclose
  | foreign value => exact value.elim

theorem Writes.map_kind_lex (h : Writes newlines text kinds) :
    (lex newlines text).map Token.kind = kinds := by
  have hends : ∀ t, Apart newlines t [] := fun t => apart_nil
  obtain ⟨front, hlexes, hkinds⟩ := h 0 [] [] hends .nil
  rw [List.append_nil, List.append_nil] at hlexes
  rw [lex, lexes_iff.1 hlexes, hkinds]

theorem Legible.map_kind_lex (h : Legible e) :
    (lex newlines e.text).map Token.kind = e.kinds :=
  h.writes.map_kind_lex

/-! ### The round trip -/

theorem Legible.exists_read (h : Legible e) (newlines : Newlines) :
    ∃ t : Tree, t.same e = true ∧ ofTokens (lex newlines e.text) = .ok t ∧
      parse newlines e.text = if e.height ≤ nestingLimit then .ok t else .error .tooDeep :=
  exists_parse_of_map_kind h.map_kind_lex

theorem sameWithin_eq_ite (h : a.same b = true) (calls : Nat) :
    a.sameWithin calls b = if 3 * b.height ≤ calls then some true else none := by
  rw [Expr.sameWithin_of_same h, Expr.height_eq_of_bare_eq (Expr.same_iff.1 h)]

theorem Legible.roundTrips (h : Legible e) : RoundTrips newlines e := by
  obtain ⟨t, hte, hread, hparse⟩ := h.exists_read newlines
  have hsame := sameWithin_eq_ite hte
  refine ⟨fun calls => Expr.textWithin_eq calls e, ⟨t, hte, hread, hparse, hsame⟩, ?_⟩
  constructor
  · rintro ⟨text, -, hwritten, -⟩
    rw [Expr.textWithin_eq] at hwritten
    by_contra hhigh
    rw [if_neg hhigh] at hwritten
    cases hwritten
  · intro hlow
    have hlimit : e.height ≤ nestingLimit := by
      unfold callLimit at hlow
      omega
    rw [if_pos hlimit] at hparse
    exact ⟨e.text, t, by rw [Expr.textWithin_eq, if_pos hlow], hparse, by rw [hsame, if_pos hlow]⟩

/-- A text writes one tree only, up to spans and depths. -/
theorem Legible.same_of_text_eq (ha : Legible a) (hb : Legible b) (h : a.text = b.text) :
    a.same b = true := by
  obtain ⟨t, hta, hreadA, -⟩ := ha.exists_read .separate
  obtain ⟨u, hub, hreadB, -⟩ := hb.exists_read .separate
  rw [h, hreadB] at hreadA
  cases hreadA
  rw [Expr.same_iff] at hta hub ⊢
  rw [← hta, hub]

/-! ### Trees that are read -/

theorem unbroken_of_mem_lex {t : Token} (ht : t ∈ lex newlines text) {letters : Text}
    (hkind : t.kind = .literal letters) : letters.Unbroken := by
  obtain ⟨_, run, _, -, hrun⟩ := stands_of_mem_lex ht
  cases hrun with
  | left => cases hkind
  | right => cases hkind
  | word hword =>
      cases hkind
      refine ⟨hword.lettersOf_ne_nil, fun c hc => ?_⟩
      have hletter := (List.mem_filter.1 hc).2
      exact Newlines.role_eq_letter_iff.1 (of_decide_eq_true hletter)

theorem Segment.legible {depth : Int} (h : Segment depth tokens items)
    (hwords : ∀ t ∈ tokens, ∀ letters, t.kind = .literal letters → letters.Unbroken) :
    ∀ e ∈ items, Legible e := by
  induction h with
  | nil => exact nofun
  | literal _ ih =>
      rw [List.forall_mem_cons] at hwords ⊢
      exact ⟨.literal (hwords.1 _ rfl), ih hwords.2⟩
  | group _ _ _ _ ihInside ihRest =>
      rw [List.forall_mem_cons, List.forall_mem_append, List.forall_mem_cons] at hwords
      obtain ⟨-, hinside, -, hrest⟩ := hwords
      rw [List.forall_mem_cons]
      exact ⟨.group (ihInside hinside), ihRest hrest⟩

theorem Reads.legible (h : Reads tokens e)
    (hwords : ∀ t ∈ tokens, ∀ letters, t.kind = .literal letters → letters.Unbroken) :
    Legible e := by
  cases h with
  | literal => exact .literal (hwords _ List.mem_cons_self _ rfl)
  | enclosed h => exact h.legible hwords _ List.mem_cons_self
  | implicit _ h _ => exact .group (h.legible hwords)

theorem legible_of_parse_eq_ok (h : parse newlines text = .ok e) : Legible e :=
  (reads_of_parse_eq_ok h).legible fun _ ht _ hkind => unbroken_of_mem_lex ht hkind

theorem Legible.of_mem_nodes {n : Tree} (h : Legible e) (hn : n ∈ e.nodes) : Legible n := by
  induction h with
  | literal htext =>
      rw [Expr.nodes, List.mem_singleton] at hn
      exact hn ▸ .literal htext
  | group hitems ih =>
      rcases List.mem_cons.1 hn with rfl | hn
      · exact .group hitems
      · obtain ⟨e, he, hn⟩ := Expr.mem_nodesOf.1 hn
        exact ih e he hn

/-! ### Nested differences -/

/-- A difference of one argument that is such a difference itself, and so on. -/
def differences : Nat → Tree
  | 0 => .group [.literal ['-'] default] default 1
  | n + 1 => .group [.literal ['-'] default, differences n] default 1

theorem unbroken_minus : Text.Unbroken ['-'] := by
  refine ⟨nofun, ?_⟩
  rw [List.forall_mem_singleton]
  decide

theorem legible_differences (n : Nat) : Legible (differences n) := by
  induction n with
  | zero =>
      refine .group ?_
      rw [List.forall_mem_singleton]
      exact .literal unbroken_minus
  | succ n ih =>
      refine .group ?_
      rw [List.forall_mem_cons, List.forall_mem_singleton]
      exact ⟨.literal unbroken_minus, ih⟩

theorem height_differences (n : Nat) : (differences n).height = n + 1 := by
  induction n with
  | zero => rfl
  | succ n ih =>
      rw [differences, Expr.height, Expr.highest, Expr.highest, Expr.highest, Expr.height, ih]
      omega

/-- Reading undoes writing, as far as the limits allow. -/
theorem roundTrips_text (newlines : Newlines) :
    (∀ e : Tree, Legible e → RoundTrips newlines e) ∧
      (∀ text e, parse newlines text = .ok e → Legible e ∧ RoundTrips newlines e) ∧
      ∀ a b : Tree, Legible a → Legible b → a.text = b.text → a.same b = true ∧
        ∀ calls, a.sameWithin calls b = if 3 * a.height ≤ calls then some true else none := by
  refine ⟨fun e h => h.roundTrips, fun text e h => ?_, fun a b ha hb h => ?_⟩
  · have hlegible := legible_of_parse_eq_ok h
    exact ⟨hlegible, hlegible.roundTrips⟩
  · have hsame := ha.same_of_text_eq hb h
    exact ⟨hsame, fun _ => Expr.sameWithin_of_same hsame⟩

theorem roundTrips_text_differences :
    Legible (differences 2) ∧ RoundTrips .merge (differences 2) :=
  ⟨legible_differences 2, (roundTrips_text .merge).1 _ (legible_differences 2)⟩

/-- A tree may be nested too deeply for its text to be written and read. -/
theorem not_read_differences :
    ¬ ∀ newlines (e : Tree), Legible e → ReadsItself newlines e := by
  intro hall
  have hlegible := legible_differences 4999
  have hlow : 3 * (differences 4999).height ≤ callLimit :=
    hlegible.roundTrips.reads_itself.1 (hall .separate _ hlegible)
  rw [height_differences] at hlow
  revert hlow
  decide

end Tree

end BracketCalc
