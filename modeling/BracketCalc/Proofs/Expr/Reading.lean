import BracketCalc.Proofs.Expr.Nesting
/-!
# What tokens are read as

`Reads` says which tree tokens are read as: a single literal as itself, a
segment of one group as that group, and every other segment as the group that
is written without brackets.  All other tokens have an error.

A text whose tokens are of the kinds that write a tree is read as the tree, and
whatever is read from a text is read from its tokens.
-/

namespace BracketCalc.Tree

open Token

inductive Reads : List Token → Tree → Prop where
  | literal {text : Text} {span : Span} : Reads [⟨.literal text, span⟩] (.literal text span)
  | enclosed {tokens : List Token} {items : List Tree} {span : Span} {depth : Int} :
      Segment 0 tokens [.group items span depth] → Reads tokens (.group items span depth)
  | implicit {tokens : List Token} {items : List Tree} :
      2 ≤ tokens.length → Segment 0 tokens items →
      (∀ inner span depth, items ≠ [.group inner span depth]) →
      Reads tokens (.group items (wholeSpan tokens) 0)

variable {tokens front rest inside : List Token} {items : List Tree} {tree : Tree}
  {t opening : Token}

/-- Two or more tokens are read into the group that is written without brackets. -/
theorem ofTokens_eq_fill (h : 2 ≤ tokens.length) :
    ofTokens tokens = (fill (wholeSpan tokens) ⟨none, 0, []⟩ [] tokens).1.map unwrap := by
  match tokens, h with
  | a :: b :: rest, _ => simp [ofTokens, groupAt, tokensFrom?]

theorem Segment.fill_eq {depth : Int} (h : Segment depth tokens items) (hdepth : 0 ≤ depth)
    (whole : Span) :
    fill whole ⟨none, depth, []⟩ [] tokens = (.ok (.group items whole depth), []) := by
  rw [h.fill_to_end hdepth rfl]
  simp [fill, closeAll, OpenGroup.pushAll, OpenGroup.close]

theorem Segment.ofTokens_eq (h : Segment 0 tokens items) (htwo : 2 ≤ tokens.length) :
    ofTokens tokens = .ok (unwrap (.group items (wholeSpan tokens) 0)) := by
  rw [ofTokens_eq_fill htwo, h.fill_eq (Int.le_refl 0)]
  rfl

theorem unwrap_of_ne (span : Span) (h : ∀ inner span depth, items ≠ [.group inner span depth]) :
    unwrap (.group items span 0) = .group items span 0 := by
  unfold unwrap
  split
  · rename_i heq
    cases heq
    exact absurd rfl (h _ _ _)
  · rfl

theorem Segment.two_le_length {inner : List Tree} {span : Span} {depth outer : Int}
    (h : Segment outer tokens [.group inner span depth]) : 2 ≤ tokens.length := by
  cases h
  simp
  omega

/-- Each item is written with a token or more. -/
theorem Segment.length_le {depth : Int} (h : Segment depth tokens items) :
    items.length ≤ tokens.length := by
  induction h with
  | nil => exact Nat.le_refl 0
  | literal _ ih => exact Nat.succ_le_succ ih
  | group _ _ _ _ _ ihRest =>
      simp only [List.length_cons, List.length_append]
      omega

theorem Reads.ofTokens_eq (h : Reads tokens tree) : ofTokens tokens = .ok tree := by
  cases h with
  | literal => rfl
  | enclosed h => exact h.ofTokens_eq h.two_le_length
  | implicit htwo h hne => rw [h.ofTokens_eq htwo, unwrap_of_ne _ hne]

/-- A segment of one expression is read as the expression. -/
theorem Segment.reads {e : Tree} (h : Segment 0 tokens [e]) : Reads tokens e := by
  cases e with
  | literal text span =>
      cases h with
      | literal hrest =>
          rw [hrest.eq_nil]
          exact .literal
  | group items span depth => exact .enclosed h
  | foreign value => exact nomatch value

theorem Reads.single_or_implicit (h : Reads tokens tree) :
    Segment 0 tokens [tree] ∨
      ∃ items, tree = .group items (wholeSpan tokens) 0 ∧ 2 ≤ tokens.length ∧
        Segment 0 tokens items ∧ ∀ inner span depth, items ≠ [.group inner span depth] := by
  cases h with
  | literal => exact .inl (.literal .nil)
  | enclosed h => exact .inl h
  | implicit htwo h hne => exact .inr ⟨_, rfl, htwo, h, hne⟩

theorem exists_reads_of_balanced (hbalanced : Balanced tokens) (hknown : Known tokens)
    (htwo : 2 ≤ tokens.length) : ∃ tree, Reads tokens tree := by
  obtain ⟨items, hitems⟩ := exists_segment hbalanced hknown 0
  by_cases h : ∃ inner span depth, items = [.group inner span depth]
  · obtain ⟨inner, span, depth, rfl⟩ := h
    exact ⟨_, .enclosed hitems⟩
  · refine ⟨_, .implicit htwo hitems fun inner span depth heq => h ⟨inner, span, depth, heq⟩⟩

/-! ### Errors -/

theorem ofTokens_nil : ofTokens [] = .error .noTokens := rfl

theorem ofTokens_bracket (h : t.kind = .left ∨ t.kind = .right) :
    ofTokens [t] = .error (.loneToken t) := by
  obtain ⟨kind, span⟩ := t
  rcases h with h | h
  · cases h
    rfl
  · cases h
    rfl

/-- Outside all groups the first right bracket behind balanced tokens is surplus. -/
theorem fill_surplus (whole : Span) (hknown : Known front) (hfront : Balanced front)
    (hright : t.kind = .right) (rest : List Token) :
    fill whole ⟨none, 0, []⟩ [] (front ++ t :: rest) = (.error (.surplusRight t), rest) := by
  obtain ⟨items, hitems⟩ := exists_segment hfront hknown 0
  rw [hitems.fill_append (Int.le_refl 0) rfl]
  obtain ⟨kind, span⟩ := t
  cases hright
  rfl

theorem ofTokens_surplus (hknown : Known front) (hfront : Balanced front) (hright : t.kind = .right)
    (htwo : 2 ≤ (front ++ t :: rest).length) :
    ofTokens (front ++ t :: rest) = .error (.surplusRight t) := by
  rw [ofTokens_eq_fill htwo, fill_surplus _ hknown hfront hright]
  rfl

theorem fill_unclosed {whole : Span} {inner : OpenGroup} {outer : List OpenGroup}
    (hdepth : 0 ≤ inner.depth) (hopening : opening.kind = .left) (hinside : Balanced inside)
    (hknown : Known inside) :
    fill whole inner outer (opening :: inside) = (.error (.unclosed opening), []) := by
  have hdeeper : 0 ≤ inner.depth + 1 := by omega
  obtain ⟨items, hitems⟩ := exists_segment hinside hknown (inner.depth + 1)
  rw [fill_left hopening, hitems.fill_to_end hdeeper rfl]
  simp [fill, OpenGroup.pushAll, OpenGroup.inside, hdepth]

/-- Whatever groups are open, the last left bracket that stays open is the one that is told. -/
theorem fill_append_unclosed (whole : Span) {inner : OpenGroup} (outer : List OpenGroup)
    (hdepth : 0 ≤ inner.depth) (hknown : Known (front ++ opening :: inside))
    (hfront : NoSurplus front) (hopening : opening.kind = .left) (hinside : Balanced inside) :
    fill whole inner outer (front ++ opening :: inside) = (.error (.unclosed opening), []) := by
  obtain ⟨hknownFront, hknownRest⟩ := known_append.1 hknown
  obtain ⟨inner', outer', hdepth', hread⟩ :
      ∃ inner' outer', 0 ≤ OpenGroup.depth inner' ∧ ∀ rest,
        fill whole inner outer (front ++ rest) = fill whole inner' outer' rest :=
    exists_fill_append hfront hknownFront hdepth
  rw [hread, fill_unclosed hdepth' hopening hinside (known_cons.1 hknownRest).2]

theorem ofTokens_unclosed (hknown : Known (front ++ opening :: inside)) (hfront : NoSurplus front)
    (hopening : opening.kind = .left) (hinside : Balanced inside)
    (htwo : 2 ≤ (front ++ opening :: inside).length) :
    ofTokens (front ++ opening :: inside) = .error (.unclosed opening) := by
  rw [ofTokens_eq_fill htwo,
    fill_append_unclosed _ [] (Int.le_refl 0) hknown hfront hopening hinside]
  rfl

theorem reads_of_ofTokens_eq_ok (hknown : Known tokens) (h : ofTokens tokens = .ok tree) :
    Reads tokens tree := by
  match tokens with
  | [] => cases h
  | [⟨.literal text, span⟩] =>
      cases h
      exact .literal
  | [⟨.left, span⟩] => cases h
  | [⟨.right, span⟩] => cases h
  | [⟨.other, span⟩] => cases h
  | a :: b :: more =>
      have htwo : 2 ≤ (a :: b :: more).length := by simp
      rcases balanced_or_closed_or_unclosed (a :: b :: more) with hcase | hcase | hcase
      · obtain ⟨other, hother⟩ := exists_reads_of_balanced hcase hknown htwo
        rw [hother.ofTokens_eq] at h
        cases h
        exact hother
      · obtain ⟨front, closing, rest, heq, hfront, hclosing⟩ := hcase
        rw [heq] at h hknown htwo
        rw [ofTokens_surplus (known_append.1 hknown).1 hfront hclosing htwo] at h
        cases h
      · obtain ⟨front, opening, inside, heq, hfront, hopening, hinside⟩ := hcase
        rw [heq] at h hknown htwo
        rw [ofTokens_unclosed hknown hfront hopening hinside htwo] at h
        cases h

/-! ### Texts -/

variable {newlines : Newlines} {text : Text} {e : Tree}

theorem exists_parse_of_map_kind (h : (lex newlines text).map Token.kind = e.kinds) :
    ∃ t : Tree, t.same e = true ∧ ofTokens (lex newlines text) = .ok t ∧
      parse newlines text = if e.height ≤ nestingLimit then .ok t else .error .tooDeep := by
  obtain ⟨t, ht, hbare⟩ := exists_segment_of_map_kind_eq_kinds e 0 h
  have hread := ht.reads.ofTokens_eq
  have hheight : Expr.highest [t] = e.height := by
    rw [Expr.highest_singleton, Expr.height_eq_of_bare_eq hbare]
  refine ⟨t, Expr.same_iff.2 hbare, hread, ?_⟩
  rw [ht.parse_eq, hheight, hread]

theorem Segment.two_le_length_items {depth : Int} (h : Segment depth tokens items)
    (htwo : 2 ≤ tokens.length) (hne : ∀ inner span depth, items ≠ [.group inner span depth]) :
    2 ≤ items.length := by
  match items with
  | [] =>
      rw [h.eq_nil] at htwo
      cases htwo
  | [.literal letters span] =>
      cases h with
      | literal hrest =>
          rw [hrest.eq_nil] at htwo
          simp at htwo
  | [.group inner span deeper] => exact absurd rfl (hne inner span deeper)
  | [.foreign value] => exact nomatch value
  | _ :: _ :: _ => simp

/-- A text whose tokens are of the kinds that write two or more trees is read as the group of them
that is written without brackets. -/
theorem exists_parse_of_map_kind_eq_kindsOf
    (h : (lex newlines text).map Token.kind = Expr.kindsOf items) (htwo : 2 ≤ items.length) :
    ∃ items' : List Tree, items'.map Expr.bare = items.map Expr.bare ∧
      ofTokens (lex newlines text) = .ok (.group items' (wholeSpan (lex newlines text)) 0) ∧
      parse newlines text =
        if Expr.highest items ≤ nestingLimit then
          .ok (.group items' (wholeSpan (lex newlines text)) 0)
        else .error .tooDeep := by
  obtain ⟨items', hitems', hbare⟩ := exists_segment_of_map_kind_eq_kindsOf 0 h
  have htwo' : 2 ≤ items'.length := by
    rwa [← List.length_map (f := Expr.bare), hbare, List.length_map]
  have hne : ∀ inner span depth, items' ≠ [.group inner span depth] := by
    rintro inner span depth rfl
    simp at htwo'
  have hread := (Reads.implicit (Nat.le_trans htwo' hitems'.length_le) hitems' hne).ofTokens_eq
  refine ⟨items', hbare, hread, ?_⟩
  rw [hitems'.parse_eq, Expr.highest_eq_of_map_bare_eq hbare, hread]

theorem reads_of_parse_eq_ok (h : parse newlines text = .ok e) : Reads (lex newlines text) e := by
  have hne : parse newlines text ≠ .error .tooDeep := by
    rw [h]
    exact nofun
  rw [parse_eq_of_ne_tooDeep hne] at h
  exact reads_of_ofTokens_eq_ok (known_lex newlines text) h

/-- The tree of a text is no higher than the limit on nesting, but for the group without
brackets. -/
theorem height_le_of_parse_eq_ok (h : parse newlines text = .ok e) : e.height ≤ callLimit := by
  rcases (reads_of_parse_eq_ok h).single_or_implicit with
    hsegment | ⟨items, rfl, -, hsegment, -⟩
  · have hhighest := hsegment.highest_le h
    rw [Expr.highest_singleton] at hhighest
    exact Nat.le_succ_of_le hhighest
  · exact Nat.succ_le_succ (hsegment.highest_le h)

end BracketCalc.Tree
