import BracketCalc.Proofs.Expr.Reading
import BracketCalc.Proofs.Expr.Replaced
import BracketCalc.Proofs.Token.Lexes
/-!
# The tree as an image of the text

The tokens of a text can be written down from the tree that the text is read as,
so none of them is lost, doubled or moved.  Each node stands in the text where
its span says, and the stretch of its span is read as the node.
-/

namespace BracketCalc.Tree

open Token

mutual

/-- The tokens that write a tree, the group without brackets as its items alone. -/
def tokens : Tree → List Token
  | .literal text span => [⟨.literal text, span⟩]
  | .group items span depth =>
      if depth = 0 then tokensOf items
      else Token.left span.start :: (tokensOf items ++ [Token.right (span.stop - 1)])
  | .foreign value => nomatch value

def tokensOf : List Tree → List Token
  | [] => []
  | e :: rest => tokens e ++ tokensOf rest

end

def span : Tree → Span
  | .literal _ span => span
  | .group _ span _ => span
  | .foreign value => nomatch value

/-- What the text has at the span of a node. -/
def Shows (newlines : Newlines) (text : Text) : Tree → Prop
  | .literal letters span => letters = (span.slice text).filter (· ≠ '\n')
  | .group items span depth =>
      if depth = 0 then
        ∃ first last, (lex newlines text).head? = some first ∧
          (lex newlines text).getLast? = some last ∧ span = ⟨first.span.start, last.span.stop⟩
      else
        text[span.start.toNat]? = some '(' ∧ text[(span.stop - 1).toNat]? = some ')' ∧
          (∀ e ∈ items, span.start < (Tree.span e).start ∧ (Tree.span e).stop < span.stop) ∧
          items.Pairwise fun a b => (Tree.span a).stop ≤ (Tree.span b).start
  | .foreign value => nomatch value

structure Placed (newlines : Newlines) (text : Text) (n : Tree) : Prop where
  start_nonneg : 0 ≤ (span n).start
  start_lt_stop : (span n).start < (span n).stop
  stop_le_length : (span n).stop ≤ text.length
  shows : Shows newlines text n
  reread : ∃ t, parse newlines ((span n).slice text) = .ok t ∧ t.same n = true

variable {newlines : Newlines} {text : Text} {depth : Int} {front stretch behind : List Token}
  {items : List Tree} {e n : Tree}

/-! ### Writing the tokens -/

@[simp] theorem tokensOf_singleton (e : Tree) : tokensOf [e] = tokens e := by
  rw [tokensOf, tokensOf, List.append_nil]

theorem Segment.tokensOf_eq {tokens : List Token} (h : Segment depth tokens items)
    (hdepth : 0 ≤ depth) (hstands : ∀ t ∈ tokens, Stands newlines text t) :
    tokensOf items = tokens := by
  induction h with
  | nil => rfl
  | literal _ ih =>
      rw [List.forall_mem_cons] at hstands
      rw [tokensOf, Tree.tokens, ih hdepth hstands.2, List.singleton_append]
  | @group depth opening closing inside rest inner items hopening hclosing _ _ ihInside ihRest =>
      rw [List.forall_mem_cons, List.forall_mem_append, List.forall_mem_cons] at hstands
      obtain ⟨hfirst, hinside, hlast, hrest⟩ := hstands
      have hdeeper : depth + 1 ≠ 0 := by omega
      have hleft := (hfirst.eq_left hopening).1
      have hright := (hlast.eq_right hclosing).1
      rw [tokensOf, Tree.tokens, if_neg hdeeper, ihInside (by omega) hinside, ihRest hdepth hrest,
        ← hleft, ← hright, List.cons_append, List.append_assoc, List.singleton_append]

/-! ### Places of items -/

theorem Segment.exists_ends {tokens : List Token} (h : Segment depth tokens items)
    (he : e ∈ items) :
    ∃ first ∈ tokens, ∃ last ∈ tokens, span e = ⟨first.span.start, last.span.stop⟩ := by
  induction h with
  | nil => cases he
  | @literal depth letters place rest items _ ih =>
      rcases List.mem_cons.1 he with rfl | he
      · exact ⟨_, List.mem_cons_self, _, List.mem_cons_self, rfl⟩
      · obtain ⟨first, hfirst, last, hlast, hspan⟩ := ih he
        exact ⟨first, List.mem_cons_of_mem _ hfirst, last, List.mem_cons_of_mem _ hlast, hspan⟩
  | @group depth opening closing inside rest inner items _ _ _ _ _ ihRest =>
      rcases List.mem_cons.1 he with rfl | he
      · exact ⟨opening, List.mem_cons_self, closing, by simp, rfl⟩
      · obtain ⟨first, hfirst, last, hlast, hspan⟩ := ihRest he
        exact ⟨first, by simp [hfirst], last, by simp [hlast], hspan⟩

/-- Items stand one after another, as their tokens do. -/
theorem Segment.pairwise {tokens : List Token} (h : Segment depth tokens items)
    (htokens : tokens.Pairwise fun t u => t.span.stop ≤ u.span.start) :
    items.Pairwise fun a b => (span a).stop ≤ (span b).start := by
  induction h with
  | nil => exact .nil
  | @literal depth letters place rest items hrest ih =>
      rw [List.pairwise_cons] at htokens
      refine .cons (fun e he => ?_) (ih htokens.2)
      obtain ⟨first, hfirst, last, -, hspan⟩ := hrest.exists_ends he
      rw [hspan]
      exact htokens.1 first hfirst
  | @group depth opening closing inside rest inner items _ _ _ hrest _ ihRest =>
      rw [List.pairwise_cons, List.pairwise_append, List.pairwise_cons] at htokens
      obtain ⟨-, -, ⟨hclosing, hbehind⟩, -⟩ := htokens
      refine .cons (fun e he => ?_) (ihRest hbehind)
      obtain ⟨first, hfirst, last, -, hspan⟩ := hrest.exists_ends he
      rw [hspan]
      exact hclosing first hfirst

/-! ### Nodes in the text -/

theorem Segment.ends (h : Segment depth stretch [n]) :
    ∃ first last, stretch.head? = some first ∧ stretch.getLast? = some last ∧
      span n = ⟨first.span.start, last.span.stop⟩ := by
  cases h with
  | literal hrest =>
      rw [hrest.eq_nil]
      exact ⟨_, _, rfl, rfl, rfl⟩
  | @group _ opening closing inside rest inner _ _ _ _ hrest =>
      rw [hrest.eq_nil]
      have hlast : (opening :: (inside ++ [closing])).getLast? = some closing :=
        List.getLast?_eq_some_iff.2 ⟨opening :: inside, rfl⟩
      exact ⟨opening, closing, rfl, hlast, rfl⟩

theorem Segment.shows (hlex : lex newlines text = front ++ (stretch ++ behind))
    (hdepth : 0 ≤ depth) (h : Segment depth stretch [n]) : Shows newlines text n := by
  have hstands : ∀ t ∈ stretch, Stands newlines text t := by
    intro t ht
    apply stands_of_mem_lex
    rw [hlex]
    simp [ht]
  have hordered : stretch.Pairwise fun t u => t.span.stop ≤ u.span.start := by
    have hall := (lexes_lex newlines text).pairwise
    rw [hlex, List.pairwise_append, List.pairwise_append] at hall
    exact hall.2.1.1
  cases h with
  | literal _ => exact (hstands _ List.mem_cons_self).eq_literal rfl
  | @group _ opening closing inside rest inner _ hopening hclosing hinside hrest =>
      cases hrest.eq_nil
      have hdeeper : depth + 1 ≠ 0 := by omega
      rw [List.forall_mem_cons, List.forall_mem_append, List.forall_mem_singleton] at hstands
      obtain ⟨hfirst, -, hlast⟩ := hstands
      rw [List.pairwise_cons, List.pairwise_append] at hordered
      obtain ⟨hbehind, hinner, -, hbefore⟩ := hordered
      rw [Shows, if_neg hdeeper]
      refine ⟨(hfirst.eq_left hopening).2, (hlast.eq_right hclosing).2, fun e he => ?_,
        hinside.pairwise hinner⟩
      obtain ⟨first, hmemFirst, last, hmemLast, hspan⟩ := hinside.exists_ends he
      have hstart := hbehind first (by simp [hmemFirst])
      have hstop := hbefore last hmemLast closing List.mem_cons_self
      have hopened := hfirst.bounds
      have hclosed := hlast.bounds
      rw [hspan]
      constructor
      · show opening.span.start < first.span.start
        omega
      · show last.span.stop < closing.span.stop
        omega

theorem Segment.placed (hlex : lex newlines text = front ++ (stretch ++ behind))
    (hdepth : 0 ≤ depth) (h : Segment depth stretch [n]) (hheight : n.height ≤ nestingLimit) :
    Placed newlines text n := by
  obtain ⟨first, last, hfirst, hlast, hspan⟩ := h.ends
  obtain ⟨hstart, hpositive, hstop⟩ := bounds_of_stretch hlex hfirst hlast hspan
  have hkinds : (lex newlines ((span n).slice text)).map Token.kind = n.kinds := by
    rw [map_kind_lex_slice hlex hfirst hlast hspan, h.map_kind, Expr.kindsOf_singleton]
  obtain ⟨t, hsame, -, hparse⟩ := exists_parse_of_map_kind hkinds
  rw [if_pos hheight] at hparse
  exact ⟨hstart, hpositive, hstop, h.shows hlex hdepth, t, hparse, hsame⟩

theorem exists_ends_of_two_le {tokens : List Token} (h : 2 ≤ tokens.length) :
    ∃ first last, tokens.head? = some first ∧ tokens.getLast? = some last ∧
      wholeSpan tokens = ⟨first.span.start, last.span.stop⟩ := by
  have hnil : tokens ≠ [] := List.ne_nil_of_length_pos (by omega)
  have hfirst := List.head?_eq_some_head hnil
  have hlast := List.getLast?_eq_some_getLast hnil
  exact ⟨_, _, hfirst, hlast, by rw [wholeSpan, hfirst, hlast]⟩

/-- The root may be a group without brackets. -/
theorem Segment.placed_root (h : Segment 0 (lex newlines text) items)
    (htwo : 2 ≤ (lex newlines text).length)
    (hne : ∀ inner span depth, items ≠ [.group inner span depth])
    (hhighest : Expr.highest items ≤ nestingLimit) :
    Placed newlines text (.group items (wholeSpan (lex newlines text)) 0) := by
  obtain ⟨first, last, hfirst, hlast, hspan⟩ := exists_ends_of_two_le htwo
  have hlex : lex newlines text = [] ++ (lex newlines text ++ []) := by
    rw [List.nil_append, List.append_nil]
  obtain ⟨hstart, hpositive, hstop⟩ := bounds_of_stretch hlex hfirst hlast hspan
  have hkinds := map_kind_lex_slice hlex hfirst hlast hspan
  rw [h.map_kind] at hkinds
  obtain ⟨items', hbare, -, hparse⟩ :=
    exists_parse_of_map_kind_eq_kindsOf hkinds (h.two_le_length_items htwo hne)
  rw [if_pos hhighest] at hparse
  refine ⟨hstart, hpositive, hstop, ?_, _, hparse, ?_⟩
  · rw [Shows, if_pos rfl]
    exact ⟨_, _, hfirst, hlast, hspan⟩
  · rw [Expr.same_iff, Expr.bare_group_inj, hbare]

theorem Segment.placed_nodes (h : Segment 0 (lex newlines text) items)
    (hhighest : Expr.highest items ≤ nestingLimit) (hn : n ∈ Expr.nodesOf items) :
    Placed newlines text n := by
  obtain ⟨front, stretch, behind, deeper, hlex, hdeeper, hstretch, -⟩ := h.exists_stretch hn
  have hheight := Nat.le_trans (Expr.height_le_of_mem_nodesOf hn) hhighest
  exact hstretch.placed hlex hdeeper hheight

theorem tokens_of_parse_eq_ok (h : parse newlines text = .ok e) :
    tokens e = lex newlines text := by
  have hstands : ∀ t ∈ lex newlines text, Stands newlines text t := fun t => stands_of_mem_lex
  rcases (reads_of_parse_eq_ok h).single_or_implicit with
    hsegment | ⟨items, rfl, -, hsegment, -⟩
  · have hwritten := hsegment.tokensOf_eq (Int.le_refl 0) hstands
    rwa [tokensOf_singleton] at hwritten
  · rw [tokens, if_pos rfl, hsegment.tokensOf_eq (Int.le_refl 0) hstands]

theorem placed_of_mem_nodes (h : parse newlines text = .ok e) (hn : n ∈ e.nodes) :
    Placed newlines text n := by
  rcases (reads_of_parse_eq_ok h).single_or_implicit with
    hsegment | ⟨items, rfl, htwo, hsegment, hne⟩
  · refine hsegment.placed_nodes (hsegment.highest_le h) ?_
    rwa [Expr.nodesOf_singleton]
  · have hhighest := hsegment.highest_le h
    rcases List.mem_cons.1 hn with rfl | hn
    · exact hsegment.placed_root htwo hne hhighest
    · exact hsegment.placed_nodes hhighest hn

/-- The tokens of a text are those of the tree that is read from it, and each node of the tree is
placed in the text. -/
theorem parse_image (h : parse newlines text = .ok e) :
    tokens e = lex newlines text ∧ ∀ n ∈ e.nodes, Placed newlines text n :=
  ⟨tokens_of_parse_eq_ok h, fun _ hn => placed_of_mem_nodes h hn⟩

/-- The first of the tokens of a node, which stands in the text from there on. -/
structure Starts (newlines : Newlines) (text : Text) (n : Tree) (first : Token) : Prop where
  mem_lex : first ∈ lex newlines text
  head?_tokens : (tokens n).head? = some first
  start_eq : (span n).start = first.span.start
  start_lt_stop : (span n).start < (span n).stop
  stop_le_length : (span n).stop ≤ text.length

theorem starts_of_stretch (hlex : lex newlines text = front ++ (stretch ++ behind))
    (hwritten : tokens n = stretch) {first last : Token} (hfirst : stretch.head? = some first)
    (hlast : stretch.getLast? = some last) (hspan : span n = ⟨first.span.start, last.span.stop⟩) :
    Starts newlines text n first := by
  obtain ⟨-, hlt, hle⟩ := bounds_of_stretch hlex hfirst hlast hspan
  refine ⟨?_, hwritten ▸ hfirst, by rw [hspan], hlt, hle⟩
  rw [hlex]
  simp [List.mem_of_head? hfirst]

theorem Segment.exists_starts (h : Segment 0 (lex newlines text) items)
    (hn : n ∈ Expr.nodesOf items) : ∃ first, Starts newlines text n first := by
  obtain ⟨front, stretch, behind, deeper, hlex, hdeeper, hstretch, -⟩ := h.exists_stretch hn
  have hstands : ∀ t ∈ stretch, Stands newlines text t := by
    intro t ht
    apply stands_of_mem_lex
    rw [hlex]
    simp [ht]
  have hwritten := hstretch.tokensOf_eq hdeeper hstands
  rw [tokensOf_singleton] at hwritten
  obtain ⟨first, last, hfirst, hlast, hspan⟩ := hstretch.ends
  exact ⟨first, starts_of_stretch hlex hwritten hfirst hlast hspan⟩

/-- Each node of a tree starts at the first of its tokens. -/
theorem exists_starts (h : parse newlines text = .ok e) (hn : n ∈ e.nodes) :
    ∃ first, Starts newlines text n first := by
  rcases (reads_of_parse_eq_ok h).single_or_implicit with
    hsegment | ⟨items, rfl, htwo, hsegment, -⟩
  · refine hsegment.exists_starts ?_
    rwa [Expr.nodesOf_singleton]
  · rcases List.mem_cons.1 hn with rfl | hn
    · obtain ⟨first, last, hfirst, hlast, hspan⟩ := exists_ends_of_two_le htwo
      have hlex : lex newlines text = [] ++ (lex newlines text ++ []) := by
        rw [List.nil_append, List.append_nil]
      exact ⟨_, starts_of_stretch hlex (tokens_of_parse_eq_ok h) hfirst hlast hspan⟩
    · exact hsegment.exists_starts hn

theorem parse_image_merged :
    parse .merge ['1', '\n', '2', ' ', '(', ')'] =
        .ok (.group [.literal ['1', '2'] ⟨0, 3⟩, .group [] ⟨4, 6⟩ 1] ⟨0, 6⟩ 0) ∧
      Placed .merge ['1', '\n', '2', ' ', '(', ')'] (.literal ['1', '2'] ⟨0, 3⟩) := by
  have hparse : parse .merge ['1', '\n', '2', ' ', '(', ')'] =
      .ok (.group [.literal ['1', '2'] ⟨0, 3⟩, .group [] ⟨4, 6⟩ 1] ⟨0, 6⟩ 0) := by rfl
  refine ⟨hparse, (parse_image hparse).2 _ ?_⟩
  simp [Expr.nodes, Expr.nodesOf]

end BracketCalc.Tree
