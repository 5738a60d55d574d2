import BracketCalc.Proofs.Expr.Verdict
import BracketCalc.Proofs.Token.Kinds
import Mathlib.Algebra.Order.Ring.Int
import Mathlib.Order.Bounds.Basic
/-!
# Depth

The depth of a group that is read from a text is the number of brackets that are
open right behind its left bracket, so that the nesting of the whole tree is the
greatest number of brackets that are open anywhere in the text.

`peak` finds this greatest number in one scan from the end.  Characters other than
brackets do not matter to it, so it is the same for a text and for its tokens.
-/

namespace BracketCalc

/-- How many more left than right brackets a text has. -/
def Text.opened (text : Text) : Int := text.count '(' - text.count ')'

/-- The greatest sum of the steps in a first part of a list. -/
def peak {α : Type} (step : α → Int) : List α → Int
  | [] => 0
  | a :: rest => max 0 (step a + peak step rest)

section Peak

variable {α β : Type} {step : α → Int} {step' : β → Int} {f : α → Option β}

theorem peak_nonneg (step : α → Int) (l : List α) : 0 ≤ peak step l := by
  cases l with
  | nil => exact Int.le_refl 0
  | cons a rest => exact Int.le_max_left ..

theorem isGreatest_peak (step : α → Int) (l : List α) :
    IsGreatest {n | ∃ front, front <+: l ∧ n = (front.map step).sum} (peak step l) := by
  induction l with
  | nil =>
      refine ⟨⟨[], List.nil_prefix, rfl⟩, ?_⟩
      rintro n ⟨front, hfront, rfl⟩
      rw [List.prefix_nil.1 hfront]
      exact Int.le_refl 0
  | cons a rest ih =>
      obtain ⟨⟨top, htop, hsum⟩, hupper⟩ := ih
      constructor
      · rcases Int.le_total (step a + peak step rest) 0 with h | h
        · exact ⟨[], List.nil_prefix, Int.max_eq_left h⟩
        · refine ⟨a :: top, (List.prefix_cons_inj a).2 htop, ?_⟩
          rw [peak, Int.max_eq_right h, hsum, List.map_cons, List.sum_cons]
      · rintro n ⟨front, hfront, rfl⟩
        rcases List.prefix_cons_iff.1 hfront with rfl | ⟨part, rfl, hpart⟩
        · exact Int.le_max_left ..
        · have hbelow := hupper ⟨part, hpart, rfl⟩
          rw [peak, List.map_cons, List.sum_cons]
          omega

theorem peak_append (step : α → Int) (a b : List α) :
    peak step (a ++ b) = max (peak step a) ((a.map step).sum + peak step b) := by
  induction a with
  | nil =>
      have hnonneg := peak_nonneg step b
      simp only [List.nil_append, peak, List.map_nil, List.sum_nil]
      omega
  | cons c a ih =>
      rw [List.cons_append, peak, peak, ih, List.map_cons, List.sum_cons]
      omega

theorem peak_filterMap (h : ∀ a, step a = (f a).elim 0 step') (l : List α) :
    peak step' (l.filterMap f) = peak step l := by
  induction l with
  | nil => rfl
  | cons a rest ih =>
      have hnonneg := peak_nonneg step rest
      rw [List.filterMap_cons, peak, h a]
      cases f a with
      | none =>
          rw [Option.elim_none]
          show peak step' (rest.filterMap f) = _
          omega
      | some b =>
          rw [Option.elim_some, peak, ih]

theorem sum_map_filterMap (h : ∀ a, step a = (f a).elim 0 step') (l : List α) :
    ((l.filterMap f).map step').sum = (l.map step).sum := by
  induction l with
  | nil => rfl
  | cons a rest ih =>
      rw [List.filterMap_cons, List.map_cons, List.sum_cons, h a]
      cases f a with
      | none => simp [ih]
      | some b => simp [ih]

end Peak

/-! ### Brackets as steps -/

/-- How many more groups are open behind a token than before it. -/
def TokenKind.step : TokenKind → Int
  | left => 1
  | right => -1
  | literal _ | other => 0

namespace Token

/-- How many more groups are open behind a token than before it. -/
def step (t : Token) : Int := t.kind.step

def charStep (c : Char) : Int := (bracketKind? c).elim 0 TokenKind.step

theorem charStep_eq (c : Char) : charStep c = (bracketKind? c).elim 0 TokenKind.step := rfl

variable {newlines : Newlines} {offset : Nat} {text : Text} {tokens inside rest : List Token}
  {opening closing : Token}

theorem sum_charStep (text : Text) : (text.map charStep).sum = text.opened := by
  unfold Text.opened
  induction text with
  | nil => rfl
  | cons c rest ih =>
      rw [List.map_cons, List.sum_cons, ih, List.count_cons, List.count_cons, charStep,
        bracketKind?]
      by_cases hleft : c = '('
      · subst hleft
        simp [TokenKind.step]
        omega
      · by_cases hright : c = ')'
        · subst hright
          simp [TokenKind.step]
          omega
        · simp [hleft, hright]

theorem sum_step (tokens : List Token) :
    (tokens.map step).sum = (lefts tokens : Int) - rights tokens := by
  induction tokens with
  | nil => rfl
  | cons t rest ih =>
      rw [List.map_cons, List.sum_cons, ih, lefts_cons, rights_cons, step]
      cases t.kind <;> simp [TokenKind.step] <;> omega

theorem Balanced.sum_step (h : Balanced tokens) : (tokens.map step).sum = 0 := by
  have heven := h.even
  rw [Token.sum_step]
  omega

/-- Brackets around balanced tokens make the peak between them higher by one. -/
theorem Balanced.peak_enclose (h : Balanced inside) (hopening : opening.kind = .left)
    (hclosing : closing.kind = .right) (rest : List Token) :
    peak step (opening :: (inside ++ closing :: rest)) =
      max (1 + peak step inside) (peak step rest) := by
  have hinside := peak_nonneg step inside
  have hrest := peak_nonneg step rest
  have hup : opening.step = 1 := by rw [step, hopening]; rfl
  have hdown : closing.step = -1 := by rw [step, hclosing]; rfl
  rw [peak, peak_append, h.sum_step, peak, hup, hdown]
  omega

/-- The kind of a token that is no literal. -/
def bracket? (t : Token) : Option TokenKind := Option.guard (! ·.isLiteral) t.kind

theorem step_eq (t : Token) : t.step = t.bracket?.elim 0 TokenKind.step := by
  unfold step bracket?
  cases t.kind <;> rfl

theorem Lexes.filterMap_bracket? (h : Lexes newlines offset text tokens) :
    tokens.filterMap bracket? = text.filterMap bracketKind? := by
  have hkinds : tokens.filterMap bracket? = brackets (tokens.map kind) := by
    rw [brackets, ← List.filterMap_eq_filter, List.filterMap_map]
    rfl
  rw [hkinds, ← lexes_iff.1 h, (map_kind_lexFrom newlines text).1, brackets_kindsFrom]

theorem Lexes.peak_step (h : Lexes newlines offset text tokens) :
    peak step tokens = peak charStep text := by
  rw [← peak_filterMap step_eq, h.filterMap_bracket?, peak_filterMap charStep_eq]

theorem Lexes.sum_step (h : Lexes newlines offset text tokens) :
    (tokens.map step).sum = text.opened := by
  rw [← sum_map_filterMap step_eq, h.filterMap_bracket?, sum_map_filterMap charStep_eq,
    sum_charStep]

end Token

/-! ### The depth of trees -/

namespace Tree

open Token

variable {newlines : Newlines} {text : Text} {depth least : Int} {tokens : List Token}
  {items inner : List Tree} {span : Span} {deeper : Int} {e : Tree}

/-- The deepest of some items is as deep as the highest peak between the brackets around them. -/
theorem Segment.deepest_eq (h : Segment depth tokens items) (hdepth : 0 ≤ depth)
    (hleast : depth ≤ least) :
    Expr.deepest least items = .ok (max least (depth + peak step tokens)) := by
  induction h generalizing least with
  | nil =>
      rw [Expr.deepest, peak]
      exact congrArg Except.ok (by omega)
  | @literal depth letters place rest items _ ih =>
      have hpeak : peak step (⟨.literal letters, place⟩ :: rest) = peak step rest := by
        have hnonneg := peak_nonneg step rest
        show max 0 (0 + peak step rest) = _
        omega
      rw [Expr.deepest, Expr.nesting]
      simp only
      rw [Int.max_eq_left (by omega), ih hdepth hleast, hpeak]
  | @group depth opening closing inside rest inner items hopening hclosing hinside _ ihInside
      ihRest =>
      have hnonneg := peak_nonneg step inside
      rw [Expr.deepest, Expr.nesting, ihInside (by omega) (Int.le_refl _)]
      simp only
      rw [ihRest hdepth (by omega), hinside.balanced.peak_enclose hopening hclosing]
      exact congrArg Except.ok (by omega)

theorem Segment.nesting_eq (h : Segment 0 tokens [e]) : e.nesting = .ok (peak step tokens) := by
  cases h with
  | literal hrest =>
      rw [hrest.eq_nil]
      rfl
  | @group _ opening closing inside rest inner _ hopening hclosing hinside hrest =>
      have hnonneg := peak_nonneg step inside
      rw [Expr.nesting, hinside.deepest_eq (by omega) (Int.le_refl _),
        hinside.balanced.peak_enclose hopening hclosing, hrest.eq_nil, peak]
      exact congrArg Except.ok (by omega)

theorem nesting_of_parse_eq_ok (h : parse newlines text = .ok e) :
    e.nesting = .ok (peak charStep text) := by
  rw [← (lexes_lex newlines text).peak_step]
  rcases (reads_of_parse_eq_ok h).single_or_implicit with
    hsegment | ⟨items, rfl, -, hsegment, -⟩
  · exact hsegment.nesting_eq
  · have hnonneg := peak_nonneg step (lex newlines text)
    rw [Expr.nesting, hsegment.deepest_eq (Int.le_refl 0) (Int.le_refl 0)]
    exact congrArg Except.ok (by omega)

theorem group_ne_literal {letters : Text} {place : Span} :
    (.group inner span deeper : Tree) ≠ .literal letters place := by
  intro heq
  cases heq

/-- A group has as many groups around it, itself included, as are open behind its left bracket. -/
theorem Segment.exists_opening (h : Segment depth tokens items)
    (hn : .group inner span deeper ∈ Expr.nodesOf items) :
    ∃ front opening behind, tokens = front ++ opening :: behind ∧ opening.kind = .left ∧
      span.start = opening.span.start ∧ deeper = depth + ((front ++ [opening]).map step).sum := by
  induction h with
  | nil => cases hn
  | @literal depth letters place rest items _ ih =>
      rw [Expr.nodesOf, Expr.nodes, List.singleton_append, List.mem_cons] at hn
      obtain ⟨front, opening, behind, rfl, hopening, hstart, hdeeper⟩ :=
        ih (hn.resolve_left group_ne_literal)
      refine ⟨_ :: front, opening, behind, rfl, hopening, hstart, ?_⟩
      rw [hdeeper, List.cons_append, List.map_cons, List.sum_cons]
      simp [step, TokenKind.step]
  | @group depth opening closing inside rest enclosed items hopening hclosing hinside _ ihInside
      ihRest =>
      have hup : opening.step = 1 := by rw [step, hopening]; rfl
      have hdown : closing.step = -1 := by rw [step, hclosing]; rfl
      rw [Expr.nodesOf, Expr.nodes, List.cons_append, List.mem_cons, List.mem_append] at hn
      rcases hn with heq | hn | hn
      · cases heq
        exact ⟨[], opening, _, rfl, hopening, rfl, by simp [hup]⟩
      · obtain ⟨front, first, behind, rfl, hfirst, hstart, hdeeper⟩ := ihInside hn
        refine ⟨opening :: front, first, behind ++ closing :: rest, by simp, hfirst, hstart, ?_⟩
        rw [hdeeper, List.cons_append, List.map_cons, List.sum_cons, hup]
        omega
      · obtain ⟨front, first, behind, rfl, hfirst, hstart, hdeeper⟩ := ihRest hn
        refine ⟨opening :: (inside ++ closing :: front), first, behind, by simp, hfirst, hstart,
          ?_⟩
        have heven := hinside.balanced.sum_step
        simp only [List.cons_append, List.append_assoc, List.map_cons, List.map_append,
          List.sum_cons, List.sum_append, List.map_nil, List.sum_nil] at hdeeper ⊢
        omega

theorem Segment.depth_of_mem (h : Segment depth tokens items)
    (hn : .group inner span deeper ∈ items) : deeper = depth + 1 := by
  induction h with
  | nil => cases hn
  | literal _ ih => exact ih ((List.mem_cons.1 hn).resolve_left group_ne_literal)
  | group _ _ _ _ _ ihRest =>
      rcases List.mem_cons.1 hn with heq | hn
      · cases heq
        rfl
      · exact ihRest hn

/-- Groups are one deeper than the group around them. -/
theorem Segment.depth_of_mem_nodes {others : List Tree} {place : Span} {deepest : Int}
    (h : Segment depth tokens items) (hn : .group inner span deeper ∈ Expr.nodesOf items)
    (hm : .group others place deepest ∈ inner) : deepest = deeper + 1 := by
  induction h with
  | nil => cases hn
  | literal _ ih =>
      rw [Expr.nodesOf, Expr.nodes, List.singleton_append, List.mem_cons] at hn
      exact ih (hn.resolve_left group_ne_literal)
  | group _ _ hinside _ ihInside ihRest =>
      rw [Expr.nodesOf, Expr.nodes, List.cons_append, List.mem_cons, List.mem_append] at hn
      rcases hn with heq | hn | hn
      · cases heq
        exact hinside.depth_of_mem hm
      · exact ihInside hn
      · exact ihRest hn

/-! ### Depths in the text -/

theorem opened_take_of_left {front behind : List Token} {opening : Token}
    (h : lex newlines text = front ++ opening :: behind) (hopening : opening.kind = .left) :
    text[opening.span.start.toNat]? = some '(' ∧
      Text.opened (text.take (opening.span.start.toNat + 1)) =
        ((front ++ [opening]).map step).sum := by
  have hmem : opening ∈ lex newlines text := by simp [h]
  have hstands := stands_of_mem_lex hmem
  obtain ⟨hleft, hchar⟩ := hstands.eq_left hopening
  refine ⟨hchar, ?_⟩
  have hlexes := lexes_lex newlines text
  rw [h] at hlexes
  obtain ⟨a, b, rfl, hstop, ha, -⟩ := hlexes.exists_cut_behind
  have hlength : opening.span.start.toNat + 1 = a.length := by
    have hbounds := hstands.bounds
    rw [hleft] at hstop hbounds ⊢
    simp only [Token.left] at hstop hbounds ⊢
    omega
  rw [hlength, List.take_left, ha.sum_step]

/-- A group in the tree is the root that is written without brackets, or it has its bracket in the
text, and its depth is the number of brackets that are open behind it. -/
theorem depth_of_parse_eq_ok (h : parse newlines text = .ok e)
    (hn : .group inner span deeper ∈ e.nodes) :
    (Expr.group inner span deeper = e ∧ deeper = 0 ∧ ¬ Enclosed (lex newlines text)) ∨
      text[span.start.toNat]? = some '(' ∧
        deeper = Text.opened (text.take (span.start.toNat + 1)) := by
  have hopened : ∀ {items}, Segment 0 (lex newlines text) items →
      .group inner span deeper ∈ Expr.nodesOf items →
      text[span.start.toNat]? = some '(' ∧
        deeper = Text.opened (text.take (span.start.toNat + 1)) := by
    intro items hsegment hn
    obtain ⟨front, opening, behind, hlex, hopening, hstart, hdeeper⟩ := hsegment.exists_opening hn
    obtain ⟨hchar, hsum⟩ := opened_take_of_left hlex hopening
    rw [Int.zero_add, ← hsum, ← hstart] at hdeeper
    rw [← hstart] at hchar
    exact ⟨hchar, hdeeper⟩
  rcases (reads_of_parse_eq_ok h).single_or_implicit with
    hsegment | ⟨items, rfl, -, hsegment, -⟩
  · exact .inr (hopened hsegment (by rwa [Expr.nodesOf_singleton]))
  · rcases List.mem_cons.1 hn with heq | hn
    · refine .inl ⟨heq, (Expr.group.inj heq).2.2, fun henclosed => ?_⟩
      obtain ⟨_, _, hread⟩ := Verdict.ofTokens_of_enclosed henclosed (known_lex newlines text)
      rw [← parse_eq_of_ne_tooDeep (by rw [h]; exact nofun), h] at hread
      cases hread
    · exact .inr (hopened hsegment hn)

theorem depth_of_mem_items (h : parse newlines text = .ok e) {others : List Tree} {place : Span}
    {deepest : Int} (hn : .group inner span deeper ∈ e.nodes)
    (hm : .group others place deepest ∈ inner) : deepest = deeper + 1 := by
  rcases (reads_of_parse_eq_ok h).single_or_implicit with
    hsegment | ⟨items, rfl, -, hsegment, -⟩
  · exact hsegment.depth_of_mem_nodes (by rwa [Expr.nodesOf_singleton]) hm
  · rcases List.mem_cons.1 hn with heq | hn
    · cases heq
      exact hsegment.depth_of_mem hm
    · exact hsegment.depth_of_mem_nodes hn hm

/-- A tree is nested as deeply as brackets are open anywhere in its text.  The depth of each group,
except for the root that is written without brackets, is the number of brackets that are open behind
its own, which is one more than in the group around it. -/
theorem nesting_isGreatest_opened (h : parse newlines text = .ok e) :
    (∃ most, e.nesting = .ok most ∧
        IsGreatest {n | ∃ front, front <+: text ∧ n = Text.opened front} most) ∧
      (∀ items span depth, .group items span depth ∈ e.nodes →
        (Expr.group items span depth = e ∧ depth = 0 ∧ ¬ Enclosed (lex newlines text)) ∨
          text[span.start.toNat]? = some '(' ∧
            depth = Text.opened (text.take (span.start.toNat + 1))) ∧
      ∀ items span depth inner place deeper, .group items span depth ∈ e.nodes →
        .group inner place deeper ∈ items → deeper = depth + 1 := by
  refine ⟨⟨_, nesting_of_parse_eq_ok h, ?_⟩, fun _ _ _ => depth_of_parse_eq_ok h,
    fun _ _ _ _ _ _ hn hm => depth_of_mem_items h hn hm⟩
  have hgreatest := isGreatest_peak charStep text
  simpa only [sum_charStep] using hgreatest

/-- In `+ (12) (* (3))`, with its first number on two lines, two brackets are open before the
`3`. -/
theorem nesting_isGreatest_opened_product :
    IsGreatest {n | ∃ front, front <+: "+ (1\n2) (* (3))".toList ∧ n = Text.opened front} 2 ∧
      (2 : Int) = Text.opened "+ (1\n2) (* (".toList := by
  let three : Tree := .group [.literal ['3'] ⟨12, 13⟩] ⟨11, 14⟩ 2
  let product : Tree := .group [.literal ['*'] ⟨9, 10⟩, three] ⟨8, 15⟩ 1
  let sum : Tree :=
    .group [.literal ['+'] ⟨0, 1⟩, .group [.literal ['1', '2'] ⟨3, 6⟩] ⟨2, 7⟩ 1, product] ⟨0, 15⟩ 0
  have hparse : parse .merge "+ (1\n2) (* (3))".toList = .ok sum := rfl
  have hproduct : product ∈ sum.nodes := Expr.mem_nodes_of_mem_items (by simp)
  have hthree : three ∈ sum.nodes :=
    Expr.mem_nodes_trans (Expr.mem_nodes_of_mem_items (by simp)) hproduct
  obtain ⟨⟨most, hmost, hgreatest⟩, hdepth, -⟩ := nesting_isGreatest_opened hparse
  have htwo : sum.nesting = .ok 2 := rfl
  obtain rfl : most = 2 := Except.ok.inj (hmost.symm.trans htwo)
  rcases hdepth _ _ _ hthree with ⟨heq, -, -⟩ | ⟨-, hopened⟩
  · simp [sum] at heq
  · exact ⟨hgreatest, hopened⟩

end Tree

end BracketCalc
