import BracketCalc.Proofs.Double.Same
import BracketCalc.Proofs.Expr.Image
import BracketCalc.Proofs.Fault.FirstFault
import BracketCalc.Proofs.Numeral.Unbroken
import BracketCalc.Proofs.Token.Kinds
/-!
# Spliced texts

A group may be cut out of a text and a word put in its place, between spaces.  The
text is then read as its tree with the word in the place of the group.  If the word
denotes the value of the group, the value of the whole stays what it is.
-/

namespace BracketCalc

/-- The text with a word, between spaces, in the place of the stretch. -/
def Span.splice (span : Span) (word text : Text) : Text :=
  text.take span.start.toNat ++ ' ' :: (word ++ ' ' :: text.drop span.stop.toNat)

variable {newlines : Newlines} {text word : Text}

/-! ### Tokens -/

namespace Token

variable {offset : Nat} {front stretch behind tokens : List Token} {first last : Token}
  {span : Span}

/-- A space ends what stands before it. -/
theorem kindsFrom_append_space (newlines : Newlines) (letters a rest : Text) :
    kindsFrom newlines letters (a ++ ' ' :: rest) =
      kindsFrom newlines letters a ++ kindsFrom newlines [] rest := by
  induction a generalizing letters with
  | nil => cases newlines <;> rfl
  | cons c a ih =>
      rw [List.cons_append, kindsFrom, kindsFrom]
      cases newlines.role c <;> simp [ih]

theorem Lexes.kindsFrom_eq (h : Lexes newlines offset text tokens) :
    kindsFrom newlines [] text = tokens.map kind := by
  rw [← (map_kind_lexFrom newlines text).1 offset, lexes_iff.1 h]

theorem kindsFrom_of_unbroken (h : word.Unbroken) :
    kindsFrom newlines [] word = [.literal word] := by
  have hlegible : Tree.Legible (.literal word default) := .literal h
  rw [← map_kind_lex]
  exact hlegible.map_kind_lex

/-- A spliced text has the tokens that stand around the stretch, and the word between them. -/
theorem map_kind_lex_splice (h : lex newlines text = front ++ (stretch ++ behind))
    (hfirst : stretch.head? = some first) (hlast : stretch.getLast? = some last)
    (hspan : span = ⟨first.span.start, last.span.stop⟩) (hword : word.Unbroken) :
    (lex newlines (span.splice word text)).map kind =
      front.map kind ++ (.literal word :: behind.map kind) := by
  have hlexes := lexes_lex newlines text
  rw [h] at hlexes
  obtain ⟨a, b, c, rfl, hstart, hstop, ha, -, hc⟩ := hlexes.exists_stretch hfirst hlast
  have hsplice : span.splice word (a ++ (b ++ c)) = a ++ ' ' :: (word ++ ' ' :: c) := by
    have hbefore : span.start.toNat = a.length := by
      rw [hspan, hstart]
      omega
    have hbehind : span.stop.toNat = (a ++ b).length := by
      rw [hspan, hstop, List.length_append]
      omega
    rw [Span.splice, hbefore, hbehind, List.take_left, ← List.append_assoc, List.drop_left]
  rw [hsplice, map_kind_lex, kindsFrom_append_space, kindsFrom_append_space, ha.kindsFrom_eq,
    hc.kindsFrom_eq, kindsFrom_of_unbroken hword, List.singleton_append]

end Token

/-! ### Trees -/

namespace Tree

open Token

variable {items : List Tree} {tree n : Tree}

theorem Segment.exists_splice (h : Segment 0 (lex newlines text) items)
    (hn : n ∈ Expr.nodesOf items) (hword : word.Unbroken) :
    ∃ items', Expr.ReplacedItem n (.literal word default) items items' ∧
      (lex newlines ((span n).splice word text)).map kind = Expr.kindsOf items' := by
  obtain ⟨front, stretch, behind, deeper, hlex, -, hstretch, hsurrounds⟩ := h.exists_stretch hn
  obtain ⟨first, last, hfirst, hlast, hspan⟩ := hstretch.ends
  obtain ⟨items', hreplaced, hkinds⟩ := hsurrounds (.literal word default)
  refine ⟨items', hreplaced, ?_⟩
  rw [hkinds]
  exact map_kind_lex_splice hlex hfirst hlast hspan hword

theorem exists_parse_of_word (h : (lex newlines text).map kind = [.literal word]) :
    ∃ t : Tree, parse newlines text = .ok t ∧ t.bare = (Expr.literal word default : Tree).bare := by
  have hkinds : (lex newlines text).map kind = Expr.kinds (.literal word default) := h
  obtain ⟨t, hsame, -, hparse⟩ := exists_parse_of_map_kind hkinds
  exact ⟨t, hparse, Expr.same_iff.1 hsame⟩

/-- With a word in the place of a node, a text is read as its tree with the word in the place of the
node. -/
theorem exists_parse_splice (h : parse newlines text = .ok tree) (hn : n ∈ tree.nodes)
    (hword : word.Unbroken) :
    ∃ t e : Tree, parse newlines ((span n).splice word text) = .ok t ∧ t.bare = e.bare ∧
      Expr.Replaced n (.literal word default) tree e := by
  have hlow : (Expr.literal word default : Tree).height ≤ n.height := Nat.zero_le _
  rcases (reads_of_parse_eq_ok h).single_or_implicit with
    hsegment | ⟨items, rfl, htwo, hsegment, hne⟩
  · have hnodes : n ∈ Expr.nodesOf [tree] := by
      rwa [Expr.nodesOf_singleton]
    obtain ⟨items', hitem, hkinds⟩ := hsegment.exists_splice hnodes hword
    obtain ⟨e, rfl, hreplaced⟩ := hitem.exists_of_singleton
    rw [Expr.kindsOf_singleton] at hkinds
    obtain ⟨t, hsame, -, hparse⟩ := exists_parse_of_map_kind hkinds
    have hheight : e.height ≤ nestingLimit := by
      have hhighest := hsegment.highest_le h
      rw [Expr.highest_singleton] at hhighest
      exact Nat.le_trans (hreplaced.height_le hlow) hhighest
    rw [if_pos hheight] at hparse
    exact ⟨t, e, hparse, Expr.same_iff.1 hsame, hreplaced⟩
  · rcases List.mem_cons.1 hn with rfl | hn
    · -- the whole text gives way to the word
      obtain ⟨first, last, hfirst, hlast, hspan⟩ := exists_ends_of_two_le htwo
      have hlex : lex newlines text = [] ++ (lex newlines text ++ []) := by
        rw [List.nil_append, List.append_nil]
      obtain ⟨t, hparse, hbare⟩ :=
        exists_parse_of_word (map_kind_lex_splice hlex hfirst hlast hspan hword)
      exact ⟨t, _, hparse, hbare, .here⟩
    · obtain ⟨items', hitem, hkinds⟩ := hsegment.exists_splice hn hword
      have htwo' : 2 ≤ items'.length := by
        rw [hitem.length_eq]
        exact hsegment.two_le_length_items htwo hne
      obtain ⟨others, hbare, -, hparse⟩ := exists_parse_of_map_kind_eq_kindsOf hkinds htwo'
      rw [if_pos (Nat.le_trans (hitem.highest_le hlow) (hsegment.highest_le h))] at hparse
      exact ⟨_, _, hparse, Expr.bare_group_inj.2 hbare, hitem.group⟩

end Tree

/-! ### Values -/

namespace Expr

variable {a b e e' n m p : Tree} {items before behind : List Tree} {span : Span} {depth : Int}
  {w x : Float}

/-- Spans and depths do not matter to what an expression denotes. -/
theorem Denotes.of_bare_eq (h : Denotes a x) (hbare : b.bare = a.bare) : Denotes b x := by
  induction a using Expr.induction generalizing b x with
  | literal text span =>
      obtain ⟨place, rfl⟩ := exists_literal_of_bare_eq hbare
      cases h with
      | numeral hread => exact .numeral hread
  | group items span depth ih =>
      obtain ⟨op, opSpan, c, d, operation, y, z, rfl, hop, hc, hd, rfl⟩ := h.exists_application
      obtain ⟨_, c', d', _, _, rfl, hc', hd'⟩ := exists_application_of_bare_eq hbare
      exact .application hop (ih c (by simp) hc hc') (ih d (by simp) hd hd')
  | foreign value => exact value.elim

/-- All groups inside an expression that denotes something denote something. -/
theorem Denotes.exists_of_mem_nodes (h : Denotes e w) (hg : group items span depth ∈ e.nodes) :
    ∃ x, Denotes (group items span depth) x := by
  induction e using Expr.induction generalizing w with
  | literal text place =>
      rw [nodes, List.mem_singleton] at hg
      cases hg
  | group others place deeper ih =>
      obtain ⟨op, opSpan, a, b, operation, y, z, rfl, -, ha, hb, -⟩ := h.exists_application
      rcases List.mem_cons.1 hg with heq | hg
      · exact ⟨w, heq ▸ h⟩
      · simp only [nodesOf, nodes, List.mem_append, List.mem_singleton, List.not_mem_nil,
          or_false, reduceCtorEq, false_or] at hg
        rcases hg with hg | hg
        · exact ih a (by simp) ha hg
        · exact ih b (by simp) hb hg
  | foreign value => exact value.elim

theorem append_cons_eq_three (h : before ++ e :: behind = [p, a, b]) :
    before = [] ∧ e = p ∧ behind = [a, b] ∨ before = [p] ∧ e = a ∧ behind = [b] ∨
      before = [p, a] ∧ e = b ∧ behind = [] := by
  match before with
  | [] => simp_all
  | [_] => simp_all
  | [_, _] => simp_all
  | _ :: _ :: _ :: _ => simp at h

theorem Replaced.ne_literal (h : Replaced n m e e') (hn : ∀ text span, n ≠ literal text span) :
    ∀ text span, e ≠ literal text span := by
  cases h with
  | here => exact hn
  | inside _ => exact nofun

/-- An expression denotes the same with another one that denotes the same in the place of one of its
groups.  This fails for literals, which may also name an operation. -/
theorem Replaced.denotes (h : Replaced n m e e') (hn : ∀ text span, n ≠ literal text span)
    (hm : ∀ x, Denotes n x → Denotes m x) (he : Denotes e w) : Denotes e' w := by
  induction h generalizing w with
  | here => exact hm w he
  | inside hinner ih =>
      obtain ⟨op, opSpan, a, b, operation, y, z, hitems, hop, ha, hb, rfl⟩ := he.exists_application
      rcases append_cons_eq_three hitems with ⟨-, hop, -⟩ | ⟨rfl, rfl, rfl⟩ | ⟨rfl, rfl, rfl⟩
      · exact absurd hop (hinner.ne_literal hn op opSpan)
      · exact .application hop (ih ha) hb
      · exact .application hop ha (ih hb)

end Expr

variable {host : Host} {tree : Tree} {items : List Tree} {span : Span} {depth : Int}
  {w : Float}

/-- A text that has a value has the same value with a word in the place of any of its groups, if the
word has the value of the group. -/
theorem evaluate_splice (h : Tree.parse newlines text = .ok tree)
    (hw : evaluate host newlines text = .ok w) (hg : .group items span depth ∈ tree.nodes) :
    ∃ x, Expr.value (.group items span depth : Tree) = .ok x ∧
      ∀ word place y, Expr.value (.literal word place : Tree) = .ok y → Double.Same y x →
        evaluate host newlines (span.splice word text) = .ok w := by
  obtain ⟨other, hother, hvalue⟩ := exists_value_of_evaluate hw
  obtain rfl : tree = other := Except.ok.inj (h.symm.trans hother)
  have hdenotes := Expr.denotes_of_value_eq hvalue
  obtain ⟨x, hx⟩ := hdenotes.exists_of_mem_nodes hg
  refine ⟨x, hx.value_eq, fun word place y hword hsame => ?_⟩
  obtain rfl : y = x := Double.same_iff.1 hsame
  have hread : Numeral.read word = .value y := by
    cases Expr.denotes_of_value_eq hword with
    | numeral hread => exact hread
  have hunbroken := Numeral.unbroken_of_numeric (Numeral.numeric_of_read hread)
  obtain ⟨t, e, hparse, hbare, hreplaced⟩ := Tree.exists_parse_splice h hg hunbroken
  have hplace : ∀ z, Expr.Denotes (.group items span depth) z →
      Expr.Denotes (.literal word default) z := by
    intro z hz
    obtain rfl : y = z := Except.ok.inj (hx.value_eq.symm.trans hz.value_eq)
    exact .numeral hread
  have hw := (hreplaced.denotes nofun hplace hdenotes).of_bare_eq hbare
  exact evaluate_of_value_eq_ok host hparse hw.value_eq

/-- In `+ 12 (* 2 3)`, with its first number on two lines, the product gives way to `6`. -/
theorem evaluate_splice_product :
    ∃ w, evaluate .plain .merge "+ 1\n2 (* 2 3)".toList = .ok w ∧
      evaluate .plain .merge "+ 1\n2  6 ".toList = .ok w := by
  let product : Tree :=
    .group [.literal ['*'] ⟨7, 8⟩, .literal ['2'] ⟨9, 10⟩, .literal ['3'] ⟨11, 12⟩] ⟨6, 13⟩ 1
  let sum : Tree :=
    .group [.literal ['+'] ⟨0, 1⟩, .literal ['1', '2'] ⟨2, 5⟩, product] ⟨0, 13⟩ 0
  have hparse : Tree.parse .merge "+ 1\n2 (* 2 3)".toList = .ok sum := rfl
  have hproduct : product ∈ sum.nodes := Expr.mem_nodes_of_mem_items (by simp)
  have hsix : Expr.value product = Expr.value (.literal ['6'] default : Tree) := by decide +kernel
  have hsome : (evaluate .plain .merge "+ 1\n2 (* 2 3)".toList).toOption.isSome = true := by
    decide +kernel
  cases hw : evaluate .plain .merge "+ 1\n2 (* 2 3)".toList with
  | error reason =>
      rw [hw] at hsome
      cases hsome
  | ok w =>
      obtain ⟨x, hx, hsplice⟩ := evaluate_splice hparse hw hproduct
      exact ⟨w, rfl, hsplice ['6'] default x (hsix.symm.trans hx) (.inl rfl)⟩

end BracketCalc
