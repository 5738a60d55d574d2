import BracketCalc.Proofs.Expr.Depth
import BracketCalc.Proofs.Expr.Image
import BracketCalc.Proofs.Expr.RoundTrip
import BracketCalc.Proofs.Expr.Values
import BracketCalc.Proofs.Fault.Layout
/-!
# Outer brackets

A text in brackets has the tokens of the text, one place further, between two more.  If
the text is read as a group that is written without brackets, the brackets are those of
the group, which is then the same but for its labels.  Any other tree becomes the only
item of a new group.  The brackets count towards the limit on nesting.
-/

namespace BracketCalc

def Text.bracketed (text : Text) : Text := '(' :: (text ++ [')'])

/-- The span in a text with so many characters more in front. -/
def Span.shift (count : Int) (span : Span) : Span := ⟨span.start + count, span.stop + count⟩

variable {newlines : Newlines} {text : Text}

namespace Token

theorem lex_bracketed (newlines : Newlines) (text : Text) :
    lex newlines text.bracketed =
      left 0 :: ((lex newlines text).map (shift 1) ++ [right (1 + text.length : Nat)]) := by
  have hright : newlines.role ')' = .right := Newlines.role_eq_right_iff.2 rfl
  have hends : ∀ t, Apart newlines t [')'] :=
    fun t => apart_cons (by simp [hright]) (by simp [hright])
  have hinside := (lexes_lex newlines text).shift 1
  rw [Nat.zero_add] at hinside
  have hwhole : Lexes newlines 0 text.bracketed _ := .left (hinside.append hends (.right .nil))
  exact lexes_iff.1 hwhole

end Token

namespace Tree

open Token

variable {depth : Int} {tokens : List Token} {items : List Tree} {e t : Tree}

/-- The tree in a text with so many characters more in front, and so many brackets more around. -/
def moved (count deeper : Int) : Tree → Tree := Expr.relabel (Span.shift count) (· + deeper)

theorem moved_group (count deeper : Int) (items : List Tree) (span : Span) (depth : Int) :
    moved count deeper (.group items span depth) =
      .group (items.map (moved count deeper)) (span.shift count) (depth + deeper) := by
  rw [moved, Expr.relabel, Expr.relabelItems_eq_map]

theorem Segment.moved (h : Segment depth tokens items) (count deeper : Int) :
    Segment (depth + deeper) (tokens.map (shift count)) (items.map (Tree.moved count deeper)) := by
  induction h with
  | nil => exact .nil
  | literal _ ih => exact .literal ih
  | @group depth opening closing inside rest inner items hopening hclosing _ _ ihInside ihRest =>
      have hdepth : depth + 1 + deeper = depth + deeper + 1 := by omega
      rw [hdepth] at ihInside
      have hgroup : Segment _ (opening.shift count :: (inside.map (shift count) ++
          closing.shift count :: rest.map (shift count))) _ :=
        .group hopening hclosing ihInside ihRest
      simp only [List.map_cons, List.map_append, moved_group, hdepth]
      exact hgroup

/-- The group that the brackets around a text enclose. -/
def enclosing (text : Text) (items : List Tree) : Tree :=
  .group (items.map (moved 1 1)) ⟨0, text.length + 2⟩ 1

/-- The tokens of a text in brackets write the group of what the tokens of the text write. -/
theorem Segment.bracketed (h : Segment 0 (lex newlines text) items) :
    Segment 0 (lex newlines text.bracketed) [enclosing text items] := by
  have hgroup : Segment 0 (left 0 :: ((lex newlines text).map (shift 1) ++
      [right (1 + text.length : Nat)])) [.group (items.map (Tree.moved 1 1)) _ (0 + 1)] :=
    .group rfl rfl (h.moved 1 1) .nil
  have hstop : (right (1 + text.length : Nat)).span.stop = (text.length : Int) + 2 := by
    simp only [right]
    omega
  rw [hstop] at hgroup
  rw [lex_bracketed]
  exact hgroup

/-- Without a limit on nesting, and within it, a text in brackets is read as the group that they
enclose. -/
theorem Segment.parse_bracketed (h : Segment 0 (lex newlines text) items) :
    ofTokens (lex newlines text.bracketed) = .ok (enclosing text items) ∧
      parse newlines text.bracketed =
        if (enclosing text items).height ≤ nestingLimit then .ok (enclosing text items)
        else .error .tooDeep := by
  have htokens := h.bracketed.reads.ofTokens_eq
  refine ⟨htokens, ?_⟩
  rw [h.bracketed.parse_eq, Expr.highest_singleton, htokens]

theorem bare_moved (count deeper : Int) (e : Tree) : (e.moved count deeper).bare = e.bare :=
  Expr.bare_relabel e

theorem bare_enclosing (text : Text) (items : List Tree) (span : Span) (depth : Int) :
    (enclosing text items).bare = (Expr.group items span depth).bare := by
  rw [enclosing, Expr.bare_group_inj, List.map_map]
  exact List.map_congr_left fun e _ => bare_moved 1 1 e

theorem span_moved (count deeper : Int) (e : Tree) :
    Tree.span (e.moved count deeper) = (Tree.span e).shift count := by
  cases e with
  | foreign value => exact value.elim
  | _ => rfl

/-- The trees have the same text, and the second one stands one place further. -/
def OneFurther (n m : Tree) : Prop :=
  m.text = n.text ∧ Tree.span m = ⟨(Tree.span n).start + 1, (Tree.span n).stop + 1⟩

theorem oneFurther_nodesOf (items : List Tree) :
    List.Forall₂ OneFurther (Expr.nodesOf items)
      (Expr.nodesOf (items.map (Tree.moved 1 1))) := by
  have hnodes : Expr.nodesOf (items.map (Tree.moved 1 1)) =
      (Expr.nodesOf items).map (Tree.moved 1 1) :=
    Expr.nodesOf_map_relabel fun e _ => Expr.nodes_relabel e
  rw [hnodes, List.forall₂_map_right_iff, List.forall₂_same]
  exact fun n _ => ⟨Expr.text_relabel n, span_moved 1 1 n⟩

/-- Brackets around a text that is read as a tree make its nesting deeper by one. -/
theorem Segment.nesting_enclosing (h : Segment 0 (lex newlines text) items) :
    (enclosing text items).nesting = .ok (peak charStep text + 1) := by
  have hpeak := (lexes_lex newlines text.bracketed).peak_step
  have hnonneg := peak_nonneg charStep text
  have heven : (text.map charStep).sum = 0 := by
    rw [sum_charStep, ← (lexes_lex newlines text).sum_step, h.balanced.sum_step]
  rw [h.bracketed.nesting_eq, hpeak, Text.bracketed, peak, peak_append, heven]
  refine congrArg Except.ok ?_
  have hleft : charStep '(' = 1 := rfl
  have hright : peak charStep [')'] = 0 := rfl
  rw [hleft, hright]
  omega

theorem agree_evaluateWithin_of_bare_eq (h : e.bare = t.bare) (host : Host) (calls : Nat) :
    Agree (· = ·) (e.evaluateWithin host calls) (t.evaluateWithin host calls) := by
  have hbare : ∀ u : Tree, u.bare.valueWithin calls =
      (u.valueWithin calls).map (Except.mapError (EvalError.placed fun _ => 0)) := by
    intro u
    have hplaced : EvalError.placed (fun _ => 0) = EvalError.relabel fun _ => default :=
      funext EvalError.placed_eq_relabel
    rw [Expr.bare_eq_relabel, Expr.valueWithin_relabel, hplaced]
  refine agree_of_mapError (f := fun _ => 0) (g := fun _ => 0) ?_
  rw [Expr.mapError_evaluateWithin (hbare e), Expr.mapError_evaluateWithin (hbare t), h]

/-- What becomes of a tree when its text is put in brackets. -/
structure Bracketed (host : Host) (text : Text) (e t : Tree) : Prop where
  /-- A group that is written without brackets takes them for its own. -/
  implicit : ∀ items span, e = .group items span 0 →
    ∃ items', t = .group items' ⟨0, text.length + 2⟩ 1 ∧ t.same e = true ∧
      (∃ depth, e.nesting = .ok depth ∧ t.nesting = .ok (depth + 1)) ∧
      List.Forall₂ OneFurther (Expr.nodesOf items) (Expr.nodesOf items') ∧
      ∀ calls, Agree (· = ·) (e.evaluateWithin host calls) (t.evaluateWithin host calls)
  /-- Any other tree becomes the only item of a group. -/
  single : (∀ items span, e ≠ .group items span 0) →
    ∃ item, t = .group [item] ⟨0, text.length + 2⟩ 1 ∧ item.same e = true

theorem Segment.bracketed_implicit {span : Span} (h : Segment 0 (lex newlines text) items)
    (hnesting : (Expr.group items span 0).nesting = .ok (peak charStep text)) (host : Host) :
    Bracketed host text (.group items span 0) (enclosing text items) where
  implicit := by
    rintro _ _ ⟨⟩
    have hbare := bare_enclosing text items span 0
    exact ⟨_, rfl, Expr.same_iff.2 hbare, ⟨_, hnesting, h.nesting_enclosing⟩,
      oneFurther_nodesOf items, agree_evaluateWithin_of_bare_eq hbare.symm host⟩
  single hne := absurd rfl (hne items span)

theorem Segment.bracketed_single (h : Segment 0 (lex newlines text) [e]) (host : Host) :
    Bracketed host text e (enclosing text [e]) where
  implicit := by
    rintro items span rfl
    exact absurd (h.depth_of_mem List.mem_cons_self) (by decide)
  single _ := ⟨e.moved 1 1, rfl, Expr.same_iff.2 (bare_moved 1 1 e)⟩

/-- Outer brackets are optional: in brackets a text is read as the group that it is read as without
them, and if it is read as something else, as the group of that.  The brackets count towards the
limit on nesting. -/
theorem exists_bracketed (host : Host) (h : parse newlines text = .ok e) :
    ∃ t : Tree, ofTokens (lex newlines text.bracketed) = .ok t ∧
      (parse newlines text.bracketed =
        if t.height ≤ nestingLimit then .ok t else .error .tooDeep) ∧
      Bracketed host text e t := by
  rcases (reads_of_parse_eq_ok h).single_or_implicit with
    hsegment | ⟨items, rfl, -, hsegment, -⟩
  · obtain ⟨htokens, hparse⟩ := hsegment.parse_bracketed
    exact ⟨_, htokens, hparse, hsegment.bracketed_single host⟩
  · obtain ⟨htokens, hparse⟩ := hsegment.parse_bracketed
    exact ⟨_, htokens, hparse,
      hsegment.bracketed_implicit (nesting_of_parse_eq_ok h) host⟩

/-- The newline behind the `2` belongs to its literal, also with a bracket behind it. -/
theorem exists_bracketed_merged :
    ∃ e t : Tree, parse .merge "* (1) 2\n".toList = .ok e ∧ e.nesting = .ok 1 ∧
      parse .merge "(* (1) 2\n)".toList = .ok t ∧
      Bracketed .plain "* (1) 2\n".toList e t := by
  let product : Tree := .group [.literal ['*'] ⟨0, 1⟩, .group [.literal ['1'] ⟨3, 4⟩] ⟨2, 5⟩ 1,
    .literal ['2'] ⟨6, 8⟩] ⟨0, 8⟩ 0
  have hparse : parse .merge "* (1) 2\n".toList = .ok product := rfl
  obtain ⟨t, -, hread, hbracketed⟩ := exists_bracketed .plain hparse
  obtain ⟨_, -, hsame, -⟩ := hbracketed.implicit _ _ rfl
  have hheight : t.height ≤ nestingLimit := by
    rw [Expr.height_eq_of_bare_eq (Expr.same_iff.1 hsame)]
    decide
  rw [if_pos hheight] at hread
  exact ⟨product, t, hparse, rfl, hread, hbracketed⟩

/-- At the limit on nesting there is no room for the brackets of a group that is written without
them. -/
theorem not_bracketed_differences :
    ¬ ∀ newlines text items span, parse newlines text = .ok (.group items span 0) →
      ∃ t, parse newlines text.bracketed = .ok t := by
  intro hall
  obtain ⟨n, hlimit⟩ : ∃ n, nestingLimit = n + 1 := ⟨959, rfl⟩
  let items : List Tree := [.literal ['-'] default, differences n]
  let inside : Text := [' '].intercalate (items.map Expr.text)
  have hwrites : ∀ e ∈ items, Writes .separate e.text (Expr.kinds e) := by
    rw [List.forall_mem_cons, List.forall_mem_singleton]
    exact ⟨writes_literal unbroken_minus, (legible_differences n).writes⟩
  obtain ⟨items', -, -, hparse⟩ :=
    exists_parse_of_map_kind_eq_kindsOf (writes_items hwrites).map_kind_lex (Nat.le_refl 2)
  have hhigh : Expr.highest items = n + 1 := by
    simp only [items, Expr.highest, Expr.height, height_differences]
    omega
  rw [hhigh, hlimit, if_pos (Nat.le_refl _)] at hparse
  obtain ⟨t, ht⟩ := hall .separate inside items' _ hparse
  -- the text in brackets is that of the next higher tree
  have hbracketed : inside.bracketed = (differences (n + 1)).text := by
    rw [differences, Expr.text, Expr.texts_eq_map]
    rfl
  obtain ⟨_, -, -, hdeep⟩ := (legible_differences (n + 1)).exists_read .separate
  rw [height_differences, hlimit, if_neg (by omega), ← hbracketed, ht] at hdeep
  cases hdeep

end Tree

end BracketCalc
