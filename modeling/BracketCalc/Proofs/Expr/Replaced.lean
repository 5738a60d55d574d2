import BracketCalc.Proofs.Expr.Segment
/-!
# Replaced nodes

A node of a tree may be replaced by another tree, which leaves all other nodes as
they are.  The tokens that write the tree change at one stretch only, which is the
one that writes the node: what stands before and behind it stays.
-/

namespace BracketCalc

namespace Expr

/-- The second tree is the first one with `m` in the place of one node that is `n`. -/
inductive Replaced (n m : Tree) : Tree → Tree → Prop where
  | here : Replaced n m n m
  | inside {before behind : List Tree} {e e' : Tree} {span : Span} {depth : Int} :
      Replaced n m e e' →
      Replaced n m (.group (before ++ e :: behind) span depth)
        (.group (before ++ e' :: behind) span depth)

/-- In one of the items a node that is `n` is replaced. -/
def ReplacedItem (n m : Tree) (items items' : List Tree) : Prop :=
  ∃ before e e' behind, items = before ++ e :: behind ∧ items' = before ++ e' :: behind ∧
    Replaced n m e e'

variable {n m e e' : Tree} {items items' : List Tree} {span : Span} {depth : Int}

theorem ReplacedItem.group (h : ReplacedItem n m items items') :
    Replaced n m (.group items span depth) (.group items' span depth) := by
  obtain ⟨before, e, e', behind, rfl, rfl, he⟩ := h
  exact .inside he

theorem Replaced.head (h : Replaced n m e e') (rest : List Tree) :
    ReplacedItem n m (e :: rest) (e' :: rest) :=
  ⟨[], e, e', rest, rfl, rfl, h⟩

theorem ReplacedItem.cons (h : ReplacedItem n m items items') (first : Tree) :
    ReplacedItem n m (first :: items) (first :: items') := by
  obtain ⟨before, e, e', behind, rfl, rfl, he⟩ := h
  exact ⟨first :: before, e, e', behind, rfl, rfl, he⟩

theorem ReplacedItem.length_eq (h : ReplacedItem n m items items') :
    items'.length = items.length := by
  obtain ⟨before, e, e', behind, rfl, rfl, -⟩ := h
  simp

theorem ReplacedItem.exists_of_singleton (h : ReplacedItem n m [e] items') :
    ∃ e', items' = [e'] ∧ Replaced n m e e' := by
  obtain ⟨before, other, e', behind, heq, rfl, he⟩ := h
  obtain ⟨rfl, h⟩ | ⟨before, rfl, h⟩ := List.append_eq_cons_iff.1 heq.symm
  · cases h
    exact ⟨e', rfl, he⟩
  · simp at h

theorem highest_append (as bs : List Tree) :
    highest (as ++ bs) = max (highest as) (highest bs) := by
  induction as with
  | nil => exact (Nat.zero_max _).symm
  | cons e as ih => rw [List.cons_append, highest, highest, ih, Nat.max_assoc]

theorem highest_replace_le (h : e'.height ≤ e.height) (before behind : List Tree) :
    highest (before ++ e' :: behind) ≤ highest (before ++ e :: behind) := by
  rw [highest_append, highest_append, highest, highest]
  omega

/-- Replacing a node by a tree that is no higher does not make the whole higher. -/
theorem Replaced.height_le (h : Replaced n m e e') (hm : m.height ≤ n.height) :
    e'.height ≤ e.height := by
  induction h with
  | here => exact hm
  | inside _ ih =>
      rw [height, height]
      exact Nat.succ_le_succ (highest_replace_le ih ..)

theorem ReplacedItem.highest_le (h : ReplacedItem n m items items') (hm : m.height ≤ n.height) :
    highest items' ≤ highest items := by
  obtain ⟨before, e, e', behind, rfl, rfl, he⟩ := h
  exact highest_replace_le (he.height_le hm) ..

end Expr

namespace Tree

open Token

/-- Whichever tree stands in the place of the node, the tokens before and behind it are these. -/
def Surrounds (n : Tree) (items : List Tree) (front behind : List Token) : Prop :=
  ∀ m, ∃ items', Expr.ReplacedItem n m items items' ∧
    Expr.kindsOf items' = front.map Token.kind ++ (Expr.kinds m ++ behind.map Token.kind)

variable {depth : Int} {front stretch behind first rest : List Token} {n e : Tree}
  {items inner : List Tree} {opening closing : Token} {span : Span}

theorem Segment.surrounds_head (h : Segment depth rest items) :
    Surrounds n (n :: items) [] rest :=
  fun m => ⟨m :: items, Expr.Replaced.here.head items, by
    rw [Expr.kindsOf, h.map_kind, List.map_nil, List.nil_append]⟩

theorem Surrounds.cons (h : Surrounds n items front behind) (hfirst : Segment depth first [e]) :
    Surrounds n (e :: items) (first ++ front) behind := by
  intro m
  obtain ⟨items', hreplaced, hkinds⟩ := h m
  have hkind := hfirst.map_kind
  rw [Expr.kindsOf_singleton] at hkind
  refine ⟨e :: items', hreplaced.cons e, ?_⟩
  rw [Expr.kindsOf, hkinds, List.map_append, hkind, List.append_assoc]

theorem Surrounds.enclose (h : Surrounds n inner front behind) (hopening : opening.kind = .left)
    (hclosing : closing.kind = .right) (hrest : Segment depth rest items) :
    Surrounds n (.group inner span (depth + 1) :: items) (opening :: front)
      (behind ++ closing :: rest) := by
  intro m
  obtain ⟨inner', hreplaced, hkinds⟩ := h m
  refine ⟨.group inner' span (depth + 1) :: items, hreplaced.group.head items, ?_⟩
  rw [Expr.kindsOf, Expr.kinds, hkinds, ← hrest.map_kind]
  simp [hopening, hclosing]

/-- Each node inside a segment is read from a stretch of the tokens, and another tree in its place
would be read from its own tokens there. -/
theorem Segment.exists_stretch {tokens : List Token} (h : Segment depth tokens items)
    (hn : n ∈ Expr.nodesOf items) :
    ∃ front stretch behind deeper, tokens = front ++ (stretch ++ behind) ∧ depth ≤ deeper ∧
      Segment deeper stretch [n] ∧ Surrounds n items front behind := by
  induction h with
  | nil => cases hn
  | @literal depth letters place rest items hrest ih =>
      rw [Expr.nodesOf, Expr.nodes, List.singleton_append, List.mem_cons] at hn
      rcases hn with rfl | hn
      · exact ⟨[], [_], rest, depth, rfl, Int.le_refl _, .literal .nil, hrest.surrounds_head⟩
      · obtain ⟨front, stretch, behind, deeper, rfl, hdeeper, hstretch, hsurrounds⟩ := ih hn
        have hfirst : Segment depth [⟨.literal letters, place⟩] [.literal letters place] :=
          .literal .nil
        exact ⟨_ :: front, stretch, behind, deeper, rfl, hdeeper, hstretch,
          hsurrounds.cons hfirst⟩
  | @group depth opening closing inside rest inner items hopening hclosing hinside hrest ihInside
      ihRest =>
      have hfirst : Segment depth (opening :: (inside ++ [closing])) _ :=
        .group hopening hclosing hinside .nil
      rw [Expr.nodesOf, Expr.nodes, List.cons_append, List.mem_cons, List.mem_append] at hn
      rcases hn with rfl | hn | hn
      · exact ⟨[], _, rest, depth, by simp, Int.le_refl _, hfirst, hrest.surrounds_head⟩
      · obtain ⟨front, stretch, behind, deeper, rfl, hdeeper, hstretch, hsurrounds⟩ := ihInside hn
        exact ⟨opening :: front, stretch, behind ++ closing :: rest, deeper, by simp, by omega,
          hstretch, hsurrounds.enclose hopening hclosing hrest⟩
      · obtain ⟨front, stretch, behind, deeper, rfl, hdeeper, hstretch, hsurrounds⟩ := ihRest hn
        exact ⟨_, stretch, behind, deeper, by simp, hdeeper, hstretch, hsurrounds.cons hfirst⟩

end Tree

end BracketCalc
