import BracketCalc.Expr.OfTokens
import BracketCalc.Proofs.Expr.Shape
import BracketCalc.Proofs.Token.Brackets
/-!
# What balanced tokens write

Balanced tokens write a sequence of items: a literal for each token that is no
bracket, and a group for each pair of brackets with what it encloses.  Reading
them adds these items to the innermost open group and changes nothing else,
whatever groups are open around it and whatever tokens follow.

* `Segment.fill_append`: the step of reading, for a whole segment at once;
* `exists_segment`: all balanced tokens are a segment;
* `exists_segment_of_map_kind_eq_kindsOf`: the kinds of the tokens decide the
  items, up to spans and depths.
-/

namespace BracketCalc

/-- The group with further items behind those it has. -/
def OpenGroup.pushAll (group : OpenGroup) (items : List Tree) : OpenGroup :=
  ⟨group.opening, group.depth, items.reverse ++ group.items⟩

theorem OpenGroup.pushAll_cons (group : OpenGroup) (item : Tree) (items : List Tree) :
    group.pushAll (item :: items) = (group.push item).pushAll items := by
  simp [pushAll, push]

namespace Tree

open Token

/-- The items that a stretch of tokens writes inside brackets of the given depth. -/
inductive Segment : Int → List Token → List Tree → Prop where
  | nil {depth : Int} : Segment depth [] []
  | literal {depth : Int} {text : Text} {span : Span} {rest : List Token} {items : List Tree} :
      Segment depth rest items →
      Segment depth (⟨.literal text, span⟩ :: rest) (.literal text span :: items)
  | group {depth : Int} {opening closing : Token} {inside rest : List Token}
      {inner items : List Tree} :
      opening.kind = .left → closing.kind = .right →
      Segment (depth + 1) inside inner → Segment depth rest items →
      Segment depth (opening :: (inside ++ closing :: rest))
        (.group inner ⟨opening.span.start, closing.span.stop⟩ (depth + 1) :: items)

variable {depth : Int} {tokens front rest inside : List Token} {items : List Tree}
  {opening closing : Token} {whole : Span} {inner : OpenGroup} {outer : List OpenGroup}

/-! ### Steps of reading -/

theorem fill_literal {text : Text} {span : Span} :
    fill whole inner outer (⟨.literal text, span⟩ :: rest) =
      fill whole (inner.push (.literal text span)) outer rest := rfl

theorem fill_left (h : opening.kind = .left) :
    fill whole inner outer (opening :: rest) =
      fill whole (inner.inside opening) (inner :: outer) rest := by
  obtain ⟨kind, span⟩ := opening
  subst h
  rfl

theorem fill_right_inside {next : OpenGroup} {depth : Int} {items : List Tree}
    (h : closing.kind = .right) :
    fill whole ⟨some opening, depth, items⟩ (next :: outer) (closing :: rest) =
      fill whole
        (next.push (.group items.reverse ⟨opening.span.start, closing.span.stop⟩ depth)) outer
        rest := by
  obtain ⟨kind, span⟩ := closing
  subst h
  rfl

/-- Reading a segment adds its items to the innermost open group. -/
theorem Segment.fill_append (h : Segment depth tokens items) (hdepth : 0 ≤ depth)
    (hinner : inner.depth = depth) :
    fill whole inner outer (tokens ++ rest) = fill whole (inner.pushAll items) outer rest := by
  induction h generalizing inner outer rest with
  | nil => rfl
  | @literal depth text span behind items _ ih =>
      calc fill whole inner outer (⟨.literal text, span⟩ :: behind ++ rest)
          = fill whole (inner.push (.literal text span)) outer (behind ++ rest) := fill_literal
        _ = fill whole ((inner.push (.literal text span)).pushAll items) outer rest :=
            ih hdepth hinner
        _ = _ := by rw [OpenGroup.pushAll_cons]
  | @group depth opening closing inside behind enclosed items hopening hclosing _ _ ihInside
      ihRest =>
      have hinside : inner.inside opening = ⟨some opening, depth + 1, []⟩ := by
        rw [OpenGroup.inside, if_pos (by omega), hinner]
      let made : Tree :=
        .group enclosed ⟨opening.span.start, closing.span.stop⟩ (depth + 1)
      calc fill whole inner outer (opening :: (inside ++ closing :: behind) ++ rest)
          = fill whole ⟨some opening, depth + 1, []⟩ (inner :: outer)
              (inside ++ closing :: (behind ++ rest)) := by
            rw [List.cons_append, List.append_assoc, fill_left hopening, hinside]
            rfl
        _ = fill whole ⟨some opening, depth + 1, enclosed.reverse ++ []⟩ (inner :: outer)
              (closing :: (behind ++ rest)) := ihInside (by omega) rfl
        _ = fill whole (inner.push made) outer (behind ++ rest) := by
            rw [List.append_nil, fill_right_inside hclosing, List.reverse_reverse]
        _ = fill whole ((inner.push made).pushAll items) outer rest := ihRest hdepth hinner
        _ = _ := by rw [OpenGroup.pushAll_cons]

theorem Segment.fill_to_end (h : Segment depth tokens items) (hdepth : 0 ≤ depth)
    (hinner : inner.depth = depth) :
    fill whole inner outer tokens = fill whole (inner.pushAll items) outer [] := by
  have hfill : fill whole inner outer (tokens ++ []) = _ := h.fill_append hdepth hinner
  rwa [List.append_nil] at hfill

/-! ### Tokens of segments -/

theorem Segment.append {others : List Tree} (h : Segment depth front items)
    (hrest : Segment depth rest others) : Segment depth (front ++ rest) (items ++ others) := by
  induction h with
  | nil => exact hrest
  | literal _ ih => exact .literal (ih hrest)
  | group hopening hclosing hinside _ _ ih =>
      rw [List.cons_append, List.append_assoc]
      exact .group hopening hclosing hinside (ih hrest)

theorem Segment.balanced (h : Segment depth tokens items) : Balanced tokens := by
  induction h with
  | nil => exact balanced_nil
  | @literal depth text span rest items _ ih =>
      have hsingle : Balanced [(⟨.literal text, span⟩ : Token)] := balanced_singleton nofun nofun
      exact hsingle.append ih
  | group hopening hclosing _ _ ihInside ihRest =>
      rw [List.append_cons, ← List.cons_append]
      exact (ihInside.enclose hopening hclosing).append ihRest

theorem Segment.eq_nil (h : Segment depth tokens []) : tokens = [] := by
  cases h
  rfl

theorem Segment.enclosed {enclosed : List Tree} {span : Span} {deeper : Int}
    (h : Segment depth tokens [.group enclosed span deeper]) : Enclosed tokens := by
  cases h with
  | @group _ opening closing inside rest _ _ hopening hclosing hinside hrest =>
      rw [hrest.eq_nil]
      exact ⟨opening, inside, closing, rfl, hopening, hinside.balanced, hclosing⟩

theorem exists_segment (h : Balanced tokens) (hknown : Known tokens) (depth : Int) :
    ∃ items, Segment depth tokens items := by
  induction h using Balanced.induction generalizing depth with
  | nil => exact ⟨[], .nil⟩
  | single t rest _ _ hleft hright ih =>
      obtain ⟨hother, hrest⟩ := known_cons.1 hknown
      obtain ⟨items, hitems⟩ := ih hrest depth
      obtain ⟨_ | _ | text | _, span⟩ := t
      · exact absurd rfl hleft
      · exact absurd rfl hright
      · exact ⟨_, .literal hitems⟩
      · exact absurd rfl hother
  | group opening inside closing rest _ _ _ hopening hclosing ihInside ihRest =>
      obtain ⟨-, hbehind⟩ := known_cons.1 hknown
      obtain ⟨hinside, hbehind⟩ := known_append.1 hbehind
      obtain ⟨enclosed, henclosed⟩ := ihInside hinside (depth + 1)
      obtain ⟨items, hitems⟩ := ihRest (known_cons.1 hbehind).2 depth
      exact ⟨_, .group hopening hclosing henclosed hitems⟩

/-- Tokens without a surplus bracket are read to their end, which leaves some groups open. -/
theorem exists_fill_append (h : NoSurplus front) (hknown : Known front) (hdepth : 0 ≤ inner.depth) :
    ∃ inner' outer', 0 ≤ inner'.depth ∧
      ∀ rest, fill whole inner outer (front ++ rest) = fill whole inner' outer' rest := by
  induction hlength : front.length using Nat.strong_induction_on generalizing front inner outer with
  | _ n ih =>
      rcases balanced_or_closed_or_unclosed front with hfront | hfront | hfront
      · obtain ⟨items, hitems⟩ := exists_segment hfront hknown inner.depth
        exact ⟨inner.pushAll items, outer, hdepth, fun _ => hitems.fill_append hdepth rfl⟩
      · exact absurd hfront h.not_closed
      · obtain ⟨before, opening, inside, rfl, hbefore, hopening, hinside⟩ := hfront
        obtain ⟨hknownBefore, hknownRest⟩ := known_append.1 hknown
        have hfewer : before.length < n := by simp at hlength; omega
        obtain ⟨inner', outer', hdepth', hread⟩ := ih _ hfewer hbefore hknownBefore hdepth rfl
        obtain ⟨items, hitems⟩ :=
          exists_segment hinside (known_cons.1 hknownRest).2 (inner'.depth + 1)
        have hdeeper : 0 ≤ inner'.depth + 1 := by omega
        refine ⟨(inner'.inside opening).pushAll items, inner' :: outer', hdeeper, fun rest => ?_⟩
        rw [List.append_assoc, hread, List.cons_append, fill_left hopening]
        exact hitems.fill_append hdeeper rfl

/-! ### Kinds of tokens -/

theorem Segment.map_kind (h : Segment depth tokens items) :
    tokens.map Token.kind = Expr.kindsOf items := by
  induction h with
  | nil => rfl
  | literal _ ih => simp [Expr.kindsOf, Expr.kinds, ih]
  | group hopening hclosing _ _ ihInside ihRest =>
      simp [Expr.kindsOf, Expr.kinds, ihInside, ihRest, hopening, hclosing]

private theorem exists_segment_of_each {items : List Tree}
    (heach : ∀ e ∈ items, ∀ {tokens : List Token} (depth : Int),
      tokens.map Token.kind = e.kinds → ∃ e', Segment depth tokens [e'] ∧ e'.bare = e.bare)
    (depth : Int) (h : tokens.map Token.kind = Expr.kindsOf items) :
    ∃ items', Segment depth tokens items' ∧ items'.map Expr.bare = items.map Expr.bare := by
  induction items generalizing tokens with
  | nil =>
      rw [Expr.kindsOf, List.map_eq_nil_iff] at h
      exact ⟨[], h ▸ .nil, rfl⟩
  | cons e items ih =>
      rw [Expr.kindsOf, List.map_eq_append_iff] at h
      obtain ⟨front, rest, rfl, hfront, hrest⟩ := h
      obtain ⟨e', he', hbare⟩ := heach e List.mem_cons_self depth hfront
      obtain ⟨items', hitems', hbares⟩ :=
        ih (fun other hother => heach other (List.mem_cons_of_mem e hother)) hrest
      exact ⟨e' :: items', he'.append hitems', by rw [List.map_cons, List.map_cons, hbare, hbares]⟩

theorem exists_segment_of_map_kind_eq_kinds (e : Tree) {tokens : List Token} (depth : Int)
    (h : tokens.map Token.kind = e.kinds) : ∃ e', Segment depth tokens [e'] ∧ e'.bare = e.bare := by
  induction e using Expr.induction generalizing tokens depth with
  | literal text span =>
      obtain ⟨⟨kind, place⟩, rfl, hkind⟩ := List.map_eq_singleton_iff.1 h
      cases hkind
      exact ⟨.literal text place, .literal .nil, rfl⟩
  | group items span outer ih =>
      rw [Expr.kinds, List.map_eq_cons_iff] at h
      obtain ⟨opening, rest, rfl, hopening, hrest⟩ := h
      obtain ⟨inside, last, rfl, hinside, hlast⟩ := List.map_eq_append_iff.1 hrest
      obtain ⟨closing, rfl, hclosing⟩ := List.map_eq_singleton_iff.1 hlast
      obtain ⟨items', hitems', hbares⟩ := exists_segment_of_each ih (depth + 1) hinside
      exact ⟨_, .group hopening hclosing hitems' .nil, Expr.bare_group_inj.2 hbares⟩
  | foreign value => exact nomatch value

/-- The kinds of tokens decide the bare items that they write. -/
theorem exists_segment_of_map_kind_eq_kindsOf (depth : Int)
    (h : tokens.map Token.kind = Expr.kindsOf items) :
    ∃ items', Segment depth tokens items' ∧ items'.map Expr.bare = items.map Expr.bare :=
  exists_segment_of_each (fun e _ _ depth h => exists_segment_of_map_kind_eq_kinds e depth h)
    depth h

end Tree

end BracketCalc
