import BracketCalc.Expr.Layout
import BracketCalc.Proofs.Expr.Reading
import BracketCalc.Proofs.Expr.Relabelled
/-!
# Expressions at other places

Reading looks at the kinds of tokens and not at where they stand.  So when the
tokens of two texts have the same kinds, and their starts are sent to the same
numbers, the same comes of both texts: trees whose nodes, or errors whose tokens,
have starts that are sent to the same numbers.

Spans keep no end here, and the number of an offset may be its line, or nothing
at all.
-/

namespace BracketCalc

/-- The span with the number of its start. -/
def Span.placed (f : Int → Int) (span : Span) : Span := ⟨f span.start, 0⟩

def Token.placed (f : Int → Int) (t : Token) : Token := ⟨t.kind, t.span.placed f⟩

namespace Expr

mutual

def placed (f : Int → Int) : Tree → Tree
  | literal text span => literal text (span.placed f)
  | group items span depth => group (placedItems f items) (span.placed f) depth
  | foreign value => foreign value

def placedItems (f : Int → Int) : List Tree → List Tree
  | [] => []
  | e :: rest => placed f e :: placedItems f rest

end

@[simp] theorem placedItems_eq_map (f : Int → Int) (items : List Tree) :
    placedItems f items = items.map (placed f) := by
  induction items with
  | nil => rfl
  | cons e rest ih => rw [placedItems, ih, List.map_cons]

end Expr

/-- The error with the numbers of its tokens. -/
def ParseError.placed (f : Int → Int) : ParseError → ParseError
  | loneToken t => loneToken (t.placed f)
  | surplusRight t => surplusRight (t.placed f)
  | unclosed t => unclosed (t.placed f)
  | unknownToken t => unknownToken (t.placed f)
  | noTokens => noTokens
  | noToken => noToken
  | unopened => unopened
  | tooDeep => tooDeep

def OpenGroup.placed (f : Int → Int) (group : OpenGroup) : OpenGroup :=
  ⟨group.opening.map (Token.placed f), group.depth, group.items.map (Expr.placed f)⟩

namespace Tree

/-- What comes of reading, with the numbers of its places. -/
def placedResult (f : Int → Int) : Except ParseError Tree → Except ParseError Tree
  | .error e => .error (e.placed f)
  | .ok t => .ok (t.placed f)

variable {f g : Int → Int} {tokens : List Token} {newlines newlines' : Newlines} {a b : Text}

@[simp] theorem close_placed (group : OpenGroup) (span : Span) :
    (group.placed f).close (span.placed f) = (group.close span).placed f := by
  simp [OpenGroup.close, OpenGroup.placed, Expr.placed]

@[simp] theorem push_placed (group : OpenGroup) (item : Tree) :
    (group.placed f).push (item.placed f) = (group.push item).placed f := rfl

@[simp] theorem inside_placed (outer : OpenGroup) (opening : Token) :
    (outer.placed f).inside (opening.placed f) = (outer.inside opening).placed f := by
  unfold OpenGroup.inside OpenGroup.placed
  split <;> simp_all

theorem closeAll_placed (whole : Span) (inner : OpenGroup) (outer : List OpenGroup) :
    closeAll (whole.placed f) (inner.placed f) (outer.map (OpenGroup.placed f)) =
      (closeAll whole inner outer).placed f := by
  unfold closeAll
  rw [close_placed]
  generalize inner.close whole = tree
  induction outer generalizing tree with
  | nil => rfl
  | cons group outer ih => simp [ih]

/-- Reading does the same at other places. -/
theorem fill_placed (whole : Span) (inner : OpenGroup) (outer : List OpenGroup)
    (tokens : List Token) :
    (fill (whole.placed f) (inner.placed f) (outer.map (OpenGroup.placed f))
      (tokens.map (Token.placed f))).1 = placedResult f (fill whole inner outer tokens).1 := by
  induction tokens generalizing inner outer with
  | nil =>
      rw [List.map_nil, fill, fill]
      cases hopening : inner.opening with
      | none => simp [OpenGroup.placed, hopening, placedResult, ← closeAll_placed]
      | some opening => simp [OpenGroup.placed, hopening, placedResult, ParseError.placed]
  | cons t rest ih =>
      obtain ⟨kind, span⟩ := t
      rw [List.map_cons]
      cases kind with
      | literal text => exact ih (inner.push (.literal text span)) outer
      | left =>
          rw [fill_left rfl, fill_left rfl, inside_placed]
          exact ih (inner.inside _) (inner :: outer)
      | right =>
          obtain ⟨opening, depth, items⟩ := inner
          cases opening with
          | none =>
              by_cases hdepth : depth = 0
              · simp [fill, OpenGroup.placed, Token.placed, placedResult, ParseError.placed, hdepth]
              · simp [fill, OpenGroup.placed, Token.placed, placedResult, ParseError.placed, hdepth]
          | some opening =>
              have hclose := close_placed (f := f) ⟨some opening, depth, items⟩
                ⟨opening.span.start, span.stop⟩
              cases outer with
              | nil => exact congrArg Except.ok hclose
              | cons next outer =>
                  have hnext := ih (next.push (OpenGroup.close ⟨some opening, depth, items⟩
                    ⟨opening.span.start, span.stop⟩)) outer
                  rw [← push_placed, ← hclose] at hnext
                  exact hnext
      | other => rfl

theorem unwrap_placed (t : Tree) : unwrap (t.placed f) = (unwrap t).placed f := by
  match t with
  | .literal _ _ => rfl
  | .foreign value => exact nomatch value
  | .group [] _ _ => rfl
  | .group [.literal _ _] _ _ => rfl
  | .group [.foreign value] _ _ => exact nomatch value
  | .group (_ :: _ :: _) _ _ => simp [unwrap, Expr.placed]
  | .group [.group _ _ _] _ depth =>
      by_cases h : depth = 0
      · simp [unwrap, Expr.placed, h]
      · simp [unwrap, Expr.placed, h]

theorem map_unwrap_placedResult (result : Except ParseError Tree) :
    (placedResult f result).map unwrap = placedResult f (result.map unwrap) := by
  cases result with
  | error e => rfl
  | ok t => exact congrArg Except.ok (unwrap_placed t)

theorem wholeSpan_placed (h : tokens ≠ []) :
    wholeSpan (tokens.map (Token.placed f)) = (wholeSpan tokens).placed f := by
  have hfirst := List.head?_eq_some_head h
  have hlast := List.getLast?_eq_some_getLast h
  simp [wholeSpan, hfirst, hlast, Token.placed, Span.placed]

theorem ofTokens_placed (tokens : List Token) :
    ofTokens (tokens.map (Token.placed f)) = placedResult f (ofTokens tokens) := by
  match tokens with
  | [] => rfl
  | [⟨.literal _, _⟩] => rfl
  | [⟨.left, _⟩] => rfl
  | [⟨.right, _⟩] => rfl
  | [⟨.other, _⟩] => rfl
  | s :: t :: rest =>
      rw [ofTokens_eq_fill (by simp), ofTokens_eq_fill (by simp), wholeSpan_placed (by simp),
        ← map_unwrap_placedResult, ← fill_placed]
      rfl

theorem exceeds_placed (limit floor opened : Nat) (tokens : List Token) :
    exceeds limit floor opened (tokens.map (Token.placed f)) =
      exceeds limit floor opened tokens := by
  induction tokens generalizing opened with
  | nil => rfl
  | cons t rest ih =>
      rw [List.map_cons, exceeds, exceeds]
      simp only [Token.placed, ih]

/-- Texts with the same tokens, up to places, are read as the same, up to places. -/
theorem parse_placed
    (h : (Token.lex newlines a).map (Token.placed f) =
      (Token.lex newlines' b).map (Token.placed g)) :
    placedResult f (parse newlines a) = placedResult g (parse newlines' b) := by
  have hexceeds : exceeds nestingLimit 0 0 (Token.lex newlines a) =
      exceeds nestingLimit 0 0 (Token.lex newlines' b) := by
    rw [← exceeds_placed (f := f), h, exceeds_placed]
  cases hdeep : exceeds nestingLimit 0 0 (Token.lex newlines a) with
  | true =>
      rw [parse_eq_tooDeep_of_exceeds hdeep, parse_eq_tooDeep_of_exceeds (hexceeds ▸ hdeep)]
      rfl
  | false =>
      rw [parse_eq_ofTokens hdeep, parse_eq_ofTokens (hexceeds ▸ hdeep), ← ofTokens_placed, h,
        ofTokens_placed]

end Tree

/-! ### What does not depend on places -/

namespace Expr

variable {f : Int → Int}

theorem placed_eq_relabel (e : Tree) : e.placed f = e.relabel (Span.placed f) id := by
  induction e using Expr.induction with
  | literal text span => rfl
  | group items span depth ih =>
      rw [placed, relabel, placedItems_eq_map, relabelItems_eq_map, List.map_congr_left ih]
      rfl
  | foreign value => cases value

theorem bare_placed (e : Tree) : (e.placed f).bare = e.bare := by
  rw [placed_eq_relabel, bare_relabel]

theorem text_placed (e : Tree) : (e.placed f).text = e.text := by
  rw [placed_eq_relabel, text_relabel]

theorem deepest_map_placed {items : List Tree} (h : ∀ e ∈ items, (e.placed f).nesting = e.nesting)
    (least : Int) : deepest least (items.map (placed f)) = deepest least items := by
  induction items generalizing least with
  | nil => rfl
  | cons e rest ih =>
      obtain ⟨he, hrest⟩ := List.forall_mem_cons.1 h
      rw [List.map_cons, deepest, deepest, he]
      cases e.nesting with
      | error value => rfl
      | ok depth => exact ih hrest (max least depth)

theorem nesting_placed (e : Tree) : (e.placed f).nesting = e.nesting := by
  induction e using Expr.induction with
  | literal text span => rfl
  | group items span depth ih =>
      rw [placed, nesting, nesting, placedItems_eq_map, deepest_map_placed ih]
  | foreign value => exact nomatch value

theorem render_placed (highlight : Text → Text) (indent : Int) (e : Tree) :
    (e.placed f).render highlight indent = e.render highlight indent := by
  induction e using Expr.induction generalizing indent with
  | literal text span => rfl
  | group items span depth ih =>
      have hlines : (items.map (placed f)).flatMap (render highlight (indent + 1)) =
          items.flatMap (render highlight (indent + 1)) := by
        rw [List.flatMap_map]
        exact List.flatMap_congr fun e he => ih e he (indent + 1)
      rw [placed, render, render, renderItems_eq_flatMap, renderItems_eq_flatMap,
        placedItems_eq_map, hlines]
  | foreign value => exact nomatch value

end Expr

end BracketCalc
