import BracketCalc.Proofs.Expr.Placed
import BracketCalc.Proofs.Token.Kinds
/-!
# Errors of reading

Whether tokens form a tree, and which error they have if they do not, is decided
by their brackets and by whether there is a literal: `mishap` goes through the
brackets with the number of open groups.
-/

namespace BracketCalc

/-- The error without the place of its token. -/
def ParseError.unplaced (e : ParseError) : ParseError := e.placed fun _ => 0

namespace Tree

/-- A token of the kind, at no place. -/
def anyToken (kind : TokenKind) : Token := ⟨kind, ⟨0, 0⟩⟩

/-- The first error in the kinds of tokens, when so many groups are open before them. -/
def mishap (limit opened : Nat) : List TokenKind → Option ParseError
  | [] => if opened = 0 then none else some (.unclosed (anyToken .left))
  | .literal _ :: rest => mishap limit opened rest
  | .left :: rest => if limit ≤ opened then some .tooDeep else mishap limit (opened + 1) rest
  | .right :: rest =>
      if opened = 0 then some (.surplusRight (anyToken .right)) else mishap limit (opened - 1) rest
  | .other :: _ => some (.unknownToken (anyToken .other))

/-- The error of tokens of the kinds. -/
def errorOf (kinds : List TokenKind) : Option ParseError :=
  match kinds with
  | [] => some .noTokens
  | [.literal _] => none
  | [kind] => some (.loneToken (anyToken kind))
  | kinds => mishap nestingLimit 0 kinds

theorem map_placed_zero (tokens : List Token) :
    tokens.map (Token.placed fun _ => 0) = (tokens.map Token.kind).map anyToken := by
  rw [List.map_map]
  rfl

/-- Texts whose tokens have the same kinds are read as the same but for the places. -/
theorem parse_of_map_kind {newlines newlines' : Newlines} {a b : Text}
    (h : (Token.lex newlines a).map Token.kind = (Token.lex newlines' b).map Token.kind) :
    placedResult (fun _ => 0) (parse newlines a) =
      placedResult (fun _ => 0) (parse newlines' b) :=
  parse_placed (by rw [map_placed_zero, map_placed_zero, h])

/-- The error that came of reading, if one did. -/
def error? : Except ParseError Tree → Option ParseError
  | .error e => some e.unplaced
  | .ok _ => none

/-- All open groups have a left bracket, except for the outermost. -/
inductive Stacked : OpenGroup → List OpenGroup → Prop where
  | outermost {items : List Tree} : Stacked ⟨none, 0, items⟩ []
  | inside {opening : Token} {depth : Int} {items : List Tree} {next : OpenGroup}
      {outer : List OpenGroup} :
      opening.kind = .left → 0 ≤ depth → Stacked next outer →
      Stacked ⟨some opening, depth, items⟩ (next :: outer)

variable {inner : OpenGroup} {outer : List OpenGroup}
  {tokens : List Token}

theorem Stacked.push (h : Stacked inner outer) (item : Tree) : Stacked (inner.push item) outer := by
  cases h with
  | outermost => exact .outermost
  | inside hopening hdepth hnext => exact .inside hopening hdepth hnext

theorem Stacked.depth_nonneg (h : Stacked inner outer) : 0 ≤ inner.depth := by
  cases h with
  | outermost => exact Int.le_refl 0
  | inside _ hdepth _ => exact hdepth

theorem Stacked.deeper {opening : Token} (h : Stacked inner outer)
    (hopening : opening.kind = .left) : Stacked (inner.inside opening) (inner :: outer) := by
  have hdepth := h.depth_nonneg
  rw [OpenGroup.inside, if_pos hdepth]
  exact .inside hopening (by omega) h

/-- Reading meets the first error, unless the limit on nesting is met before. -/
theorem error?_fill (limit : Nat) (whole : Span) (h : Stacked inner outer) (tokens : List Token) :
    (if exceeds limit 0 outer.length tokens then some .tooDeep
      else error? (fill whole inner outer tokens).1) =
      mishap limit outer.length (tokens.map Token.kind) := by
  induction tokens generalizing inner outer with
  | nil =>
      cases h with
      | outermost => rfl
      | @inside opening _ _ _ _ hopening _ _ =>
          obtain ⟨kind, span⟩ := opening
          subst hopening
          simp [exceeds, fill, mishap, error?, ParseError.unplaced, ParseError.placed, Token.placed,
            Span.placed, anyToken]
  | cons t rest ih =>
      obtain ⟨kind, span⟩ := t
      cases kind with
      | literal text => exact ih (h.push _)
      | left =>
          have hdeeper : Stacked (inner.inside ⟨.left, span⟩) (inner :: outer) := h.deeper rfl
          have hrest := ih hdeeper
          rw [List.length_cons] at hrest
          rw [List.map_cons, mishap, exceeds, fill_left rfl]
          by_cases hfull : limit ≤ outer.length
          · simp [hfull]
          · simpa [hfull] using hrest
      | right =>
          cases h with
          | outermost => rfl
          | @inside opening depth items next outer _ _ hnext =>
              rw [List.map_cons, mishap, exceeds, fill_right_inside rfl, List.length_cons]
              simpa using ih (hnext.push _)
      | other => rfl

theorem error?_map_unwrap (result : Except ParseError Tree) :
    error? (result.map unwrap) = error? result := by
  cases result <;> rfl

theorem errorOf_of_two_le {kinds : List TokenKind} (h : 2 ≤ kinds.length) :
    errorOf kinds = mishap nestingLimit 0 kinds := by
  match kinds, h with
  | a :: b :: rest, _ => rw [errorOf] <;> simp

/-- The kinds of its tokens decide which error a text has, if any. -/
theorem error?_parse (newlines : Newlines) (text : Text) :
    error? (parse newlines text) = errorOf ((Token.lex newlines text).map Token.kind) := by
  generalize htokens : Token.lex newlines text = tokens
  by_cases htwo : 2 ≤ tokens.length
  · have houtermost : Stacked ⟨none, 0, []⟩ [] := .outermost
    have hfill := error?_fill nestingLimit (wholeSpan tokens) houtermost tokens
    rw [errorOf_of_two_le (by simpa using htwo)]
    rw [← error?_map_unwrap, ← ofTokens_eq_fill htwo] at hfill
    rw [List.length_nil] at hfill
    rw [← hfill]
    cases hexceeds : exceeds nestingLimit 0 0 tokens with
    | true =>
        rw [parse_eq_tooDeep_of_exceeds (htokens ▸ hexceeds)]
        rfl
    | false =>
        rw [parse_eq_ofTokens (htokens ▸ hexceeds), htokens]
        rfl
  · have hread : exceeds nestingLimit 0 0 tokens = false → parse newlines text = ofTokens tokens :=
      fun hexceeds => htokens ▸ parse_eq_ofTokens (htokens ▸ hexceeds)
    match tokens with
    | [] => rw [hread rfl]; rfl
    | [⟨.literal text, span⟩] => rw [hread rfl]; rfl
    | [⟨.left, span⟩] => rw [hread rfl]; rfl
    | [⟨.right, span⟩] => rw [hread rfl]; rfl
    | [⟨.other, span⟩] => rw [hread rfl]; rfl
    | _ :: _ :: _ => simp at htwo

/-! ### Brackets -/

theorem mishap_brackets (limit opened : Nat) (kinds : List TokenKind) :
    mishap limit opened (Token.brackets kinds) = mishap limit opened kinds := by
  induction kinds generalizing opened with
  | nil => rfl
  | cons kind rest ih =>
      cases kind with
      | literal text => exact ih opened
      | left =>
          have hcons : Token.brackets (.left :: rest) = .left :: Token.brackets rest := rfl
          rw [hcons, mishap, mishap, ih]
      | right =>
          have hcons : Token.brackets (.right :: rest) = .right :: Token.brackets rest := rfl
          rw [hcons, mishap, mishap, ih]
      | other => rfl

theorem errorOf_of_literals {kinds : List TokenKind} (h : Token.literals kinds ≠ 0) :
    errorOf kinds = mishap nestingLimit 0 (Token.brackets kinds) := by
  match kinds with
  | [] => exact absurd rfl h
  | [.literal text] => rfl
  | [.left] => exact absurd rfl h
  | [.right] => exact absurd rfl h
  | [.other] => exact absurd rfl h
  | _ :: _ :: _ => rw [errorOf_of_two_le (by simp), mishap_brackets]

/-- The brackets, and whether there are literals, decide the error. -/
theorem errorOf_congr {as bs : List TokenKind} (hbrackets : Token.brackets as = Token.brackets bs)
    (hliterals : Token.literals as = 0 ↔ Token.literals bs = 0) : errorOf as = errorOf bs := by
  by_cases h : Token.literals as = 0
  · rw [Token.brackets_of_no_literals h, Token.brackets_of_no_literals (hliterals.1 h)] at hbrackets
    rw [hbrackets]
  · rw [errorOf_of_literals h, errorOf_of_literals (mt hliterals.2 h), hbrackets]

end Tree

end BracketCalc
