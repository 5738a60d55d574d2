import BracketCalc.Expr.Basic
import BracketCalc.Token.Lexer
/-!
# From tokens to trees

A single literal is a tree.  All other tokens form a group that is written
without brackets, unless they are one bracketed group, which is then the tree
itself.  Tokens fail to form a tree at the first right bracket that closes
nothing, and else at the last left bracket that is never closed.

Groups may be nested only so deeply; the limit is met before any later
bracket is looked at.
-/

namespace BracketCalc

/-- Why tokens form no tree.  Only a reading that does not start with all tokens at depth zero may
find no token at its cursor, or a right bracket that closes a group below depth zero. -/
inductive ParseError where
  | noTokens
  | loneToken (token : Token)
  | surplusRight (token : Token)
  | unclosed (opening : Token)
  | unknownToken (token : Token)
  | noToken
  | unopened
  | tooDeep
  deriving DecidableEq, Repr

/-- A group that is being read: the bracket that opened it, its depth, and its items, the latest
first.  Down to depth zero groups have no bracket of their own. -/
structure OpenGroup where
  opening : Option Token
  depth : Int
  items : List Tree

namespace OpenGroup

def push (group : OpenGroup) (item : Tree) : OpenGroup :=
  ⟨group.opening, group.depth, item :: group.items⟩

/-- The group that a bracket opens inside another one. -/
def inside (outer : OpenGroup) (opening : Token) : OpenGroup :=
  ⟨if 0 ≤ outer.depth then some opening else none, outer.depth + 1, []⟩

def close (group : OpenGroup) (span : Span) : Tree :=
  .group group.items.reverse span group.depth

end OpenGroup

namespace Tree

/-- What came of reading a group: the group or an error, and the tokens not looked at. -/
abbrev Reading := Except ParseError Tree × List Token

/-- The outermost of the open groups, when all of them end with the same span. -/
def closeAll (span : Span) (inner : OpenGroup) (outer : List OpenGroup) : Tree :=
  outer.foldl (fun tree group => (group.push tree).close span) (inner.close span)

/-- Reads tokens into the innermost open group, up to the end of the outermost one.  `whole` is the
span of the groups that end with the tokens. -/
def fill (whole : Span) (inner : OpenGroup) (outer : List OpenGroup) : List Token → Reading
  | [] =>
      match inner.opening with
      | none => (.ok (closeAll whole inner outer), [])
      | some opening => (.error (.unclosed opening), [])
  | token :: rest =>
      match token.kind with
      | .literal text => fill whole (inner.push (.literal text token.span)) outer rest
      | .left => fill whole (inner.inside token) (inner :: outer) rest
      | .right =>
          match inner.opening, outer with
          | none, _ => (.error (if inner.depth = 0 then .surplusRight token else .unopened), rest)
          | some opening, [] => (.ok (inner.close ⟨opening.span.start, token.span.stop⟩), rest)
          | some opening, next :: outer =>
              fill whole (next.push (inner.close ⟨opening.span.start, token.span.stop⟩)) outer rest
      | .other => (.error (.unknownToken token), rest)

/-- The span from the first token to the last. -/
def wholeSpan (tokens : List Token) : Span :=
  match tokens.head?, tokens.getLast? with
  | some first, some last => ⟨first.span.start, last.span.stop⟩
  | _, _ => ⟨0, 0⟩

/-- The tokens from a cursor on.  A negative cursor counts from their end, and all tokens are read
once more behind it. -/
def tokensFrom? (tokens : List Token) (cursor : Int) : Option (List Token) :=
  if 0 ≤ cursor then some (tokens.drop cursor.toNat)
  else if 0 ≤ tokens.length + cursor then
    some (tokens.drop (tokens.length + cursor).toNat ++ tokens)
  else none

/-- Whether more than `limit` groups would be open at once, in one another, before the reading of
the tokens ends or fails.  A right bracket ends the reading when no more than `floor` are open. -/
def exceeds (limit floor : Nat) : (opened : Nat) → List Token → Bool
  | _, [] => false
  | opened, token :: rest =>
      match token.kind with
      | .literal _ => exceeds limit floor opened rest
      | .left => limit ≤ opened || exceeds limit floor (opened + 1) rest
      | .right => floor < opened && exceeds limit floor (opened - 1) rest
      | .other => false

/-- How many tokens are looked at up to the left bracket that opens one group too many. -/
def untilTooDeep (limit : Nat) : (opened : Nat) → List Token → Nat
  | _, [] => 0
  | opened, token :: rest =>
      match token.kind with
      | .left => if limit ≤ opened then 1 else untilTooDeep limit (opened + 1) rest + 1
      | .right => untilTooDeep limit (opened - 1) rest + 1
      | _ => untilTooDeep limit opened rest + 1

/-- Reads the tokens from a cursor on as the inside of a group.  Up to depth zero the group is
written without brackets, else its left bracket stands before the cursor.  Returns the cursor behind
the last token looked at. -/
def groupAt (tokens : List Token) (cursor depth : Int) : Except ParseError Tree × Int :=
  match tokens with
  | [] => (.error .noTokens, cursor)
  | [⟨.literal text, span⟩] => (.ok (.literal text span), cursor)
  | [token] => (.error (.loneToken token), cursor)
  | _ =>
      let opening :=
        if 0 < depth then (tokensFrom? tokens (cursor - 1)).bind List.head? else none
      match tokensFrom? tokens cursor with
      | none => (.error .noToken, cursor)
      | some ahead =>
          if 0 < depth ∧ opening.isNone then (.error .noToken, cursor)
          else
            let (result, rest) := fill (wholeSpan tokens) ⟨opening, depth, []⟩ [] ahead
            (result, cursor + (ahead.length - rest.length : Nat))

/-- A group that only puts another group without brackets gives way to it. -/
def unwrap : Tree → Tree
  | .group [.group items inner depth] _ 0 => .group items inner depth
  | tree => tree

/-- The tree that the tokens form, however deeply nested. -/
def ofTokens (tokens : List Token) : Except ParseError Tree := (groupAt tokens 0 0).1.map unwrap

/-- How many groups may be open in one another. -/
def nestingLimit : Nat := 960

/-- How many calls may be in progress in one another: reading takes one call for the root, and one
for each group that is open in it. -/
def callLimit : Nat := nestingLimit + 1

/-- Reads on within the limit on nesting.  The left bracket that would exceed it is looked at. -/
def groupWithin (limit : Nat) (tokens : List Token) (cursor depth : Int) :
    Except ParseError Tree × Int :=
  let ahead := (tokensFrom? tokens cursor).getD []
  if 2 ≤ tokens.length ∧ exceeds limit (-depth).toNat 0 ahead then
    (.error .tooDeep, cursor + untilTooDeep limit 0 ahead)
  else groupAt tokens cursor depth

/-- The tree that a text is read as. -/
def parse (newlines : Newlines) (text : Text) : Except ParseError Tree :=
  (groupWithin nestingLimit (Token.lex newlines text) 0 0).1.map unwrap

theorem parse_eq_ofTokens {newlines : Newlines} {text : Text}
    (h : exceeds nestingLimit 0 0 (Token.lex newlines text) = false) :
    parse newlines text = ofTokens (Token.lex newlines text) := by
  simp [parse, groupWithin, ofTokens, tokensFrom?, h]

end Tree

end BracketCalc
