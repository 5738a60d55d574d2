import BracketCalc.Span
import BracketCalc.Text.Basic
/-!
# Expressions

An expression is a literal or a group of expressions.  Both know the stretch of
text they were read from, and a group knows how many brackets are open inside
it; the group that is written without brackets has depth zero.  None of this
matters to whether two expressions are the same.

A leaf may also be a foreign value, put there by a program that builds its
trees by hand.  A tree that is read from text has none.

What is done with an expression is done by calls for its groups, which are in
progress in one another.  Only so many of them can be, so that an expression may
be nested too deeply for its text, say.  A function with a limit on these calls
has no result then.
-/

namespace BracketCalc

/-- Values that have a name to be shown by. -/
class Labelled (α : Type) where
  label : α → Text

instance : Labelled Empty := ⟨nofun⟩

/-- An expression whose foreign leaves are values of `α`. -/
inductive Expr (α : Type) where
  | literal (text : Text) (span : Span)
  | group (items : List (Expr α)) (span : Span) (depth : Int)
  | foreign (value : α)

/-- An expression of literals and groups alone. -/
abbrev Tree := Expr Empty

namespace Expr

variable {α : Type}

mutual

/-- The expression on one line, with single spaces and all its brackets. -/
def text [Labelled α] : Expr α → Text
  | literal text _ => text
  | group items _ _ => '(' :: [' '].intercalate (texts items) ++ [')']
  | foreign value => Labelled.label value

def texts [Labelled α] : List (Expr α) → List Text
  | [] => []
  | e :: rest => text e :: texts rest

end

mutual

/-- The text of an expression, for which no more than so many calls are in progress.  A group takes
three of them. -/
def textWithin [Labelled α] : (calls : Nat) → Expr α → Option Text
  | _, literal text _ => some text
  | calls, group items _ _ =>
      if calls < 3 then none
      else
        (textsWithin (calls - 3) items).map fun texts =>
          '(' :: [' '].intercalate texts ++ [')']
  | _, foreign value => some (Labelled.label value)

def textsWithin [Labelled α] : (calls : Nat) → List (Expr α) → Option (List Text)
  | _, [] => some []
  | calls, e :: rest =>
      match textWithin calls e with
      | none => none
      | some text => (textsWithin calls rest).map (text :: ·)

end

mutual

/-- The expression with the name of each part. -/
def name [Labelled α] : Expr α → Text
  | literal text _ => "Literal('".toList ++ text ++ "')".toList
  | group items _ _ => "Group([".toList ++ [',', ' '].intercalate (names items) ++ "])".toList
  | foreign value => Labelled.label value

def names [Labelled α] : List (Expr α) → List Text
  | [] => []
  | e :: rest => name e :: names rest

end

mutual

/-- Whether two expressions have the same structure and the same literals. -/
def same [DecidableEq α] : Expr α → Expr α → Bool
  | literal s _, literal t _ => s = t
  | group as _ _, group bs _ _ => sameItems as bs
  | foreign a, foreign b => a = b
  | _, _ => false

def sameItems [DecidableEq α] : List (Expr α) → List (Expr α) → Bool
  | [], [] => true
  | a :: as, b :: bs => same a b && sameItems as bs
  | _, _ => false

end

mutual

/-- Whether two expressions are the same, found with no more than so many calls in progress.  Two
groups take three of them, unless their lengths differ, and what stands behind the first difference
is not looked at. -/
def sameWithin [DecidableEq α] : (calls : Nat) → Expr α → Expr α → Option Bool
  | _, literal s _, literal t _ => some (s = t)
  | calls, group as _ _, group bs _ _ =>
      if calls < 3 then none
      else if as.length = bs.length then sameItemsWithin (calls - 3) as bs
      else some false
  | _, foreign a, foreign b => some (a = b)
  | _, _, _ => some false

def sameItemsWithin [DecidableEq α] : (calls : Nat) → List (Expr α) → List (Expr α) → Option Bool
  | _, [], [] => some true
  | calls, a :: as, b :: bs =>
      match sameWithin calls a b with
      | some true => sameItemsWithin calls as bs
      | stopped => stopped
  | _, _, _ => some false

end

mutual

/-- How deeply the brackets of an expression are nested.  A foreign leaf has no depth: the first
one is returned instead. -/
def nesting : Expr α → Except α Int
  | literal _ _ => .ok 0
  | group items _ depth => deepest depth items
  | foreign value => .error value

/-- The greatest of a number and the depths of some expressions. -/
def deepest (least : Int) : List (Expr α) → Except α Int
  | [] => .ok least
  | e :: rest =>
      match nesting e with
      | .error value => .error value
      | .ok depth => deepest (max least depth) rest

end

mutual

/-- How deeply the brackets of an expression are nested, found with no more than so many calls in
progress.  A group takes two of them. -/
def nestingWithin : (calls : Nat) → Expr α → Option (Except α Int)
  | _, literal _ _ => some (.ok 0)
  | calls, group items _ depth => if calls < 2 then none else deepestWithin (calls - 2) depth items
  | _, foreign value => some (.error value)

def deepestWithin (calls : Nat) (least : Int) : List (Expr α) → Option (Except α Int)
  | [] => some (.ok least)
  | e :: rest =>
      match nestingWithin calls e with
      | some (.ok depth) => deepestWithin calls (max least depth) rest
      | stopped => stopped

end

@[simp] theorem texts_eq_map [Labelled α] (items : List (Expr α)) :
    texts items = items.map text := by
  induction items with
  | nil => rfl
  | cons e rest ih => rw [texts, ih, List.map_cons]

end Expr

end BracketCalc
