import BracketCalc.Expr.Basic
/-!
# Displayed trees

A tree is displayed with one literal or bracket on a line.  What stands inside
a group is indented by four spaces more than its brackets.
-/

namespace BracketCalc.Expr

variable {α : Type}

/-- The space before a line.  Left of the margin there is none. -/
def margin (indent : Int) : Text := Text.spaces (4 * indent.toNat)

def line (indent : Int) (text : Text) : Text := margin indent ++ text ++ ['\n']

mutual

/-- The displayed form of an expression, in which each bracket is passed through `highlight`. -/
def render [Labelled α] (highlight : Text → Text) (indent : Int) : Expr α → Text
  | literal text _ => line indent text
  | group items _ _ =>
      line indent (highlight ['(']) ++ renderItems highlight (indent + 1) items
        ++ line indent (highlight [')'])
  | foreign value => line indent (Labelled.label value)

def renderItems [Labelled α] (highlight : Text → Text) (indent : Int) : List (Expr α) → Text
  | [] => []
  | e :: rest => render highlight indent e ++ renderItems highlight indent rest

end

mutual

/-- The displayed form of an expression, for which no more than so many calls are in progress.  A
group takes one of them. -/
def renderWithin [Labelled α] (highlight : Text → Text) :
    (calls : Nat) → (indent : Int) → Expr α → Option Text
  | _, indent, literal text _ => some (line indent text)
  | calls, indent, group items _ _ =>
      if calls < 1 then none
      else
        (renderItemsWithin highlight (calls - 1) (indent + 1) items).map fun inside =>
          line indent (highlight ['(']) ++ inside ++ line indent (highlight [')'])
  | _, indent, foreign value => some (line indent (Labelled.label value))

def renderItemsWithin [Labelled α] (highlight : Text → Text) (calls : Nat) (indent : Int) :
    List (Expr α) → Option Text
  | [] => some []
  | e :: rest =>
      match renderWithin highlight calls indent e with
      | none => none
      | some text => (renderItemsWithin highlight calls indent rest).map (text ++ ·)

end

theorem renderItems_eq_flatMap [Labelled α] (highlight : Text → Text) (indent : Int)
    (items : List (Expr α)) :
    renderItems highlight indent items = items.flatMap (render highlight indent) := by
  induction items with
  | nil => rfl
  | cons e rest ih => rw [renderItems, ih, List.flatMap_cons]

end BracketCalc.Expr
