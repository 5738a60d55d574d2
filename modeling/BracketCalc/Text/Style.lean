import BracketCalc.Text.Basic
/-!
# Emphasis

Printed text is emphasised by styles.  A style puts terminal control sequences
around a text, even around an empty one, or it leaves the text as it is.
-/

namespace BracketCalc

/-- The styles of printed text: bold for snippets quoted in messages, alarming for the heads of
reports and for marked source, yellow for the brackets of displayed trees, and blue for the arrow
before an answer. -/
structure Palette where
  bold : Text → Text
  alarm : Text → Text
  yellow : Text → Text
  blue : Text → Text

namespace Style

/-- The control sequence that selects a graphic rendition. -/
def sequence (code : Text) : Text := '\x1b' :: '[' :: code ++ ['m']

/-- A text of control sequences alone.  Their codes are numbers between semicolons. -/
def IsControl (text : Text) : Prop :=
  ∃ codes : List Text, (∀ code ∈ codes, ∀ c ∈ code, c.isDigit ∨ c = ';') ∧
    text = codes.flatMap sequence

/-- A style that leaves a text as it is between two texts of control sequences. -/
def Wraps (style : Text → Text) : Prop :=
  ∃ before behind, IsControl before ∧ IsControl behind ∧
    ∀ text, style text = before ++ text ++ behind

/-- The text between the sequences that select the renditions, outermost first, and one that
resets them. -/
def wrap (codes : List Text) (text : Text) : Text :=
  codes.flatMap sequence ++ text ++ sequence ['0']

theorem isControl_nil : IsControl [] := ⟨[], nofun, rfl⟩

theorem wraps_id : Wraps id :=
  ⟨[], [], isControl_nil, isControl_nil, fun text => (List.append_nil text).symm⟩

theorem wraps_wrap {codes : List Text} (h : ∀ code ∈ codes, ∀ c ∈ code, c.isDigit ∨ c = ';') :
    Wraps (wrap codes) := by
  have hreset : IsControl (sequence ['0']) :=
    ⟨[['0']], by simp, by rw [List.flatMap_singleton]⟩
  exact ⟨_, _, ⟨codes, h, rfl⟩, hreset, fun _ => rfl⟩

end Style

namespace Palette

/-- Without any emphasis. -/
def plain : Palette := ⟨id, id, id, id⟩

/-- With the control sequences that terminals know. -/
def ansi : Palette where
  bold := Style.wrap [['1']]
  alarm := Style.wrap [['1'], ['3', '1']]
  yellow := Style.wrap [['3', '3']]
  blue := Style.wrap [['3', '4']]

@[simp] theorem alarm_plain (text : Text) : plain.alarm text = text := rfl

end Palette

end BracketCalc
