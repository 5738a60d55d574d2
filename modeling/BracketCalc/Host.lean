import BracketCalc.Text.Style
import BracketCalc.Text.Template.Basic
/-!
# The host

The calculator runs in a host, which has styles for printed text and knows the
attributes of texts.
-/

namespace BracketCalc

/-- What the calculator takes from the system that it runs in. -/
structure Host extends Palette where
  attributes : Template.Attributes

namespace Host

instance : Coe Host Palette := ⟨toPalette⟩

/-- A host whose output is plain. -/
def plain : Host := ⟨.plain, .none⟩

/-- A host whose output is a terminal. -/
def ansi : Host := ⟨.ansi, .none⟩

end Host

end BracketCalc
