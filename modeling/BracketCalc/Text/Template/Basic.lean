import BracketCalc.Text.Template.Layout
/-!
# Message templates

A template is text with fields in braces.  An empty field stands for the next
snippet, a field that holds a number for the snippet of that number; a doubled
brace is a brace.  A field may choose a character or an attribute of its snippet,
have it quoted, and lay it out, where the layout may have fields in its turn.
What attributes texts have, and what these give, is not known here.

Filling goes from left to right and fails at the first field that is malformed
or that no snippet answers.
-/

namespace BracketCalc

namespace Template

/-- What stands between the braces: the name, the mark behind `!`, and the layout behind `:`. -/
structure Field where
  name : Text
  conversion : Option Char
  layout : Text
  deriving DecidableEq, Repr

/-- A part of a template. -/
inductive Piece where
  | words (text : Text)
  | field (field : Field)
  | broken (fault : Fault)
  deriving DecidableEq, Repr

end Template

/-- A message with fields for snippets. -/
abbrev Template := List Template.Piece

namespace Template

/-! ### Reading templates -/

/-- Where the reading of a template stands.  Texts that go on are held in reverse. -/
inductive Place where
  | words
  | name (name : Text)
  | subscript (name : Text)
  | conversion (name : Text)
  | converted (name : Text) (mark : Char)
  | layout (name : Text) (mark : Option Char) (layout : Text) (depth : Nat)

/-- Reads a template on from the given place.  A name ends at the first `!`, `:` or brace that is
not between square brackets, a layout with its closing brace. -/
def read : Place → Text → Template
  | .words, [] => []
  | .words, '{' :: '{' :: rest => .words ['{'] :: read .words rest
  | .words, ['{'] => [.broken .strayOpen]
  | .words, '{' :: rest => read (.name []) rest
  | .words, '}' :: '}' :: rest => .words ['}'] :: read .words rest
  | .words, '}' :: _ => [.broken .strayClose]
  | .words, c :: rest => .words [c] :: read .words rest
  | .name _, [] => [.broken .unfinishedField]
  | .name n, c :: rest =>
      if c = '{' then [.broken .openInField]
      else if c = '}' then .field ⟨n.reverse, none, []⟩ :: read .words rest
      else if c = ':' then read (.layout n none [] 1) rest
      else if c = '!' then read (.conversion n) rest
      else if c = '[' then read (.subscript (c :: n)) rest
      else read (.name (c :: n)) rest
  | .subscript _, [] => [.broken .unfinishedField]
  | .subscript n, c :: rest => read (if c = ']' then .name (c :: n) else .subscript (c :: n)) rest
  | .conversion _, [] => [.broken .missingConversion]
  | .conversion n, mark :: rest => read (.converted n mark) rest
  | .converted _ _, [] => [.broken .unfinishedLayout]
  | .converted n mark, c :: rest =>
      if c = '}' then .field ⟨n.reverse, some mark, []⟩ :: read .words rest
      else if c = ':' then read (.layout n (some mark) [] 1) rest
      else [.broken .strayAfterConversion]
  | .layout _ _ _ _, [] => [.broken .unfinishedLayout]
  | .layout n mark l depth, c :: rest =>
      if c = '{' then read (.layout n mark (c :: l) (depth + 1)) rest
      else if c ≠ '}' then read (.layout n mark (c :: l) depth) rest
      else if depth ≤ 1 then .field ⟨n.reverse, mark, l.reverse⟩ :: read .words rest
      else read (.layout n mark (c :: l) (depth - 1)) rest

/-- The template that a text spells. -/
def ofText (text : Text) : Template := read .words text

/-! ### Choosing snippets -/

/-- How the fields met so far choose their snippets: none chose yet, in turn with the number of the
next, or by number. -/
inductive Numbering where
  | undecided
  | inTurn (next : Nat)
  | byNumber

/-- The number that a text writes, if it writes nothing else. -/
def wholeNumber? (text : Text) : Except Fault (Option Nat) :=
  match takeNumber text with
  | .error fault => .error fault
  | .ok (number, rest) => .ok (if rest.isEmpty then number else none)

/-- The number of the snippet that a key asks for, and how the fields are numbered from there on. -/
def choose (numbering : Numbering) (key : Text) : Except Fault (Nat × Numbering) :=
  if key.isEmpty then
    match numbering with
    | .undecided => .ok (0, .inTurn 1)
    | .inTurn next => .ok (next, .inTurn (next + 1))
    | .byNumber => .error .emptyAfterNumber
  else
    match wholeNumber? key, numbering with
    | .error fault, _ => .error fault
    | .ok none, _ => .error (.unknownName key)
    | .ok (some _), .inTurn _ => .error .numberAfterEmpty
    | .ok (some n), _ => .ok (n, .byNumber)

/-- The character of a text that a subscript asks for. -/
def characterAt (text subscript : Text) : Except Fault Text :=
  if subscript.isEmpty then .error .emptyPart
  else
    match wholeNumber? subscript with
    | .error fault => .error fault
    | .ok none => .error .namedCharacter
    | .ok (some n) =>
        match text[n]? with
        | none => .error .noCharacter
        | some c => .ok [c]

/-- Whether a character goes on a part of a name, rather than start another. -/
def isPartChar (c : Char) : Bool := c ≠ '.' && c ≠ '['

/-- The text as the mark of a conversion has it. -/
def convert : Option Char → Text → Except Fault Text
  | none, text | some 's', text | some '\x00', text => .ok text
  | some 'r', text => .ok text.quoted
  | some 'a', text => .ok text.quotedAscii
  | some mark, _ => .error (.conversion mark)

/-- The text in the layout that another text writes. -/
def layOut (layout text : Text) : Except Fault Text :=
  if layout.isEmpty then .ok text
  else
    match Layout.ofText layout with
    | .error fault => .error fault
    | .ok layout => layout.apply text

/-- What a field selects: by the mark of a conversion, and then by a layout, it gives a text. -/
abbrev Selected := Option Char → Except Fault (Text → Except Fault Text)

/-- A text that is selected itself. -/
def Selected.ofText (text : Text) : Selected := fun mark => do
  let converted ← convert mark text
  .ok fun layout => layOut layout converted

/-- What is selected from a text by the name of an attribute and what stands behind it. -/
abbrev Attributes := (text name rest : Text) → Except Fault Selected

/-- Texts have no attributes. -/
def Attributes.none : Attributes := fun _ name _ =>
  .error (.ofAttribute "AttributeError".toList
    ("'str' object has no attribute '".toList ++ name ++ ['\'']))

/-- What the rest of a name selects from a text, by subscripts in square brackets, and by an
attribute behind a point.  `subscript` holds in reverse what was read since a bracket was opened. -/
def select (attributes : Attributes) (text : Text) :
    (subscript : Option Text) → (name : Text) → Except Fault Selected
  | none, [] => .ok (.ofText text)
  | none, '[' :: rest => select attributes text (some []) rest
  | none, '.' :: rest =>
      let name := rest.takeWhile isPartChar
      if name.isEmpty then .error .emptyPart
      else attributes text name (rest.dropWhile isPartChar)
  | none, _ :: _ => .error .strayAfterPart
  | some _, [] => .error .unfinishedPart
  | some subscript, c :: rest =>
      if c = ']' then
        match characterAt text subscript.reverse with
        | .error fault => .error fault
        | .ok character => select attributes character none rest
      else select attributes text (some (c :: subscript)) rest

/-! ### Filling templates -/

/-- The snippet of a number. -/
def snippetAt (snippets : List Text) (number : Nat) : Except Fault Text :=
  match snippets[number]? with
  | none => .error (.noSnippet number)
  | some snippet => .ok snippet

/-- The layout of a field.  One that has fields is filled by `expand`. -/
def Field.filledLayout (expand : Numbering → Text → Except Fault (Text × Numbering))
    (numbering : Numbering) (field : Field) : Except Fault (Text × Numbering) :=
  if field.layout.contains '{' then expand numbering field.layout
  else .ok (field.layout, numbering)

/-- What a field gives, and how the fields are numbered from there on. -/
def Field.fill (attributes : Attributes)
    (expand : Numbering → Text → Except Fault (Text × Numbering)) (snippets : List Text)
    (numbering : Numbering) (field : Field) : Except Fault (Text × Numbering) := do
  let (n, numbering) ← choose numbering (field.name.takeWhile isPartChar)
  let snippet ← snippetAt snippets n
  let selected ← select attributes snippet none (field.name.dropWhile isPartChar)
  let laidOut ← selected field.conversion
  let (layout, numbering) ← field.filledLayout expand numbering
  let text ← laidOut layout
  .ok (text, numbering)

/-- Fills a template, and returns how the fields are numbered behind it. -/
def fillFrom (attributes : Attributes)
    (expand : Numbering → Text → Except Fault (Text × Numbering)) (snippets : List Text) :
    Numbering → Template → Except Fault (Text × Numbering)
  | numbering, [] => .ok ([], numbering)
  | numbering, .words text :: rest =>
      (fun (filled, numbering) => (text ++ filled, numbering)) <$>
        fillFrom attributes expand snippets numbering rest
  | _, .broken fault :: _ => .error fault
  | numbering, .field field :: rest =>
      match field.fill attributes expand snippets numbering with
      | .error fault => .error fault
      | .ok (text, numbering) =>
          (fun (filled, numbering) => (text ++ filled, numbering)) <$>
            fillFrom attributes expand snippets numbering rest

/-- Fills the template that a text spells, with layouts in one another on so many levels. -/
def expand (attributes : Attributes) (snippets : List Text) :
    (levels : Nat) → Numbering → Text → Except Fault (Text × Numbering)
  | 0, _, _ => .error .nestedLayouts
  | levels + 1, numbering, text =>
      fillFrom attributes (expand attributes snippets levels) snippets numbering (ofText text)

/-- The message that the template gives with these snippets.  The layout of a field may have fields,
but their layouts have none. -/
def fill (attributes : Attributes) (template : Template) (snippets : List Text) :
    Except Fault Text :=
  Prod.fst <$> fillFrom attributes (expand attributes snippets 1) snippets .undecided template

/-- Braces apart, a text is a template for itself. -/
theorem fill_ofText_of_no_brace (attributes : Attributes) (text : Text) (snippets : List Text)
    (h : ∀ c ∈ text, c ≠ '{' ∧ c ≠ '}') : (ofText text).fill attributes snippets = .ok text := by
  suffices ∀ numbering, fillFrom attributes (expand attributes snippets 1) snippets numbering
      (read .words text) = .ok (text, numbering) by
    rw [fill, ofText, this]
    rfl
  induction text with
  | nil => exact fun _ => rfl
  | cons c cs ih =>
      intro numbering
      obtain ⟨notOpen, notClose⟩ := h c List.mem_cons_self
      have step : read .words (c :: cs) = .words [c] :: read .words cs := by
        rw [read] <;> simp_all
      rw [step, fillFrom, ih fun d hd => h d (List.mem_cons_of_mem c hd)]
      rfl

end Template

end BracketCalc
