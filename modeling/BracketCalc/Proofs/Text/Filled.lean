import BracketCalc.Proofs.Text.Fields
/-!
# Filled templates

A text with braces is no template for itself.  When it is filled with snippets
that have none, a doubled brace becomes a single one, and what is written of a
field, which has as many left braces as right ones, becomes a text without
braces.  So at most half of the left braces are left, and none if no brace is
lost.
-/

namespace BracketCalc.Template

open Text

variable {text before rest name out : Text} {c mark : Char} {pieces : Template} {field : Field}

/-! ### Reading fields -/

/-- What is written of a field, between its braces and with them. -/
structure Spells (field : Field) (written : Text) : Prop where
  surplus_eq : surplus written = surplus field.name + surplus field.conversion.toList
  balanced : surplus field.layout = 0

/-- Reading goes wrong inside a field of which some is read, or it gets to the end of the field. -/
def ReadsField (before text : Text) (pieces : Template) : Prop :=
  (∃ fault, pieces = [.broken fault]) ∨
    ∃ field written rest, text = written ++ rest ∧ Spells field (before ++ written) ∧
      pieces = .field field :: read .words rest

theorem ReadsField.cons (h : ReadsField (before ++ [c]) text pieces) :
    ReadsField before (c :: text) pieces := by
  rcases h with hbroken | ⟨field, written, rest, rfl, hspells, rfl⟩
  · exact .inl hbroken
  · refine .inr ⟨field, c :: written, rest, rfl, ?_, rfl⟩
    simpa using hspells

theorem readsField_broken (fault : Fault) : ReadsField before text [.broken fault] :=
  .inl ⟨fault, rfl⟩

theorem readsField_close (h : Spells field (before ++ ['}'])) :
    ReadsField before ('}' :: text) (.field field :: read .words text) :=
  .inr ⟨field, ['}'], text, rfl, h, rfl⟩

theorem readsField_layout {mark : Option Char} {layout : Text} {depth : Nat}
    (hbefore : surplus before = 1 + surplus name + surplus mark.toList + surplus layout)
    (hdepth : surplus layout + 1 = depth) (hpos : 1 ≤ depth) :
    ReadsField before text (read (.layout name mark layout depth) text) := by
  induction text generalizing before layout depth with
  | nil =>
      rw [read]
      exact readsField_broken _
  | cons c text ih =>
      rw [read]
      split
      · next hopen =>
          subst hopen
          refine ReadsField.cons (ih ?_ ?_ ?_)
          · simp
            omega
          · simp
            omega
          · omega
      · next hopen =>
          split
          · next hclose =>
              refine ReadsField.cons (ih ?_ ?_ hpos)
              · rw [surplus_append, surplus_cons_of_ne ⟨hopen, hclose⟩,
                  surplus_cons_of_ne ⟨hopen, hclose⟩, hbefore]
                simp
              · rwa [surplus_cons_of_ne ⟨hopen, hclose⟩]
          · next hclose =>
              obtain rfl := not_not.1 hclose
              split
              · refine readsField_close ⟨?_, ?_⟩
                · simp
                  omega
                · simp
                  omega
              · refine ReadsField.cons (ih ?_ ?_ ?_)
                · simp
                  omega
                · simp
                  omega
                · omega

theorem readsField_converted (hbefore : surplus before = 1 + surplus name + surplus [mark]) :
    ReadsField before text (read (.converted name mark) text) := by
  cases text with
  | nil =>
      rw [read]
      exact readsField_broken _
  | cons c text =>
      rw [read]
      split
      · next hclose =>
          subst hclose
          refine readsField_close ⟨?_, rfl⟩
          simp
          omega
      · split
        · next hcolon =>
            subst hcolon
            refine ReadsField.cons (readsField_layout ?_ rfl (Nat.le_refl 1))
            rw [surplus_append, surplus_cons_of_ne (by decide), hbefore]
            rfl
        · exact readsField_broken _

theorem readsField_conversion (hbefore : surplus before = 1 + surplus name) :
    ReadsField before text (read (.conversion name) text) := by
  cases text with
  | nil =>
      rw [read]
      exact readsField_broken _
  | cons mark text =>
      rw [read]
      refine ReadsField.cons (readsField_converted ?_)
      rw [surplus_append, hbefore]

theorem readsField_name (hbefore : surplus before = 1 + surplus name) :
    ReadsField before text (read (.name name) text) ∧
      ReadsField before text (read (.subscript name) text) := by
  induction text generalizing before name with
  | nil =>
      rw [read, read]
      exact ⟨readsField_broken _, readsField_broken _⟩
  | cons c text ih =>
      have hkept : surplus (before ++ [c]) = 1 + surplus (c :: name) := by
        have hcons : surplus (c :: name) = surplus [c] + surplus name := by
          rw [← List.singleton_append, surplus_append]
        rw [surplus_append, hcons]
        omega
      obtain ⟨hname, hsubscript⟩ := ih hkept
      rw [read, read]
      constructor
      · split
        · exact readsField_broken _
        · next hopen =>
            have hspent : c ≠ '}' → surplus (before ++ [c]) = 1 + surplus name := fun hclose => by
              rw [surplus_append, surplus_cons_of_ne ⟨hopen, hclose⟩, hbefore]
              simp
            split
            · next hclose =>
                subst hclose
                refine readsField_close ⟨?_, rfl⟩
                simp
                omega
            · next hclose =>
                split
                · refine ReadsField.cons (readsField_layout ?_ rfl (Nat.le_refl 1))
                  rw [hspent hclose]
                  simp
                · split
                  · exact ReadsField.cons (readsField_conversion (hspent hclose))
                  · split
                    · exact ReadsField.cons hsubscript
                    · exact ReadsField.cons hname
      · split
        · exact ReadsField.cons hname
        · exact ReadsField.cons hsubscript

/-! ### Filling -/

section Filled

variable {attributes : Attributes}
  {expand expand' : Numbering → Text → Except Fault (Text × Numbering)} {snippets : List Text}
  {numbering numbering' : Numbering}

theorem fillFrom_words_eq_ok
    (h : fillFrom attributes expand snippets numbering (.words text :: pieces) =
      .ok (out, numbering')) :
    ∃ filled, fillFrom attributes expand snippets numbering pieces = .ok (filled, numbering') ∧
      out = text ++ filled := by
  rw [fillFrom] at h
  cases hpieces : fillFrom attributes expand snippets numbering pieces with
  | error fault =>
      rw [hpieces] at h
      cases h
  | ok result =>
      rw [hpieces] at h
      obtain ⟨rfl, rfl⟩ := Prod.mk.inj (Except.ok.inj h)
      exact ⟨_, rfl, rfl⟩

theorem fillFrom_field_eq_ok
    (h : fillFrom attributes expand snippets numbering (.field field :: pieces) =
      .ok (out, numbering')) :
    ∃ given numbered filled,
      field.fill attributes expand snippets numbering = .ok (given, numbered) ∧
      fillFrom attributes expand snippets numbered pieces = .ok (filled, numbering') ∧
      out = given ++ filled := by
  rw [fillFrom] at h
  cases hfield : field.fill attributes expand snippets numbering with
  | error fault =>
      rw [hfield] at h
      cases h
  | ok result =>
      rw [hfield] at h
      obtain ⟨filled, hpieces, rfl⟩ := fillFrom_words_eq_ok h
      exact ⟨_, _, filled, rfl, hpieces, rfl⟩

theorem not_fillFrom_broken {fault : Fault} :
    fillFrom attributes expand snippets numbering [.broken fault] ≠ .ok (out, numbering') := nofun

theorem read_open_of_ne (h : c ≠ '{') :
    read .words ('{' :: c :: rest) = read (.name []) (c :: rest) := by
  rw [read] <;> simp [h]

theorem read_close_of_ne (h : ∀ rest', rest ≠ '}' :: rest') :
    read .words ('}' :: rest) = [.broken .strayClose] := by
  rw [read]
  exact h

theorem read_words_of_ne (h : c ≠ '{' ∧ c ≠ '}') :
    read .words (c :: rest) = .words [c] :: read .words rest := by
  rw [read] <;> simp [h]

/-- What is spelled in words is given by its first part and the rest. -/
theorem spent_of_words {written given rest : Text} (hwritten : Spent written given)
    (hrest : ∀ filled, fillFrom attributes expand snippets numbering (read .words rest) =
      .ok (filled, numbering') → Spent rest filled)
    (h : fillFrom attributes expand snippets numbering (.words given :: read .words rest) =
      .ok (out, numbering')) : Spent (written ++ rest) out := by
  obtain ⟨filled, hfilled, rfl⟩ := fillFrom_words_eq_ok h
  exact hwritten.append (hrest filled hfilled)

/-- What is spelled by a field is given by the field and the rest. -/
theorem spent_of_readsField (hexpand : Spends expand) (hsnippets : ∀ s ∈ snippets, Braceless s)
    {written : Text} (hpieces : ReadsField written text pieces)
    (hrest : ∀ front rest numbering filled, text = front ++ rest →
      fillFrom .none expand snippets numbering (read .words rest) = .ok (filled, numbering') →
      Spent rest filled)
    (h : fillFrom .none expand snippets numbering pieces = .ok (out, numbering')) :
    Spent (written ++ text) out := by
  rcases hpieces with ⟨fault, rfl⟩ | ⟨field, front, rest, rfl, ⟨hsurplus, hlayout⟩, rfl⟩
  · exact absurd h not_fillFrom_broken
  · obtain ⟨given, numbered, filled, hgiven, hfilled, rfl⟩ := fillFrom_field_eq_ok h
    obtain ⟨hname, hmark, hbraceless⟩ := braceless_of_fill hexpand hsnippets hlayout hgiven
    rw [surplus_of_braceless hname, surplus_of_braceless hmark] at hsurplus
    rw [← List.append_assoc]
    exact (spent_of_braceless hsurplus hbraceless).append (hrest front rest _ _ rfl hfilled)

/-- Of a text, filled without attributes and with snippets without braces, at most half of the left
braces are left. -/
theorem spent_of_fillFrom (hexpand : Spends expand) (hsnippets : ∀ s ∈ snippets, Braceless s)
    (h : fillFrom .none expand snippets numbering (read .words text) = .ok (out, numbering')) :
    Spent text out := by
  induction hlength : text.length using Nat.strong_induction_on
    generalizing text numbering out with
  | _ length ih =>
    subst hlength
    have hrest : ∀ front rest, front ≠ [] → text = front ++ rest → ∀ numbering filled,
        fillFrom .none expand snippets numbering (read .words rest) = .ok (filled, numbering') →
        Spent rest filled := by
      rintro front rest hfront rfl numbering filled hfilled
      refine ih rest.length ?_ hfilled rfl
      simpa [List.length_pos_iff] using hfront
    cases text with
    | nil =>
        obtain ⟨rfl, -⟩ := Prod.mk.inj (Except.ok.inj h)
        exact spent_of_braceless rfl nofun
    | cons c text =>
        by_cases hopen : c = '{'
        · subst hopen
          cases text with
          | nil => exact absurd h not_fillFrom_broken
          | cons d rest =>
              by_cases hdoubled : d = '{'
              · subst hdoubled
                have hbrace : Spent ['{', '{'] ['{'] := ⟨by decide, by decide⟩
                exact spent_of_words hbrace (hrest ['{', '{'] rest nofun rfl _) h
              · rw [read_open_of_ne hdoubled] at h
                have hreads : ReadsField ['{'] (d :: rest) (read (.name []) (d :: rest)) :=
                  (readsField_name (by decide)).1
                refine spent_of_readsField hexpand hsnippets hreads ?_ h
                rintro front rest' numbering filled htext
                exact hrest ('{' :: front) rest' nofun (htext ▸ rfl) numbering filled
        · by_cases hclose : c = '}'
          · subst hclose
            by_cases hdoubled : ∃ rest, text = '}' :: rest
            · obtain ⟨rest, rfl⟩ := hdoubled
              have hbrace : Spent ['}', '}'] ['}'] := ⟨by decide, by decide⟩
              exact spent_of_words hbrace (hrest ['}', '}'] rest nofun rfl _) h
            · rw [read_close_of_ne (not_exists.1 hdoubled)] at h
              exact absurd h not_fillFrom_broken
          · rw [read_words_of_ne ⟨hopen, hclose⟩] at h
            have hword : Spent [c] [c] := by
              have hbraceless := braceless_singleton.2 ⟨hopen, hclose⟩
              exact spent_of_braceless (surplus_of_braceless hbraceless) hbraceless
            exact spent_of_words hword (hrest [c] text nofun rfl _) h

theorem spends_expand (hsnippets : ∀ s ∈ snippets, Braceless s) (levels : Nat) :
    Spends (Template.expand .none snippets levels) := by
  induction levels with
  | zero => exact nofun
  | succ levels ih => exact fun _ _ _ _ h => spent_of_fillFrom ih hsnippets h

theorem fillFrom_of_none (hexpand : ∀ numbering text filled,
      expand numbering text = .ok filled → expand' numbering text = .ok filled)
    (h : fillFrom .none expand snippets numbering pieces = .ok (out, numbering')) :
    fillFrom attributes expand' snippets numbering pieces = .ok (out, numbering') := by
  induction pieces generalizing numbering out with
  | nil => exact h
  | cons piece pieces ih =>
      cases piece with
      | words text =>
          obtain ⟨filled, hfilled, rfl⟩ := fillFrom_words_eq_ok h
          rw [fillFrom, ih hfilled]
          rfl
      | broken fault => cases h
      | field field =>
          obtain ⟨given, numbered, filled, hgiven, hfilled, rfl⟩ := fillFrom_field_eq_ok h
          rw [fillFrom, Field.fill_of_none hexpand hgiven]
          dsimp only
          rw [ih hfilled]
          rfl

theorem expand_of_none {filled : Text × Numbering} (levels : Nat)
    (h : Template.expand .none snippets levels numbering text = .ok filled) :
    Template.expand attributes snippets levels numbering text = .ok filled := by
  induction levels generalizing numbering text filled with
  | zero => cases h
  | succ levels ih => exact fillFrom_of_none (fun _ _ _ => ih) h

theorem fill_eq_ok_iff :
    pieces.fill attributes snippets = .ok out ↔
      ∃ numbering, fillFrom attributes (Template.expand attributes snippets 1) snippets .undecided
        pieces = .ok (out, numbering) := by
  unfold fill
  cases fillFrom attributes (Template.expand attributes snippets 1) snippets .undecided pieces with
  | error fault => exact ⟨nofun, nofun⟩
  | ok filled =>
      constructor
      · intro h
        exact ⟨filled.2, congrArg (fun text => Except.ok (text, filled.2)) (Except.ok.inj h)⟩
      · rintro ⟨numbering, h⟩
        rw [Except.ok.inj h]
        rfl

/-- A template that is filled without attributes is filled alike with them. -/
theorem fill_of_none (h : pieces.fill .none snippets = .ok out) :
    pieces.fill attributes snippets = .ok out := by
  obtain ⟨numbering, hfilled⟩ := fill_eq_ok_iff.1 h
  exact fill_eq_ok_iff.2 ⟨numbering, fillFrom_of_none (fun _ _ _ => expand_of_none 1) hfilled⟩

/-- Filled without attributes, exactly the texts without braces are templates for themselves. -/
theorem fill_ofText_eq_iff (hsnippets : ∀ s ∈ snippets, Braceless s) :
    (ofText text).fill .none snippets = .ok text ↔ Braceless text := by
  constructor
  · intro h
    obtain ⟨numbering, hfilled⟩ := fill_eq_ok_iff.1 h
    exact (spent_of_fillFrom (spends_expand hsnippets 1) hsnippets hfilled).braceless
  · exact fill_ofText_of_no_brace .none text snippets

end Filled

end BracketCalc.Template
