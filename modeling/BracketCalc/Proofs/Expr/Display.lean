import BracketCalc.Expr.Layout
import BracketCalc.Proofs.Expr.RoundTrip
import BracketCalc.Proofs.Source.Joined
/-!
# Reading what was displayed

A displayed tree is read as the tree.  Where literals go on behind newlines, it
is the indentation that ends them: a literal inside a group is followed by the
spaces before the next line, or by a bracket.  A tree that is displayed left of
the margin lacks these spaces, and is read where newlines separate.

Highlighting a tree changes its brackets and nothing else.
-/

namespace BracketCalc

open Token Source

/-- A character of a displayed tree, highlighted if it is a bracket. -/
def Expr.highlighted (highlight : Text → Text) (c : Char) : Text :=
  if c = '(' ∨ c = ')' then highlight [c] else [c]

/-- The text is read as the tree, unless its groups are nested too deeply. -/
def Tree.ReadBack (newlines : Newlines) (text : Text) (e : Tree) : Prop :=
  ∃ t : Tree, t.same e = true ∧ ofTokens (lex newlines text) = .ok t ∧
    parse newlines text = if e.height ≤ nestingLimit then .ok t else .error .tooDeep

/-- No literal goes on in the text, behind a newline. -/
def Token.Fenced (newlines : Newlines) (text : Text) : Prop := newlines = .merge → ¬ Sticks text

variable {newlines : Newlines} {text rest : Text} {indent : Int} {c : Char} {e : Tree}
  {items : List Tree} {highlight : Text → Text}

/-! ### Lines -/

namespace Token

theorem fenced_nil : Fenced newlines [] := nofun

theorem fenced_cons (h : newlines.role c ≠ .letter) (hc : c ≠ '\n') :
    Fenced newlines (c :: rest) := by
  rintro rfl (hletter | _)
  · exact h (role_letter hletter)
  · exact hc rfl

theorem kindsFrom_newline (h : Fenced newlines rest) (letters : Text) :
    kindsFrom newlines letters ('\n' :: rest) =
      pendingKind letters ++ kindsFrom newlines [] rest := by
  cases newlines with
  | separate => rfl
  | merge => exact kindsFrom_of_not_sticks (h rfl) letters

theorem kindsFrom_nil_newline (rest : Text) :
    kindsFrom newlines [] ('\n' :: rest) = kindsFrom newlines [] rest := by
  cases newlines <;> rfl

theorem kindsFrom_letters (h : ∀ c ∈ text, newlines.role c = .letter) (letters rest : Text) :
    kindsFrom newlines letters (text ++ rest) =
      kindsFrom newlines (text.reverse ++ letters) rest := by
  induction text generalizing letters with
  | nil => rfl
  | cons c more ih =>
      obtain ⟨hc, hmore⟩ := List.forall_mem_cons.1 h
      rw [List.cons_append, kindsFrom, hc, List.reverse_cons, List.append_assoc]
      exact ih hmore (c :: letters)

end Token

namespace Expr

theorem fenced_margin (h : 0 < indent) (text : Text) : Fenced newlines (margin indent ++ text) := by
  obtain ⟨count, hcount⟩ : ∃ count, 4 * indent.toNat = count + 1 := ⟨4 * indent.toNat - 1, by omega⟩
  rw [margin, hcount, Text.spaces, List.replicate_succ]
  exact fenced_cons (by cases newlines <;> simp [Newlines.role]) (by decide)

theorem fenced_right (indent : Int) (rest : Text) :
    Fenced newlines (line indent [')'] ++ rest) := by
  by_cases h : 0 < indent
  · rw [line, List.append_assoc, List.append_assoc]
    exact fenced_margin h _
  · have hmargin : margin indent = [] := by
      rw [margin, Int.toNat_of_nonpos (by omega)]
      rfl
    rw [line, hmargin]
    exact fenced_cons (by cases newlines <;> simp [Newlines.role]) (by decide)

theorem kindsFrom_line (text : Text) :
    kindsFrom newlines [] (line indent text ++ rest) =
      kindsFrom newlines [] (text ++ '\n' :: rest) := by
  rw [line, List.append_assoc, List.append_assoc]
  exact kindsFrom_spaces (fun c hc => List.eq_of_mem_replicate hc) _

theorem kindsFrom_literal (h : text.Unbroken) (hrest : Fenced newlines rest) :
    kindsFrom newlines [] (line indent text ++ rest) =
      .literal text :: kindsFrom newlines [] rest := by
  rw [kindsFrom_line, kindsFrom_letters (Tree.role_letter_of_unbroken h), kindsFrom_newline hrest]
  simp [pendingKind, h.1]

theorem kindsFrom_left :
    kindsFrom newlines [] (line indent ['('] ++ rest) = .left :: kindsFrom newlines [] rest := by
  rw [kindsFrom_line, ← kindsFrom_nil_newline rest]
  rfl

theorem kindsFrom_right :
    kindsFrom newlines [] (line indent [')'] ++ rest) = .right :: kindsFrom newlines [] rest := by
  rw [kindsFrom_line, ← kindsFrom_nil_newline rest]
  rfl

/-! ### The tokens of a displayed tree -/

theorem exists_render_eq_margin (highlight : Text → Text) (indent : Int) (e : Tree) :
    ∃ more, e.render highlight indent = margin indent ++ more := by
  cases e with
  | literal text span => exact ⟨_, List.append_assoc ..⟩
  | group items span depth =>
      rw [render, line, List.append_assoc, List.append_assoc, List.append_assoc]
      exact ⟨_, rfl⟩
  | foreign value => exact value.elim

/-- The displayed tree has the tokens of the tree, in front of any text in which no literal goes
on. -/
def Shows (newlines : Newlines) (indent : Int) (e : Tree) : Prop :=
  ∀ rest, Fenced newlines rest →
    kindsFrom newlines [] (e.render id indent ++ rest) = e.kinds ++ kindsFrom newlines [] rest

theorem kindsFrom_items (hindent : newlines = .merge → 0 < indent)
    (h : ∀ e ∈ items, Shows newlines indent e) (hrest : Fenced newlines rest) :
    kindsFrom newlines [] (renderItems id indent items ++ rest) =
      kindsOf items ++ kindsFrom newlines [] rest := by
  induction items with
  | nil => rfl
  | cons e items ih =>
      obtain ⟨he, hitems⟩ := List.forall_mem_cons.1 h
      have hbehind : Fenced newlines (renderItems id indent items ++ rest) := by
        cases items with
        | nil => exact hrest
        | cons next items =>
            obtain ⟨more, hmore⟩ := exists_render_eq_margin id indent next
            rw [renderItems, hmore, List.append_assoc, List.append_assoc]
            intro hmerge
            exact fenced_margin (hindent hmerge) _ hmerge
      rw [renderItems, List.append_assoc, he _ hbehind, ih hitems, kindsOf, List.append_assoc]

theorem shows_of_legible (h : Tree.Legible e) (hindent : newlines = .merge → 0 ≤ indent) :
    Shows newlines indent e := by
  induction e using Expr.induction generalizing indent with
  | literal text span =>
      cases h with
      | literal htext => exact fun rest hrest => kindsFrom_literal htext hrest
  | group items span depth ih =>
      cases h with
      | group hitems =>
          intro rest hrest
          -- whatever the margin of the group, that of its items is not empty
          have hinside : newlines = .merge → 0 < indent + 1 := fun hmerge => by
            have hmargin := hindent hmerge
            omega
          have hshows : ∀ e ∈ items, Shows newlines (indent + 1) e := fun e he =>
            ih e he (hitems e he) fun hmerge => Int.le_of_lt (hinside hmerge)
          rw [render, List.append_assoc, List.append_assoc, id, id, kindsFrom_left,
            kindsFrom_items hinside hshows (fenced_right indent rest), kindsFrom_right, kinds,
            List.cons_append, List.append_assoc]
          rfl
  | foreign value => exact value.elim

/-! ### Highlighting -/

theorem flatMap_highlighted (h : ∀ c ∈ text, c ≠ '(' ∧ c ≠ ')') :
    text.flatMap (highlighted highlight) = text := by
  induction text with
  | nil => rfl
  | cons c rest ih =>
      obtain ⟨hc, hrest⟩ := List.forall_mem_cons.1 h
      rw [List.flatMap_cons, ih hrest, highlighted, if_neg (not_or.2 hc)]
      rfl

theorem flatMap_line (indent : Int) (text : Text) :
    (line indent text).flatMap (highlighted highlight) =
      line indent (text.flatMap (highlighted highlight)) := by
  have hmargin : ∀ c ∈ margin indent, c ≠ '(' ∧ c ≠ ')' := by
    intro c hc
    rw [List.eq_of_mem_replicate hc]
    decide
  rw [line, List.flatMap_append, List.flatMap_append, flatMap_highlighted hmargin]
  rfl

theorem flatMap_bracket (h : c = '(' ∨ c = ')') :
    [c].flatMap (highlighted highlight) = highlight [c] := by
  rw [List.flatMap_singleton, highlighted, if_pos h]

theorem render_highlight (h : Tree.Legible e) (highlight : Text → Text) (indent : Int) :
    e.render highlight indent = (e.render id indent).flatMap (highlighted highlight) := by
  induction e using Expr.induction generalizing indent with
  | literal text span =>
      cases h with
      | literal htext =>
          rw [render, render, flatMap_line,
            flatMap_highlighted fun c hc => ⟨(htext.2 c hc).2.2.1, (htext.2 c hc).2.2.2⟩]
  | group items span depth ih =>
      cases h with
      | group hitems =>
          have hinside : renderItems highlight (indent + 1) items =
              (renderItems id (indent + 1) items).flatMap (highlighted highlight) := by
            rw [renderItems_eq_flatMap, renderItems_eq_flatMap, List.flatMap_assoc]
            exact List.flatMap_congr fun e he => ih e he (hitems e he) (indent + 1)
          rw [render, render, List.flatMap_append, List.flatMap_append, flatMap_line, flatMap_line,
            id, id, flatMap_bracket (.inl rfl), flatMap_bracket (.inr rfl), hinside]
  | foreign value => exact value.elim

end Expr

/-! ### The round trip -/

namespace Tree

theorem readBack_of_shows (h : Expr.Shows newlines indent e) :
    ReadBack newlines (e.render id indent) e := by
  have hkinds : (lex newlines (e.render id indent)).map Token.kind = e.kinds := by
    have hshown := h [] fenced_nil
    rw [List.append_nil] at hshown
    rw [map_kind_lex, hshown]
    exact List.append_nil _
  exact exists_parse_of_map_kind hkinds

end Tree

end BracketCalc
