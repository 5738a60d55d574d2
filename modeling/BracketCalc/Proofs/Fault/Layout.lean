import BracketCalc.Proofs.Expr.Mishap
import BracketCalc.Proofs.Fault.Placed
import BracketCalc.Proofs.Token.Newlines
/-!
# Layout

How the tokens of a text are laid out decides the places of trees and faults and
nothing else: two texts whose tokens are the same come to equal trees that are
shown alike, and to the same value, or they stop with the same message.

In particular a text may be written without newlines.  Where literals go on
behind newlines these are deleted, and where newlines separate they become
spaces.
-/

namespace BracketCalc

/-- Both are reasons of the same kind with the same message.  Of faults nothing but the spans may
differ. -/
def Stop.Alike : Stop → Stop → Prop
  | .fault a, .fault b => { a with span := b.span } = b
  | a, b => a = b

/-- The trees are equal and are shown alike. -/
structure Tree.Alike (t u : Tree) : Prop where
  same : t.same u = true
  nesting : t.nesting = u.nesting
  text : t.text = u.text
  render : ∀ highlight indent, t.render highlight indent = u.render highlight indent

/-- Both give results, which are related, or both stop for reasons that are alike. -/
def Agree {β : Type} (R : β → β → Prop) : Except Stop β → Except Stop β → Prop
  | .ok x, .ok y => R x y
  | .error reason, .error reason' => reason.Alike reason'
  | _, _ => False

/-- The tree that a text is read as, or the reason to stop. -/
def readTree (host : Host) (newlines : Newlines) (text : Text) : Except Stop Tree :=
  (Tree.parse newlines text).mapError (ParseError.stop host)

/-- The value of a tree, or the reason to stop. -/
def Tree.valueOrStop (host : Host) (t : Tree) : Except Stop Float :=
  t.value.mapError (EvalError.stop host)

variable {f g : Int → Int} {host : Host} {newlines newlines' : Newlines} {a b : Text}
  {t u : Tree}

/-! ### The same up to places -/

theorem Stop.alike_of_placed {reason reason' : Stop} (h : reason.placed f = reason'.placed g) :
    reason.Alike reason' := by
  cases reason with
  | fault told =>
      cases reason' with
      | fault told' =>
          obtain ⟨topic, message, styled, subject, span, located, internal⟩ := told
          obtain ⟨topic', message', styled', subject', span', located', internal'⟩ := told'
          simp_all [Stop.placed, Fault.placed, Alike]
      | _ => cases h
  | _ => cases reason' <;> first | cases h; rfl | cases h

theorem Tree.alike_of_placed (h : t.placed f = u.placed g) : Alike t u where
  same := by rw [Expr.same_iff, ← Expr.bare_placed (f := f), h, Expr.bare_placed]
  nesting := by rw [← Expr.nesting_placed (f := f), h, Expr.nesting_placed]
  text := by rw [← Expr.text_placed (f := f), h, Expr.text_placed]
  render highlight indent := by
    rw [← Expr.render_placed (f := f), h, Expr.render_placed]

theorem ParseError.alike_of_placed {e e' : ParseError} (hf : f 0 = 0) (hg : g 0 = 0)
    (h : e.placed f = e'.placed g) (host : Host) :
    (e.stop host).Alike (e'.stop host) := by
  apply Stop.alike_of_placed (f := f) (g := g)
  rw [stop_placed hf, stop_placed hg, h]

theorem agree_readTree (hf : f 0 = 0) (hg : g 0 = 0) (host : Host)
    (h : Tree.placedResult f (Tree.parse newlines a) =
      Tree.placedResult g (Tree.parse newlines' b)) :
    Agree Tree.Alike (readTree host newlines a) (readTree host newlines' b) := by
  unfold readTree
  cases ha : Tree.parse newlines a with
  | error e =>
      cases hb : Tree.parse newlines' b with
      | error e' =>
          rw [ha, hb] at h
          exact ParseError.alike_of_placed hf hg (Except.error.inj h) host
      | ok u => simp [ha, hb, Tree.placedResult] at h
  | ok t =>
      cases hb : Tree.parse newlines' b with
      | error e => simp [ha, hb, Tree.placedResult] at h
      | ok u =>
          rw [ha, hb] at h
          exact Tree.alike_of_placed (Except.ok.inj h)

theorem agree_of_mapError {x y : Except Stop Float}
    (h : x.mapError (Stop.placed f) = y.mapError (Stop.placed g)) : Agree (· = ·) x y := by
  cases x with
  | error reason =>
      cases y with
      | error reason' => exact Stop.alike_of_placed (Except.error.inj h)
      | ok v => cases h
  | ok u =>
      cases y with
      | error reason => cases h
      | ok v => exact Except.ok.inj h

theorem Tree.mapError_valueOrStop (host : Host) (t : Tree) :
    (valueOrStop host t).mapError (Stop.placed f) =
      (t.placed f).value.mapError fun e => (e.stop host).placed id := by
  unfold valueOrStop
  rw [Expr.value_placed]
  cases t.value with
  | error e => exact congrArg Except.error (EvalError.stop_placed e)
  | ok x => rfl

theorem Tree.agree_valueOrStop (h : t.placed f = u.placed g) (host : Host) :
    Agree (· = ·) (valueOrStop host t) (valueOrStop host u) := by
  apply agree_of_mapError (f := f) (g := g)
  rw [mapError_valueOrStop, mapError_valueOrStop, h]

/-! ### The same tokens -/

open Token

/-- Texts with the same tokens have trees that are alike and have the same value, or they stop for
reasons that are alike. -/
theorem agree_of_same_tokens (host : Host)
    (h : (lex newlines a).map kind = (lex newlines' b).map kind) :
    Agree Tree.Alike (readTree host newlines a) (readTree host newlines' b) ∧
      ∀ t u, Tree.parse newlines a = .ok t → Tree.parse newlines' b = .ok u →
        Agree (· = ·) (t.valueOrStop host) (u.valueOrStop host) := by
  have hparse := Tree.parse_of_map_kind h
  refine ⟨agree_readTree rfl rfl host hparse, fun t u ht hu => ?_⟩
  rw [ht, hu] at hparse
  exact Tree.agree_valueOrStop (Except.ok.inj hparse) host

/-- A literal that goes on behind a newline is written on one line, with other blanks around. -/
theorem agree_of_same_tokens_on_one_line :
    (lex .merge "(+ 1\n2 ())".toList).map kind = (lex .separate "(+\n12( ) ) ".toList).map kind ∧
      ∃ t u : Tree, Tree.parse .merge "(+ 1\n2 ())".toList = .ok t ∧
        Tree.parse .separate "(+\n12( ) ) ".toList = .ok u ∧ t.Alike u ∧
        Agree (· = ·) (t.valueOrStop .plain) (u.valueOrStop .plain) := by
  have hkinds : (lex .merge "(+ 1\n2 ())".toList).map kind =
      (lex .separate "(+\n12( ) ) ".toList).map kind := rfl
  obtain ⟨hread, hvalue⟩ := agree_of_same_tokens .plain hkinds
  exact ⟨hkinds, _, _, rfl, rfl, hread, hvalue _ _ rfl rfl⟩

/-! ### Texts without newlines -/

theorem map_placed_lex_withoutNewlines (newlines : Newlines) (text : Text) :
    (lex .merge text).map (Token.placed fun offset => text.kept offset.toNat) =
      (lex newlines text.withoutNewlines).map (Token.placed id) := by
  rw [← map_moved_lex, List.map_map]
  rfl

theorem Tree.parse_congr (h : lex newlines a = lex newlines' b) :
    parse newlines a = parse newlines' b := by
  rw [parse, parse, h]

/-- Where literals go on behind newlines, a text has the tokens that it has without its newlines,
each moved to where its characters are taken, and where newlines separate it has the tokens that it
has with spaces for newlines.  It comes to what comes of the text without newlines. -/
theorem newlines_reduce (host : Host) (newlines : Newlines) (text : Text) :
    ((lex .merge text).map (Token.moved text.kept) = lex newlines text.withoutNewlines ∧
        (∀ t ∈ lex .merge text, ∃ c, text[t.span.start.toNat]? = some c ∧ c ≠ '\n') ∧
        Agree Tree.Alike (readTree host .merge text)
          (readTree host newlines text.withoutNewlines) ∧
        Agree (· = ·) (evaluate host .merge text)
          (evaluate host newlines text.withoutNewlines)) ∧
      lex .separate text = lex newlines text.newlinesAsSpaces ∧
        Tree.parse .separate text = Tree.parse newlines text.newlinesAsSpaces ∧
        evaluate host .separate text = evaluate host newlines text.newlinesAsSpaces := by
  have hmoved := map_placed_lex_withoutNewlines newlines text
  have hspaces := (lex_newlinesAsSpaces newlines text).symm
  have hparse := Tree.parse_congr hspaces
  refine ⟨⟨map_moved_lex newlines text, fun t ht => ?_, ?_, ?_⟩, hspaces, hparse, ?_⟩
  · obtain ⟨c, hc, -, -, hnewline⟩ := (stands_of_mem_lex ht).exists_first
    exact ⟨c, hc, hnewline⟩
  · exact agree_readTree rfl rfl host (Tree.parse_placed hmoved)
  · exact agree_of_mapError (evaluate_placed host rfl rfl hmoved)
  · rw [evaluate, evaluate, hparse]

end BracketCalc
