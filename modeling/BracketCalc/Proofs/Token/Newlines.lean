import BracketCalc.Proofs.Token.Lexes
/-!
# Texts without newlines

A newline that literals go on behind may as well be deleted, and a newline that
separates may as well be a space.  In the first case each token moves to where
the deletion takes its characters, in the second none moves.
-/

namespace BracketCalc

namespace Text

def withoutNewlines (text : Text) : Text := text.filter (· ≠ '\n')

def newlinesAsSpaces (text : Text) : Text := text.map fun c => if c = '\n' then ' ' else c

/-- Where the deletion of the newlines takes an offset of the text. -/
def kept (text : Text) (offset : Nat) : Nat := (withoutNewlines (text.take offset)).length

theorem withoutNewlines_cons (c : Char) (rest : Text) :
    withoutNewlines (c :: rest) =
      if c = '\n' then withoutNewlines rest else c :: withoutNewlines rest := by
  by_cases h : c = '\n' <;> simp [withoutNewlines, h]

theorem length_withoutNewlines_concat (front : Text) (c : Char) :
    (withoutNewlines (front ++ [c])).length =
      if c = '\n' then (withoutNewlines front).length else (withoutNewlines front).length + 1 := by
  by_cases h : c = '\n' <;> simp [withoutNewlines, h]

theorem kept_length {text front rest : Text} (h : text = front ++ rest) :
    kept text front.length = (withoutNewlines front).length := by
  rw [kept, h, List.take_left]

end Text

namespace Newlines

/-- Only newlines have different roles. -/
theorem role_eq_of_ne {c : Char} (h : c ≠ '\n') (a b : Newlines) : a.role c = b.role c := by
  simp [role, h]

theorem role_newlinesAsSpaces (newlines : Newlines) (c : Char) :
    newlines.role (if c = '\n' then ' ' else c) = separate.role c := by
  by_cases h : c = '\n'
  · rw [if_pos h, h]
    cases newlines <;> rfl
  · rw [if_neg h]
    exact role_eq_of_ne h ..

end Newlines

namespace Token

/-- The token with its span taken elsewhere. -/
def moved (f : Nat → Nat) (t : Token) : Token :=
  ⟨t.kind, ⟨f t.span.start.toNat, f t.span.stop.toNat⟩⟩

def Unfinished.moved (f : Nat → Nat) (u : Unfinished) : Unfinished := ⟨f u.start, u.letters⟩

variable {whole front text : Text}

theorem map_moved_flush (f : Nat → Nat) (stop : Nat) (current : Option Unfinished) :
    (flush stop current).map (moved f) = flush (f stop) (current.map (Unfinished.moved f)) := by
  cases current <;> rfl

theorem moved_extend (f : Nat → Nat) (offset : Nat) (c : Char) (current : Option Unfinished) :
    (extend offset c current).moved f = extend (f offset) c (current.map (Unfinished.moved f)) := by
  cases current <;> rfl

/-- Both scans go on in step, with a literal that is being read begun at the same character. -/
theorem map_moved_lexFrom (newlines : Newlines) (hwhole : whole = front ++ text)
    (current : Option Unfinished) :
    (lexFrom .merge front.length current text).map (moved whole.kept) =
      lexFrom newlines front.withoutNewlines.length (current.map (Unfinished.moved whole.kept))
        text.withoutNewlines := by
  induction text generalizing front current with
  | nil =>
      rw [lexFrom, map_moved_flush, Text.kept_length hwhole]
      rfl
  | cons c rest ih =>
      have hnext : whole = front ++ [c] ++ rest := by rw [hwhole, List.append_assoc]; rfl
      have hkept := Text.kept_length hwhole
      have hkeptNext := Text.kept_length hnext
      have hrest := ih hnext
      rw [List.length_append, List.length_singleton] at hrest hkeptNext
      rw [Text.length_withoutNewlines_concat] at hrest hkeptNext
      rw [Text.withoutNewlines_cons]
      by_cases hc : c = '\n'
      · -- the newline is passed over by the one scan and not met by the other
        subst hc
        exact hrest current
      · rw [if_neg hc] at hrest hkeptNext ⊢
        rw [lexFrom, lexFrom, Newlines.role_eq_of_ne hc .merge newlines]
        cases newlines.role c with
        | letter => rw [hrest, Option.map_some, moved_extend, hkept]
        | skipped => exact hrest current
        | separator => simp [map_moved_flush, hrest, hkept]
        | left => simp [map_moved_flush, hrest, hkept, hkeptNext, moved, Token.left]
        | right => simp [map_moved_flush, hrest, hkept, hkeptNext, moved, Token.right]

/-- Where literals go on behind newlines, these may be deleted. -/
theorem map_moved_lex (newlines : Newlines) (text : Text) :
    (lex .merge text).map (moved text.kept) = lex newlines text.withoutNewlines :=
  map_moved_lexFrom newlines (List.nil_append text).symm none

theorem lexFrom_newlinesAsSpaces (newlines : Newlines) (offset : Nat)
    (current : Option Unfinished) (text : Text) :
    lexFrom newlines offset current text.newlinesAsSpaces =
      lexFrom .separate offset current text := by
  induction text generalizing offset current with
  | nil => rfl
  | cons c rest ih =>
      have hcons : Text.newlinesAsSpaces (c :: rest) =
          (if c = '\n' then ' ' else c) :: Text.newlinesAsSpaces rest := rfl
      rw [hcons, lexFrom, lexFrom, Newlines.role_newlinesAsSpaces]
      cases hrole : Newlines.separate.role c with
      | letter =>
          have hc : c ≠ '\n' := (Newlines.role_eq_letter_iff.1 hrole).2.1
          rw [if_neg hc]
          exact ih ..
      | skipped => exact ih ..
      | separator => exact congrArg (flush offset current ++ ·) (ih ..)
      | left => exact congrArg (flush offset current ++ Token.left offset :: ·) (ih ..)
      | right => exact congrArg (flush offset current ++ Token.right offset :: ·) (ih ..)

/-- Where newlines separate, they may be spaces. -/
theorem lex_newlinesAsSpaces (newlines : Newlines) (text : Text) :
    lex newlines text.newlinesAsSpaces = lex .separate text :=
  lexFrom_newlinesAsSpaces newlines 0 none text

end Token

end BracketCalc
