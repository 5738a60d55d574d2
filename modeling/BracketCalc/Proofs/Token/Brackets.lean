import BracketCalc.Token.Basic
import Mathlib.Data.List.Infix
/-!
# Brackets among tokens

Brackets are counted, and a right bracket is surplus when more right than left
brackets stand up to it.  Tokens are balanced when none of their brackets is
surplus and none stays open.

* `balanced_or_closed_or_unclosed`: all other tokens have either a first
  surplus bracket or a last bracket that stays open, and what stands before the
  one or behind the other is balanced;
* `Balanced.cases`: balanced tokens begin with no bracket or with a group.
-/

namespace BracketCalc.Token

def lefts (tokens : List Token) : Nat := tokens.countP (·.kind = .left)

def rights (tokens : List Token) : Nat := tokens.countP (·.kind = .right)

/-- Each token is a bracket or a literal. -/
def Known (tokens : List Token) : Prop := ∀ t ∈ tokens, t.kind ≠ .other

/-- No first part of the tokens has more right than left brackets. -/
def NoSurplus (tokens : List Token) : Prop :=
  ∀ front, front <+: tokens → rights front ≤ lefts front

structure Balanced (tokens : List Token) : Prop where
  noSurplus : NoSurplus tokens
  even : lefts tokens = rights tokens

/-- Whether a left bracket before these tokens is matched by one of them, the first right bracket
with balanced tokens before it. -/
def Closed (tokens : List Token) : Prop :=
  ∃ inside closing rest, tokens = inside ++ closing :: rest ∧ Balanced inside ∧
    closing.kind = .right

/-- The token behind which there are more right than left brackets for the first time. -/
def FirstSurplus (tokens : List Token) (t : Token) : Prop :=
  ∃ front rest, tokens = front ++ t :: rest ∧ NoSurplus front ∧
    lefts (front ++ [t]) < rights (front ++ [t])

/-- The last left bracket that no right bracket matches. -/
def LastUnclosed (tokens : List Token) (t : Token) : Prop :=
  ∃ front rest, tokens = front ++ t :: rest ∧ t.kind = .left ∧ ¬ Closed rest ∧
    ∀ between opening behind, rest = between ++ opening :: behind → opening.kind = .left →
      Closed behind

/-- The first token is a left bracket, and the last token is the bracket that matches it. -/
def Enclosed (tokens : List Token) : Prop :=
  ∃ opening inside closing, tokens = opening :: (inside ++ [closing]) ∧ opening.kind = .left ∧
    Balanced inside ∧ closing.kind = .right

variable {tokens front rest inside : List Token} {t opening closing : Token}

/-! ### Counting -/

@[simp] theorem lefts_nil : lefts [] = 0 := rfl

@[simp] theorem rights_nil : rights [] = 0 := rfl

@[simp] theorem lefts_append (a b : List Token) : lefts (a ++ b) = lefts a + lefts b := by
  simp [lefts]

@[simp] theorem rights_append (a b : List Token) : rights (a ++ b) = rights a + rights b := by
  simp [rights]

theorem lefts_cons (t : Token) (rest : List Token) :
    lefts (t :: rest) = lefts rest + if t.kind = .left then 1 else 0 := by
  simp [lefts, List.countP_cons]

theorem rights_cons (t : Token) (rest : List Token) :
    rights (t :: rest) = rights rest + if t.kind = .right then 1 else 0 := by
  simp [rights, List.countP_cons]

theorem known_append {a b : List Token} : Known (a ++ b) ↔ Known a ∧ Known b := by
  simp [Known, or_imp, forall_and]

theorem known_cons : Known (t :: rest) ↔ t.kind ≠ .other ∧ Known rest := by
  simp [Known]

/-! ### Tokens without a surplus bracket -/

theorem noSurplus_nil : NoSurplus [] := by
  intro front hfront
  rw [List.prefix_nil.1 hfront]
  exact Nat.le_refl 0

theorem NoSurplus.left (h : NoSurplus (front ++ rest)) : NoSurplus front := by
  intro part hpart
  exact h part (hpart.trans (List.prefix_append front rest))

theorem noSurplus_concat :
    NoSurplus (tokens ++ [t]) ↔
      NoSurplus tokens ∧ rights (tokens ++ [t]) ≤ lefts (tokens ++ [t]) := by
  constructor
  · intro h
    exact ⟨h.left, h _ (List.prefix_refl _)⟩
  · rintro ⟨hfront, hwhole⟩ part hpart
    rcases List.prefix_concat_iff.1 hpart with rfl | hpart
    · exact hwhole
    · exact hfront part hpart

theorem NoSurplus.append (hfront : NoSurplus front)
    (hrest : ∀ part, part <+: rest → rights (front ++ part) ≤ lefts (front ++ part)) :
    NoSurplus (front ++ rest) := by
  intro part hpart
  rcases List.prefix_or_prefix_of_prefix hpart (List.prefix_append front rest) with h | ⟨more, rfl⟩
  · exact hfront part h
  · exact hrest more ((List.prefix_append_right_inj front).1 hpart)

/-! ### Balanced tokens -/

theorem balanced_nil : Balanced [] := ⟨noSurplus_nil, rfl⟩

theorem NoSurplus.append_balanced (hfront : NoSurplus front) (hrest : Balanced rest) :
    NoSurplus (front ++ rest) := by
  refine hfront.append fun part hpart => ?_
  have hwhole := hfront front (List.prefix_refl front)
  have hpart := hrest.noSurplus part hpart
  rw [rights_append, lefts_append]
  omega

theorem Balanced.append (hfront : Balanced front) (hrest : Balanced rest) :
    Balanced (front ++ rest) := by
  refine ⟨hfront.noSurplus.append_balanced hrest, ?_⟩
  rw [lefts_append, rights_append, hfront.even, hrest.even]

theorem balanced_singleton (hleft : t.kind ≠ .left) (hright : t.kind ≠ .right) :
    Balanced [t] := by
  have heven : lefts [t] = rights [t] := by
    rw [lefts_cons, rights_cons, if_neg hleft, if_neg hright, lefts_nil, rights_nil]
  exact ⟨noSurplus_concat.2 ⟨noSurplus_nil, heven.ge⟩, heven⟩

theorem NoSurplus.concat_left (h : NoSurplus front) (hopening : opening.kind = .left) :
    NoSurplus (front ++ [opening]) := by
  have hwhole := h front (List.prefix_refl front)
  refine noSurplus_concat.2 ⟨h, ?_⟩
  simp only [lefts_append, rights_append, lefts_cons, rights_cons, hopening, reduceCtorEq,
    if_false, if_true, lefts_nil, rights_nil]
  omega

theorem Balanced.enclose (hopening : opening.kind = .left) (hinside : Balanced inside)
    (hclosing : closing.kind = .right) : Balanced (opening :: (inside ++ [closing])) := by
  have hfront : NoSurplus ([opening] ++ inside) :=
    (noSurplus_nil.concat_left hopening).append_balanced hinside
  have heven : lefts (opening :: (inside ++ [closing])) =
      rights (opening :: (inside ++ [closing])) := by
    simp [lefts_cons, rights_cons, hopening, hclosing, hinside.even]
  exact ⟨noSurplus_concat.2 ⟨hfront, heven.ge⟩, heven⟩

theorem NoSurplus.not_closed (h : NoSurplus tokens) : ¬ Closed tokens := by
  rintro ⟨inside, closing, rest, rfl, hinside, hclosing⟩
  have hsurplus := h (inside ++ [closing]) ⟨rest, by simp⟩
  have heven := hinside.even
  simp only [lefts_append, rights_append, lefts_cons, rights_cons, hclosing, reduceCtorEq,
    if_false, if_true, lefts_nil, rights_nil] at hsurplus
  omega

theorem Balanced.right (h : Balanced (front ++ rest)) (hfront : Balanced front) :
    Balanced rest := by
  have hcount := hfront.even
  constructor
  · intro part hpart
    have hwhole := h.noSurplus (front ++ part) ((List.prefix_append_right_inj front).2 hpart)
    rw [lefts_append, rights_append] at hwhole
    omega
  · have hwhole := h.even
    rw [lefts_append, rights_append] at hwhole
    omega

/-! ### The first surplus and the last open bracket -/

theorem noSurplus_of_unclosed (hfront : NoSurplus front) (hopening : opening.kind = .left)
    (hinside : Balanced inside) : NoSurplus (front ++ opening :: inside) := by
  rw [List.append_cons]
  exact (hfront.concat_left hopening).append_balanced hinside

/-- Tokens are balanced, or a first right bracket closes nothing, or a last left bracket stays
open. -/
theorem balanced_or_closed_or_unclosed (tokens : List Token) :
    Balanced tokens ∨ Closed tokens ∨
      ∃ front opening inside, tokens = front ++ opening :: inside ∧ NoSurplus front ∧
        opening.kind = .left ∧ Balanced inside := by
  -- A right bracket at the end makes a group with what the last open bracket encloses, and then
  -- what stands before the group decides: the induction is on the number of tokens.
  induction hlength : tokens.length using Nat.strong_induction_on generalizing tokens with
  | _ n ih =>
      rcases List.eq_nil_or_concat tokens with rfl | ⟨init, last, rfl⟩
      · exact .inl balanced_nil
      rw [List.concat_eq_append] at hlength ⊢
      have hshorter : init.length < n := by simp at hlength; omega
      rcases ih init.length hshorter init rfl with hinit | hinit | hinit
      · -- everything before the last token is balanced
        by_cases hleft : last.kind = .left
        · exact .inr (.inr ⟨init, last, [], rfl, hinit.noSurplus, hleft, balanced_nil⟩)
        by_cases hright : last.kind = .right
        · exact .inr (.inl ⟨init, last, [], rfl, hinit, hright⟩)
        · exact .inl (hinit.append (balanced_singleton hleft hright))
      · obtain ⟨inside, closing, rest, rfl, hinside, hclosing⟩ := hinit
        exact .inr (.inl ⟨inside, closing, rest ++ [last], by simp, hinside, hclosing⟩)
      · obtain ⟨front, opening, inside, rfl, hfront, hopening, hinside⟩ := hinit
        have hinit := noSurplus_of_unclosed hfront hopening hinside
        by_cases hleft : last.kind = .left
        · exact .inr (.inr ⟨_, last, [], rfl, hinit, hleft, balanced_nil⟩)
        by_cases hright : last.kind = .right
        · have hgroup := hinside.enclose hopening hright
          have hfewer : front.length < n := by simp at hshorter; omega
          rcases ih front.length hfewer front rfl with h | h | h
          · left
            simpa using h.append hgroup
          · exact absurd h hfront.not_closed
          · obtain ⟨front, outer, behind, rfl, hfront, houter, hbehind⟩ := h
            exact .inr (.inr ⟨front, outer, behind ++ opening :: (inside ++ [last]), by simp,
              hfront, houter, hbehind.append hgroup⟩)
        · exact .inr (.inr ⟨front, opening, inside ++ [last], by simp, hfront, hopening,
            hinside.append (balanced_singleton hleft hright)⟩)

theorem rights_lt_lefts_of_unclosed (hfront : NoSurplus front) (hopening : opening.kind = .left)
    (hinside : Balanced inside) :
    rights (front ++ opening :: inside) < lefts (front ++ opening :: inside) := by
  have hcount := hfront front (List.prefix_refl front)
  have heven := hinside.even
  simp only [lefts_append, rights_append, lefts_cons, rights_cons, hopening, reduceCtorEq,
    if_false, if_true]
  omega

theorem Balanced.cases (h : Balanced tokens) :
    tokens = [] ∨
      (∃ t rest, tokens = t :: rest ∧ t.kind ≠ .left ∧ t.kind ≠ .right ∧ Balanced rest) ∨
      ∃ opening inside closing rest, tokens = opening :: (inside ++ closing :: rest) ∧
        opening.kind = .left ∧ Balanced inside ∧ closing.kind = .right ∧ Balanced rest := by
  cases tokens with
  | nil => exact .inl rfl
  | cons t rest =>
      right
      have hfirst := h.noSurplus [t] ⟨rest, rfl⟩
      have hcount := h.even
      by_cases hleft : t.kind = .left
      · right
        simp only [lefts_cons, rights_cons, hleft, reduceCtorEq, if_false, if_true] at hcount
        rcases balanced_or_closed_or_unclosed rest with hrest | hrest | hrest
        · have heven := hrest.even
          omega
        · obtain ⟨inside, closing, behind, rfl, hinside, hclosing⟩ := hrest
          refine ⟨t, inside, closing, behind, rfl, hleft, hinside, hclosing, ?_⟩
          have hwhole : Balanced ((t :: (inside ++ [closing])) ++ behind) := by simpa using h
          exact hwhole.right (hinside.enclose hleft hclosing)
        · obtain ⟨front, opening, inside, rfl, hfront, hopening, hinside⟩ := hrest
          have hmore := rights_lt_lefts_of_unclosed hfront hopening hinside
          omega
      · left
        have hright : t.kind ≠ .right := by
          intro hright
          simp [lefts_cons, rights_cons, hright] at hfirst
        have hwhole : Balanced ([t] ++ rest) := h
        exact ⟨t, rest, rfl, hleft, hright, hwhole.right (balanced_singleton hleft hright)⟩

/-- What holds of no tokens and is kept by a token that is no bracket and by a group in front holds
of all balanced tokens. -/
@[elab_as_elim]
theorem Balanced.induction {motive : ∀ tokens, Balanced tokens → Prop}
    (nil : motive [] balanced_nil)
    (single : ∀ t rest h hrest, t.kind ≠ .left → t.kind ≠ .right → motive rest hrest →
      motive (t :: rest) h)
    (group : ∀ opening inside closing rest h hinside hrest, opening.kind = .left →
      closing.kind = .right → motive inside hinside → motive rest hrest →
      motive (opening :: (inside ++ closing :: rest)) h)
    {tokens : List Token} (h : Balanced tokens) : motive tokens h := by
  induction hlength : tokens.length using Nat.strong_induction_on generalizing tokens with
  | _ n ih =>
      rcases h.cases with rfl | ⟨t, rest, rfl, hleft, hright, hrest⟩ |
        ⟨opening, inside, closing, rest, rfl, hopening, hinside, hclosing, hrest⟩
      · exact nil
      · have hfewer : rest.length < n := by simp at hlength; omega
        exact single t rest h hrest hleft hright (ih _ hfewer hrest rfl)
      · have hfewer : inside.length + rest.length < n := by simp at hlength; omega
        exact group opening inside closing rest h hinside hrest hopening hclosing
          (ih inside.length (by omega) hinside rfl) (ih rest.length (by omega) hrest rfl)

/-- The first surplus bracket is the first right bracket that closes nothing. -/
theorem firstSurplus_iff :
    FirstSurplus tokens t ↔
      ∃ front rest, tokens = front ++ t :: rest ∧ Balanced front ∧ t.kind = .right := by
  constructor
  · rintro ⟨front, rest, rfl, hfront, hsurplus⟩
    have hcount := hfront front (List.prefix_refl front)
    simp only [lefts_append, rights_append, lefts_cons, rights_cons, lefts_nil,
      rights_nil] at hsurplus
    split at hsurplus
    · split at hsurplus
      · simp_all
      · omega
    · split at hsurplus
      · exact ⟨front, rest, rfl, ⟨hfront, by omega⟩, ‹_›⟩
      · omega
  · rintro ⟨front, rest, rfl, hfront, hright⟩
    refine ⟨front, rest, rfl, hfront.noSurplus, ?_⟩
    simp [lefts_cons, rights_cons, hright, hfront.even]

/-- Behind the last bracket that stays open the tokens are balanced. -/
theorem lastUnclosed_iff :
    LastUnclosed tokens t ↔
      ∃ front inside, tokens = front ++ t :: inside ∧ t.kind = .left ∧ Balanced inside := by
  constructor
  · rintro ⟨front, rest, rfl, hleft, hopen, hclosed⟩
    refine ⟨front, rest, rfl, hleft, ?_⟩
    rcases balanced_or_closed_or_unclosed rest with h | h | h
    · exact h
    · exact absurd h hopen
    · obtain ⟨between, opening, behind, rfl, -, hopening, hbehind⟩ := h
      exact absurd (hclosed between opening behind rfl hopening) hbehind.noSurplus.not_closed
  · rintro ⟨front, inside, rfl, hleft, hinside⟩
    refine ⟨front, inside, rfl, hleft, hinside.noSurplus.not_closed, ?_⟩
    rintro between opening behind rfl hopening
    have hbetween := hinside.noSurplus.left
    have heven := hinside.even
    rcases balanced_or_closed_or_unclosed behind with h | h | h
    · have hmore := rights_lt_lefts_of_unclosed hbetween hopening h
      omega
    · exact h
    · obtain ⟨more, last, tail, rfl, hmore, hlast, htail⟩ := h
      have hnested := rights_lt_lefts_of_unclosed hmore hlast htail
      have hcount := hbetween between (List.prefix_refl between)
      simp only [lefts_append, rights_append, lefts_cons, rights_cons, hopening, reduceCtorEq,
        if_false, if_true] at heven hnested
      omega

end BracketCalc.Token
