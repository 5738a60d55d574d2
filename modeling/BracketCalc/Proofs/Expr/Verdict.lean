import BracketCalc.Proofs.Expr.Reading
import BracketCalc.Proofs.Fault.Blame
import BracketCalc.Proofs.Token.Lexes
import Mathlib.Logic.ExistsUnique
/-!
# The verdict on a text

What a text is read as is foretold by its tokens: by how many there are, by the
first surplus bracket, by the last bracket that stays open, and by whether the
first bracket is matched by the last token.  `Foretold` says when, `Shown` what
comes of it, and the two agree for each verdict.
-/

namespace BracketCalc

open Token

/-- What may come of reading a text. -/
inductive Verdict where
  | empty
  | loneBracket (t : Token)
  | literal (text : Text) (span : Span)
  | surplusRight (t : Token)
  | unclosedLeft (t : Token)
  | enclosed
  | implicit

namespace Verdict

/-- When the tokens of a text lead to the verdict. -/
def Foretold (tokens : List Token) : Verdict → Prop
  | empty => tokens = []
  | loneBracket t => tokens = [t] ∧ (t.kind = .left ∨ t.kind = .right)
  | literal text span => tokens = [⟨.literal text, span⟩]
  | surplusRight t =>
      2 ≤ tokens.length ∧ (∃ front, front <+: tokens ∧ lefts front < rights front) ∧
        FirstSurplus tokens t
  | unclosedLeft t =>
      2 ≤ tokens.length ∧ NoSurplus tokens ∧ rights tokens < lefts tokens ∧ LastUnclosed tokens t
  | enclosed =>
      2 ≤ tokens.length ∧ NoSurplus tokens ∧ ¬ rights tokens < lefts tokens ∧ Enclosed tokens
  | implicit =>
      2 ≤ tokens.length ∧ NoSurplus tokens ∧ ¬ rights tokens < lefts tokens ∧ ¬ Enclosed tokens

/-- The error is told as a fault of the topic, about the text and the span. -/
def Told (host : Host) (e : ParseError) (topic : Topic) (text : Text) (span : Span)
    (result : Except ParseError Tree) : Prop :=
  result = .error e ∧ (e.stop host).Blames topic text span

/-- What comes of reading a text with the verdict. -/
def Shown (host : Host) (result : Except ParseError Tree) : Verdict → Prop
  | empty => Told host .noTokens .noTokens [] ⟨0, 0⟩ result
  | loneBracket t => Told host (.loneToken t) .loneBracket t.text t.span result
  | literal text span => result = .ok (.literal text span)
  | surplusRight t => Told host (.surplusRight t) .surplusBracket t.text t.span result
  | unclosedLeft t => Told host (.unclosed t) .unclosedBracket t.text t.span result
  | enclosed => ∃ items span, result = .ok (.group items span 1)
  | implicit => ∃ items span, result = .ok (.group items span 0)

variable {host : Host} {newlines : Newlines} {text : Text} {tokens : List Token}
  {result : Except ParseError Tree} {v w : Verdict} {t : Token}

/-! ### Every list of tokens has a verdict -/

theorem exists_surplus_of_firstSurplus (h : FirstSurplus tokens t) :
    ∃ front, front <+: tokens ∧ lefts front < rights front := by
  obtain ⟨front, rest, rfl, -, hsurplus⟩ := h
  exact ⟨front ++ [t], ⟨rest, by simp⟩, hsurplus⟩

theorem exists_foretold_of_two_le (htwo : 2 ≤ tokens.length) :
    ∃ v : Verdict, v.Foretold tokens := by
  rcases balanced_or_closed_or_unclosed tokens with h | h | h
  · have heven : ¬ rights tokens < lefts tokens := by
      have hcount := h.even
      omega
    by_cases henclosed : Enclosed tokens
    · exact ⟨enclosed, htwo, h.noSurplus, heven, henclosed⟩
    · exact ⟨implicit, htwo, h.noSurplus, heven, henclosed⟩
  · obtain ⟨front, closing, rest, heq, hfront, hclosing⟩ := h
    have hfirst : FirstSurplus tokens closing :=
      firstSurplus_iff.2 ⟨front, rest, heq, hfront, hclosing⟩
    exact ⟨surplusRight closing, htwo, exists_surplus_of_firstSurplus hfirst, hfirst⟩
  · obtain ⟨front, opening, inside, heq, hfront, hopening, hinside⟩ := h
    have hlast : LastUnclosed tokens opening :=
      lastUnclosed_iff.2 ⟨front, inside, heq, hopening, hinside⟩
    refine ⟨unclosedLeft opening, htwo, ?_, ?_, hlast⟩
    · rw [heq]
      exact noSurplus_of_unclosed hfront hopening hinside
    · rw [heq]
      exact rights_lt_lefts_of_unclosed hfront hopening hinside

theorem exists_foretold (hknown : Known tokens) : ∃ v : Verdict, v.Foretold tokens := by
  match tokens with
  | [] => exact ⟨empty, rfl⟩
  | [⟨.literal letters, span⟩] => exact ⟨literal letters span, rfl⟩
  | [⟨.left, span⟩] => exact ⟨loneBracket _, rfl, .inl rfl⟩
  | [⟨.right, span⟩] => exact ⟨loneBracket _, rfl, .inr rfl⟩
  | [⟨.other, span⟩] => exact absurd rfl (known_cons.1 hknown).1
  | _ :: _ :: _ => exact exists_foretold_of_two_le (by simp)

/-! ### The verdict comes true -/

theorem ofTokens_of_enclosed (h : Enclosed tokens) (hknown : Known tokens) :
    ∃ items span, Tree.ofTokens tokens = .ok (.group items span 1) := by
  obtain ⟨opening, inside, closing, rfl, hopening, hinside, hclosing⟩ := h
  have hknown : Known inside := (known_append.1 (known_cons.1 hknown).2).1
  obtain ⟨items, hitems⟩ := Tree.exists_segment hinside hknown 1
  have hwhole : Tree.Segment 0 (opening :: (inside ++ [closing])) _ :=
    .group hopening hclosing hitems .nil
  exact ⟨items, _, (Tree.Reads.enclosed hwhole).ofTokens_eq⟩

theorem ofTokens_of_not_enclosed (hbalanced : Balanced tokens) (hknown : Known tokens)
    (htwo : 2 ≤ tokens.length) (h : ¬ Enclosed tokens) :
    ∃ items span, Tree.ofTokens tokens = .ok (.group items span 0) := by
  obtain ⟨items, hitems⟩ := Tree.exists_segment hbalanced hknown 0
  have hne : ∀ inner span depth, items ≠ [.group inner span depth] := by
    rintro inner span depth rfl
    exact h hitems.enclosed
  exact ⟨items, _, (Tree.Reads.implicit htwo hitems hne).ofTokens_eq⟩

/-- An error at a bracket of the text is told with the span of the bracket. -/
theorem told_at_bracket {e : ParseError} {topic : Topic} (htopic : topic.isParsing = true)
    (hstop : e.stop host = ParseError.stop.blame host topic t) (ht : t ∈ lex newlines text)
    (hbracket : t.kind = .left ∨ t.kind = .right) (hresult : result = .error e) :
    Told host e topic t.text t.span result := by
  have hspan := (stands_of_mem_lex ht).stop_eq hbracket
  have hblames := ParseError.blames htopic host t
  rw [← hspan] at hblames
  exact ⟨hresult, hstop ▸ hblames⟩

theorem shown_of_foretold (h : v.Foretold (lex newlines text)) :
    v.Shown host (Tree.ofTokens (lex newlines text)) := by
  have hknown := Tree.known_lex newlines text
  cases v with
  | empty =>
      have hnil : lex newlines text = [] := h
      rw [hnil]
      exact ⟨Tree.ofTokens_nil, ParseError.blames_noTokens host⟩
  | loneBracket t =>
      obtain ⟨hsingle, hbracket⟩ := h
      have ht : t ∈ lex newlines text := by simp [hsingle]
      have herror := Tree.ofTokens_bracket hbracket
      rw [← hsingle] at herror
      exact told_at_bracket rfl rfl ht hbracket herror
  | literal letters span =>
      have hsingle : lex newlines text = [⟨.literal letters, span⟩] := h
      rw [hsingle]
      rfl
  | surplusRight t =>
      obtain ⟨htwo, -, hfirst⟩ := h
      obtain ⟨front, rest, heq, hfront, hright⟩ := firstSurplus_iff.1 hfirst
      have ht : t ∈ lex newlines text := by simp [heq]
      rw [heq] at hknown htwo
      have herror := Tree.ofTokens_surplus (known_append.1 hknown).1 hfront hright htwo
      rw [← heq] at herror
      exact told_at_bracket rfl rfl ht (.inr hright) herror
  | unclosedLeft t =>
      obtain ⟨htwo, hnone, -, hlast⟩ := h
      obtain ⟨front, inside, heq, hleft, hinside⟩ := lastUnclosed_iff.1 hlast
      have ht : t ∈ lex newlines text := by simp [heq]
      rw [heq] at hknown htwo hnone
      have herror := Tree.ofTokens_unclosed hknown hnone.left hleft hinside htwo
      rw [← heq] at herror
      exact told_at_bracket rfl rfl ht (.inl hleft) herror
  | enclosed =>
      obtain ⟨-, -, -, henclosed⟩ := h
      exact ofTokens_of_enclosed henclosed hknown
  | implicit =>
      obtain ⟨htwo, hnone, hopen, henclosed⟩ := h
      have hcount := hnone _ (List.prefix_refl _)
      have hbalanced : Balanced (lex newlines text) := ⟨hnone, by omega⟩
      exact ofTokens_of_not_enclosed hbalanced hknown htwo henclosed

/-! ### No two verdicts come true -/

/-- The verdict that a result stands for. -/
def ofResult : Except ParseError Tree → Option Verdict
  | .error .noTokens => some empty
  | .error (.loneToken t) => some (loneBracket t)
  | .error (.surplusRight t) => some (surplusRight t)
  | .error (.unclosed t) => some (unclosedLeft t)
  | .ok (.literal text span) => some (literal text span)
  | .ok (.group _ _ depth) => some (if depth = 0 then implicit else enclosed)
  | _ => none

theorem ofResult_of_shown (h : v.Shown host result) : ofResult result = some v := by
  cases v with
  | literal letters span =>
      cases h
      rfl
  | enclosed =>
      obtain ⟨items, span, rfl⟩ := h
      rfl
  | implicit =>
      obtain ⟨items, span, rfl⟩ := h
      rfl
  | _ =>
      obtain ⟨rfl, -⟩ := h
      rfl

theorem shown_unique (hv : v.Shown host result) (hw : w.Shown host result) : v = w := by
  have hsame := ofResult_of_shown hv
  rw [ofResult_of_shown hw] at hsame
  exact (Option.some.inj hsame).symm

/-! ### The limit on nesting -/

theorem shown_ne_tooDeep (h : v.Shown host result) : result ≠ .error .tooDeep := by
  rintro rfl
  cases ofResult_of_shown h

/-- Reading gives up exactly on texts that nest their groups deeper than the limit. -/
theorem parse_eq_tooDeep_iff :
    Tree.parse newlines text = .error .tooDeep ↔
      ¬ Shallow Tree.nestingLimit (lex newlines text) := by
  have hknown := Tree.known_lex newlines text
  constructor
  · intro h hshallow
    obtain ⟨v, hv⟩ := exists_foretold hknown
    rw [Tree.parse_eq_of_shallow hshallow] at h
    exact shown_ne_tooDeep (shown_of_foretold hv : v.Shown .plain _) h
  · intro h
    have hexceeds := mt (Tree.exceeds_eq_false_iff hknown).1 h
    rw [Bool.not_eq_false] at hexceeds
    exact Tree.parse_eq_tooDeep_of_exceeds hexceeds

/-- Reading that does not give up comes to the verdict that the tokens lead to. -/
theorem exists_shown (hparse : Tree.parse newlines text = result) (h : result ≠ .error .tooDeep) :
    ∃ v : Verdict, v.Foretold (lex newlines text) ∧ v.Shown .plain result := by
  obtain ⟨v, hv⟩ := exists_foretold (Tree.known_lex newlines text)
  refine ⟨v, hv, ?_⟩
  rw [← hparse] at h ⊢
  rw [Tree.parse_eq_of_ne_tooDeep h]
  exact shown_of_foretold hv

/-- An error has the verdict that it stands for, unless reading gave up. -/
theorem exists_foretold_of_error {e : ParseError} (hparse : Tree.parse newlines text = .error e)
    (h : e ≠ .tooDeep) :
    ∃ v : Verdict, v.Foretold (lex newlines text) ∧ ofResult (.error e) = some v := by
  obtain ⟨v, hforetold, hshown⟩ := exists_shown hparse fun hdeep => h (Except.error.inj hdeep)
  exact ⟨v, hforetold, ofResult_of_shown hshown⟩

/-- Within the limit on nesting each text has one verdict, which is the one that its tokens lead
to. -/
theorem shown_iff_foretold (host : Host) (newlines : Newlines) (text : Text)
    (h : Shallow Tree.nestingLimit (lex newlines text)) :
    (∀ v : Verdict, v.Shown host (Tree.parse newlines text) ↔ v.Foretold (lex newlines text)) ∧
      ∃! v : Verdict, v.Foretold (lex newlines text) := by
  rw [Tree.parse_eq_of_shallow h]
  obtain ⟨w, hw⟩ := exists_foretold (Tree.known_lex newlines text)
  have hshown : w.Shown host _ := shown_of_foretold hw
  refine ⟨fun v => ⟨fun hv => ?_, shown_of_foretold⟩, w, hw, fun v hv => ?_⟩
  · rwa [shown_unique hv hshown]
  · exact shown_unique (shown_of_foretold hv) hshown

theorem foretold_of_shown_unclosed :
    Shallow Tree.nestingLimit (lex .separate ['(', '1', ' ', '(', '2']) ∧
      (unclosedLeft (Token.left 3)).Foretold (lex .separate ['(', '1', ' ', '(', '2']) := by
  have hshallow : Shallow Tree.nestingLimit (lex .separate ['(', '1', ' ', '(', '2']) :=
    (Tree.exceeds_eq_false_iff (Tree.known_lex _ _)).1 (by decide)
  have hshown : (unclosedLeft (Token.left 3)).Shown .plain
      (Tree.parse .separate ['(', '1', ' ', '(', '2']) := by
    refine ⟨by rfl, ?_⟩
    exact ParseError.blames rfl .plain (Token.left 3)
  exact ⟨hshallow, ((shown_iff_foretold .plain .separate _ hshallow).1 _).1 hshown⟩

end Verdict

end BracketCalc
