import BracketCalc.Proofs.Expr.Verdict
import BracketCalc.Proofs.Token.Kinds
import BracketCalc.Source
/-!
# Open texts

A text is open when it has more left than right brackets, whatever else stands
between them.  A text that is not finished, because a left bracket stands alone
or is never closed, is open.  An open text is not finished either, unless a
right bracket is surplus, or it is nested too deeply to be read.
-/

namespace BracketCalc

open Token

/-- More text might mend the error: a left bracket stands alone, or is never closed. -/
def ParseError.Unfinished : ParseError → Prop
  | loneToken t => t.kind = .left
  | unclosed _ => True
  | _ => False

namespace Token

variable {newlines : Newlines} {text : Text} {kind : TokenKind}

/-- Each bracket of a text is a token. -/
theorem countP_kind_lex (newlines : Newlines) (text : Text) (h : kind.isLiteral = false) :
    (lex newlines text).countP (fun t => t.kind = kind) =
      (text.filterMap bracketKind?).count kind := by
  rw [← brackets_kindsFrom newlines [], brackets, List.count_filter (by simp [h]),
    ← map_kind_lex, List.count_eq_countP, List.countP_map]
  rfl

theorem count_bracketKind {c : Char} (h : ∀ d, bracketKind? d = some kind ↔ d = c) (text : Text) :
    (text.filterMap bracketKind?).count kind = text.count c := by
  rw [List.count_filterMap, List.count_eq_countP]
  refine List.countP_congr fun d _ => ?_
  simp [h]

theorem lefts_lex (newlines : Newlines) (text : Text) :
    lefts (lex newlines text) = text.count '(' := by
  rw [lefts, countP_kind_lex newlines text rfl]
  refine count_bracketKind (fun d => ?_) text
  unfold bracketKind?
  grind

theorem rights_lex (newlines : Newlines) (text : Text) :
    rights (lex newlines text) = text.count ')' := by
  rw [rights, countP_kind_lex newlines text rfl]
  refine count_bracketKind (fun d => ?_) text
  unfold bracketKind?
  grind

theorem not_shallow_lex (hlefts : Tree.nestingLimit < text.count '(') (hrights : ')' ∉ text) :
    ¬ Shallow Tree.nestingLimit (lex newlines text) := by
  intro h
  have hnone : rights (lex newlines text) = 0 := by
    rw [rights_lex, List.count_eq_zero.2 hrights]
  have hsurplus : NoSurplus (lex newlines text) := by
    intro front hfront
    have hle : rights front ≤ rights (lex newlines text) := hfront.sublist.countP_le
    omega
  have hwithin := h _ (List.prefix_refl _) hsurplus
  rw [lefts_lex, hnone] at hwithin
  omega

end Token

namespace Source

variable {newlines : Newlines} {text : Text} {e : ParseError}

theorem isOpen_iff (newlines : Newlines) (text : Text) :
    isOpen text = true ↔ rights (lex newlines text) < lefts (lex newlines text) := by
  rw [lefts_lex, rights_lex, isOpen, decide_eq_true_iff]

/-- A text that is not finished is open. -/
theorem isOpen_of_unfinished (h : Tree.parse newlines text = .error e) (he : e.Unfinished) :
    isOpen text = true := by
  have hdeep : e ≠ .tooDeep := by
    rintro rfl
    exact he
  obtain ⟨v, hforetold, hv⟩ := Verdict.exists_foretold_of_error h hdeep
  rw [isOpen_iff newlines]
  cases e with
  | loneToken t =>
      obtain rfl := Option.some.inj hv
      obtain ⟨htokens, -⟩ := hforetold
      have hleft : t.kind = .left := he
      simp [htokens, lefts_cons, rights_cons, hleft]
  | unclosed t =>
      obtain rfl := Option.some.inj hv
      exact hforetold.2.2.1
  | _ => exact he.elim

/-- An open text is read as no tree.  Where reading does not give up, it is not finished, or a right
bracket is surplus. -/
theorem exists_error_of_isOpen (h : isOpen text = true)
    (hshallow : Shallow Tree.nestingLimit (lex newlines text)) :
    ∃ e, Tree.parse newlines text = .error e ∧ (e.Unfinished ∨ ∃ t, e = .surplusRight t) := by
  have hdeep := mt Verdict.parse_eq_tooDeep_iff.1 (not_not.2 hshallow)
  obtain ⟨v, hforetold, hshown⟩ := Verdict.exists_shown rfl hdeep
  rw [isOpen_iff newlines] at h
  cases v with
  | empty =>
      have hnil : lex newlines text = [] := hforetold
      simp [hnil] at h
  | literal letters span =>
      have hsingle : lex newlines text = [⟨.literal letters, span⟩] := hforetold
      simp [hsingle, lefts_cons] at h
  | loneBracket t =>
      obtain ⟨hsingle, hbracket⟩ := hforetold
      have hleft : t.kind = .left := hbracket.resolve_right fun hright => by
        simp [hsingle, lefts_cons, hright] at h
      exact ⟨_, hshown.1, .inl hleft⟩
  | surplusRight t => exact ⟨_, hshown.1, .inr ⟨t, rfl⟩⟩
  | unclosedLeft t => exact ⟨_, hshown.1, .inl trivial⟩
  | enclosed => exact absurd h hforetold.2.2.1
  | implicit => exact absurd h hforetold.2.2.1

theorem parse_ne_ok_of_isOpen (newlines : Newlines) (h : isOpen text = true) (tree : Tree) :
    Tree.parse newlines text ≠ .ok tree := by
  by_cases hshallow : Shallow Tree.nestingLimit (lex newlines text)
  · obtain ⟨e, herror, -⟩ := exists_error_of_isOpen h hshallow
    simp [herror]
  · simp [Verdict.parse_eq_tooDeep_iff.2 hshallow]

end Source

end BracketCalc
