import BracketCalc.Proofs.Expr.Segment
/-!
# The limit on nesting

Reading gives up when more groups would be open at once than the limit allows,
unless a surplus bracket ends it before.  `exceeds_eq_false_iff` says so with the
numbers of brackets, and `Segment.exceeds_append` with the heights of the items
that are read.
-/

namespace BracketCalc

namespace Token

/-- As long as no bracket is surplus, no more than `limit` groups are open at once. -/
def Shallow (limit : Nat) (tokens : List Token) : Prop :=
  ∀ front, front <+: tokens → NoSurplus front → lefts front ≤ rights front + limit

/-- With `opened` left brackets in front, none of the right brackets is surplus. -/
def Covered (opened : Nat) (tokens : List Token) : Prop :=
  ∀ front, front <+: tokens → rights front ≤ opened + lefts front

/-- With `opened` left brackets in front, more than `limit` groups are open at once before any
bracket is surplus. -/
def Exceeding (limit opened : Nat) (tokens : List Token) : Prop :=
  ∃ front, front <+: tokens ∧ Covered opened front ∧ limit + rights front < opened + lefts front

variable {limit opened : Nat} {t : Token} {tokens rest : List Token}

theorem two_le_length_of_not_shallow (hlimit : 1 ≤ limit) (h : ¬ Shallow limit tokens) :
    2 ≤ tokens.length := by
  simp only [Shallow, not_forall] at h
  obtain ⟨front, hfront, -, hexcess⟩ := h
  have hlefts : lefts front ≤ front.length := List.countP_le_length
  have hlength := hfront.length_le
  omega

theorem covered_zero : Covered 0 rest ↔ NoSurplus rest := by
  simp [Covered, NoSurplus]

theorem covered_nil : Covered opened [] := by
  intro front hfront
  rw [List.prefix_nil.1 hfront, rights_nil]
  exact Nat.zero_le _

theorem covered_cons :
    Covered opened (t :: rest) ↔
      ∀ front, front <+: rest → rights (t :: front) ≤ opened + lefts (t :: front) := by
  constructor
  · intro h front hfront
    exact h _ ((List.prefix_cons_inj t).2 hfront)
  · intro h part hpart
    rcases List.prefix_cons_iff.1 hpart with rfl | ⟨front, rfl, hfront⟩
    · exact Nat.zero_le _
    · exact h front hfront

theorem covered_cons_left (h : t.kind = .left) :
    Covered opened (t :: rest) ↔ Covered (opened + 1) rest := by
  rw [covered_cons]
  refine forall₂_congr fun front _ => ?_
  simp only [lefts_cons, rights_cons, h, reduceCtorEq, if_false, if_true]
  omega

theorem covered_cons_right (h : t.kind = .right) :
    Covered opened (t :: rest) ↔ 0 < opened ∧ Covered (opened - 1) rest := by
  have hstep : ∀ front, rights (t :: front) ≤ opened + lefts (t :: front) ↔
      rights front + 1 ≤ opened + lefts front := by
    intro front
    simp [lefts_cons, rights_cons, h]
  simp only [covered_cons, hstep]
  constructor
  · intro hall
    have hfirst := hall [] List.nil_prefix
    rw [rights_nil, lefts_nil] at hfirst
    refine ⟨by omega, fun front hfront => ?_⟩
    have hpart := hall front hfront
    omega
  · rintro ⟨hpos, hall⟩ front hfront
    have hpart := hall front hfront
    omega

theorem covered_cons_literal (hleft : t.kind ≠ .left) (hright : t.kind ≠ .right) :
    Covered opened (t :: rest) ↔ Covered opened rest := by
  rw [covered_cons]
  refine forall₂_congr fun front _ => ?_
  rw [lefts_cons, rights_cons, if_neg hleft, if_neg hright]
  rfl

theorem not_exceeding_nil (hopened : opened ≤ limit) : ¬ Exceeding limit opened [] := by
  rintro ⟨front, hfront, -, hexcess⟩
  rw [List.prefix_nil.1 hfront, rights_nil, lefts_nil] at hexcess
  omega

/-- The empty part is within the limit, so a part in excess begins with the first token. -/
theorem exceeding_cons (hopened : opened ≤ limit) :
    Exceeding limit opened (t :: rest) ↔
      ∃ front, front <+: rest ∧ Covered opened (t :: front) ∧
        limit + rights (t :: front) < opened + lefts (t :: front) := by
  constructor
  · rintro ⟨part, hpart, hcovered, hexcess⟩
    rcases List.prefix_cons_iff.1 hpart with rfl | ⟨front, rfl, hfront⟩
    · rw [rights_nil, lefts_nil] at hexcess
      omega
    · exact ⟨front, hfront, hcovered, hexcess⟩
  · rintro ⟨front, hfront, hcovered, hexcess⟩
    exact ⟨t :: front, (List.prefix_cons_inj t).2 hfront, hcovered, hexcess⟩

theorem exceeding_cons_literal (hopened : opened ≤ limit) (hleft : t.kind ≠ .left)
    (hright : t.kind ≠ .right) :
    Exceeding limit opened (t :: rest) ↔ Exceeding limit opened rest := by
  simp only [exceeding_cons hopened, covered_cons_literal hleft hright, lefts_cons, rights_cons,
    if_neg hleft, if_neg hright]
  rfl

theorem exceeding_cons_left (hopened : opened ≤ limit) (h : t.kind = .left) :
    Exceeding limit opened (t :: rest) ↔ limit ≤ opened ∨ Exceeding limit (opened + 1) rest := by
  have hcount : ∀ front, limit + rights (t :: front) < opened + lefts (t :: front) ↔
      limit + rights front < opened + 1 + lefts front := by
    intro front
    simp only [lefts_cons, rights_cons, h, reduceCtorEq, if_false, if_true]
    omega
  simp only [exceeding_cons hopened, covered_cons_left h, hcount]
  constructor
  · exact .inr
  · rintro (hfull | hrest)
    · refine ⟨[], List.nil_prefix, covered_nil, ?_⟩
      rw [rights_nil, lefts_nil]
      omega
    · exact hrest

theorem exceeding_cons_right (hopened : opened ≤ limit) (h : t.kind = .right) :
    Exceeding limit opened (t :: rest) ↔ 0 < opened ∧ Exceeding limit (opened - 1) rest := by
  have hcount : ∀ front, 0 < opened → (limit + rights (t :: front) < opened + lefts (t :: front) ↔
      limit + rights front < opened - 1 + lefts front) := by
    intro front hpos
    simp only [lefts_cons, rights_cons, h, reduceCtorEq, if_false, if_true]
    omega
  simp only [exceeding_cons hopened, covered_cons_right h]
  constructor
  · rintro ⟨front, hfront, ⟨hpos, hcovered⟩, hexcess⟩
    exact ⟨hpos, front, hfront, hcovered, (hcount front hpos).1 hexcess⟩
  · rintro ⟨hpos, front, hfront, hcovered, hexcess⟩
    exact ⟨front, hfront, ⟨hpos, hcovered⟩, (hcount front hpos).2 hexcess⟩

end Token

namespace Tree

open Token

variable {limit opened : Nat} {tokens rest : List Token} {newlines : Newlines} {text : Text}

/-! ### Brackets beyond the limit -/

theorem exceeds_iff (hopened : opened ≤ limit) (hknown : Known tokens) :
    exceeds limit 0 opened tokens = true ↔ Exceeding limit opened tokens := by
  induction tokens generalizing opened with
  | nil => simp [exceeds, not_exceeding_nil hopened]
  | cons t rest ih =>
      obtain ⟨hother, hknown⟩ := known_cons.1 hknown
      rw [exceeds]
      cases hkind : t.kind with
      | other => exact absurd hkind hother
      | literal letters =>
          have hleft : t.kind ≠ .left := by simp [hkind]
          have hright : t.kind ≠ .right := by simp [hkind]
          rw [exceeding_cons_literal hopened hleft hright]
          exact ih hopened hknown
      | left =>
          rw [exceeding_cons_left hopened hkind, Bool.or_eq_true, decide_eq_true_eq]
          by_cases hfull : limit ≤ opened
          · simp [hfull]
          · rw [ih (by omega) hknown]
      | right =>
          have hfewer : opened - 1 ≤ limit := by omega
          rw [exceeding_cons_right hopened hkind, Bool.and_eq_true, decide_eq_true_eq,
            ih hfewer hknown]

theorem exceeds_eq_false_iff (hknown : Known tokens) :
    exceeds limit 0 0 tokens = false ↔ Shallow limit tokens := by
  rw [← Bool.not_eq_true, exceeds_iff (Nat.zero_le limit) hknown]
  simp only [Exceeding, covered_zero, Shallow]
  constructor
  · intro h front hfront hsurplus
    by_contra hexcess
    exact h ⟨front, hfront, hsurplus, by omega⟩
  · rintro h ⟨front, hfront, hsurplus, hexcess⟩
    have hshallow := h front hfront hsurplus
    omega

theorem known_lex (newlines : Newlines) (text : Text) : Known (lex newlines text) :=
  fun _ h => kind_ne_other_of_mem_lex h

/-- A text that nests its groups no deeper than the limit is read as its tokens are. -/
theorem parse_eq_of_shallow (h : Shallow nestingLimit (lex newlines text)) :
    parse newlines text = ofTokens (lex newlines text) :=
  parse_eq_ofTokens ((exceeds_eq_false_iff (known_lex newlines text)).2 h)

theorem parse_eq_tooDeep_of_exceeds
    (h : exceeds nestingLimit 0 0 (lex newlines text) = true) :
    parse newlines text = .error .tooDeep := by
  have hdeep : ¬ Shallow nestingLimit (lex newlines text) := by
    rw [← exceeds_eq_false_iff (known_lex newlines text), h]
    exact nofun
  have htwo := two_le_length_of_not_shallow (by decide) hdeep
  have hread : (groupWithin nestingLimit (lex newlines text) 0 0).1 = .error .tooDeep := by
    simp [groupWithin, tokensFrom?, htwo, h]
  rw [parse, hread]
  rfl

theorem parse_eq_of_ne_tooDeep (h : parse newlines text ≠ .error .tooDeep) :
    parse newlines text = ofTokens (lex newlines text) := by
  by_cases hexceeds : exceeds nestingLimit 0 0 (lex newlines text) = true
  · exact absurd (parse_eq_tooDeep_of_exceeds hexceeds) h
  · exact parse_eq_ofTokens (Bool.not_eq_true _ ▸ hexceeds)

/-! ### Heights of items -/

/-- Reading a segment exceeds the limit exactly if its items are too high. -/
theorem Segment.exceeds_append {depth : Int} {items : List Tree} (h : Segment depth tokens items)
    (hopened : opened ≤ limit) :
    exceeds limit 0 opened (tokens ++ rest) =
      (decide (limit < opened + Expr.highest items) || exceeds limit 0 opened rest) := by
  induction h generalizing opened rest with
  | nil =>
      have hroom : ¬ limit < opened := by omega
      simp [Expr.highest, hroom]
  | literal _ ih => simp [exceeds, Expr.highest, Expr.height, ih hopened]
  | @group depth opening closing inside behind inner items hopening hclosing _ _ ihInside ihRest =>
      rw [List.cons_append, List.append_assoc, List.cons_append, exceeds]
      simp only [hopening]
      by_cases hfull : limit ≤ opened
      · have hdeep : limit < opened + Expr.highest (.group inner
            ⟨opening.span.start, closing.span.stop⟩ (depth + 1) :: items) := by
          rw [Expr.highest, Expr.height]
          omega
        simp [hfull, hdeep]
      · have hroom : opened + 1 ≤ limit := by omega
        rw [ihInside hroom, exceeds]
        simp only [hclosing]
        simp only [Nat.zero_lt_succ, decide_true, Bool.true_and, Nat.add_sub_cancel,
          ihRest hopened, Expr.highest, Expr.height]
        simp only [hfull, decide_false, Bool.false_or]
        rw [← Bool.or_assoc, ← Bool.decide_or]
        congr 2
        apply propext
        omega

theorem Segment.exceeds_eq {depth : Int} {items : List Tree} (h : Segment depth tokens items) :
    exceeds limit 0 0 tokens = decide (limit < Expr.highest items) := by
  have happend : exceeds limit 0 0 (tokens ++ []) = _ := h.exceeds_append (Nat.zero_le limit)
  rw [List.append_nil] at happend
  rw [happend, exceeds, Bool.or_false, Nat.zero_add]

theorem Segment.parse_eq {items : List Tree} (h : Segment 0 (lex newlines text) items) :
    parse newlines text =
      if Expr.highest items ≤ nestingLimit then ofTokens (lex newlines text)
      else .error .tooDeep := by
  split
  · next hlow =>
      apply parse_eq_ofTokens
      rw [h.exceeds_eq]
      exact decide_eq_false (by omega)
  · next hhigh =>
      apply parse_eq_tooDeep_of_exceeds
      rw [h.exceeds_eq]
      exact decide_eq_true (by omega)

theorem Segment.highest_le {items : List Tree} {e : Tree}
    (h : Segment 0 (lex newlines text) items) (hparse : parse newlines text = .ok e) :
    Expr.highest items ≤ nestingLimit := by
  by_contra hhigh
  rw [h.parse_eq, if_neg hhigh] at hparse
  cases hparse

end Tree

end BracketCalc
