import BracketCalc.Expr.Layout
import BracketCalc.Expr.Value
import BracketCalc.Proofs.Expr.Shape
/-!
# Calls in progress

With a limit on the calls in progress, the functions of expressions have the
same results as without it, or none at all.  The height of an expression bounds
the calls that they need.
-/

namespace BracketCalc.Expr

variable {α β γ : Type} {calls each : Nat} {items : List (Expr α)} {e a b : Expr α}

/-- When the result for each item takes so many calls for each group, that for all of them takes
what the highest item takes. -/
theorem mapM_eq_ite {within : Expr α → Option β} {f : Expr α → β}
    (h : ∀ e ∈ items, within e = if each * e.height ≤ calls then some (f e) else none) :
    items.mapM within = if each * highest items ≤ calls then some (items.map f) else none := by
  induction items with
  | nil => rfl
  | cons e rest ih =>
      have hhead := h e List.mem_cons_self
      have hrest := ih fun other hother => h other (List.mem_cons_of_mem e hother)
      have hmax : each * max e.height (highest rest) ≤ calls ↔
          each * e.height ≤ calls ∧ each * highest rest ≤ calls := by
        rw [← Nat.mul_max_mul_left, Nat.max_le]
      simp only [List.mapM_cons, hhead, hrest, highest, hmax]
      by_cases hlow : each * e.height ≤ calls
      · by_cases hlowRest : each * highest rest ≤ calls <;> simp [hlow, hlowRest]
      · simp [hlow]

/-- A group is one higher than what stands in it, and has the calls that this leaves. -/
theorem map_ite_calls (each calls height : Nat) (f : β → γ) (x : β) :
    (if calls < each then none
      else (if each * height ≤ calls - each then some x else none).map f) =
      if each * (height + 1) ≤ calls then some (f x) else none := by
  by_cases hfew : calls < each
  · have hroom : ¬ each * (height + 1) ≤ calls := by
      rw [Nat.mul_succ]
      omega
    rw [if_pos hfew, if_neg hroom]
  · have hroom : each * height ≤ calls - each ↔ each * (height + 1) ≤ calls := by
      rw [Nat.mul_succ]
      omega
    simp only [if_neg hfew, hroom]
    split <;> rfl

/-! ### Texts -/

section Texts

variable [Labelled α]

theorem textsWithin_eq_mapM (calls : Nat) (items : List (Expr α)) :
    textsWithin calls items = items.mapM (textWithin calls) := by
  induction items with
  | nil => rfl
  | cons e rest ih =>
      rw [textsWithin, ih, List.mapM_cons]
      cases textWithin calls e with
      | none => rfl
      | some text => cases rest.mapM (textWithin calls) <;> rfl

/-- The text of an expression takes three calls for each of the groups that stand in one
another. -/
theorem textWithin_eq (calls : Nat) (e : Expr α) :
    textWithin calls e = if 3 * e.height ≤ calls then some e.text else none := by
  induction e generalizing calls with
  | literal text span => rfl
  | foreign value => rfl
  | group items span depth ih =>
      rw [textWithin, height, text, texts_eq_map, textsWithin_eq_mapM,
        mapM_eq_ite fun e he => ih e he (calls - 3), map_ite_calls]

theorem renderItemsWithin_eq_mapM (highlight : Text → Text) (calls : Nat) (indent : Int)
    (items : List (Expr α)) :
    renderItemsWithin highlight calls indent items =
      (items.mapM (renderWithin highlight calls indent)).map List.flatten := by
  induction items with
  | nil => rfl
  | cons e rest ih =>
      rw [renderItemsWithin, ih, List.mapM_cons]
      cases renderWithin highlight calls indent e with
      | none => rfl
      | some text => cases rest.mapM (renderWithin highlight calls indent) <;> rfl

/-- The displayed form of an expression takes one call for each of the groups that stand in one
another. -/
theorem renderWithin_eq (highlight : Text → Text) (calls : Nat) (indent : Int) (e : Expr α) :
    renderWithin highlight calls indent e =
      if e.height ≤ calls then some (e.render highlight indent) else none := by
  induction e generalizing calls indent with
  | literal text span => rfl
  | foreign value => rfl
  | group items span depth ih =>
      have hitems : ∀ e ∈ items, renderWithin highlight (calls - 1) (indent + 1) e =
          if 1 * e.height ≤ calls - 1 then some (e.render highlight (indent + 1)) else none := by
        intro e he
        rw [Nat.one_mul, ih e he]
      rw [renderWithin, height, render, renderItems_eq_flatMap, renderItemsWithin_eq_mapM,
        mapM_eq_ite hitems, ← Nat.one_mul (highest items + 1), Option.map_map, map_ite_calls]
      rfl

end Texts

/-! ### Comparisons -/

section Comparisons

variable [DecidableEq α] {as bs : List (Expr α)}

theorem sameItems_of_length_ne (h : as.length ≠ bs.length) : sameItems as bs = false := by
  induction as generalizing bs with
  | nil =>
      cases bs with
      | nil => exact absurd rfl h
      | cons b bs => rfl
  | cons a as ih =>
      cases bs with
      | nil => rfl
      | cons b bs =>
          have hrest : as.length ≠ bs.length := fun heq => h (congrArg (· + 1) heq)
          rw [sameItems, ih hrest, Bool.and_false]

theorem sameItemsWithin_of_highest_le (hitems : ∀ a ∈ as, ∀ b, 3 * a.height ≤ calls →
      sameWithin calls a b = some (a.same b)) (h : 3 * highest as ≤ calls) :
    sameItemsWithin calls as bs = some (sameItems as bs) := by
  induction as generalizing bs with
  | nil => cases bs <;> rfl
  | cons a as ih =>
      cases bs with
      | nil => rfl
      | cons b bs =>
          rw [highest] at h
          have hrest : sameItemsWithin calls as bs = some (sameItems as bs) :=
            ih (fun c hc => hitems c (List.mem_cons_of_mem a hc)) (by omega)
          rw [sameItemsWithin, sameItems, hitems a List.mem_cons_self b (by omega)]
          cases a.same b with
          | false => rfl
          | true => simpa using hrest

/-- A comparison takes no more than three calls for each of the groups that stand in one another in
the first expression. -/
theorem sameWithin_of_height_le (h : 3 * a.height ≤ calls) :
    sameWithin calls a b = some (a.same b) := by
  induction a generalizing calls b with
  | literal text span => cases b <;> rfl
  | foreign value => cases b <;> rfl
  | group as span depth ih =>
      cases b with
      | literal text span' => rfl
      | foreign value => rfl
      | group bs span' depth' =>
          rw [height] at h
          rw [sameWithin, if_neg (by omega : ¬ calls < 3), same]
          split
          · exact sameItemsWithin_of_highest_le (fun a ha b hlow => ih a ha hlow) (by omega)
          · next hlength => rw [sameItems_of_length_ne hlength]

theorem sameItemsWithin_eq_none (hitems : ∀ a ∈ as, ∀ b, a.same b = true → calls < 3 * a.height →
      sameWithin calls a b = none) (hsame : sameItems as bs = true) (h : calls < 3 * highest as) :
    sameItemsWithin calls as bs = none := by
  induction as generalizing bs with
  | nil => exact absurd h (Nat.not_lt_zero calls)
  | cons a as ih =>
      cases bs with
      | nil => cases hsame
      | cons b bs =>
          obtain ⟨hhead, hrest⟩ := (Bool.and_eq_true_iff.1 hsame :)
          rw [highest] at h
          rw [sameItemsWithin]
          by_cases hlow : 3 * a.height ≤ calls
          · have hnone := ih (fun c hc => hitems c (List.mem_cons_of_mem a hc)) hrest (by omega)
            rw [sameWithin_of_height_le hlow, hhead, hnone]
          · rw [hitems a List.mem_cons_self b hhead (Nat.lt_of_not_le hlow)]

/-- Expressions that are the same are compared down to the last group in them. -/
theorem sameWithin_of_same (h : a.same b = true) :
    sameWithin calls a b = if 3 * a.height ≤ calls then some true else none := by
  split
  · next hlow => rw [sameWithin_of_height_le hlow, h]
  · next hhigh =>
      induction a generalizing calls b with
      | literal text span => exact absurd (Nat.zero_le calls) hhigh
      | foreign value => exact absurd (Nat.zero_le calls) hhigh
      | group as span depth ih =>
          cases b with
          | literal text span' => cases h
          | foreign value => cases h
          | group bs span' depth' =>
              rw [height] at hhigh
              rw [sameWithin]
              split
              · rfl
              · split
                · exact sameItemsWithin_eq_none
                    (fun a ha b hsame hlow => ih a ha hsame (Nat.not_le_of_lt hlow)) h (by omega)
                · next hlength =>
                    rw [same, sameItems_of_length_ne hlength] at h
                    cases h

end Comparisons

/-! ### Depths -/

theorem deepestWithin_eq {trees : List Tree} (h : ∀ e ∈ trees,
      nestingWithin calls e = if 2 * e.height ≤ calls then some e.nesting else none) (least : Int) :
    deepestWithin calls least trees =
      if 2 * highest trees ≤ calls then some (deepest least trees) else none := by
  induction trees generalizing least with
  | nil => rfl
  | cons e rest ih =>
      have hrest := ih fun other hother => h other (List.mem_cons_of_mem e hother)
      have hmax : 2 * highest (e :: rest) ≤ calls ↔
          2 * e.height ≤ calls ∧ 2 * highest rest ≤ calls := by
        rw [highest]
        omega
      simp only [deepestWithin, deepest, h e List.mem_cons_self, hmax]
      by_cases hlow : 2 * e.height ≤ calls
      · cases e.nesting with
        | error value => exact value.elim
        | ok depth => simp [hlow, hrest]
      · simp [hlow]

/-- To find how deeply the brackets of a tree are nested takes two calls for each of the groups that
stand in one another. -/
theorem nestingWithin_eq (calls : Nat) (e : Tree) :
    nestingWithin calls e = if 2 * e.height ≤ calls then some e.nesting else none := by
  induction e using Expr.induction generalizing calls with
  | literal text span => rfl
  | foreign value => exact value.elim
  | group items span depth ih =>
      rw [nestingWithin, height, nesting, deepestWithin_eq fun e he => ih e he (calls - 2)]
      simpa only [Option.map_id_apply, id] using
        map_ite_calls 2 calls (highest items) id (deepest depth items)

end BracketCalc.Expr
