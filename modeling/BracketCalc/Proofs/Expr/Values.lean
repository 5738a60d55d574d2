import BracketCalc.Proofs.Expr.Calls
import BracketCalc.Proofs.Expr.Relabelled
/-!
# Values within a limit

With a limit on the calls in progress, an expression has the value or the error
that it has without it, or none at all.  Its labels are not looked at, and the
snippet of an error that is found is written within the limit.
-/

namespace BracketCalc

/-- The snippet that an error quotes. -/
def EvalError.snippet {α : Type} [Labelled α] : EvalError α → Text
  | notANumber text _ => text
  | emptyGroup group _ => group
  | groupAsOperation operation _ => operation
  | unknownOperation operation _ => operation
  | argumentCount group _ _ _ => group
  | unreadable text => text
  | foreign value => Labelled.label value

namespace Expr

variable {α : Type} [Labelled α] {calls : Nat} {e a b : Expr α} {f : EvalError α}
  {result : Except (EvalError α) Float}

theorem valueWithin_of_arguments {op : Text} {opSpan span : Span} {depth : Int}
    {arguments : List (Expr α)} (h : arguments.length ≠ 2) :
    (group (literal op opSpan :: arguments) span depth).valueWithin calls =
      match Operation.ofName? op with
      | none => some (.error (.unknownOperation op opSpan))
      | some _ =>
          (textWithin calls (group (literal op opSpan :: arguments) span depth)).map fun snippet =>
            .error (.argumentCount snippet op arguments.length span) := by
  match arguments, h with
  | [], _ => rfl
  | [_], _ => rfl
  | _ :: _ :: _ :: _, _ => rfl

theorem valueWithin_of_operation {op : Text} {opSpan span : Span} {depth : Int}
    {operation : Operation} (h : Operation.ofName? op = some operation) :
    (group [literal op opSpan, a, b] span depth).valueWithin calls =
      if calls < 2 then none
      else
        match a.valueWithin (calls - 2) with
        | some (.ok x) =>
            (b.valueWithin (calls - 2)).map fun result => result.map (operation.apply x)
        | stopped => stopped := by
  simp only [valueWithin, h]
  split
  · rfl
  · cases a.valueWithin (calls - 2) with
    | none => rfl
    | some result =>
        cases result with
        | error e => rfl
        | ok x =>
            cases b.valueWithin (calls - 2) with
            | none => rfl
            | some result => cases result <;> rfl

/-- An error with a snippet is found if the snippet is written within the limit. -/
theorem map_textWithin (calls : Nat) (n : Expr α) (error : Text → EvalError α) :
    ((textWithin calls n).map fun snippet => (.error (error snippet) : Except _ Float)) =
      if 3 * n.height ≤ calls then some (.error (error n.text)) else none := by
  rw [textWithin_eq]
  split <;> rfl

theorem valueWithin_of_ownFault_of_literal {op : Text} {opSpan span : Span} {depth : Int}
    {arguments : List (Expr α)} (hgroup : e = group (literal op opSpan :: arguments) span depth)
    (h : ownFault e = some f) (calls : Nat) :
    ∃ n ∈ e.nodes, f.snippet = n.text ∧
      e.valueWithin calls = if 3 * n.height ≤ calls then some (.error f) else none := by
  subst hgroup
  rw [ownFault] at h
  cases hop : Operation.ofName? op with
  | none =>
      rw [hop] at h
      cases h
      refine ⟨_, mem_nodes_of_mem_items List.mem_cons_self, rfl, ?_⟩
      by_cases hcount : arguments.length = 2
      · obtain ⟨a, b, rfl⟩ := List.length_eq_two.1 hcount
        simp [valueWithin, hop, height]
      · simp [valueWithin_of_arguments hcount, hop, height]
  | some operation =>
      by_cases hcount : arguments.length = 2
      · simp [hop, hcount] at h
      · simp only [hop, hcount, if_false, Option.some.injEq] at h
        subst h
        refine ⟨_, mem_nodes_self _, rfl, ?_⟩
        rw [valueWithin_of_arguments hcount, hop]
        exact map_textWithin calls _ fun snippet => .argumentCount snippet op arguments.length span

/-- The fault of a node itself is found if the node that it quotes is written within the limit. -/
theorem valueWithin_of_ownFault (h : ownFault e = some f) (calls : Nat) :
    ∃ n ∈ e.nodes, f.snippet = n.text ∧
      e.valueWithin calls = if 3 * n.height ≤ calls then some (.error f) else none := by
  cases e with
  | literal text span =>
      have hvalue := value_of_ownFault h
      have hsnippet : f.snippet = text := by
        rw [ownFault] at h
        cases hread : Numeral.read text with
        | value x => simp [hread] at h
        | unreadable => cases hread ▸ h; rfl
        | notANumeral => cases hread ▸ h; rfl
      exact ⟨_, mem_nodes_self _, hsnippet, by simp [valueWithin, hvalue, height]⟩
  | foreign value =>
      cases h
      exact ⟨_, mem_nodes_self _, rfl, rfl⟩
  | group items span depth =>
      cases items with
      | nil =>
          cases h
          exact ⟨_, mem_nodes_self _, rfl,
            map_textWithin calls _ fun snippet => .emptyGroup snippet span⟩
      | cons head arguments =>
          cases head with
          | literal op opSpan => exact valueWithin_of_ownFault_of_literal rfl h calls
          | group inner opSpan opDepth =>
              cases h
              exact ⟨_, mem_nodes_of_mem_items List.mem_cons_self, rfl,
                map_textWithin calls _ fun snippet => .groupAsOperation snippet opSpan⟩
          | foreign value =>
              cases h
              exact ⟨_, mem_nodes_of_mem_items List.mem_cons_self, rfl, rfl⟩

/-- What is found within the limit is the value, or the error. -/
theorem value_of_valueWithin (h : e.valueWithin calls = some result) : e.value = result := by
  induction e using evaluation_induction generalizing calls result with
  | fault e f hown =>
      obtain ⟨n, -, -, hvalue⟩ := valueWithin_of_ownFault hown calls
      rw [hvalue] at h
      split at h
      · rw [value_of_ownFault hown, Option.some.inj h]
      · cases h
  | numeral text span x hvalue => exact Option.some.inj h
  | application op opSpan a b span depth operation hop iha ihb =>
      rw [valueWithin_of_operation hop] at h
      rw [value_of_operation hop]
      split at h
      · cases h
      · split at h
        · next x ha =>
            obtain ⟨result, hb, rfl⟩ := Option.map_eq_some_iff.1 h
            rw [iha ha, ihb hb]
            cases result <;> rfl
        · next hstopped =>
            rw [iha h]
            cases result with
            | error f => rfl
            | ok x => exact absurd h (hstopped x)

/-- An expression with no more groups in one another than a third of the calls has its value, or its
error, within the limit. -/
theorem valueWithin_of_height_le (h : 3 * e.height ≤ calls) :
    e.valueWithin calls = some e.value := by
  induction e using evaluation_induction generalizing calls with
  | fault e f hown =>
      obtain ⟨n, hn, -, hvalue⟩ := valueWithin_of_ownFault hown calls
      have hlow := height_le_of_mem_nodes hn
      rw [hvalue, if_pos (by omega), value_of_ownFault hown]
  | numeral text span x hvalue => rfl
  | application op opSpan a b span depth operation hop iha ihb =>
      rw [height, highest, highest, highest] at h
      rw [valueWithin_of_operation hop, if_neg (by omega), value_of_operation hop,
        iha (by omega), ihb (by omega)]
      cases a.value with
      | error f => rfl
      | ok x => cases b.value <;> rfl

/-- The snippet of an error that is found is the text of a node that is written within the limit. -/
theorem exists_snippet_of_valueWithin (h : e.valueWithin calls = some (.error f)) :
    ∃ n ∈ e.nodes, f.snippet = n.text ∧ 3 * n.height ≤ calls := by
  induction e using evaluation_induction generalizing calls with
  | fault e own hown =>
      obtain ⟨n, hn, hsnippet, hvalue⟩ := valueWithin_of_ownFault hown calls
      rw [hvalue] at h
      split at h
      · next hlow =>
          cases h
          exact ⟨n, hn, hsnippet, hlow⟩
      · cases h
  | numeral text span x hvalue =>
      rw [value_of_valueWithin h] at hvalue
      cases hvalue
  | application op opSpan a b span depth operation hop iha ihb =>
      have hargument : ∀ argument ∈ [a, b], (argument.valueWithin (calls - 2) = some (.error f) →
            ∃ n ∈ argument.nodes, f.snippet = n.text ∧ 3 * n.height ≤ calls - 2) →
          argument.valueWithin (calls - 2) = some (.error f) →
          ∃ n ∈ (group [literal op opSpan, a, b] span depth).nodes,
            f.snippet = n.text ∧ 3 * n.height ≤ calls := by
        intro argument hmem ih hargument
        obtain ⟨n, hn, hsnippet, hlow⟩ := ih hargument
        have hitem : argument ∈ [literal op opSpan, a, b] := List.mem_cons_of_mem _ hmem
        exact ⟨n, mem_nodes_trans hn (mem_nodes_of_mem_items hitem), hsnippet, by omega⟩
      rw [valueWithin_of_operation hop] at h
      split at h
      · cases h
      · split at h
        · next x ha =>
            obtain ⟨result, hb, hresult⟩ := Option.map_eq_some_iff.1 h
            cases result with
            | error f' =>
                cases hresult
                exact hargument b (by simp) ihb hb
            | ok y => cases hresult
        · exact hargument a (by simp) iha h

/-! ### Labels -/

section Labels

variable {f : Span → Span} {g : Int → Int}

theorem textWithin_relabel (calls : Nat) (e : Expr α) :
    (e.relabel f g).textWithin calls = e.textWithin calls := by
  rw [textWithin_eq, textWithin_eq, height_eq_of_bare_eq (bare_relabel e), text_relabel]

/-- An expression with other labels has its value within the same limits. -/
theorem valueWithin_relabel (calls : Nat) (e : Expr α) :
    (e.relabel f g).valueWithin calls =
      (e.valueWithin calls).map (Except.mapError (EvalError.relabel f)) := by
  fun_induction valueWithin calls e with
  | case1 calls span depth =>
      simp only [relabel, relabelItems, valueWithin, Option.map_map]
      rfl
  | case2 calls op opSpan a b span depth hop =>
      simp only [relabel, relabelItems, valueWithin, hop]
      rfl
  | case3 calls op opSpan a b span depth operation hop hfew =>
      simp only [relabel, relabelItems, valueWithin, hop, if_pos hfew]
      rfl
  | case4 calls op opSpan a b span depth operation hop hfew ha iha =>
      rw [ha] at iha
      simp only [relabel, relabelItems, valueWithin, hop, if_neg hfew, iha, Option.map_none]
  | case5 calls op opSpan a b span depth operation hop hfew e ha iha =>
      rw [ha] at iha
      simp only [relabel, relabelItems, valueWithin, hop, if_neg hfew, iha, Option.map_some,
        Except.mapError]
  | case6 calls op opSpan a b span depth operation hop hfew x ha hb iha ihb =>
      rw [ha] at iha
      rw [hb] at ihb
      simp only [relabel, relabelItems, valueWithin, hop, if_neg hfew, iha, ihb, Option.map_some,
        Option.map_none, Except.mapError]
  | case7 calls op opSpan a b span depth operation hop hfew x ha e hb iha ihb =>
      rw [ha] at iha
      rw [hb] at ihb
      simp only [relabel, relabelItems, valueWithin, hop, if_neg hfew, iha, ihb, Option.map_some,
        Except.mapError]
  | case8 calls op opSpan a b span depth operation hop hfew x ha y hb iha ihb =>
      rw [ha] at iha
      rw [hb] at ihb
      simp only [relabel, relabelItems, valueWithin, hop, if_neg hfew, iha, ihb, Option.map_some,
        Except.mapError]
  | case9 calls op opSpan arguments span depth hcount hop =>
      rw [relabel, relabelItems, relabel,
        valueWithin_of_arguments (length_relabelItems_ne_two hcount), hop]
      rfl
  | case10 calls op opSpan arguments span depth hcount operation hop =>
      have htext : textWithin calls (relabel f g
          (group (literal op opSpan :: arguments) span depth)) = _ := textWithin_relabel calls _
      rw [relabel, relabelItems, relabel] at htext ⊢
      rw [valueWithin_of_arguments (length_relabelItems_ne_two hcount), hop, htext,
        relabelItems_eq_map, List.length_map]
      simp only [Option.map_map]
      rfl
  | case11 calls items opSpan opDepth arguments span depth =>
      have htext : textWithin calls (relabel f g (group items opSpan opDepth)) = _ :=
        textWithin_relabel calls _
      rw [relabel] at htext
      simp only [relabel, relabelItems, valueWithin, htext, Option.map_map]
      rfl
  | case12 calls e hempty _ hliteral hgroup =>
      rw [Option.map_some, ← value_relabel]
      cases e with
      | literal text span => rfl
      | foreign value => rfl
      | group items span depth =>
          cases items with
          | nil => exact absurd rfl (hempty span depth)
          | cons head arguments =>
              cases head with
              | literal op opSpan => exact absurd rfl (hliteral op opSpan arguments span depth)
              | group inner opSpan opDepth =>
                  exact absurd rfl (hgroup inner opSpan opDepth arguments span depth)
              | foreign value => rfl

end Labels

end Expr

end BracketCalc
