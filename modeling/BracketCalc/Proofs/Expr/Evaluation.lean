import BracketCalc.Expr.Value
import BracketCalc.Proofs.Expr.Shape
import Mathlib.Data.List.Basic
/-!
# The order of evaluation

A node may have a fault of its own, whatever its arguments are.  Evaluation
visits a node, and if it has no fault its first and then its second argument,
each with all that is visited in it.  The error of an expression is the own
fault of the first visited node that has one.
-/

namespace BracketCalc.Expr

variable {α : Type} [Labelled α]

/-- The fault of a node itself. -/
def ownFault : Expr α → Option (EvalError α)
  | literal text span =>
      match Numeral.read text with
      | .value _ => none
      | .unreadable => some (.unreadable text)
      | .notANumeral => some (.notANumber text span)
  | group [] span _ => some (.emptyGroup ['(', ')'] span)
  | group (literal op opSpan :: arguments) span depth =>
      match Operation.ofName? op with
      | none => some (.unknownOperation op opSpan)
      | some _ =>
          if arguments.length = 2 then none
          else
            some (.argumentCount (text (group (literal op opSpan :: arguments) span depth)) op
              arguments.length span)
  | group (group items opSpan depth :: _) _ _ =>
      some (.groupAsOperation (text (group items opSpan depth)) opSpan)
  | group (foreign value :: _) _ _ => some (.foreign value)
  | foreign value => some (.foreign value)

/-- The nodes that are evaluated as long as none has a fault, in order. -/
def visited : Expr α → List (Expr α)
  | group [op, a, b] span depth =>
      if (ownFault (group [op, a, b] span depth)).isNone then
        group [op, a, b] span depth :: (visited a ++ visited b)
      else [group [op, a, b] span depth]
  | e => [e]

variable {e a b : Expr α} {items : List (Expr α)} {span : Span} {depth : Int} {f : EvalError α}

theorem value_of_arguments {op : Text} {opSpan : Span} {arguments : List (Expr α)}
    (h : arguments.length ≠ 2) :
    (group (literal op opSpan :: arguments) span depth).value =
      match Operation.ofName? op with
      | none => .error (.unknownOperation op opSpan)
      | some _ =>
          .error (.argumentCount (text (group (literal op opSpan :: arguments) span depth)) op
            arguments.length span) := by
  match arguments, h with
  | [], _ => rfl
  | [_], _ => rfl
  | _ :: _ :: _ :: _, _ => rfl

theorem value_of_ownFault (h : ownFault e = some f) : e.value = .error f := by
  cases e with
  | literal text span =>
      rw [ownFault] at h
      rw [value]
      cases hread : Numeral.read text with
      | value x => simp [hread] at h
      | unreadable => simpa [hread] using h
      | notANumeral => simpa [hread] using h
  | foreign value =>
      cases h
      rfl
  | group items span depth =>
      match items with
      | [] =>
          cases h
          rfl
      | group _ _ _ :: _ =>
          cases h
          rfl
      | foreign _ :: _ =>
          cases h
          rfl
      | literal op opSpan :: arguments =>
          rw [ownFault] at h
          by_cases hcount : arguments.length = 2
          · obtain ⟨a, b, rfl⟩ := List.length_eq_two.1 hcount
            rw [value]
            cases hop : Operation.ofName? op with
            | none => simpa [hop] using h
            | some operation => simp [hop] at h
          · rw [value_of_arguments hcount]
            cases hop : Operation.ofName? op with
            | none => simpa [hop] using h
            | some operation => simpa [hop, hcount] using h

theorem exists_value_of_literal {text : Text} (h : ownFault (literal text span : Expr α) = none) :
    ∃ x, (literal text span : Expr α).value = .ok x := by
  rw [ownFault] at h
  rw [value]
  cases hread : Numeral.read text with
  | value x => exact ⟨x, rfl⟩
  | unreadable => simp [hread] at h
  | notANumeral => simp [hread] at h

theorem application_of_ownFault_eq_none (h : ownFault (group items span depth) = none) :
    ∃ op opSpan a b operation, items = [literal op opSpan, a, b] ∧
      Operation.ofName? op = some operation := by
  match items with
  | [] => cases h
  | group _ _ _ :: _ => cases h
  | foreign _ :: _ => cases h
  | literal op opSpan :: arguments =>
      rw [ownFault] at h
      cases hop : Operation.ofName? op with
      | none => simp [hop] at h
      | some operation =>
          by_cases hcount : arguments.length = 2
          · obtain ⟨a, b, rfl⟩ := List.length_eq_two.1 hcount
            exact ⟨op, opSpan, a, b, operation, rfl, hop⟩
          · simp [hop, hcount] at h

/-- What holds of all expressions with a fault of their own and of all numerals, and of an
application whenever it holds of its arguments, holds of every expression. -/
@[elab_as_elim]
theorem evaluation_induction {motive : Expr α → Prop}
    (fault : ∀ e f, ownFault e = some f → motive e)
    (numeral : ∀ text span x, (literal text span : Expr α).value = .ok x →
      motive (literal text span))
    (application : ∀ op opSpan a b span depth operation, Operation.ofName? op = some operation →
      motive a → motive b → motive (group [literal op opSpan, a, b] span depth)) (e : Expr α) :
    motive e := by
  induction e with
  | literal text span =>
      cases hown : ownFault (literal text span : Expr α) with
      | some f => exact fault _ f hown
      | none =>
          obtain ⟨x, hvalue⟩ := exists_value_of_literal hown
          exact numeral text span x hvalue
  | foreign value => exact fault _ _ rfl
  | group items span depth ih =>
      cases hown : ownFault (group items span depth) with
      | some f => exact fault _ f hown
      | none =>
          obtain ⟨op, opSpan, a, b, operation, rfl, hop⟩ := application_of_ownFault_eq_none hown
          exact application op opSpan a b span depth operation hop (ih a (by simp)) (ih b (by simp))

theorem value_of_operation {op : Text} {opSpan : Span} {operation : Operation}
    (h : Operation.ofName? op = some operation) :
    (group [literal op opSpan, a, b] span depth).value =
      a.value >>= fun x => b.value >>= fun y => .ok (operation.apply x y) := by
  rw [value, h]
  cases ha : a.value with
  | error e => rfl
  | ok x => cases hb : b.value <;> rfl

theorem visited_of_ne (h : ∀ op a b span depth, e ≠ group [op, a, b] span depth) :
    visited e = [e] := by
  rw [visited]
  exact h

theorem visited_of_ownFault (h : ownFault e = some f) : visited e = [e] := by
  by_cases hthree : ∃ op a b span depth, e = group [op, a, b] span depth
  · obtain ⟨op, a, b, span, depth, rfl⟩ := hthree
    rw [visited, h]
    rfl
  · apply visited_of_ne
    intro op a b span depth heq
    exact hthree ⟨op, a, b, span, depth, heq⟩

theorem visited_of_none {op : Expr α} (h : ownFault (group [op, a, b] span depth) = none) :
    visited (group [op, a, b] span depth) =
      group [op, a, b] span depth :: (visited a ++ visited b) := by
  rw [visited, h]
  rfl

theorem mem_nodes_of_mem_visited {n : Expr α} (h : n ∈ visited e) : n ∈ e.nodes := by
  induction e using Expr.induction with
  | literal text span =>
      have hvisited : visited (literal text span : Expr α) = [literal text span] :=
        visited_of_ne nofun
      rw [hvisited, List.mem_singleton] at h
      exact h ▸ mem_nodes_self _
  | foreign value =>
      have hvisited : visited (foreign value) = [foreign value] := visited_of_ne nofun
      rw [hvisited, List.mem_singleton] at h
      exact h ▸ mem_nodes_self _
  | group items span depth ih =>
      cases hown : ownFault (group items span depth) with
      | some fault =>
          rw [visited_of_ownFault hown, List.mem_singleton] at h
          exact h ▸ mem_nodes_self _
      | none =>
          obtain ⟨op, opSpan, a, b, operation, rfl, -⟩ := application_of_ownFault_eq_none hown
          rw [visited_of_none hown, List.mem_cons, List.mem_append] at h
          rcases h with rfl | h | h
          · exact mem_nodes_self _
          · exact mem_nodes_trans (ih a (by simp) h) (mem_nodes_of_mem_items (by simp))
          · exact mem_nodes_trans (ih b (by simp) h) (mem_nodes_of_mem_items (by simp))

/-- The error that a result is, if it is one. -/
def error? {ε β : Type} : Except ε β → Option ε
  | .ok _ => none
  | .error e => some e

theorem findSome?_visited_of_ownFault (h : ownFault e = some f) :
    (visited e).findSome? ownFault = error? e.value := by
  rw [visited_of_ownFault h, value_of_ownFault h, List.findSome?_singleton, h, error?]

/-- The error of an expression is that of the first visited node with a fault of its own. -/
theorem findSome?_visited (e : Expr α) : (visited e).findSome? ownFault = error? e.value := by
  induction e using Expr.induction with
  | literal text span =>
      cases hown : ownFault (literal text span : Expr α) with
      | some fault => exact findSome?_visited_of_ownFault hown
      | none =>
          have hvisited : visited (literal text span : Expr α) = [literal text span] :=
            visited_of_ne nofun
          obtain ⟨x, hx⟩ := exists_value_of_literal hown
          rw [hvisited, List.findSome?_singleton, hown, hx, error?]
  | foreign value =>
      have hown : ownFault (foreign value) = some (.foreign value) := by rw [ownFault]
      exact findSome?_visited_of_ownFault hown
  | group items span depth ih =>
      cases hown : ownFault (group items span depth) with
      | some fault => exact findSome?_visited_of_ownFault hown
      | none =>
          obtain ⟨op, opSpan, a, b, operation, rfl, hop⟩ := application_of_ownFault_eq_none hown
          have iha := ih a (by simp)
          have ihb := ih b (by simp)
          rw [visited_of_none hown, value_of_operation hop, List.findSome?_cons, hown]
          simp only [List.findSome?_append, iha, ihb]
          -- the first argument is evaluated to its end before the second one is looked at
          cases a.value with
          | error e => rfl
          | ok x => cases b.value <;> rfl

theorem value_eq_error_iff : e.value = .error f ↔ (visited e).findSome? ownFault = some f := by
  rw [findSome?_visited]
  cases e.value with
  | ok x => simp [error?]
  | error g => simp [error?]

theorem exists_error_of_mem_visited {n : Expr α} (hn : n ∈ visited e) (h : ownFault n = some f) :
    ∃ g, e.value = .error g := by
  cases hvalue : e.value with
  | error g => exact ⟨g, rfl⟩
  | ok x =>
      have hnone := findSome?_visited e
      rw [hvalue, error?, List.findSome?_eq_none_iff] at hnone
      rw [hnone n hn] at h
      cases h

end BracketCalc.Expr
