import BracketCalc.Proofs.Expr.Evaluation
/-!
# Expressions with other labels

Spans and depths are labels, which evaluation passes on to its errors but never looks
at.  So an expression with other labels has the same text and the same value, or the
same error with another span.
-/

namespace BracketCalc

/-- The error with another span. -/
def EvalError.relabel {α : Type} (f : Span → Span) : EvalError α → EvalError α
  | notANumber text span => notANumber text (f span)
  | emptyGroup group span => emptyGroup group (f span)
  | groupAsOperation operation span => groupAsOperation operation (f span)
  | unknownOperation operation span => unknownOperation operation (f span)
  | argumentCount group operation count span => argumentCount group operation count (f span)
  | unreadable text => unreadable text
  | foreign value => foreign value

namespace Expr

variable {α : Type} {f : Span → Span} {g : Int → Int}

mutual

/-- The expression with other spans and depths. -/
def relabel (f : Span → Span) (g : Int → Int) : Expr α → Expr α
  | literal text span => literal text (f span)
  | group items span depth => group (relabelItems f g items) (f span) (g depth)
  | foreign value => foreign value

def relabelItems (f : Span → Span) (g : Int → Int) : List (Expr α) → List (Expr α)
  | [] => []
  | e :: rest => relabel f g e :: relabelItems f g rest

end

@[simp] theorem relabelItems_eq_map (items : List (Expr α)) :
    relabelItems f g items = items.map (relabel f g) := by
  induction items with
  | nil => rfl
  | cons e rest ih => rw [relabelItems, ih, List.map_cons]

theorem bare_eq_relabel (e : Expr α) : e.bare = e.relabel (fun _ => default) (fun _ => 0) := by
  induction e with
  | literal text span => rfl
  | group items span depth ih =>
      rw [bare, relabel, bareItems_eq_map, relabelItems_eq_map, List.map_congr_left ih]
  | foreign value => rfl

theorem bare_relabel (e : Expr α) : (e.relabel f g).bare = e.bare := by
  induction e with
  | literal text span => rfl
  | group items span depth ih =>
      rw [relabel, relabelItems_eq_map, bare_group_inj, List.map_map]
      exact List.map_congr_left ih
  | foreign value => rfl

theorem nodesOf_map_relabel {items : List (Expr α)}
    (h : ∀ e ∈ items, (e.relabel f g).nodes = e.nodes.map (relabel f g)) :
    nodesOf (items.map (relabel f g)) = (nodesOf items).map (relabel f g) := by
  induction items with
  | nil => rfl
  | cons e rest ih =>
      obtain ⟨he, hrest⟩ := List.forall_mem_cons.1 h
      rw [List.map_cons, nodesOf, nodesOf, List.map_append, he, ih hrest]

theorem nodes_relabel (e : Expr α) : (e.relabel f g).nodes = e.nodes.map (relabel f g) := by
  induction e with
  | literal text span => rfl
  | group items span depth ih =>
      rw [relabel, nodes, nodes, List.map_cons, relabel, relabelItems_eq_map,
        nodesOf_map_relabel ih]
  | foreign value => rfl

theorem length_relabelItems_ne_two {items : List (Expr α)}
    (h : ∀ a b, items = [a, b] → False) : (relabelItems f g items).length ≠ 2 := by
  rw [relabelItems_eq_map, List.length_map]
  intro hlength
  obtain ⟨a, b, hitems⟩ := List.length_eq_two.1 hlength
  exact h a b hitems

variable [Labelled α]

theorem text_relabel (e : Expr α) : (e.relabel f g).text = e.text := by
  induction e with
  | literal text span => rfl
  | group items span depth ih =>
      have htexts : (items.map (relabel f g)).map text = items.map text := by
        rw [List.map_map]
        exact List.map_congr_left ih
      rw [relabel, text, text, texts_eq_map, texts_eq_map, relabelItems_eq_map, htexts]
  | foreign value => rfl

/-- An expression with other labels has the same value, or the same error with another span. -/
theorem value_relabel (e : Expr α) :
    (e.relabel f g).value = e.value.mapError (EvalError.relabel f) := by
  fun_induction value e with
  | case1 text span x hread => simp only [relabel, value, hread, Except.mapError]
  | case2 text span hread =>
      simp only [relabel, value, hread, Except.mapError, EvalError.relabel]
  | case3 text span hread =>
      simp only [relabel, value, hread, Except.mapError, EvalError.relabel]
  | case4 span depth => rfl
  | case5 op opSpan a b span depth hop =>
      simp only [relabel, relabelItems, value, hop, Except.mapError, EvalError.relabel]
  | case6 op opSpan a b span depth operation hop e ha iha =>
      rw [ha] at iha
      simp only [relabel, relabelItems, value, hop, iha, Except.mapError]
  | case7 op opSpan a b span depth operation hop x ha e hb iha ihb =>
      rw [ha] at iha
      rw [hb] at ihb
      simp only [relabel, relabelItems, value, hop, iha, ihb, Except.mapError]
  | case8 op opSpan a b span depth operation hop x ha y hb iha ihb =>
      rw [ha] at iha
      rw [hb] at ihb
      simp only [relabel, relabelItems, value, hop, iha, ihb, Except.mapError]
  | case9 op opSpan arguments span depth hcount hop =>
      rw [relabel, relabelItems, relabel, value_of_arguments (length_relabelItems_ne_two hcount),
        hop]
      rfl
  | case10 op opSpan arguments span depth hcount operation hop =>
      have htext : text (relabel f g (group (literal op opSpan :: arguments) span depth)) = _ :=
        text_relabel _
      rw [relabel, relabelItems, relabel] at htext ⊢
      rw [value_of_arguments (length_relabelItems_ne_two hcount), hop, htext, relabelItems_eq_map,
        List.length_map]
      rfl
  | case11 items opSpan opDepth arguments span depth =>
      have htext : text (relabel f g (group items opSpan opDepth)) = _ := text_relabel _
      rw [relabel] at htext
      simp only [relabel, relabelItems, value, Except.mapError, EvalError.relabel]
      rw [htext]
  | case12 value arguments span depth => rfl
  | case13 value => rfl

end Expr

end BracketCalc
