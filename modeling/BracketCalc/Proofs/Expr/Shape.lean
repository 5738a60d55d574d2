import BracketCalc.Expr.Basic
import BracketCalc.Token.Basic
/-!
# The shape of an expression

Two expressions are the same when they differ in spans and depths alone.  What
is left when these are erased is the bare expression, and the sequence of token
kinds that write it, the height to which its groups are nested and the list of
its nodes are read off from it by recursion.
-/

namespace BracketCalc.Expr

variable {α : Type}

/-- What holds of all leaves, and of a group whenever it holds of its items, holds of every
expression. -/
@[elab_as_elim, induction_eliminator]
theorem induction {motive : Expr α → Prop}
    (literal : ∀ text span, motive (.literal text span))
    (group : ∀ items span depth, (∀ e ∈ items, motive e) → motive (.group items span depth))
    (foreign : ∀ value, motive (.foreign value)) (e : Expr α) : motive e := by
  refine @Expr.rec α motive (fun items => ∀ e ∈ items, motive e) literal group foreign ?_ ?_ e
  · intro e h
    cases h
  · intro head tail hhead htail e h
    rcases List.mem_cons.1 h with rfl | h
    · exact hhead
    · exact htail e h

/-! ### Spans and depths erased -/

mutual

/-- The expression without its spans and depths. -/
def bare : Expr α → Expr α
  | literal text _ => literal text default
  | group items _ _ => group (bareItems items) default 0
  | foreign value => foreign value

def bareItems : List (Expr α) → List (Expr α)
  | [] => []
  | e :: rest => bare e :: bareItems rest

end

@[simp] theorem bareItems_eq_map (items : List (Expr α)) : bareItems items = items.map bare := by
  induction items with
  | nil => rfl
  | cons e rest ih => rw [bareItems, ih, List.map_cons]

theorem bare_group_inj {as bs : List (Expr α)} {span span' : Span} {depth depth' : Int} :
    (group as span depth).bare = (group bs span' depth').bare ↔ as.map bare = bs.map bare := by
  simp [bare]

theorem exists_group_of_bare_eq {e : Expr α} {bs : List (Expr α)} {span : Span} {depth : Int}
    (h : e.bare = (group bs span depth).bare) : ∃ as span' depth', e = group as span' depth' := by
  cases e with
  | literal text span' => simp [bare] at h
  | group as span' depth' => exact ⟨as, span', depth', rfl⟩
  | foreign value => simp [bare] at h

theorem exists_literal_of_bare_eq {e : Expr α} {text : Text} {span : Span}
    (h : e.bare = (literal text span).bare) : ∃ span', e = literal text span' := by
  cases e with
  | literal letters span' =>
      simp only [bare, literal.injEq, and_true] at h
      exact ⟨span', by rw [h]⟩
  | group items span' depth => simp [bare] at h
  | foreign value => simp [bare] at h

theorem exists_application_of_bare_eq {e a b : Expr α} {op : Text} {opSpan span : Span}
    {depth : Int} (h : e.bare = (group [literal op opSpan, a, b] span depth).bare) :
    ∃ opSpan' c d span' depth', e = group [literal op opSpan', c, d] span' depth' ∧
      c.bare = a.bare ∧ d.bare = b.bare := by
  obtain ⟨items, span', depth', rfl⟩ := exists_group_of_bare_eq h
  obtain ⟨p, arguments, rfl, hp, harguments⟩ := List.map_eq_cons_iff.1 (bare_group_inj.1 h)
  obtain ⟨c, more, rfl, hc, hmore⟩ := List.map_eq_cons_iff.1 harguments
  obtain ⟨d, rfl, hd⟩ := List.map_eq_singleton_iff.1 hmore
  obtain ⟨opSpan', rfl⟩ := exists_literal_of_bare_eq hp
  exact ⟨_, _, _, _, _, rfl, hc, hd⟩

theorem same_iff [DecidableEq α] {a b : Expr α} : a.same b = true ↔ a.bare = b.bare := by
  induction a generalizing b with
  | literal text span => cases b <;> simp [same, bare]
  | foreign value => cases b <;> simp [same, bare]
  | group as span depth ih =>
      cases b with
      | literal text span' => simp [same, bare]
      | foreign value => simp [same, bare]
      | group bs span' depth' =>
          rw [same, bare_group_inj]
          clear span depth span' depth'
          induction as generalizing bs with
          | nil => cases bs <;> simp [sameItems]
          | cons a as ihItems =>
              cases bs with
              | nil => simp [sameItems]
              | cons b bs =>
                  have hhead : a.same b = true ↔ a.bare = b.bare := ih a List.mem_cons_self
                  have htail := ihItems (fun e he => ih e (List.mem_cons_of_mem a he)) bs
                  simp [sameItems, hhead, htail]

/-! ### Token kinds -/

mutual

/-- The kinds of the tokens that write a tree with all its brackets. -/
def kinds : Tree → List TokenKind
  | literal text _ => [.literal text]
  | group items _ _ => .left :: (kindsOf items ++ [.right])
  | foreign value => nomatch value

/-- The kinds of the tokens that write some trees one after another. -/
def kindsOf : List Tree → List TokenKind
  | [] => []
  | e :: rest => kinds e ++ kindsOf rest

end

@[simp] theorem kindsOf_singleton (e : Tree) : kindsOf [e] = kinds e := by
  rw [kindsOf, kindsOf, List.append_nil]

/-! ### Height -/

mutual

/-- How many groups stand in one another. -/
def height : Expr α → Nat
  | literal _ _ => 0
  | group items _ _ => highest items + 1
  | foreign _ => 0

/-- The greatest height among some expressions. -/
def highest : List (Expr α) → Nat
  | [] => 0
  | e :: rest => max (height e) (highest rest)

end

@[simp] theorem highest_singleton (e : Expr α) : highest [e] = height e := by
  rw [highest, highest, Nat.max_zero]

theorem height_le_highest {e : Expr α} {items : List (Expr α)} (h : e ∈ items) :
    e.height ≤ highest items := by
  induction items with
  | nil => cases h
  | cons head rest ih =>
      rw [highest]
      rcases List.mem_cons.1 h with rfl | h
      · exact Nat.le_max_left ..
      · exact Nat.le_trans (ih h) (Nat.le_max_right ..)

theorem highest_map_bare {items : List (Expr α)} (h : ∀ e ∈ items, e.bare.height = e.height) :
    highest (items.map bare) = highest items := by
  induction items with
  | nil => rfl
  | cons e rest ih =>
      rw [List.map_cons, highest, highest, h e List.mem_cons_self,
        ih fun e he => h e (List.mem_cons_of_mem _ he)]

@[simp] theorem height_bare (e : Expr α) : e.bare.height = e.height := by
  induction e with
  | literal text span => rfl
  | group items span depth ih => rw [bare, height, height, bareItems_eq_map, highest_map_bare ih]
  | foreign value => rfl

theorem height_eq_of_bare_eq {a b : Expr α} (h : a.bare = b.bare) : a.height = b.height := by
  rw [← height_bare a, h, height_bare]

theorem highest_eq_of_map_bare_eq {as bs : List (Expr α)} (h : as.map bare = bs.map bare) :
    highest as = highest bs := by
  rw [← highest_map_bare fun e _ => height_bare e, h, highest_map_bare fun e _ => height_bare e]

/-! ### Nodes -/

mutual

/-- The expression and all expressions inside it, each before its items. -/
def nodes : Expr α → List (Expr α)
  | e@(literal _ _) => [e]
  | e@(group items _ _) => e :: nodesOf items
  | e@(foreign _) => [e]

def nodesOf : List (Expr α) → List (Expr α)
  | [] => []
  | e :: rest => nodes e ++ nodesOf rest

end

@[simp] theorem nodesOf_singleton (e : Expr α) : nodesOf [e] = nodes e := by
  rw [nodesOf, nodesOf, List.append_nil]

theorem mem_nodesOf {n : Expr α} {items : List (Expr α)} :
    n ∈ nodesOf items ↔ ∃ e ∈ items, n ∈ e.nodes := by
  induction items with
  | nil => simp [nodesOf]
  | cons e rest ih => simp [nodesOf, ih]

theorem mem_nodes_self (e : Expr α) : e ∈ e.nodes := by
  cases e <;> simp [nodes]

theorem mem_nodes_of_mem_items {e : Expr α} {items : List (Expr α)} {span : Span} {depth : Int}
    (h : e ∈ items) : e ∈ (group items span depth).nodes :=
  List.mem_cons_of_mem _ (mem_nodesOf.2 ⟨e, h, mem_nodes_self e⟩)

theorem mem_nodes_trans {m n e : Expr α} (hm : m ∈ n.nodes) (hn : n ∈ e.nodes) : m ∈ e.nodes := by
  induction e with
  | literal text span =>
      rw [nodes, List.mem_singleton] at hn
      rwa [hn] at hm
  | foreign value =>
      rw [nodes, List.mem_singleton] at hn
      rwa [hn] at hm
  | group items span depth ih =>
      rcases List.mem_cons.1 hn with rfl | hn
      · exact hm
      · obtain ⟨e, he, hn⟩ := mem_nodesOf.1 hn
        exact List.mem_cons_of_mem _ (mem_nodesOf.2 ⟨e, he, ih e he hn⟩)

theorem height_le_of_mem_nodes {n e : Expr α} (h : n ∈ e.nodes) : n.height ≤ e.height := by
  induction e with
  | literal text span =>
      rw [nodes, List.mem_singleton] at h
      exact Nat.le_of_eq (by rw [h])
  | foreign value =>
      rw [nodes, List.mem_singleton] at h
      exact Nat.le_of_eq (by rw [h])
  | group items span depth ih =>
      rcases List.mem_cons.1 h with rfl | h
      · exact Nat.le_refl _
      · obtain ⟨e, he, hn⟩ := mem_nodesOf.1 h
        calc n.height ≤ e.height := ih e he hn
          _ ≤ highest items := height_le_highest he
          _ ≤ highest items + 1 := Nat.le_succ _

theorem height_le_of_mem_nodesOf {n : Expr α} {items : List (Expr α)} (h : n ∈ nodesOf items) :
    n.height ≤ highest items := by
  obtain ⟨e, he, hn⟩ := mem_nodesOf.1 h
  exact Nat.le_trans (height_le_of_mem_nodes hn) (height_le_highest he)

end BracketCalc.Expr
