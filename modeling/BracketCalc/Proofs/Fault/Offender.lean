import BracketCalc.Proofs.Expr.Image
import BracketCalc.Proofs.Fault.FirstFault
/-!
# What a fault is about

A located fault is about a bracket of a text that cannot be read, or about a node
of the tree that is read from the text.  It has the span of this bracket or node,
so that it starts where the first token of it stands.
-/

namespace BracketCalc

open Token

variable {host : Host} {newlines : Newlines} {text : Text} {tree n : Tree} {fault : Fault}
  {tokens : List Token} {e : ParseError} {t : Token}

/-- The error is about the token. -/
def ParseError.At (e : ParseError) (t : Token) : Prop :=
  e = .loneToken t ∨ e = .surplusRight t ∨ e = .unclosed t

/-- The tokens of the bracket or the node that a fault is about. -/
inductive Offender (host : Host) (newlines : Newlines) (text : Text) (fault : Fault) :
    List Token → Prop where
  | bracket {e : ParseError} {t : Token} : Tree.parse newlines text = .error e → e.At t →
      e.stop host = .fault fault → t ∈ lex newlines text → fault.subject = t.text →
      fault.span = t.span → Offender host newlines text fault [t]
  | node {tree n : Tree} : Tree.parse newlines text = .ok tree → tree.Tells host fault →
      n ∈ tree.nodes → fault.subject = n.text → fault.span = Tree.span n →
      Offender host newlines text fault (Tree.tokens n)

/-! ### Brackets -/

/-- Reading fails at a bracket of the text, if there are tokens at all. -/
theorem ParseError.noTokens_or_at (h : Tree.parse newlines text = .error e) (hdeep : e ≠ .tooDeep) :
    e = .noTokens ∨
      ∃ t ∈ lex newlines text, e.At t ∧ (t.kind = .left ∨ t.kind = .right) := by
  obtain ⟨v, hforetold, hv⟩ := Verdict.exists_foretold_of_error h hdeep
  cases e with
  | noTokens => exact .inl rfl
  | loneToken t =>
      obtain rfl := Option.some.inj hv
      obtain ⟨hsingle, hbracket⟩ := hforetold
      exact .inr ⟨t, by simp [hsingle], .inl rfl, hbracket⟩
  | surplusRight t =>
      obtain rfl := Option.some.inj hv
      obtain ⟨front, rest, hlex, -, hright⟩ := firstSurplus_iff.1 hforetold.2.2
      exact .inr ⟨t, by simp [hlex], .inr (.inl rfl), .inr hright⟩
  | unclosed t =>
      obtain rfl := Option.some.inj hv
      obtain ⟨front, inside, hlex, hleft, -⟩ := lastUnclosed_iff.1 hforetold.2.2.2
      exact .inr ⟨t, by simp [hlex], .inr (.inr rfl), .inl hleft⟩
  | unknownToken t => cases hv
  | noToken => cases hv
  | unopened => cases hv
  | tooDeep => exact absurd rfl hdeep

theorem ParseError.At.exists_blame (h : e.At t) (host : Host) :
    ∃ topic : Topic, topic.isParsing = true ∧ e.stop host = stop.blame host topic t := by
  rcases h with rfl | rfl | rfl
  · exact ⟨.loneBracket, rfl, rfl⟩
  · exact ⟨.surplusBracket, rfl, rfl⟩
  · exact ⟨.unclosedBracket, rfl, rfl⟩

/-- An error at a bracket of the text is told about this bracket. -/
theorem ParseError.At.told (hat : e.At t) (ht : t ∈ lex newlines text)
    (hbracket : t.kind = .left ∨ t.kind = .right) (hstop : e.stop host = .fault fault) :
    fault.topic.isParsing = true ∧ fault.subject = t.text ∧ fault.span = t.span ∧
      fault.internal = false := by
  obtain ⟨topic, hparsing, hblame⟩ := hat.exists_blame host
  rw [hblame] at hstop
  obtain ⟨told, htold, rfl, hsubject, hspan⟩ := ParseError.blames hparsing host t
  obtain rfl : told = fault := Stop.fault.inj (htold.symm.trans hstop)
  obtain ⟨-, -, -, hinternal⟩ := Fault.compose_eq_ok (Stop.eq_ok_of_ofFault hstop)
  rw [← (stands_of_mem_lex ht).stop_eq hbracket] at hspan
  exact ⟨hparsing, hsubject, hspan, hinternal⟩

theorem offender_of_parse (h : Tree.parse newlines text = .error e)
    (hstop : e.stop host = .fault fault) (hlocated : fault.located = true) :
    fault.internal = false ∧ ∃ tokens, Offender host newlines text fault tokens := by
  have hdeep : e ≠ .tooDeep := by
    rintro rfl
    cases hstop
  rcases ParseError.noTokens_or_at h hdeep with rfl | ⟨t, ht, hat, hbracket⟩
  · have hcompose : Fault.compose host .noTokens [[]] ⟨0, Fault.unknownEnd⟩ false false =
        .ok fault := Stop.eq_ok_of_ofFault hstop
    obtain ⟨-, -, hplain, -⟩ := Fault.compose_eq_ok hcompose
    rw [hlocated] at hplain
    cases hplain
  · obtain ⟨-, hsubject, hspan, hinternal⟩ := hat.told ht hbracket hstop
    exact ⟨hinternal, [t], .bracket h hat hstop ht hsubject hspan⟩

/-! ### Nodes -/

theorem Expr.OwnFault.exists_part (h : OwnFault host n fault) :
    ∃ m ∈ n.nodes, fault.subject = m.text ∧ fault.internal = false ∧
      ((Tree.span m).stop ≠ Fault.unknownEnd → fault.span = Tree.span m) := by
  have hquoting : ∀ {topic subject wording} {span : Span},
      (Fault.quoting host topic subject span wording).internal = false ∧
      (span.stop ≠ Fault.unknownEnd →
        (Fault.quoting host topic subject span wording).span = span) := by
    intro topic subject wording span
    refine ⟨rfl, fun hne => ?_⟩
    simp [Fault.quoting, hne]
  cases h with
  | notANumber _ _ => exact ⟨_, mem_nodes_self _, rfl, hquoting⟩
  | emptyGroup => exact ⟨_, mem_nodes_self _, rfl, hquoting⟩
  | groupAsOperation => exact ⟨_, mem_nodes_of_mem_items List.mem_cons_self, rfl, hquoting⟩
  | unknownOperation _ _ => exact ⟨_, mem_nodes_of_mem_items List.mem_cons_self, rfl, hquoting⟩
  | argumentCount _ _ => exact ⟨_, mem_nodes_self _, rfl, hquoting⟩

theorem offender_of_tells (h : Tree.parse newlines text = .ok tree)
    (htells : tree.Tells host fault) :
    fault.internal = false ∧ ∃ tokens, Offender host newlines text fault tokens := by
  obtain ⟨before, visited, behind, hvisited, -, hown⟩ := Expr.tells_iff.1 htells
  obtain ⟨m, hm, hsubject, hinternal, hspan⟩ := hown.exists_part
  have hmem : m ∈ tree.nodes := by
    refine Expr.mem_nodes_trans hm (Expr.mem_nodes_of_mem_visited ?_)
    simp [hvisited]
  obtain ⟨first, hfirst⟩ := Tree.exists_starts h hmem
  have hknown : (Tree.span m).stop ≠ Fault.unknownEnd := by
    have hpos := (stands_of_mem_lex hfirst.mem_lex).bounds
    have hlt := hfirst.start_lt_stop
    rw [hfirst.start_eq] at hlt
    unfold Fault.unknownEnd
    omega
  exact ⟨hinternal, _, .node h htells hmem hsubject (hspan hknown)⟩

/-! ### Offenders -/

/-- A located fault of a text is about a bracket or a node of it. -/
theorem exists_offender (h : evaluate host newlines text = .error (.fault fault))
    (hlocated : fault.located = true) :
    fault.internal = false ∧ ∃ tokens, Offender host newlines text fault tokens := by
  cases hparse : Tree.parse newlines text with
  | error e =>
      rw [evaluate_of_parse_eq_error hparse, Except.error.injEq] at h
      exact offender_of_parse hparse h hlocated
  | ok tree =>
      cases hvalue : tree.value with
      | ok x =>
          rw [evaluate_of_value_eq_ok host hparse hvalue] at h
          cases h
      | error f =>
          rw [evaluate_of_value_eq_error hparse hvalue, Except.error.injEq] at h
          exact offender_of_tells hparse ⟨f, hvalue, h⟩

namespace Offender

/-- The first token of what a fault is about stands where the span of the fault starts, and the
span goes on within the text. -/
theorem exists_first (h : Offender host newlines text fault tokens) :
    ∃ first c, tokens.head? = some first ∧ first.text.head? = some c ∧
      text[fault.span.start.toNat]? = some c ∧ c ≠ '\n' ∧
      fault.span.start < fault.span.stop ∧ fault.span.stop ≤ text.length := by
  cases h with
  | bracket _ _ _ ht _ hspan =>
      have hstands := stands_of_mem_lex ht
      obtain ⟨c, hat, hfirst, -, hc⟩ := hstands.exists_first
      rw [hspan]
      exact ⟨_, c, rfl, hfirst, hat, hc, hstands.bounds.2⟩
  | node hparse _ hn _ hspan =>
      obtain ⟨first, hfirst⟩ := Tree.exists_starts hparse hn
      obtain ⟨c, hat, hletter, -, hc⟩ := (stands_of_mem_lex hfirst.mem_lex).exists_first
      rw [← hfirst.start_eq] at hat
      rw [hspan]
      exact ⟨first, c, hfirst.head?_tokens, hletter, hat, hc, hfirst.start_lt_stop,
        hfirst.stop_le_length⟩

end Offender

end BracketCalc
