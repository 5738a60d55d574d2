import BracketCalc.Proofs.Expr.RoundTrip
import BracketCalc.Proofs.Fault.Layout
import BracketCalc.Proofs.Fault.Offender
import BracketCalc.Proofs.Fault.Within
/-!
# Culprits

A fault marks a stretch of the text and quotes a snippet.  The stretch comes from
the tokens and the snippet is written down from the tree, and still the two are
the same thing: a fault of reading marks the bracket that it quotes, and a fault
of evaluating marks a stretch that is read as the expression that it quotes.
-/

namespace BracketCalc

open Token

/-- The span is a stretch of the text, which begins with no blank. -/
structure Span.Marks (text : Text) (span : Span) : Prop where
  start_nonneg : 0 ≤ span.start
  start_lt_stop : span.start < span.stop
  stop_le_length : span.stop ≤ text.length
  first : ∃ c, text[span.start.toNat]? = some c ∧ c ≠ ' ' ∧ c ≠ '\n'

/-- A stretch and a snippet are read as the same tree, and found to be so within the limit. -/
def Tree.SameReading (newlines : Newlines) (stretch snippet : Text) : Prop :=
  ∃ t u : Tree, parse newlines stretch = .ok t ∧ parse newlines snippet = .ok u ∧
    t.same u = true ∧ t.sameWithin callLimit u = some true

variable {host : Host} {newlines : Newlines} {text : Text} {tree n : Tree} {fault : Fault}
  {e : ParseError} {t : Token}

/-! ### Marked brackets -/

theorem Token.Stands.marks (h : Stands newlines text t) : t.span.Marks text := by
  obtain ⟨hstart, hlt, hstop⟩ := h.bounds
  obtain ⟨c, hc, -, hspace, hnewline⟩ := h.exists_first
  exact ⟨hstart, hlt, hstop, c, hc, hspace, hnewline⟩

theorem Token.Stands.slice_bracket (h : Stands newlines text t)
    (hbracket : t.kind = .left ∨ t.kind = .right) :
    t.span.slice text = t.text ∧ (t.text = ['('] ∨ t.text = [')']) := by
  have hlexeme := h.slice_span
  generalize t.span.slice text = run, t.span.start.toNat = offset at hlexeme
  cases hlexeme with
  | left => exact ⟨rfl, .inl rfl⟩
  | right => exact ⟨rfl, .inr rfl⟩
  | word _ => simp at hbracket

/-- A fault of reading marks the bracket that it quotes. -/
theorem Fault.marks_bracket (h : Tree.parse newlines text = .error e)
    (hstop : e.stop host = .fault fault) (htopic : fault.topic ≠ .noTokens) :
    fault.span.Marks text ∧ fault.topic.isParsing = true ∧
      (fault.subject = ['('] ∨ fault.subject = [')']) ∧ fault.span.slice text = fault.subject := by
  have hdeep : e ≠ .tooDeep := by
    rintro rfl
    cases hstop
  rcases ParseError.noTokens_or_at h hdeep with rfl | ⟨t, ht, hat, hbracket⟩
  · obtain ⟨told, htold, hnone, -⟩ := ParseError.blames_noTokens host
    obtain rfl : told = fault := Stop.fault.inj (htold.symm.trans hstop)
    exact absurd hnone htopic
  · obtain ⟨hparsing, hsubject, hspan, -⟩ := hat.told ht hbracket hstop
    have hstands := stands_of_mem_lex ht
    obtain ⟨hslice, hletter⟩ := hstands.slice_bracket hbracket
    rw [hspan, hsubject]
    exact ⟨hstands.marks, hparsing, hletter, hslice⟩

/-! ### Marked nodes -/

namespace Tree

/-- The stretch of a node that is written within the limit is read as the same as its text. -/
theorem sameReading_of_mem_nodes (h : parse newlines text = .ok tree) (hn : n ∈ tree.nodes)
    (hlow : 3 * n.height ≤ callLimit) :
    SameReading newlines ((span n).slice text) n.text := by
  obtain ⟨t, ht, htn⟩ := (placed_of_mem_nodes h hn).reread
  have hlegible : Legible n := (legible_of_parse_eq_ok h).of_mem_nodes hn
  obtain ⟨u, hun, -, hparse⟩ := hlegible.exists_read newlines
  have hlimit : n.height ≤ nestingLimit := by
    unfold callLimit at hlow
    omega
  rw [if_pos hlimit] at hparse
  rw [Expr.same_iff] at htn hun
  have hsame : t.same u = true := Expr.same_iff.2 (htn.trans hun.symm)
  refine ⟨t, u, ht, hparse, hsame, ?_⟩
  rw [Expr.sameWithin_of_same hsame, Expr.height_eq_of_bare_eq htn, if_pos hlow]

theorem Starts.marks {first : Token} (h : Starts newlines text n first) :
    (span n).Marks text := by
  obtain ⟨hstart, -, -, hfirst⟩ := (stands_of_mem_lex h.mem_lex).marks
  rw [← h.start_eq] at hstart hfirst
  exact ⟨hstart, h.start_lt_stop, h.stop_le_length, hfirst⟩

end Tree

theorem Expr.Tells.isEvaluating (h : tree.Tells host fault) :
    fault.topic.isEvaluating = true := by
  obtain ⟨f, -, hstop⟩ := h
  have hreadable : ∀ word, f ≠ .unreadable word := by
    rintro word rfl
    cases hstop
  obtain ⟨told, htold, htopic⟩ := f.exists_fault host hreadable
  obtain rfl : told = fault := Stop.fault.inj (htold.symm.trans hstop)
  exact htopic

/-- A fault of evaluating marks a stretch that is read as the expression that it quotes. -/
theorem Fault.marks_node (h : Tree.parse newlines text = .ok tree)
    (hfault : tree.evaluateWithin host Tree.callLimit = .error (.fault fault)) :
    fault.span.Marks text ∧ fault.topic.isEvaluating = true ∧
      Tree.SameReading newlines (fault.span.slice text) fault.subject := by
  have htells : tree.Tells host fault := by
    rcases Expr.evaluateWithin_eq_error hfault with hdeep | ⟨f, -, hvalue, hstop⟩
    · cases hdeep
    · exact ⟨f, hvalue, hstop⟩
  obtain ⟨m, hm, hwritten, hlow⟩ := Expr.exists_subject_of_evaluateWithin hfault
  obtain ⟨-, tokens, hoffender⟩ := offender_of_tells h htells
  cases hoffender with
  | bracket herror _ _ _ _ _ =>
      rw [h] at herror
      cases herror
  | node hother _ hn hsubject hspan =>
      rw [h] at hother
      cases hother
      obtain ⟨first, hfirst⟩ := Tree.exists_starts h hn
      -- the node that is quoted and the one that is written have the same text, so the same height
      have hlegible := Tree.legible_of_parse_eq_ok h
      have hsame := (hlegible.of_mem_nodes hm).same_of_text_eq (hlegible.of_mem_nodes hn)
        (hwritten.symm.trans hsubject)
      rw [Expr.height_eq_of_bare_eq (Expr.same_iff.1 hsame)] at hlow
      rw [hspan, hsubject]
      exact ⟨hfirst.marks, htells.isEvaluating, Tree.sameReading_of_mem_nodes h hn hlow⟩

/-! ### Culprits -/

/-- Whatever fault reading or evaluating a text comes to, other than that there are no tokens, it
marks its culprit: the bracket that it quotes, or a stretch that is read as what it quotes. -/
theorem Fault.marks_culprit (host : Host) (newlines : Newlines) (text : Text) (fault : Fault)
    (h : readTree host newlines text = .error (.fault fault) ∨
      evaluateWithin host Tree.callLimit newlines text = .error (.fault fault))
    (htopic : fault.topic ≠ .noTokens) :
    fault.span.Marks text ∧
      (fault.topic.isParsing = true ∧ (fault.subject = ['('] ∨ fault.subject = [')']) ∧
          fault.span.slice text = fault.subject ∨
        fault.topic.isEvaluating = true ∧
          Tree.SameReading newlines (fault.span.slice text) fault.subject) := by
  unfold readTree at h
  cases hparse : Tree.parse newlines text with
  | error e =>
      have hstop : e.stop host = .fault fault := by
        rw [hparse, evaluateWithin_of_parse_eq_error hparse] at h
        exact h.elim Except.error.inj Except.error.inj
      obtain ⟨hmarks, hbracket⟩ := marks_bracket hparse hstop htopic
      exact ⟨hmarks, .inl hbracket⟩
  | ok tree =>
      have hfault : tree.evaluateWithin host Tree.callLimit = .error (.fault fault) := by
        rw [hparse, evaluateWithin_of_parse_eq_ok hparse] at h
        exact h.resolve_left nofun
      obtain ⟨hmarks, hnode⟩ := marks_node hparse hfault
      exact ⟨hmarks, .inr hnode⟩

/-- The numeral that goes on behind a newline is quoted in one piece and marked with the newline. -/
theorem Fault.marks_merged_numeral :
    evaluateWithin .plain Tree.callLimit .merge "+ (* 1\nx 2) 3".toList =
        .error (.fault (.notANumber .plain ['1', 'x'] ⟨5, 8⟩)) ∧
      Span.Marks "+ (* 1\nx 2) 3".toList ⟨5, 8⟩ ∧
      Tree.SameReading .merge ['1', '\n', 'x'] ['1', 'x'] := by
  have hfault : evaluateWithin .plain Tree.callLimit .merge "+ (* 1\nx 2) 3".toList =
      .error (.fault (.notANumber .plain ['1', 'x'] ⟨5, 8⟩)) := rfl
  obtain ⟨hmarks, hculprit⟩ := marks_culprit _ _ _ _ (.inr hfault) nofun
  refine ⟨hfault, hmarks, ?_⟩
  rcases hculprit with ⟨hparsing, -⟩ | ⟨-, hsame⟩
  · cases hparsing
  · exact hsame

end BracketCalc
