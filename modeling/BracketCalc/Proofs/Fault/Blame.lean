import BracketCalc.Stop
/-!
# What errors are told as

The errors of reading and evaluating are told as faults, whose messages can
always be composed.  Such a fault has the topic of its error, and the snippet
and the span that are to blame.
-/

namespace BracketCalc

/-- Work stopped with a fault of the topic, about the snippet and the span. -/
def Stop.Blames (stop : Stop) (topic : Topic) (subject : Text) (span : Span) : Prop :=
  ∃ fault, stop = .fault fault ∧ fault.topic = topic ∧ fault.subject = subject ∧ fault.span = span

namespace Topic

/-- How many snippets the message of an error quotes. -/
def quoted : Topic → Nat
  | argumentCount => 3
  | _ => 1

theorem exists_fill {topic : Topic} (h : topic.isParsing = true ∨ topic.isEvaluating = true)
    (attributes : Template.Attributes) {snippets : List Text}
    (hcount : snippets.length = topic.quoted) :
    ∃ message, topic.template.fill attributes snippets = .ok message := by
  cases topic with
  | general template => rcases h with h | h <;> cases h
  | argumentCount =>
      match snippets, hcount with
      | [a, b, c], _ => exact ⟨_, rfl⟩
  | _ =>
      obtain ⟨a, rfl⟩ := List.length_eq_one_iff.1 hcount
      exact ⟨_, rfl⟩

end Topic

namespace Fault

/-- The fault of an error has the message of its topic, its first snippet and its span. -/
theorem exists_compose {topic : Topic} (h : topic.isParsing = true ∨ topic.isEvaluating = true)
    (host : Host) {subject : Text} {others : List Text}
    (hcount : (subject :: others).length = topic.quoted) (span : Span) (located internal : Bool) :
    ∃ fault, compose host topic (subject :: others) span located internal = .ok fault ∧
      fault.topic = topic ∧ fault.subject = subject ∧
      fault.span =
        ⟨span.start,
          if span.stop = unknownEnd then span.start + subject.length else span.stop⟩ := by
  obtain ⟨message, hmessage⟩ := Topic.exists_fill h host.attributes hcount
  have hstyled : ((subject :: others).map host.bold).length = topic.quoted := by
    rw [List.length_map, hcount]
  obtain ⟨styled, hstyled⟩ := Topic.exists_fill h host.attributes hstyled
  have hcompose : compose host topic (subject :: others) span located internal = .ok
      ⟨topic, message, styled, subject, ⟨span.start,
        if span.stop = unknownEnd then span.start + subject.length else span.stop⟩, located,
        internal⟩ := by
    unfold compose
    rw [hmessage, hstyled]
    rfl
  exact ⟨_, hcompose, rfl, rfl, rfl⟩

theorem compose_eq_ok {host : Host} {topic : Topic} {snippets : List Text} {span : Span}
    {located internal : Bool} {fault : Fault}
    (h : compose host topic snippets span located internal = .ok fault) :
    topic.template.fill host.attributes (snippets.map host.bold) = .ok fault.styled ∧
      fault.span.start = span.start ∧ fault.located = located ∧ fault.internal = internal := by
  unfold compose at h
  cases hmessage : topic.template.fill host.attributes snippets with
  | error broken =>
      rw [hmessage] at h
      cases h
  | ok message =>
      cases hstyled : topic.template.fill host.attributes (snippets.map host.bold) with
      | error broken =>
          rw [hmessage, hstyled] at h
          cases h
      | ok styled =>
          rw [hmessage, hstyled] at h
          cases snippets with
          | nil => cases h
          | cons subject others =>
              cases h
              exact ⟨rfl, rfl, rfl, rfl⟩

end Fault

namespace Stop

variable {topic : Topic} {subject : Text} {others : List Text} {span : Span}

theorem blames_compose (h : topic.isParsing = true ∨ topic.isEvaluating = true) (host : Host)
    (hcount : (subject :: others).length = topic.quoted) (located internal : Bool) :
    (ofFault (Fault.compose host topic (subject :: others) span located internal)).Blames topic
      subject
      ⟨span.start,
        if span.stop = Fault.unknownEnd then span.start + subject.length else span.stop⟩ := by
  obtain ⟨fault, hfault, hfacts⟩ :=
    Fault.exists_compose h host hcount span located internal
  rw [hfault]
  exact ⟨fault, rfl, hfacts⟩

theorem eq_ok_of_ofFault {composed : Except Template.Fault Fault} {fault : Fault}
    (h : ofFault composed = .fault fault) : composed = .ok fault := by
  cases composed with
  | error broken => cases h
  | ok told => exact congrArg Except.ok (Stop.fault.inj h)

end Stop

/-- Errors at a token blame the token. -/
theorem ParseError.blames {topic : Topic} (h : topic.isParsing = true) (host : Host)
    (t : Token) :
    (ParseError.stop.blame host topic t).Blames topic t.text
      ⟨t.span.start, t.span.start + t.text.length⟩ := by
  have hcount : [t.text].length = topic.quoted := by
    cases topic with
    | argumentCount => cases h
    | _ => rfl
  exact Stop.blames_compose (.inl h) host hcount true false

theorem ParseError.blames_noTokens (host : Host) :
    (ParseError.noTokens.stop host).Blames .noTokens [] ⟨0, 0⟩ := by
  have hparsing : Topic.noTokens.isParsing = true ∨ Topic.noTokens.isEvaluating = true := .inl rfl
  have hcount : ([[]] : List Text).length = Topic.noTokens.quoted := rfl
  exact Stop.blames_compose hparsing host hcount false false

/-- Errors at a snippet blame the snippet. -/
theorem EvalError.blames {topic : Topic} (h : topic.isEvaluating = true) (host : Host)
    {subject : Text} {others : List Text} (hcount : (subject :: others).length = topic.quoted)
    (span : Span) :
    (EvalError.stop.blame host topic (subject :: others) span).Blames topic subject
      ⟨span.start,
        if span.stop = Fault.unknownEnd then span.start + subject.length else span.stop⟩ :=
  Stop.blames_compose (.inr h) host hcount true false

theorem EvalError.exists_fault_notANumber {α : Type} [Labelled α] (host : Host) (text : Text)
    (span : Span) :
    ∃ fault, (notANumber text span : EvalError α).stop host = .fault fault ∧
      fault.topic = .notANumber ∧ fault.subject = text := by
  have hcount : [text].length = Topic.notANumber.quoted := rfl
  obtain ⟨fault, hstop, htopic, hsubject, -⟩ := EvalError.blames rfl host hcount span
  exact ⟨fault, hstop, htopic, hsubject⟩

/-- An expression without a value is told as a fault, unless a numeral is unreadable. -/
theorem EvalError.exists_fault (host : Host) (e : EvalError Empty)
    (h : ∀ text, e ≠ .unreadable text) :
    ∃ fault, e.stop host = .fault fault ∧ fault.topic.isEvaluating = true := by
  have hblame : ∀ topic subject others span, Topic.isEvaluating topic = true →
      (subject :: others).length = topic.quoted →
      ∃ fault, EvalError.stop.blame host topic (subject :: others) span = .fault fault ∧
        fault.topic.isEvaluating = true := by
    intro topic subject others span htopic hcount
    obtain ⟨fault, hstop, hfault, -, -⟩ := EvalError.blames htopic host hcount span
    exact ⟨fault, hstop, hfault ▸ htopic⟩
  cases e with
  | notANumber text span => exact hblame .notANumber text [] span rfl rfl
  | emptyGroup group span => exact hblame .emptyGroup group [] span rfl rfl
  | groupAsOperation operation span => exact hblame .groupAsOperation operation [] span rfl rfl
  | unknownOperation operation span => exact hblame .unknownOperation operation [] span rfl rfl
  | argumentCount group operation count span =>
      exact hblame .argumentCount group [operation, Text.ofNat count] span rfl rfl
  | unreadable text => exact absurd rfl (h text)
  | foreign value => exact nomatch value

end BracketCalc
