import BracketCalc.Proofs.Fault.Outcome
/-!
# The fault that evaluation tells

A visited node is sound when it is a numeral or an operation on two arguments.
Other nodes have a fault of their own, only a dotted word has none.  Evaluation
tells the fault of the first visited node that has one, with its message and its
span, and gives the value that the expression denotes when all visited nodes are
sound.

The span is that of the snippet to blame, except that an end of -1 stands for
the end of the snippet as it is written in the message.
-/

namespace BracketCalc

namespace Fault

/-- The fault about a snippet, with a message whose snippets may be emphasised. -/
def quoting (host : Host) (topic : Topic) (subject : Text) (span : Span)
    (wording : (Text → Text) → Text) : Fault :=
  let stop := if span.stop = unknownEnd then span.start + subject.length else span.stop
  ⟨topic, wording id, wording host.bold, subject, ⟨span.start, stop⟩, true, false⟩

def notANumber (host : Host) (text : Text) (span : Span) : Fault :=
  quoting host .notANumber text span fun emphasise =>
    "'".toList ++ (emphasise text ++ "' is not a number".toList)

def emptyGroup (host : Host) (group : Text) (span : Span) : Fault :=
  quoting host .emptyGroup group span fun emphasise =>
    "'".toList ++ (emphasise group ++ "' is an empty group".toList)

def groupAsOperation (host : Host) (operation : Text) (span : Span) : Fault :=
  quoting host .groupAsOperation operation span fun emphasise =>
    "operation '".toList ++ (emphasise operation ++ "' is a group, expected '+' or '*'".toList)

def unknownOperation (host : Host) (operation : Text) (span : Span) : Fault :=
  quoting host .unknownOperation operation span fun emphasise =>
    "unknown operation '".toList ++ (emphasise operation ++ "', expected '+' or '*'".toList)

def argumentCount (host : Host) (group operation : Text) (count : Nat) (span : Span) :
    Fault :=
  quoting host .argumentCount group span fun emphasise =>
    "'".toList ++ (emphasise operation ++
      ("' expects 2 arguments, got ".toList ++ emphasise (Text.ofNat count)))

end Fault

namespace EvalError

variable {host : Host} {text operation : Text} {span : Span}

/-- The message of an error is its wording, whichever way the snippets are emphasised. -/
theorem stop_blame {topic : Topic} {subject : Text} {others : List Text}
    {wording : (Text → Text) → Text}
    (h : ∀ emphasise, topic.template.fill host.attributes ((subject :: others).map emphasise) =
      .ok (wording emphasise)) :
    stop.blame host topic (subject :: others) span =
      .fault (.quoting host topic subject span wording) := by
  have hplain := h id
  rw [List.map_id] at hplain
  unfold stop.blame Fault.compose
  rw [hplain, h host.bold]
  rfl

theorem stop_notANumber :
    (notANumber text span : EvalError Empty).stop host =
      .fault (.notANumber host text span) :=
  stop_blame fun _ => rfl

theorem stop_emptyGroup :
    (emptyGroup text span : EvalError Empty).stop host =
      .fault (.emptyGroup host text span) :=
  stop_blame fun _ => rfl

theorem stop_groupAsOperation :
    (groupAsOperation text span : EvalError Empty).stop host =
      .fault (.groupAsOperation host text span) :=
  stop_blame fun _ => rfl

theorem stop_unknownOperation :
    (unknownOperation text span : EvalError Empty).stop host =
      .fault (.unknownOperation host text span) :=
  stop_blame fun _ => rfl

theorem stop_argumentCount {count : Nat} :
    (argumentCount text operation count span : EvalError Empty).stop host =
      .fault (.argumentCount host text operation count span) := by
  refine stop_blame fun emphasise => ?_
  have hfill : Topic.argumentCount.template.fill host.attributes
      ([text, operation, Text.ofNat count].map emphasise) =
        .ok ("'".toList ++ (emphasise operation ++ ("' expects 2 arguments, got ".toList ++
          (emphasise (Text.ofNat count) ++ [])))) := rfl
  rwa [List.append_nil] at hfill

end EvalError

namespace Expr

/-- A node that evaluation passes. -/
inductive Sound : Tree → Prop where
  | numeral {text : Text} {span : Span} : Numeral.Numeric text → Sound (.literal text span)
  | application {op : Text} {opSpan span : Span} {a b : Tree} {depth : Int} :
      op = ['+'] ∨ op = ['*'] → Sound (.group [.literal op opSpan, a, b] span depth)

/-- The fault of a node itself, as it is told. -/
inductive OwnFault (host : Host) : Tree → Fault → Prop where
  | notANumber {text : Text} {span : Span} :
      ¬ Numeral.Numeric text → ¬ Numeral.Dotted text →
      OwnFault host (.literal text span) (.notANumber host text span)
  | emptyGroup {span : Span} {depth : Int} :
      OwnFault host (.group [] span depth) (.emptyGroup host ['(', ')'] span)
  | groupAsOperation {items arguments : List Tree} {opSpan span : Span} {opDepth depth : Int} :
      OwnFault host (.group (.group items opSpan opDepth :: arguments) span depth)
        (.groupAsOperation host (text (.group items opSpan opDepth)) opSpan)
  | unknownOperation {op : Text} {arguments : List Tree} {opSpan span : Span} {depth : Int} :
      op ≠ ['+'] → op ≠ ['*'] →
      OwnFault host (.group (.literal op opSpan :: arguments) span depth)
        (.unknownOperation host op opSpan)
  | argumentCount {op : Text} {arguments : List Tree} {opSpan span : Span} {depth : Int} :
      op = ['+'] ∨ op = ['*'] → arguments.length ≠ 2 →
      OwnFault host (.group (.literal op opSpan :: arguments) span depth)
        (.argumentCount host (text (.group (.literal op opSpan :: arguments) span depth)) op
          arguments.length span)

/-- Evaluation stops and tells the fault. -/
def Tells (host : Host) (e : Tree) (fault : Fault) : Prop :=
  ∃ f, e.value = .error f ∧ f.stop host = .fault fault

/-- The fault of the first visited node that has one. -/
def FirstFault (host : Host) (e : Tree) (fault : Fault) : Prop :=
  ∃ before n behind, visited e = before ++ n :: behind ∧ (∀ m ∈ before, Sound m) ∧
    OwnFault host n fault

/-- The value of a literal is that of its numeral, and the value of a group is the sum or the
product of the values of its arguments. -/
inductive Denotes : Tree → Float → Prop where
  | numeral {text : Text} {span : Span} {x : Float} :
      Numeral.read text = .value x → Denotes (.literal text span) x
  | sum {opSpan span : Span} {a b : Tree} {depth : Int} {x y : Float} :
      Denotes a x → Denotes b y → Denotes (.group [.literal ['+'] opSpan, a, b] span depth) (x + y)
  | product {opSpan span : Span} {a b : Tree} {depth : Int} {x y : Float} :
      Denotes a x → Denotes b y → Denotes (.group [.literal ['*'] opSpan, a, b] span depth) (x * y)

variable {host : Host} {e n a b : Tree} {op : Text} {span opSpan : Span} {depth : Int}
  {fault : Fault} {f : EvalError Empty} {x y : Float}

/-! ### Nodes -/

theorem ofName?_eq_none_iff : Operation.ofName? op = none ↔ op ≠ ['+'] ∧ op ≠ ['*'] := by
  unfold Operation.ofName?
  grind

theorem ofName?_eq_some_iff {operation : Operation} :
    Operation.ofName? op = some operation ↔
      op = ['+'] ∧ operation = .add ∨ op = ['*'] ∧ operation = .mul := by
  unfold Operation.ofName?
  grind

theorem exists_ofName?_iff :
    (∃ operation, Operation.ofName? op = some operation) ↔ op = ['+'] ∨ op = ['*'] := by
  simp [ofName?_eq_some_iff, exists_or]

theorem ownFault_of_operation (h : op = ['+'] ∨ op = ['*']) (arguments : List Tree) :
    ownFault (group (.literal op opSpan :: arguments) span depth) =
      if arguments.length = 2 then none
      else some (.argumentCount (text (group (.literal op opSpan :: arguments) span depth)) op
        arguments.length span) := by
  obtain ⟨operation, hop⟩ := exists_ofName?_iff.2 h
  rw [ownFault, hop]

theorem sound_iff : Sound n ↔ ownFault n = none := by
  constructor
  · rintro (htext | hop)
    · obtain ⟨x, hx⟩ := Numeral.read_of_numeric htext
      rw [ownFault, hx]
    · rw [ownFault_of_operation hop]
      rfl
  · intro h
    cases n with
    | literal text span =>
        refine .numeral ?_
        by_contra hnumeric
        by_cases hdotted : Numeral.Dotted text
        · simp [ownFault, Numeral.read_of_dotted hdotted] at h
        · simp [ownFault, Numeral.read_of_neither hnumeric hdotted] at h
    | group items span depth =>
        obtain ⟨op, opSpan, a, b, operation, rfl, hop⟩ := application_of_ownFault_eq_none h
        exact .application (exists_ofName?_iff.1 ⟨operation, hop⟩)
    | foreign value => exact value.elim

theorem OwnFault.exists_error (h : OwnFault host n fault) :
    ∃ f, ownFault n = some f ∧ f.stop host = .fault fault := by
  cases h with
  | notANumber hnumeric hdotted =>
      refine ⟨.notANumber _ _, ?_, EvalError.stop_notANumber⟩
      rw [ownFault, Numeral.read_of_neither hnumeric hdotted]
  | emptyGroup => exact ⟨_, rfl, EvalError.stop_emptyGroup⟩
  | groupAsOperation => exact ⟨_, rfl, EvalError.stop_groupAsOperation⟩
  | unknownOperation hadd hmul =>
      refine ⟨.unknownOperation _ _, ?_, EvalError.stop_unknownOperation⟩
      rw [ownFault, ofName?_eq_none_iff.2 ⟨hadd, hmul⟩]
  | argumentCount hop hcount =>
      refine ⟨.argumentCount _ _ _ _, ?_, EvalError.stop_argumentCount⟩
      rw [ownFault_of_operation hop, if_neg hcount]

theorem ownFault_of_error (h : ownFault n = some f) (hstop : f.stop host = .fault fault) :
    OwnFault host n fault := by
  cases n with
  | foreign value => exact value.elim
  | literal text span =>
      by_cases hnumeric : Numeral.Numeric text
      · rw [sound_iff.1 (.numeral hnumeric)] at h
        cases h
      · by_cases hdotted : Numeral.Dotted text
        · rw [ownFault, Numeral.read_of_dotted hdotted] at h
          cases h
          cases hstop
        · rw [ownFault, Numeral.read_of_neither hnumeric hdotted] at h
          cases h
          cases EvalError.stop_notANumber.symm.trans hstop
          exact .notANumber hnumeric hdotted
  | group items span depth =>
      cases items with
      | nil =>
          cases h
          cases EvalError.stop_emptyGroup.symm.trans hstop
          exact .emptyGroup
      | cons head arguments =>
          cases head with
          | foreign value => exact value.elim
          | group _ _ _ =>
              cases h
              cases EvalError.stop_groupAsOperation.symm.trans hstop
              exact .groupAsOperation
          | literal op opSpan =>
              by_cases hop : op = ['+'] ∨ op = ['*']
              · rw [ownFault_of_operation hop] at h
                split at h
                · cases h
                · next hcount =>
                    cases h
                    cases EvalError.stop_argumentCount.symm.trans hstop
                    exact .argumentCount hop hcount
              · obtain ⟨hadd, hmul⟩ := not_or.1 hop
                rw [ownFault, ofName?_eq_none_iff.2 ⟨hadd, hmul⟩] at h
                cases h
                cases EvalError.stop_unknownOperation.symm.trans hstop
                exact .unknownOperation hadd hmul

/-! ### Faults of expressions -/

theorem tells_iff : Tells host e fault ↔ FirstFault host e fault := by
  simp only [Tells, value_eq_error_iff, List.findSome?_eq_some_iff, ← sound_iff]
  constructor
  · rintro ⟨f, ⟨before, n, behind, hvisited, hown, hbefore⟩, hstop⟩
    exact ⟨before, n, behind, hvisited, hbefore, ownFault_of_error hown hstop⟩
  · rintro ⟨before, n, behind, hvisited, hbefore, hown⟩
    obtain ⟨f, hf, hstop⟩ := hown.exists_error
    exact ⟨f, ⟨before, n, behind, hvisited, hf, hbefore⟩, hstop⟩

/-! ### Values -/

theorem Denotes.application {operation : Operation} (hop : Operation.ofName? op = some operation)
    (ha : Denotes a x) (hb : Denotes b y) :
    Denotes (group [literal op opSpan, a, b] span depth) (operation.apply x y) := by
  rcases ofName?_eq_some_iff.1 hop with ⟨rfl, rfl⟩ | ⟨rfl, rfl⟩
  · exact .sum ha hb
  · exact .product ha hb

theorem Denotes.exists_application {items : List Tree} (h : Denotes (group items span depth) x) :
    ∃ op opSpan a b operation y z, items = [literal op opSpan, a, b] ∧
      Operation.ofName? op = some operation ∧ Denotes a y ∧ Denotes b z ∧
      x = operation.apply y z := by
  cases h with
  | sum ha hb => exact ⟨_, _, _, _, .add, _, _, rfl, rfl, ha, hb, rfl⟩
  | product ha hb => exact ⟨_, _, _, _, .mul, _, _, rfl, rfl, ha, hb, rfl⟩

theorem Denotes.value_eq (h : Denotes e x) : e.value = .ok x := by
  induction h with
  | numeral htext => rw [value, htext]
  | sum _ _ iha ihb =>
      rw [value_of_operation rfl, iha, ihb]
      rfl
  | product _ _ iha ihb =>
      rw [value_of_operation rfl, iha, ihb]
      rfl

theorem denotes_of_value_eq (h : e.value = .ok x) : Denotes e x := by
  induction e using Expr.induction generalizing x with
  | foreign value => exact nomatch value
  | literal text span =>
      rw [value] at h
      cases hread : Numeral.read text with
      | value y =>
          rw [hread] at h
          cases h
          exact .numeral hread
      | unreadable => simp [hread] at h
      | notANumeral => simp [hread] at h
  | group items span depth ih =>
      have hown : ownFault (group items span depth) = none := by
        cases hown : ownFault (group items span depth) with
        | none => rfl
        | some f =>
            rw [value_of_ownFault hown] at h
            cases h
      obtain ⟨op, opSpan, a, b, operation, rfl, hop⟩ := application_of_ownFault_eq_none hown
      rw [value_of_operation hop] at h
      obtain ⟨y, z, ha, hb, rfl⟩ : ∃ y z, a.value = .ok y ∧ b.value = .ok z ∧
          operation.apply y z = x := by
        cases ha : a.value with
        | error f => simp [ha, bind, Except.bind] at h
        | ok y =>
            cases hb : b.value with
            | error f => simp [ha, hb, bind, Except.bind] at h
            | ok z => exact ⟨y, z, rfl, rfl, by simpa [ha, hb, bind, Except.bind] using h⟩
      exact .application hop (ih a (by simp) ha) (ih b (by simp) hb)

theorem exists_value_iff : (∃ x, e.value = .ok x) ↔ ∀ n ∈ visited e, Sound n := by
  simp only [sound_iff]
  rw [← List.findSome?_eq_none_iff, findSome?_visited]
  cases e.value <;> simp [error?]

/-- A dotted word is no numeral that evaluation can read, but it has no fault of its own either. -/
theorem sound_iff_no_ownFault :
    Sound n ↔ (∀ fault, ¬ OwnFault host n fault) ∧
      ∀ text span, n = .literal text span → ¬ Numeral.Dotted text := by
  rw [sound_iff]
  constructor
  · intro h
    refine ⟨fun fault hfault => ?_, ?_⟩
    · obtain ⟨f, hf, -⟩ := hfault.exists_error
      rw [h] at hf
      cases hf
    · rintro text span rfl hdotted
      rw [ownFault, Numeral.read_of_dotted hdotted] at h
      cases h
  · rintro ⟨hfault, hdotted⟩
    cases hown : ownFault n with
    | none => rfl
    | some f =>
        have hreadable : ∀ word, f ≠ .unreadable word := by
          rintro word rfl
          obtain ⟨span, rfl, hword⟩ := exists_literal_of_ownFault hown
          exact hdotted word span rfl hword
        obtain ⟨fault, hstop, -⟩ := f.exists_fault host hreadable
        exact absurd (ownFault_of_error hown hstop) (hfault fault)

/-- Evaluation tells a fault exactly if it is that of the first visited node with a fault of its
own, and gives a value exactly if all visited nodes are sound, the value that the expression
denotes. -/
theorem tells_firstFault_or_denotes (host : Host) (e : Tree) :
    (∀ fault, Tells host e fault ↔ FirstFault host e fault) ∧
      (∀ x, e.value = .ok x ↔ Denotes e x) ∧
      ((∃ x, e.value = .ok x) ↔ ∀ n ∈ visited e, Sound n) ∧
      ∀ n, Sound n ↔ (∀ fault, ¬ OwnFault host n fault) ∧
        ∀ text span, n = .literal text span → ¬ Numeral.Dotted text :=
  ⟨fun _ => tells_iff, fun _ => ⟨denotes_of_value_eq, Denotes.value_eq⟩, exists_value_iff,
    fun _ => sound_iff_no_ownFault⟩

/-- In `(+ (* 2 x) ())` the second argument of the product is told, not the empty group behind
it. -/
theorem tells_inner_fault :
    Tells .plain
      (.group [.literal ['+'] ⟨1, 2⟩,
        .group [.literal ['*'] ⟨4, 5⟩, .literal ['2'] ⟨6, 7⟩, .literal ['x'] ⟨8, 9⟩] ⟨3, 10⟩ 2,
        .group [] ⟨11, 13⟩ 2] ⟨0, 14⟩ 1)
      (.notANumber .plain ['x'] ⟨8, 9⟩) := by
  let product : Tree :=
    .group [.literal ['*'] ⟨4, 5⟩, .literal ['2'] ⟨6, 7⟩, .literal ['x'] ⟨8, 9⟩] ⟨3, 10⟩ 2
  let sum : Tree := .group [.literal ['+'] ⟨1, 2⟩, product, .group [] ⟨11, 13⟩ 2] ⟨0, 14⟩ 1
  have hproduct : Sound product := .application (.inr rfl)
  have hsum : Sound sum := .application (.inl rfl)
  have htwo : Sound (.literal ['2'] ⟨6, 7⟩) :=
    .numeral (Numeral.numeric_iff.2 (.inl (Numeral.decimal?_isSome_iff.1 rfl)))
  have hread : Numeral.read ['x'] = .notANumeral := rfl
  have hnumeric : ¬ Numeral.Numeric ['x'] := fun h => by
    obtain ⟨x, hx⟩ := Numeral.read_of_numeric h
    cases hread.symm.trans hx
  have hdotted : ¬ Numeral.Dotted ['x'] := fun h => by
    cases hread.symm.trans (Numeral.read_of_dotted h)
  have hvisited : visited sum =
      [sum, product, .literal ['2'] ⟨6, 7⟩] ++ [.literal ['x'] ⟨8, 9⟩, .group [] ⟨11, 13⟩ 2] := by
    rw [visited_of_none (sound_iff.1 hsum), visited_of_none (sound_iff.1 hproduct)]
    rfl
  have hsound : ∀ n ∈ [sum, product, .literal ['2'] ⟨6, 7⟩], Sound n := by
    simp [hsum, hproduct, htwo]
  exact ((tells_firstFault_or_denotes .plain sum).1 _).2
    ⟨_, _, _, hvisited, hsound, .notANumber hnumeric hdotted⟩

/-- An end of -1 is not the end of the fault that is told. -/
theorem span_not_kept :
    ¬ ∀ (items arguments : List Tree) (opSpan span : Span) (opDepth depth : Int) (fault : Fault),
      Tells .plain (.group (.group items opSpan opDepth :: arguments) span depth) fault →
        fault.span = opSpan := by
  intro h
  have hspan := h [] [] ⟨1, -1⟩ ⟨0, 4⟩ 1 0 _ ⟨_, rfl, EvalError.stop_groupAsOperation⟩
  exact absurd hspan (by decide)

end Expr

end BracketCalc
