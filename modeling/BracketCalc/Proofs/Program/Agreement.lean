import BracketCalc.Proofs.Console.Typed
import BracketCalc.Proofs.Program.Steps
import BracketCalc.Proofs.Report.Placed
/-!
# The console agrees with files

The lines of an expression are typed in, or they are read from a file.  Both
ways give the same tree, which is shown in the same way, and the same answer or
an error with the same message.  An error is reported by its line in the file,
and in the console by that line as it is counted there.  Of what was typed in
before, only the number of lines matters.
-/

namespace BracketCalc

open Worksheet

/-! ### Texts with the same tokens -/

section Placed

variable {settings : Settings} {f g : Int → Int} {a b : Text} {t : Tree}
  {x : Float} {reason : Stop}

/-- Texts with the same tokens, up to places, have equal trees, which are displayed alike. -/
theorem exists_same_of_placed (host : Host)
    (h : (Token.lex settings.newlines a).map (Token.placed f) =
      (Token.lex settings.newlines b).map (Token.placed g))
    (ht : Tree.parse settings.newlines b = .ok t) :
    ∃ u : Tree, Tree.parse settings.newlines a = .ok u ∧ u.same t = true ∧
      displayed host settings u = displayed host settings t := by
  have hparse := Tree.parse_placed h
  cases hu : Tree.parse settings.newlines a with
  | error e => simp [hu, ht, Tree.placedResult] at hparse
  | ok u =>
      rw [hu, ht] at hparse
      have hplaced : u.placed f = t.placed g := Except.ok.inj hparse
      refine ⟨u, rfl, ?_, ?_⟩
      · rw [Expr.same_iff, ← Expr.bare_placed (f := f), hplaced, Expr.bare_placed]
      · have hrender := Expr.render_placed (f := f) host.yellow 0 u
        rw [hplaced, Expr.render_placed] at hrender
        unfold displayed
        rw [hrender]

theorem display_placed (host : Host)
    (h : (Token.lex settings.newlines a).map (Token.placed f) =
      (Token.lex settings.newlines b).map (Token.placed g)) :
    display host settings a = display host settings b := by
  have hparse := Tree.parse_placed h
  unfold display
  cases ht : Tree.parse settings.newlines b with
  | error e =>
      cases hu : Tree.parse settings.newlines a with
      | error e' => rfl
      | ok u => simp [hu, ht, Tree.placedResult] at hparse
  | ok t =>
      obtain ⟨u, hu, -, hdisplayed⟩ := exists_same_of_placed host h ht
      rw [hu]
      exact hdisplayed

theorem evaluate_of_mapError_of_ok {evaluated evaluated' : Except Stop Float}
    (h : evaluated.mapError (Stop.placed f) = evaluated'.mapError (Stop.placed g))
    (hx : evaluated' = .ok x) : evaluated = .ok x := by
  subst hx
  cases evaluated with
  | error reason => cases h
  | ok y => exact h

theorem exists_of_mapError_of_error {evaluated evaluated' : Except Stop Float}
    (h : evaluated.mapError (Stop.placed f) = evaluated'.mapError (Stop.placed g))
    (hreason : evaluated' = .error reason) :
    ∃ reason', evaluated = .error reason' ∧ reason'.placed f = reason.placed g := by
  subst hreason
  cases evaluated with
  | error reason' => exact ⟨reason', rfl, Except.error.inj h⟩
  | ok y => cases h

end Placed

namespace Program

open Dialogue

/-- The last line of an expression, which is typed in from a line of the console on, has the effect
that the program has when it reads the expression from a file. -/
structure Agrees (host : Host) (settings : Settings) (files : Text → Option (List UInt8))
    (path filed : Text) (first : Nat) (typed : Text) (last : Step Console Bool) : Prop where
  /-- The worksheet of the file and the one of the console get equal trees, which are displayed
  alike. -/
  tree : ∀ t, Tree.parse settings.newlines filed = .ok t →
    ∃ u : Tree, u.same t = true ∧ displayed host settings u = displayed host settings t ∧
      (start host files path false settings (Reporter.fresh true) ()).ended =
        .ok ⟨path, settings, [⟨1, filed, t⟩], []⟩ ∧
      (add host typed first Console.resting (idle consolePath settings)).state =
        ⟨consolePath, settings, [⟨first, typed, u⟩], []⟩
  /-- A value is answered alike. -/
  value : ∀ x, evaluateWithin host Tree.callLimit settings.newlines filed = .ok x →
    let out := display host settings filed ++ (answer host x ++ ['\n'])
    runGuarded host (evaluateFile host files path settings) = ⟨out, [], .ok ()⟩ ∧
      last.printed = out ∧ last.ended = .ok false
  /-- What stops the evaluation is reported alike, by the line of the file and by that line as the
  console counts it. -/
  stop : ∀ reason,
    evaluateWithin host Tree.callLimit settings.newlines filed = .error reason →
    ∃ fault fault' : Fault, reason.report? host = some fault ∧
      fault'.topic = fault.topic ∧ fault'.message = fault.message ∧ fault'.styled = fault.styled ∧
      let shown := display host settings filed
      let told := Reporter.report host [(path, some ⟨filed, 1⟩)] fault
      let told' := Reporter.report host [(consolePath, some ⟨typed, first⟩)] fault'
      runGuarded host (evaluateFile host files path settings) =
        ⟨shown ++ told, [], .error (.exit (.code 1))⟩ ∧
      last.printed = shown ++ told' ∧ last.ended = reason.passedOn.map (fun _ => false) ∧
      ∃ line : Int, Reporter.Names told path line ∧
        Reporter.Names told' consolePath (first + line - 1)

variable {host : Host} {files : Text → Option (List UInt8)} {path : Text}
  {lines fed : List Text} {showTree : Bool}

theorem not_mem_return_joinLines (h : ∀ line ∈ lines, Command.Ordinary line) :
    '\r' ∉ Text.joinLines lines := by
  intro hmem
  rcases Text.mem_joinLines hmem with hnewline | ⟨line, hline, hreturn⟩
  · cases hnewline
  · cases (h line hline).blanks '\r' hreturn rfl

section Last

variable {settings : Settings} {front : List Text} {last : Text}

/-- At the last line of an expression the console agrees with the program. -/
theorem agrees_last (hnewlines : settings.newlines = .separate)
    (hheld : (after host settings fed).console.held = []) (h : Entry (front ++ [last]))
    (hholds : Holds files path (Text.joinLines (front ++ [last]))) :
    Agrees host settings files path (Source.clean (Text.joinLines (front ++ [last])))
      ((after host settings fed).console.lineCount + 1) (Source.typed (front ++ [last]))
      (step host (after host settings (fed ++ front)) last) := by
  have hreturn := not_mem_return_joinLines h.ordinary
  have htokens := Source.map_placed_lex_typed h.ne_nil h.ordinary
  rw [← hnewlines] at htokens
  have hdisplay := display_placed host htokens
  have hevaluate := evaluateWithin_placed host Tree.callLimit (Token.lineOf_zero _)
    (Token.lineOf_zero _) htokens
  refine ⟨fun t ht => ?_, fun x hx => ?_, fun reason hreason => ?_⟩
  · obtain ⟨u, hu, hsame, hdisplayed⟩ := exists_same_of_placed host htokens ht
    refine ⟨u, hsame, hdisplayed, ?_, ?_⟩
    · rw [start_fresh_of_ok (hholds.gives hreturn) ht]
    · rw [add_idle_of_ok hu]
  · refine ⟨evaluateFile_of_value (hholds.gives hreturn) hx, ?_⟩
    rw [step_of_value hheld h (evaluate_of_mapError_of_ok hevaluate hx), hdisplay]
    exact ⟨rfl, rfl⟩
  · obtain ⟨fault, hreport⟩ := exists_report_of_evaluateWithin hreason
    obtain ⟨reason', hreason', hplaced⟩ := exists_of_mapError_of_error hevaluate hreason
    obtain ⟨hpassedOn, fault', hreport', hfault⟩ :=
      Stop.report?_placed (Token.lineOf_zero _) (Token.lineOf_zero _) hplaced.symm hreport
    obtain ⟨htopic, hmessage, hstyled, hline⟩ := Fault.same_of_placed hfault
    refine ⟨fault, fault', hreport, htopic, hmessage, hstyled,
      evaluateFile_of_stop (hholds.gives hreturn) hreason hreport, ?_⟩
    rw [step_of_stop hheld h hreason' hreport', hdisplay, hpassedOn]
    refine ⟨rfl, rfl, _, Reporter.names_line h.clean_ne_nil host fault, ?_⟩
    -- the lines are counted from different first lines
    have hnumber : ∀ number : Int, fault'.line ⟨Source.typed (front ++ [last]), number⟩ =
        number + fault.line ⟨Source.clean (Text.joinLines (front ++ [last])), 1⟩ - 1 := by
      intro number
      simp only [Fault.line, hline]
      omega
    rw [← hnumber]
    exact Reporter.names_line h.typed_ne_nil host fault'

end Last

/-- The console takes the lines of an expression without a word until the last, and evaluates them
then as the program evaluates a file of these lines.  Of what was typed in before it knows only the
number of lines. -/
theorem console_agrees (h : Entry lines) (hholds : Holds files path (Text.joinLines lines))
    (hheld : (after host ⟨.separate, showTree⟩ fed).console.held = []) :
    let settings : Settings := ⟨.separate, showTree⟩
    let count := (after host settings fed).console.lineCount
    (∀ front line rest, lines = front ++ line :: rest → rest ≠ [] →
      step host (after host settings (fed ++ front)) line =
        ⟨[], .ok false, Console.resting, entered settings count (front ++ [line])⟩) ∧
    ∀ front last, lines = front ++ [last] →
      step host (after host settings (fed ++ front)) last =
        evaluation host (Source.typed lines) (count + 1) Console.resting
          (entered settings count lines) ∧
      Agrees host settings files path (Source.clean (Text.joinLines lines)) (count + 1)
        (Source.typed lines) (step host (after host settings (fed ++ front)) last) := by
  intro settings count
  constructor
  · rintro front line rest rfl hrest
    exact step_of_goesOn hheld h hrest
  · rintro front last rfl
    exact ⟨step_last hheld h, agrees_last rfl hheld h hholds⟩

/-- Behind an error, the sum of `1` and `x` is typed in on two lines: the second line of the file is
the third of the console. -/
theorem console_agrees_behind_fault :
    Entry ["(+ 1".toList, " x)".toList] ∧
      Holds (fun _ => some [0x28, 0x2B, 0x20, 0x31, 0x0A, 0x20, 0x78, 0x29]) ['f']
        (Text.joinLines ["(+ 1".toList, " x)".toList]) ∧
      (after .plain ⟨.separate, false⟩ [['x']]).console.held = [] ∧
      (step .plain (after .plain ⟨.separate, false⟩ [['x']]) "(+ 1".toList).printed = [] ∧
      Agrees .plain ⟨.separate, false⟩
        (fun _ => some [0x28, 0x2B, 0x20, 0x31, 0x0A, 0x20, 0x78, 0x29]) ['f']
        "(+ 1\n x)".toList 2 "(+ 1\nx)".toList
        (step .plain (after .plain ⟨.separate, false⟩ [['x'], "(+ 1".toList]) " x)".toList) := by
  have hentry : Entry ["(+ 1".toList, " x)".toList] := by
    refine ⟨?_, ?_, rfl, by decide⟩
    · intro line hline
      rcases List.mem_pair.1 hline with rfl | rfl
      · exact ⟨by simp [Text.isBlank], by decide, by decide⟩
      · exact ⟨by simp [Text.isBlank], by decide, by decide⟩
    · intro front rest hlines hfront hrest
      rcases front with _ | ⟨first, _ | ⟨second, front⟩⟩
      · exact absurd rfl hfront
      · obtain ⟨rfl, -⟩ := List.cons.inj hlines
        rfl
      · simp at hlines
        exact absurd hlines.2.2.2 hrest
  have hholds : Holds (fun _ => some [0x28, 0x2B, 0x20, 0x31, 0x0A, 0x20, 0x78, 0x29]) ['f']
      (Text.joinLines ["(+ 1".toList, " x)".toList]) := ⟨by decide, by decide, _, rfl, rfl⟩
  have hheld : (after .plain ⟨.separate, false⟩ [['x']]).console.held = [] := rfl
  obtain ⟨hgoesOn, hlast⟩ := console_agrees hentry hholds hheld
  refine ⟨hentry, hholds, hheld, ?_, (hlast ["(+ 1".toList] _ rfl).2⟩
  rw [← List.append_nil [['x']], hgoesOn [] _ _ rfl (by simp)]

end Program

end BracketCalc
