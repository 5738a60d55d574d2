import BracketCalc.Proofs.Console.Kept
import BracketCalc.Proofs.Source.Stripped
import BracketCalc.Proofs.Token.Lines
/-!
# Expressions over several lines

The lines of an expression are typed in one after another.  The console holds
them as long as brackets are open, and evaluates them when the last one is
typed in.  Of what was before, it knows only how many lines there were.

The text it holds has the tokens of the lines as they stand, each in its line.
-/

namespace BracketCalc

open Worksheet

/-! ### Lines that are no commands -/

/-- A line that is no command, and has no blanks but spaces. -/
structure Command.Ordinary (line : Text) : Prop where
  blanks : ∀ c ∈ line, Text.isBlank c = true → c = ' '
  mark : line.strip.head? ≠ some '?'
  name : line.strip.takeWhile Command.isNameChar ∉ ["help".toList, "exit".toList, "EOF".toList]

namespace Command.Ordinary

variable {line : Text} {console : Console}

theorem not_mem_newline (h : Ordinary line) : '\n' ∉ line := by
  intro hmem
  cases h.blanks _ hmem rfl

theorem ofLine (h : Ordinary line) :
    Command.ofLine line = if line.strip = [] then .blank else .expression line.strip := by
  have hname := h.name
  simp only [List.mem_cons, List.not_mem_nil, or_false, not_or] at hname
  obtain ⟨hhelp, hexit, hend⟩ := hname
  unfold Command.ofLine
  simp only [List.isEmpty_iff, h.mark, hhelp, hexit, hend, decide_false, Bool.or_false,
    Bool.false_eq_true, if_false]

theorem addition (h : Ordinary line) (hgoesOn : console.held ≠ [] ∨ line.strip ≠ []) :
    console.addition? (Command.ofLine line) = some line.strip := by
  rw [h.ofLine]
  by_cases hblank : line.strip = []
  · have hheld : console.held ≠ [] := hgoesOn.resolve_right fun hstrip => hstrip hblank
    simp [hblank, Console.addition?, hheld]
  · simp [hblank, Console.addition?]

end Command.Ordinary

/-! ### The tokens of lines that are typed in -/

namespace Source

open Token

variable {line : Text} {lines : List Text} {newlines : Newlines}

/-- Stripping a line changes none of its tokens. -/
theorem kindsFrom_cleanLine_strip (h : Command.Ordinary line) :
    kindsFrom newlines [] (cleanLine line.strip) = kindsFrom newlines [] (cleanLine line) := by
  obtain ⟨kept, hline, hkept⟩ := exists_cleanLine_strip line
  rw [hline, kindsFrom_spaces fun c hc => h.blanks c (hkept c hc).1 (hkept c hc).2]

/-- Lines have the same tokens when they are typed in, and each token is in the same line. -/
theorem map_placed_lex_typed (hne : lines ≠ []) (h : ∀ line ∈ lines, Command.Ordinary line) :
    (lex .separate (typed lines)).map (Token.placed (lineOf (typed lines))) =
      (lex .separate (clean (Text.joinLines lines))).map
        (Token.placed (lineOf (clean (Text.joinLines lines)))) := by
  have hnewline : ∀ line ∈ lines, '\n' ∉ line := fun line hline => (h line hline).not_mem_newline
  have hclean : ∀ line : Text, '\n' ∉ line → '\n' ∉ cleanLine line :=
    fun line hline hmem => hline ((cleanLine_isPrefix line).subset hmem)
  have hstrip : ∀ line ∈ lines, '\n' ∉ cleanLine line.strip := fun line hline =>
    hclean _ fun hmem => hnewline line hline ((Text.strip_sublist line).subset hmem)
  have hkinds : (lines.map fun line => cleanLine line.strip).map (kindsFrom .separate []) =
      (lines.map cleanLine).map (kindsFrom .separate []) := by
    rw [List.map_map, List.map_map]
    exact List.map_congr_left fun line hline => kindsFrom_cleanLine_strip (h line hline)
  rw [clean_joinLines hne hnewline]
  refine map_placed_lex_joinLines (by simpa using hne) (by simpa using hne) ?_ ?_ hkinds
  · simpa using hstrip
  · simpa using fun line hline => hclean line (hnewline line hline)

end Source

namespace Dialogue

/-- Lines that make up one expression: brackets are open until the last of them. -/
structure Entry (lines : List Text) : Prop where
  ordinary : ∀ line ∈ lines, Command.Ordinary line
  goesOn : ∀ front rest, lines = front ++ rest → front ≠ [] → rest ≠ [] →
    Source.isOpen (Source.clean (Text.joinLines front)) = true
  ends : Source.isOpen (Source.clean (Text.joinLines lines)) = false
  ink : (Source.clean (Text.joinLines lines)).strip ≠ []

/-- The console holds the first lines of an expression, behind a number of lines before it. -/
structure Holding (count : Nat) (front : List Text) (console : Console) : Prop where
  held : console.held = Source.typed front
  lineCount : console.lineCount = count + front.length
  firstLine : console.held ≠ [] → console.firstLine = count + 1

/-- The console behind some lines of an expression, behind a number of lines before it. -/
def entered (settings : Settings) (count : Nat) (lines : List Text) : Console :=
  let goesOn := Source.isOpen (Source.typed lines)
  { sheet := idle consolePath settings
    prompt := if goesOn then Console.secondPrompt else Console.firstPrompt
    held := if goesOn then Source.typed lines else []
    firstLine := count + 1
    lineCount := count + lines.length }

/-- Evaluates an expression that starts in the given line, and reports what stops it. -/
def evaluation (host : Host) (source : Text) (number : Nat) : Action Console Bool := do
  let _ ← Action.guarded host (Console.onWorksheet (Console.evaluate host source number))
  pure false

variable {host : Host} {settings : Settings} {fed lines front rest : List Text} {line : Text}
  {count : Nat} {console : Console} {x : Float} {reason : Stop} {fault : Fault}

namespace Entry

theorem ne_nil (h : Entry lines) : lines ≠ [] := by
  rintro rfl
  exact h.ink rfl

theorem not_mem_newline (h : Entry lines) : ∀ line ∈ lines, '\n' ∉ line :=
  fun line hline => (h.ordinary line hline).not_mem_newline

theorem isOpen_front (h : Entry (front ++ rest)) (hfront : front ≠ []) (hrest : rest ≠ []) :
    Source.isOpen (Source.typed front) = true := by
  rw [Source.isOpen_typed hfront fun line hline =>
    h.not_mem_newline line (List.mem_append_left rest hline)]
  exact h.goesOn front rest rfl hfront hrest

theorem not_isOpen (h : Entry lines) : Source.isOpen (Source.typed lines) = false := by
  rw [Source.isOpen_typed h.ne_nil h.not_mem_newline]
  exact h.ends

theorem strip_ne_nil (h : Entry lines) : (Source.typed lines).strip ≠ [] := by
  rw [Ne, Source.strip_typed_eq_nil_iff h.ne_nil h.not_mem_newline]
  exact h.ink

theorem typed_ne_nil (h : Entry lines) : Source.typed lines ≠ [] := by
  intro htyped
  exact h.strip_ne_nil (by rw [htyped]; rfl)

theorem clean_ne_nil (h : Entry lines) : Source.clean (Text.joinLines lines) ≠ [] := by
  intro hclean
  exact h.ink (by rw [hclean]; rfl)

theorem typed_front_ne_nil (h : Entry (front ++ line :: rest)) (hfront : front ≠ []) :
    Source.typed front ≠ [] :=
  ne_nil_of_isOpen (h.isOpen_front hfront (by simp))

/-- An expression does not start with a blank line. -/
theorem strip_first_ne_nil (h : Entry (line :: rest)) : line.strip ≠ [] := by
  intro hblank
  have htyped : Source.typed [line] = [] := by
    rw [Source.typed, List.map_singleton, Text.joinLines_singleton, hblank]
    rfl
  cases rest with
  | nil => exact h.strip_ne_nil (by rw [htyped]; rfl)
  | cons next rest =>
      have hentry : Entry ([line] ++ next :: rest) := h
      have hopen := hentry.isOpen_front (by simp) (by simp)
      rw [htyped] at hopen
      cases hopen

end Entry

namespace Holding

theorem resume (hholding : Holding count front console) (h : Entry (front ++ line :: rest)) :
    Source.resume console.held line.strip = Source.typed (front ++ [line]) := by
  rw [hholding.held]
  exact Source.resume_typed (h.not_mem_newline line (by simp)) h.typed_front_ne_nil

/-- Each line of an expression is added to it. -/
theorem addition (hholding : Holding count front console) (h : Entry (front ++ line :: rest)) :
    console.addition? (Command.ofLine line) = some line.strip := by
  refine (h.ordinary line (by simp)).addition ?_
  cases front with
  | nil => exact .inr h.strip_first_ne_nil
  | cons first more =>
      rw [hholding.held]
      exact .inl (h.typed_front_ne_nil (by simp))

theorem behind (hholding : Holding count front console) (h : Entry (front ++ line :: rest))
    (hsheet : console.sheet = idle consolePath settings) :
    console.behind line.strip = entered settings count (front ++ [line]) := by
  have hfirst :
      (if console.held.isEmpty then console.lineCount + 1 else console.firstLine) = count + 1 := by
    by_cases hheld : console.held = []
    · have hfront : front = [] := by
        by_contra hfront
        exact h.typed_front_ne_nil hfront (hholding.held ▸ hheld)
      simp [hheld, hholding.lineCount, hfront]
    · simp [hheld, hholding.firstLine hheld]
  simp only [Console.behind, hfirst]
  simp only [hholding.resume h, hsheet, hholding.lineCount, entered, List.length_append,
    List.length_singleton, Nat.add_assoc]

end Holding

theorem holding_entered (h : Source.isOpen (Source.typed lines) = true) :
    Holding count lines (entered settings count lines) where
  held := by simp [entered, h]
  lineCount := rfl
  firstLine _ := rfl

/-! ### Line by line -/

/-- The console holds the lines of an expression until the last one. -/
theorem holding_after (hheld : (after host settings fed).console.held = [])
    (h : Entry (front ++ rest)) (hrest : rest ≠ []) :
    Holding (after host settings fed).console.lineCount front
      (after host settings (fed ++ front)).console := by
  induction front using List.reverseRecOn generalizing rest with
  | nil =>
      rw [List.append_nil]
      exact ⟨hheld, rfl, fun hne => absurd hheld hne⟩
  | append_singleton front line ih =>
      rw [List.append_assoc, List.singleton_append] at h
      have hfront : Entry ((front ++ [line]) ++ rest) := by simpa using h
      have hholding := ih h (by simp)
      have hkept := kept_after host settings (fed ++ front)
      rw [← List.append_assoc, after_concat, hkept.next_of_addition (hholding.addition h),
        hholding.behind h hkept.sheet]
      exact holding_entered (hfront.isOpen_front (by simp) hrest)

section Steps

variable (hheld : (after host settings fed).console.held = [])
include hheld

/-- What a line of an expression does, given what it does in the console. -/
theorem step_of_takeLineGuarded (h : Entry (front ++ line :: rest)) {step' : Step Console Unit}
    (hstep : Console.takeLineGuarded host line.strip Console.resting
      (after host settings (fed ++ front)).console = step') :
    step host (after host settings (fed ++ front)) line =
      ⟨step'.printed, step'.ended.map fun _ => false, step'.reporter, step'.state⟩ := by
  have hkept := kept_after host settings (fed ++ front)
  have hholding := holding_after hheld h (by simp)
  rw [step, hkept.reporter, Console.obey_of_addition (hholding.addition h) hstep]

/-- Until the last line of an expression nothing is printed. -/
theorem step_of_goesOn (h : Entry (front ++ line :: rest)) (hrest : rest ≠ []) :
    step host (after host settings (fed ++ front)) line =
      ⟨[], .ok false, Console.resting,
        entered settings (after host settings fed).console.lineCount (front ++ [line])⟩ := by
  have hholding := holding_after hheld h (by simp)
  have hfront : Entry ((front ++ [line]) ++ rest) := by simpa using h
  have hopen := hfront.isOpen_front (by simp) hrest
  have hfinishes :
      (after host settings (fed ++ front)).console.finishes line.strip = false := by
    simp [Console.finishes, hholding.resume h, hopen]
  rw [step_of_takeLineGuarded hheld h (Console.takeLineGuarded_of_not_finishes hfinishes),
    hholding.behind h (kept_after host settings (fed ++ front)).sheet]
  rfl

theorem finishes_last (h : Entry (front ++ [line])) :
    (after host settings (fed ++ front)).console.finishes line.strip = true := by
  have hholding := holding_after hheld h (by simp)
  simp [Console.finishes, hholding.resume h, h.not_isOpen, h.strip_ne_nil]

/-- The last line of an expression has it evaluated, whatever was typed in before. -/
theorem step_last (h : Entry (front ++ [line])) :
    step host (after host settings (fed ++ front)) line =
      evaluation host (Source.typed (front ++ [line]))
        ((after host settings fed).console.lineCount + 1) Console.resting
        (entered settings (after host settings fed).console.lineCount (front ++ [line])) := by
  have hholding := holding_after hheld h (by simp)
  have hbehind := hholding.behind h (kept_after host settings (fed ++ front)).sheet
  have hnumber := congrArg Console.firstLine hbehind
  have htake := Console.takeLine_of_finishes host Console.resting (finishes_last hheld h)
  rw [hholding.resume h, hnumber, hbehind] at htake
  have hguarded := Console.takeLineGuarded_apply (Action.guarded_congr host htake)
  rw [step_of_takeLineGuarded hheld h hguarded, evaluation, Action.bind_pure_apply,
    Action.map_map]
  rfl

/-- The last line of an expression with a value is answered. -/
theorem step_of_value (h : Entry (front ++ [line]))
    (hvalue : evaluateWithin host Tree.callLimit settings.newlines
      (Source.typed (front ++ [line])) = .ok x) :
    step host (after host settings (fed ++ front)) line =
      ⟨display host settings (Source.typed (front ++ [line])) ++ (answer host x ++ ['\n']),
        .ok false, Console.resting,
        entered settings (after host settings fed).console.lineCount (front ++ [line])⟩ := by
  have hholding := holding_after hheld h (by simp)
  have hsheet := (kept_after host settings (fed ++ front)).sheet
  have hresume := hholding.resume h
  rw [← hresume] at hvalue
  rw [step_of_takeLineGuarded hheld h
      (Console.takeLineGuarded_of_value hsheet (finishes_last hheld h) hvalue),
    hholding.behind h hsheet, hresume]
  rfl

/-- What stops an expression is reported behind its last line, by the number of its first line. -/
theorem step_of_stop (h : Entry (front ++ [line]))
    (hstop : evaluateWithin host Tree.callLimit settings.newlines
      (Source.typed (front ++ [line])) = .error reason)
    (hreport : reason.report? host = some fault) :
    step host (after host settings (fed ++ front)) line =
      ⟨display host settings (Source.typed (front ++ [line])) ++
          Reporter.report host
            [(consolePath, some ⟨Source.typed (front ++ [line]),
              ((after host settings fed).console.lineCount + 1 : Nat)⟩)] fault,
        reason.passedOn.map fun _ => false, Console.resting,
        entered settings (after host settings fed).console.lineCount (front ++ [line])⟩ := by
  have hholding := holding_after hheld h (by simp)
  have hsheet := (kept_after host settings (fed ++ front)).sheet
  have hresume := hholding.resume h
  rw [← hresume] at hstop
  rw [step_of_takeLineGuarded hheld h
      (Console.takeLineGuarded_of_stop hsheet (finishes_last hheld h) hstop hreport),
    hholding.behind h hsheet, hresume]
  rfl

end Steps

end Dialogue

end BracketCalc
