import BracketCalc.Proofs.Console.Steps
/-!
# What a dialogue keeps

A dialogue feeds lines to the console, one after another, and goes on whatever
comes of a line.  Between two lines the prompt says whether an expression goes
on, and if it does its text has more left than right brackets; nothing is
pending, no answer is kept, no file is in work, and the lines of expressions
are counted.
-/

namespace BracketCalc

open Worksheet

/-- The reporter and the console between two lines, and how many of the lines so far belonged to
expressions. -/
structure Dialogue where
  reporter : Reporter
  console : Console
  additions : Nat

namespace Dialogue

/-- What the console does at the next line. -/
def step (host : Host) (d : Dialogue) (line : Text) : Step Console Bool :=
  Console.obey host (Command.ofLine line) d.reporter d.console

/-- The dialogue behind one more line. -/
def next (host : Host) (d : Dialogue) (line : Text) : Dialogue :=
  ⟨(step host d line).reporter, (step host d line).state,
    d.additions + if (d.console.addition? (Command.ofLine line)).isSome then 1 else 0⟩

def opened (settings : Settings) : Dialogue :=
  ⟨Console.resting, Console.fresh (idle consolePath settings), 0⟩

/-- The dialogue behind some lines. -/
def after (host : Host) (settings : Settings) (fed : List Text) : Dialogue :=
  fed.foldl (next host) (opened settings)

/-- What holds of a dialogue behind some lines. -/
structure Kept (settings : Settings) (fed : List Text) (d : Dialogue) : Prop where
  prompt :
    d.console.prompt = if d.console.held = [] then Console.firstPrompt else Console.secondPrompt
  goesOn : d.console.held ≠ [] → d.console.held.count ')' < d.console.held.count '('
  sheet : d.console.sheet = idle consolePath settings
  reporter : d.reporter = Console.resting
  lineCount : d.console.lineCount = d.additions
  heldLines : (∀ line ∈ fed, '\n' ∉ line) → d.console.held ≠ [] →
    d.console.firstLine + d.console.held.count '\n' = d.console.lineCount

variable {host : Host} {settings : Settings} {fed : List Text} {line : Text} {d : Dialogue}

theorem after_concat :
    after host settings (fed ++ [line]) = next host (after host settings fed) line := by
  simp [after]

theorem kept_opened (settings : Settings) : Kept settings [] (opened settings) where
  prompt := rfl
  goesOn h := absurd rfl h
  sheet := rfl
  reporter := rfl
  lineCount := rfl
  heldLines _ h := absurd rfl h

/-! ### One line -/

theorem next_of_no_addition (h : d.console.addition? (Command.ofLine line) = none) :
    next host d line = d := by
  obtain ⟨hreporter, hconsole⟩ :=
    Console.obey_of_no_addition host d.reporter h
  simp [next, step, hreporter, hconsole, h]

theorem Kept.next_of_addition {added : Text} (h : Kept settings fed d)
    (hadded : d.console.addition? (Command.ofLine line) = some added) :
    next host d line = ⟨Console.resting, d.console.behind added, d.additions + 1⟩ := by
  obtain ⟨hreporter, hconsole⟩ :=
    Console.takeLineGuarded_rests host h.sheet added
  simp [next, step, h.reporter, Console.obey_of_addition hadded rfl, hreporter, hconsole, hadded]

theorem not_mem_of_addition {console : Console} {added : Text}
    (h : console.addition? (Command.ofLine line) = some added) (hline : '\n' ∉ line) :
    '\n' ∉ added := by
  have hadded : added = [] ∨ added = line.strip := by
    unfold Console.addition? Command.ofLine at h
    grind
  rcases hadded with rfl | rfl
  · exact List.not_mem_nil
  · exact fun hmem => hline ((Text.strip_sublist line).subset hmem)

theorem ne_nil_of_isOpen {text : Text} (h : Source.isOpen text = true) : text ≠ [] := by
  rintro rfl
  cases h

theorem held_behind_ne_nil {console : Console} (h : (console.behind line).held ≠ []) :
    Source.isOpen (Source.resume console.held line) = true := by
  by_contra hclosed
  simp [hclosed] at h

theorem prompt_behind (console : Console) (line : Text) :
    (console.behind line).prompt =
      if (console.behind line).held = [] then Console.firstPrompt else Console.secondPrompt := by
  cases hopen : Source.isOpen (Source.resume console.held line) with
  | false => simp [hopen]
  | true => simp [hopen, ne_nil_of_isOpen hopen]

/-- The lines of the text that is held are counted from its first line on. -/
theorem lines_behind {console : Console} (hline : '\n' ∉ line)
    (h : console.held ≠ [] →
      console.firstLine + console.held.count '\n' = console.lineCount)
    (hheld : (console.behind line).held ≠ []) :
    (console.behind line).firstLine + (console.behind line).held.count '\n' =
      (console.behind line).lineCount := by
  have hopen := held_behind_ne_nil hheld
  have hclean : (Source.clean line).count '\n' = 0 :=
    List.count_eq_zero.2 (Source.not_mem_clean hline)
  rw [Console.behind_held, if_pos hopen, Console.behind_firstLine, Console.behind_lineCount]
  by_cases hold : console.held = []
  · simp [Source.resume, hold, hclean]
  · have hcount := h hold
    simp [Source.resume, hold, hclean]
    omega

/-- A line keeps what holds of a dialogue, whatever comes of it. -/
theorem Kept.next (h : Kept settings fed d) (host : Host) (line : Text) :
    Kept settings (fed ++ [line]) (next host d line) := by
  cases hadded : d.console.addition? (Command.ofLine line) with
  | none =>
      rw [next_of_no_addition hadded]
      exact { h with heldLines := fun hfed => h.heldLines fun l hl => hfed l (by simp [hl]) }
  | some added =>
      rw [h.next_of_addition hadded]
      exact
        { prompt := prompt_behind d.console added
          goesOn := fun hheld => by
            have hopen := held_behind_ne_nil hheld
            rw [Console.behind_held, if_pos hopen]
            exact of_decide_eq_true hopen
          sheet := h.sheet
          reporter := rfl
          lineCount := congrArg (· + 1) h.lineCount
          heldLines := fun hfed =>
            lines_behind (not_mem_of_addition hadded (hfed line (by simp)))
              (h.heldLines fun l hl => hfed l (by simp [hl])) }

/-! ### All lines -/

theorem kept_after (host : Host) (settings : Settings) (fed : List Text) :
    Kept settings fed (after host settings fed) := by
  induction fed using List.reverseRecOn with
  | nil => exact kept_opened settings
  | append_singleton fed line ih =>
      rw [after_concat]
      exact ih.next host line

/-- A command that is no part of an expression. -/
def Idle (d : Dialogue) (command : Command) : Prop :=
  command = .help ∨ command = .exit ∨ command = .endOfInput ∨
    command = .blank ∧ d.console.held = []

/-- The console opens at rest, it keeps its order behind all lines, and commands change nothing. -/
theorem opens_and_keeps (host : Host) (files : Text → Option (List UInt8)) (fatal : Bool)
    (settings : Settings) (fed : List Text) :
    start host files consolePath true settings (Reporter.fresh fatal) () =
        ⟨[], .ok (opened settings).console.sheet, (opened settings).reporter, ()⟩ ∧
      Kept settings fed (after host settings fed) ∧
      ∀ line, Idle (after host settings fed) (Command.ofLine line) →
        after host settings (fed ++ [line]) = after host settings fed := by
  refine ⟨?_, kept_after host settings fed, fun line hline => ?_⟩
  · rfl
  · rw [after_concat]
    refine next_of_no_addition ?_
    rcases hline with h | h | h | ⟨h, hheld⟩
    · rw [h, Console.addition?]
    · rw [h, Console.addition?]
    · rw [h, Console.addition?]
    · simp [h, Console.addition?, hheld]

/-- Behind an error and an unfinished expression, help changes nothing. -/
theorem kept_after_fault :
    Idle (after .plain ⟨.separate, true⟩ [['x'], "(+ 1".toList]) (Command.ofLine "help".toList) ∧
      after .plain ⟨.separate, true⟩ ([['x'], "(+ 1".toList] ++ ["help".toList]) =
        after .plain ⟨.separate, true⟩ [['x'], "(+ 1".toList] ∧
      (after .plain ⟨.separate, true⟩ [['x'], "(+ 1".toList]).console.held = "(+ 1".toList := by
  have hkeeps :=
    opens_and_keeps .plain (fun _ => none) true ⟨.separate, true⟩ [['x'], "(+ 1".toList]
  have hidle : Idle (after .plain ⟨.separate, true⟩ [['x'], "(+ 1".toList])
      (Command.ofLine "help".toList) := .inl (by decide)
  exact ⟨hidle, hkeeps.2.2 _ hidle, rfl⟩

end Dialogue

end BracketCalc
