import BracketCalc.Proofs.Fault.Within
import BracketCalc.Proofs.Report.Guarded
import BracketCalc.Worksheet
/-!
# What worksheets do

The step that each operation of a worksheet leaves, given in full: what it
prints, how it ends, which passage is in work, and what is pending behind it.
-/

namespace BracketCalc

namespace Trace

@[simp] theorem set_set (trace : Trace) (path : Text) (a b : Option Passage) :
    (trace.set path a).set path b = trace.set path b := by
  induction trace with
  | nil => simp [set]
  | cons entry rest ih =>
      by_cases h : entry.1 = path
      · simp [set, h]
      · simp [set, h, ih]

end Trace

/-- The reporter with another passage of a file in work, or none. -/
def Reporter.at (reporter : Reporter) (path : Text) (passage : Option Passage) : Reporter :=
  { reporter with trace := reporter.trace.set path passage }

@[simp] theorem Reporter.at_at (reporter : Reporter) (path : Text) (a b : Option Passage) :
    (reporter.at path a).at path b = reporter.at path b := by
  simp [Reporter.at]

/-- A reporter that has met one file only. -/
theorem Reporter.at_only (fatal : Bool) (path : Text) (a b : Option Passage) :
    Reporter.at ⟨fatal, [(path, a)]⟩ path b = ⟨fatal, [(path, b)]⟩ := by
  simp [Reporter.at, Trace.set]

namespace Worksheet

/-- What is displayed of a tree before it is evaluated. -/
def displayed (host : Host) (settings : Settings) (tree : Tree) : Text :=
  if settings.showTree then tree.render host.yellow 0 ++ ['\n'] else []

/-- The worksheet without what is pending under a number. -/
def drop (sheet : Worksheet) (number : Int) : Worksheet :=
  { sheet with pending := sheet.pending.filter (·.number ≠ number) }

variable {host : Host} {path source : Text} {settings : Settings} {number : Int}
  {reporter : Reporter} {sheet : Worksheet} {tree : Tree} {next : Pending} {x : Float}
  {reason : Stop}

theorem add_of_error {e : ParseError} (h : Tree.parse sheet.settings.newlines source = .error e) :
    add host source number reporter sheet =
      ⟨[], .error (e.stop host), reporter.at sheet.path (some ⟨source, number⟩), sheet⟩ := by
  unfold add
  simp only [Action.get_bind_apply, Action.enterPassage, Action.modifyReporter_bind_apply, h]
  rfl

theorem add_of_ok (h : Tree.parse sheet.settings.newlines source = .ok tree) :
    add host source number reporter sheet =
      ⟨[], .ok (), reporter.at sheet.path none,
        { sheet with pending := Pending.insert ⟨number, source, tree⟩ sheet.pending }⟩ := by
  unfold add
  simp only [Action.get_bind_apply, Action.enterPassage, Action.modifyReporter_bind_apply, h,
    Action.modify_bind_apply]
  simp [Action.leavePassage, Action.enterFile, Action.modifyReporter, Reporter.at]

/-- A tree that is low enough is printed in front of what is done next. -/
theorem print_displayed_bind {α : Type} (settings : Settings) (hlow : tree.height ≤ Tree.callLimit)
    (act : Action Worksheet α) (reporter : Reporter) (sheet : Worksheet) :
    (if settings.showTree = true then do
        printTree host tree
        act
      else act) reporter sheet =
      (act reporter sheet).after (displayed host settings tree) := by
  have hprint : (printTree host tree : Action Worksheet Unit) =
      Action.print (tree.render host.yellow 0 ++ ['\n']) := by
    rw [printTree, Expr.renderWithin_eq, if_pos hlow]
  unfold displayed
  rw [hprint]
  cases settings.showTree with
  | false => rfl
  | true => rfl

theorem runOne_of_error (hlow : next.tree.height ≤ Tree.callLimit)
    (h : next.tree.evaluateWithin host Tree.callLimit = .error reason) :
    runOne host next reporter sheet =
      ⟨displayed host sheet.settings next.tree, .error reason,
        reporter.at sheet.path (some ⟨next.source, next.number⟩), sheet.drop next.number⟩ := by
  unfold runOne
  simp only [Action.get_bind_apply, Action.enterPassage, Action.modifyReporter_bind_apply,
    Action.modify_bind_apply, print_displayed_bind sheet.settings hlow, h]
  simp [Action.stop, Step.after, Reporter.at, drop]

theorem runOne_of_ok (hlow : next.tree.height ≤ Tree.callLimit)
    (h : next.tree.evaluateWithin host Tree.callLimit = .ok x) :
    runOne host next reporter sheet =
      ⟨displayed host sheet.settings next.tree, .ok (), reporter.at sheet.path none,
        { sheet.drop next.number with
          results := sheet.results ++ [⟨next.source, next.tree, x⟩] }⟩ := by
  unfold runOne
  simp only [Action.get_bind_apply, Action.enterPassage, Action.modifyReporter_bind_apply,
    Action.modify_bind_apply, print_displayed_bind sheet.settings hlow, h]
  simp [Action.leavePassage, Action.enterFile, Action.modifyReporter, Step.after, Reporter.at, drop]

theorem drop_of_pending {rest : List Pending} (h : sheet.pending = next :: rest)
    (hnumbers : (sheet.pending.map Pending.number).Nodup) :
    sheet.drop next.number = { sheet with pending := rest } := by
  rw [h, List.map_cons, List.nodup_cons] at hnumbers
  have hrest : ∀ p ∈ rest, p.number ≠ next.number := by
    intro p hp hnumber
    exact hnumbers.1 (List.mem_map.2 ⟨p, hp, hnumber⟩)
  have hfilter : rest.filter (·.number ≠ next.number) = rest := by
    simpa [List.filter_eq_self] using hrest
  rw [drop, h, List.filter_cons_of_neg (by simp), hfilter]

theorem run_of_pending (h : sheet.pending = [next]) :
    run host reporter sheet = runOne host next reporter sheet := by
  have hrun : runEach host [next] = runOne host next := by simp [runEach]
  unfold run
  rw [Action.get_bind_apply, h, hrun]

theorem run_of_error (hpending : sheet.pending = [next])
    (hlow : next.tree.height ≤ Tree.callLimit)
    (h : next.tree.evaluateWithin host Tree.callLimit = .error reason) :
    run host reporter sheet =
      ⟨displayed host sheet.settings next.tree, .error reason,
        reporter.at sheet.path (some ⟨next.source, next.number⟩),
        { sheet with pending := [] }⟩ := by
  rw [run_of_pending hpending, runOne_of_error hlow h,
    drop_of_pending hpending (by simp [hpending])]

theorem run_of_ok (hpending : sheet.pending = [next]) (hlow : next.tree.height ≤ Tree.callLimit)
    (h : next.tree.evaluateWithin host Tree.callLimit = .ok x) :
    run host reporter sheet =
      ⟨displayed host sheet.settings next.tree, .ok (), reporter.at sheet.path none,
        { sheet with
          pending := []
          results := sheet.results ++ [⟨next.source, next.tree, x⟩] }⟩ := by
  rw [run_of_pending hpending, runOne_of_ok hlow h,
    drop_of_pending hpending (by simp [hpending])]

/-! ### One expression on a new worksheet -/

/-- What is displayed of a text before it is evaluated. -/
def display (host : Host) (settings : Settings) (source : Text) : Text :=
  match Tree.parse settings.newlines source with
  | .error _ => []
  | .ok tree => displayed host settings tree

theorem add_idle_of_error {e : ParseError} (h : Tree.parse settings.newlines source = .error e) :
    add host source number reporter (idle path settings) =
      ⟨[], .error (e.stop host), reporter.at path (some ⟨source, number⟩),
        idle path settings⟩ :=
  add_of_error h

theorem add_idle_of_ok (h : Tree.parse settings.newlines source = .ok tree) :
    add host source number reporter (idle path settings) =
      ⟨[], .ok (), reporter.at path none, ⟨path, settings, [⟨number, source, tree⟩], []⟩⟩ :=
  add_of_ok h

theorem run_added_of_error (hparse : Tree.parse settings.newlines source = .ok tree)
    (h : tree.evaluateWithin host Tree.callLimit = .error reason) :
    run host reporter ⟨path, settings, [⟨number, source, tree⟩], []⟩ =
      ⟨display host settings source, .error reason,
        reporter.at path (some ⟨source, number⟩), idle path settings⟩ := by
  rw [run_of_error rfl (Tree.height_le_of_parse_eq_ok hparse) h, display, hparse]
  rfl

theorem run_added_of_ok (hparse : Tree.parse settings.newlines source = .ok tree)
    (h : tree.evaluateWithin host Tree.callLimit = .ok x) :
    run host reporter ⟨path, settings, [⟨number, source, tree⟩], []⟩ =
      ⟨display host settings source, .ok (), reporter.at path none,
        ⟨path, settings, [], [⟨source, tree, x⟩]⟩⟩ := by
  rw [run_of_ok rfl (Tree.height_le_of_parse_eq_ok hparse) h, display, hparse]
  rfl

end Worksheet

end BracketCalc
