import BracketCalc.Proofs.Report.Brief
import BracketCalc.Proofs.Worksheet.Ledger
/-!
# Worksheets that share a reporter

At a desk worksheets are opened and called for, in any order, and all of them
report to one reporter.  Whatever comes of an errand, no passage is in work
behind it.  So a report names no other passage than the one that it is about,
which is an expression of the worksheet that was opened or called.
-/

namespace BracketCalc

namespace Worksheet

/-- What is done at a desk: a worksheet is opened, or one of those there is called. -/
inductive Errand where
  | start (files : Text → Option (List UInt8)) (path : Text) (interactive : Bool)
      (settings : Settings)
  | call (index : Nat) (call : Call)

namespace Errand

/-- What an errand does with the worksheets, which are kept in the order they were opened in. -/
def act (host : Host) : Errand → Action (List Worksheet) (Option Result)
  | start files path interactive settings => do
      let sheet ← Worksheet.start host files path interactive settings
      Action.modify fun sheets => sheets ++ [sheet]
      pure none
  | call index asked => do
      match (← Action.get)[index]? with
      | none => pure none
      | some sheet =>
          Action.onPart (fun _ => sheet) (fun sheets sheet => sheets.set index sheet)
            (asked.act host)

/-- The path of the worksheet that is opened. -/
def path? : Errand → Option Text
  | start _ path _ _ => some path
  | call _ _ => none

end Errand

/-- A reporter and the worksheets that share it. -/
structure Desk where
  reporter : Reporter
  sheets : List Worksheet

namespace Desk

/-- What an errand does when its faults are reported. -/
def step (host : Host) (desk : Desk) (errand : Errand) :
    Step (List Worksheet) (Option (Option Result)) :=
  Action.guarded host (errand.act host) desk.reporter desk.sheets

def next (host : Host) (desk : Desk) (errand : Errand) : Desk :=
  ⟨(desk.step host errand).reporter, (desk.step host errand).state⟩

/-- The desk behind some errands. -/
def after (host : Host) (errands : List Errand) : Desk :=
  errands.foldl (next host) ⟨Reporter.fresh false, []⟩

/-- A worksheet at a desk with a reporter that has met the paths. -/
structure Placed (paths : List Text) (sheet : Worksheet) : Prop where
  path : sheet.path ∈ paths
  read : ∀ p ∈ sheet.pending, Tree.parse sheet.settings.newlines p.source = .ok p.tree

/-- What holds of a desk between two errands. -/
structure Kept (errands : List Errand) (desk : Desk) : Prop where
  fatal : desk.reporter.fatal = false
  clear : desk.reporter.trace.Clear
  paths : desk.reporter.trace.paths = (errands.filterMap Errand.path?).eraseDups
  sheets : ∀ sheet ∈ desk.sheets, Placed desk.reporter.trace.paths sheet

/-- Why an errand stops, and the passage that is in work then. -/
inductive Fails (host : Host) (sheets : List Worksheet) :
    Errand → Stop → Option (Text × Passage) → Prop where
  | unreadable {files : Text → Option (List UInt8)} {path : Text} {interactive : Bool}
      {settings : Settings} {reason : Stop} :
      path ≠ consolePath → Unreadable host files path reason →
      Fails host sheets (.start files path interactive settings) reason none
  | reserved {files : Text → Option (List UInt8)} {settings : Settings} :
      Fails host sheets (.start files consolePath false settings)
        (.fault (Fault.plain "'<in>' is a reserved filename")) none
  | opened {files : Text → Option (List UInt8)} {path text : Text} {interactive : Bool}
      {settings : Settings} {e : ParseError} :
      Gives files path text → Tree.parse settings.newlines (Source.clean text) = .error e →
      Fails host sheets (.start files path interactive settings) (e.stop host)
        (Passage.named ⟨Source.clean text, 1⟩ path)
  | added {index : Nat} {sheet : Worksheet} {source : Text} {number : Int} {e : ParseError} :
      sheets[index]? = some sheet → Tree.parse sheet.settings.newlines source = .error e →
      Fails host sheets (.call index (.add source number)) (e.stop host)
        (Passage.named ⟨source, number⟩ sheet.path)
  | ran {index : Nat} {sheet : Worksheet} {front rest : List Pending} {p : Pending}
      {reason : Stop} :
      sheets[index]? = some sheet → sheet.pending = front ++ p :: rest →
      (∀ q ∈ front, ∃ x, q.outcome host = .ok x) →
      Tree.parse sheet.settings.newlines p.source = .ok p.tree → p.outcome host = .error reason →
      Fails host sheets (.call index .run) reason
        (Passage.named ⟨p.source, p.number⟩ sheet.path)
  | tookNone {index : Nat} {sheet : Worksheet} :
      sheets[index]? = some sheet → sheet.results = [] →
      Fails host sheets (.call index .take) (.failure .noResult) none

/-- What is reported of an errand: nothing if it comes to its end, and else why it stopped, with the
passage in work then and no other. -/
structure Reports (host : Host) (desk : Desk) (errand : Errand) : Prop where
  finished : ∀ result, (errand.act host desk.reporter desk.sheets).ended = .ok result →
    (desk.step host errand).printed =
      (errand.act host desk.reporter desk.sheets).printed
  stopped : ∀ reason, (errand.act host desk.reporter desk.sheets).ended = .error reason →
    ∃ fault inWork, reason.report? host = some fault ∧
      Fails host desk.sheets errand reason inWork ∧
      (desk.step host errand).printed =
        (errand.act host desk.reporter desk.sheets).printed ++
          Reporter.brief host inWork fault ∧
      ¬ "Traceback:".toList <+: Reporter.brief host inWork fault ∧
      ∀ path passage, inWork = some (path, passage) →
        let place := Place.ofOffset passage.source fault.span.start.toNat
        passage.source.lines[place.lineIndex]? = some place.line

end Desk

variable {host : Host} {sheet sheet' : Worksheet} {sheets : List Worksheet}
  {reporter : Reporter} {path : Text} {pending : List Pending} {errand : Errand}
  {errands : List Errand} {desk : Desk} {reason : Stop} {inWork : Option (Text × Passage)}

/-! ### Runs -/

/-- The worksheet when some of what was pending has been executed. -/
structure Advanced (sheet sheet' : Worksheet) : Prop where
  path : sheet'.path = sheet.path
  settings : sheet'.settings = sheet.settings
  pending : sheet'.pending ⊆ sheet.pending

/-- How a run through some expressions ends, and the passage that it leaves in work. -/
inductive RunEnds (host : Host) (pending : List Pending) :
    Except Stop Unit → Option Passage → Prop where
  | finished : RunEnds host pending (.ok ()) none
  | stopped {front rest : List Pending} {p : Pending} {reason : Stop} :
      pending = front ++ p :: rest → (∀ q ∈ front, ∃ x, q.outcome host = .ok x) →
      p.outcome host = .error reason →
      RunEnds host pending (.error reason) (some ⟨p.source, p.number⟩)

theorem Advanced.trans {sheet'' : Worksheet} (h : Advanced sheet sheet')
    (h' : Advanced sheet' sheet'') : Advanced sheet sheet'' where
  path := h'.path.trans h.path
  settings := h'.settings.trans h.settings
  pending _ hp := h.pending (h'.pending hp)

theorem advanced_drop (sheet : Worksheet) (number : Int) (results : List Result) :
    Advanced sheet { sheet.drop number with results := results } where
  path := rfl
  settings := rfl
  pending := List.filter_sublist.subset

theorem RunEnds.cons {p : Pending} {x : Float} {ended : Except Stop Unit}
    {passage : Option Passage} (h : RunEnds host pending ended passage)
    (hp : p.outcome host = .ok x) : RunEnds host (p :: pending) ended passage := by
  cases h with
  | finished => exact .finished
  | stopped hpending hfront hstop =>
      exact .stopped (congrArg (p :: ·) hpending) (List.forall_mem_cons.2 ⟨⟨x, hp⟩, hfront⟩) hstop

/-- A run leaves the passage in work that has stopped it, and no passage if nothing has. -/
theorem exists_runEach (host : Host) (hlow : Pending.AllLow pending)
    (hidle : reporter.at sheet.path none = reporter) :
    ∃ printed ended passage sheet', runEach host pending reporter sheet =
        ⟨printed, ended, reporter.at sheet.path passage, sheet'⟩ ∧
      Advanced sheet sheet' ∧ RunEnds host pending ended passage := by
  induction pending generalizing sheet with
  | nil => exact ⟨[], .ok (), none, sheet, by rw [hidle]; rfl, ⟨rfl, rfl, fun _ => id⟩, .finished⟩
  | cons p pending ih =>
      obtain ⟨hfirst, hrest⟩ := List.forall_mem_cons.1 hlow
      cases hvalue : p.outcome host with
      | error reason =>
          refine ⟨displayed host sheet.settings p.tree, _, _, sheet.drop p.number, ?_,
            advanced_drop sheet p.number sheet.results,
            .stopped (List.nil_append _).symm nofun hvalue⟩
          rw [runEach, Action.bind_of_error (runOne_of_error hfirst hvalue)]
      | ok x =>
          -- the reporter is idle again behind an expression with a value
          have hone : runOne host p reporter sheet = ⟨_, .ok (), _, _⟩ :=
            runOne_of_ok hfirst hvalue
          rw [hidle] at hone
          have hdropped :=
            advanced_drop sheet p.number (sheet.results ++ [⟨p.source, p.tree, x⟩])
          rw [← hdropped.path] at hidle
          obtain ⟨printed, ended, passage, sheet', hrun, hadvanced, hends⟩ := ih hrest hidle
          refine ⟨displayed host sheet.settings p.tree ++ printed, ended, passage, sheet', ?_,
            hdropped.trans hadvanced, hends.cons hvalue⟩
          rw [runEach, Action.bind_of_ok hone, hrun]
          rfl

/-! ### Errands -/

namespace Desk

/-- How work on a file ends, and the passage of the file that it leaves in work. -/
inductive Ends {α : Type} (fails : Stop → Option (Text × Passage) → Prop) (path : Text) :
    Except Stop α → Option Passage → Prop where
  | finished {a : α} : Ends fails path (.ok a) none
  | stopped {reason : Stop} {passage : Option Passage} :
      fails reason (passage.bind (·.named path)) → Ends fails path (.error reason) passage

theorem Placed.advanced {paths : List Text} (h : Placed paths sheet)
    (hadvanced : Advanced sheet sheet') : Placed paths sheet' where
  path := hadvanced.path ▸ h.path
  read p hp := hadvanced.settings ▸ h.read p (hadvanced.pending hp)

theorem insert_subset (new : Pending) (pending : List Pending) :
    Pending.insert new pending ⊆ new :: pending := by
  induction pending with
  | nil => exact fun _ => id
  | cons p pending ih =>
      rw [Pending.insert]
      split
      · exact List.cons_subset_cons new (List.subset_cons_self p pending)
      · intro q hq
        rcases List.mem_cons.1 hq with rfl | hq
        · simp
        · rcases List.mem_cons.1 (ih hq) with rfl | hq <;> simp [*]

/-- A call leaves the passage in work at which it stopped, and no passage if it did not. -/
theorem exists_call (host : Host) (asked : Call) {paths : List Text} {index : Nat}
    (hsheet : sheets[index]? = some sheet) (hplaced : Placed paths sheet)
    (hidle : reporter.at sheet.path none = reporter) :
    ∃ printed ended passage sheet', asked.act host reporter sheet =
        ⟨printed, ended, reporter.at sheet.path passage, sheet'⟩ ∧
      Placed paths sheet' ∧
      Ends (Fails host sheets (.call index asked)) sheet.path ended passage := by
  cases asked with
  | add source number =>
      cases hparse : Tree.parse sheet.settings.newlines source with
      | error e =>
          exact ⟨_, _, _, _, Action.bind_of_error (add_of_error hparse), hplaced,
            .stopped (.added hsheet hparse)⟩
      | ok tree =>
          refine ⟨_, _, _, _, Action.bind_of_ok (add_of_ok hparse), ⟨hplaced.path, ?_⟩, .finished⟩
          intro p hp
          rcases List.mem_cons.1 (insert_subset _ _ hp) with rfl | hp
          · exact hparse
          · exact hplaced.read p hp
  | run =>
      have hlow : Pending.AllLow sheet.pending :=
        fun p hp => Tree.height_le_of_parse_eq_ok (hplaced.read p hp)
      obtain ⟨printed, ended, passage, sheet', hrun, hadvanced, hends⟩ :=
        exists_runEach host hlow hidle
      have hplaced' := hplaced.advanced hadvanced
      cases hends with
      | finished =>
          exact ⟨_, _, _, _, Action.bind_of_ok hrun, hplaced', .finished⟩
      | @stopped front rest p reason hpending hfront hstop =>
          have hread := hplaced.read p (by simp [hpending])
          exact ⟨_, _, _, _, Action.bind_of_error hrun, hplaced',
            .stopped (.ran hsheet hpending hfront hread hstop)⟩
  | take =>
      cases hresults : sheet.results with
      | nil =>
          have htake := takeResult_of_nil hresults reporter
          refine ⟨[], _, none, sheet, ?_, hplaced, .stopped (.tookNone hsheet hresults)⟩
          rw [hidle]
          exact Action.bind_of_error htake
      | cons result results =>
          have htake := takeResult_of_cons hresults reporter
          refine ⟨[], .ok (some result), none, { sheet with results := results }, ?_,
            ⟨hplaced.path, hplaced.read⟩, .finished⟩
          rw [hidle]
          exact Action.bind_of_ok htake

theorem entered_of_not_fatal (path : Text) (interactive : Bool) (h : reporter.fatal = false) :
    entered path interactive reporter = reporter.at path none := by
  obtain ⟨fatal, trace⟩ := reporter
  cases h
  cases interactive <;> rfl

/-- What opens a worksheet leaves the passage in work that cannot be read, and else none. -/
theorem exists_start (host : Host) (sheets : List Worksheet)
    (files : Text → Option (List UInt8)) (path : Text) (interactive : Bool) (settings : Settings)
    (hfatal : reporter.fatal = false) :
    ∃ ended passage,
      (Worksheet.start host files path interactive settings :
        Action (List Worksheet) Worksheet) reporter sheets =
          ⟨[], ended, reporter.at path passage, sheets⟩ ∧
      Ends (Fails host sheets (.start files path interactive settings)) path ended passage ∧
      ∀ sheet, ended = .ok sheet → Placed [path] sheet := by
  have hentered := entered_of_not_fatal path interactive hfatal
  by_cases hpath : path = consolePath
  · subst hpath
    cases interactive with
    | true =>
        refine ⟨.ok (idle consolePath settings), none, ?_, .finished, ?_⟩
        · rw [← hentered]
          rfl
        · rintro _ ⟨⟩
          exact ⟨List.mem_singleton_self _, nofun⟩
    | false =>
        refine ⟨_, none, ?_, .stopped .reserved, nofun⟩
        rw [← hentered]
        rfl
  · rcases gives_or_unreadable host files hpath with ⟨text, hgives⟩ | ⟨reason, hreason⟩
    · cases hparse : Tree.parse settings.newlines (Source.clean text) with
      | error e =>
          refine ⟨.error (e.stop host), some ⟨Source.clean text, 1⟩, ?_,
            .stopped (.opened hgives hparse), nofun⟩
          rw [start_of_gives hgives (add_idle_of_error hparse), hentered, Reporter.at_at]
          rfl
      | ok tree =>
          refine ⟨.ok ⟨path, settings, [⟨1, Source.clean text, tree⟩], []⟩, none, ?_,
            .finished, ?_⟩
          · rw [start_of_gives hgives (add_idle_of_ok hparse), hentered, Reporter.at_at]
            rfl
          · rintro _ ⟨⟩
            exact ⟨List.mem_singleton_self _, List.forall_mem_singleton.2 hparse⟩
    · refine ⟨.error reason, none, ?_, .stopped (.unreadable hpath hreason), nofun⟩
      rw [start_of_unreadable hpath hreason, hentered]

/-- The paths met so far, and one more behind them if it is new. -/
def meet (paths : List Text) : Option Text → List Text
  | none => paths
  | some path => if path ∈ paths then paths else paths ++ [path]

theorem subset_meet (paths : List Text) (path : Option Text) : paths ⊆ meet paths path := by
  cases path with
  | none => exact fun _ => id
  | some path =>
      rw [meet]
      split
      · exact fun _ => id
      · exact List.subset_append_left paths [path]

theorem mem_meet (paths : List Text) (path : Text) : path ∈ meet paths (some path) := by
  rw [meet]
  split
  · assumption
  · exact List.mem_append_right paths (List.mem_singleton_self path)

theorem eraseDups_concat (paths : List Text) (path : Text) :
    (paths ++ [path]).eraseDups =
      if path ∈ paths then paths.eraseDups else paths.eraseDups ++ [path] := by
  rw [List.eraseDups_append, List.removeAll]
  by_cases h : path ∈ paths
  · simp [h]
  · simp [h, List.eraseDups_cons]

theorem mem_eraseDups {paths : List Text} : path ∈ paths.eraseDups ↔ path ∈ paths := by
  induction paths using List.reverseRecOn with
  | nil => rfl
  | append_singleton paths last ih =>
      rw [eraseDups_concat]
      split
      · next hlast =>
          rw [ih, List.mem_append, List.mem_singleton]
          constructor
          · exact .inl
          · rintro (hpath | rfl)
            · exact hpath
            · exact hlast
      · rw [List.mem_append, List.mem_append, ih]

theorem eraseDups_meet (errands : List Errand) (errand : Errand) :
    ((errands ++ [errand]).filterMap Errand.path?).eraseDups =
      meet (errands.filterMap Errand.path?).eraseDups errand.path? := by
  rw [List.filterMap_append]
  cases hpath : errand.path? with
  | none => simp [hpath, meet]
  | some path =>
      have hlast : [errand].filterMap Errand.path? = [path] := by simp [hpath]
      rw [hlast, eraseDups_concat, meet]
      simp only [mem_eraseDups]

/-- What an errand leaves before anything is reported. -/
structure Handled (host : Host) (desk : Desk) (errand : Errand)
    (step : Step (List Worksheet) (Option Result)) : Prop where
  fatal : step.reporter.fatal = false
  paths : step.reporter.trace.paths = meet desk.reporter.trace.paths errand.path?
  sheets : ∀ sheet ∈ step.state, Placed (meet desk.reporter.trace.paths errand.path?) sheet
  finished : ∀ result, step.ended = .ok result → step.reporter.trace.Clear
  stopped : ∀ reason, step.ended = .error reason → ∃ inWork,
    Fails host desk.sheets errand reason inWork ∧ step.reporter.trace.passages = inWork.toList

theorem handled_of_ends (h : Kept errands desk) {step : Step (List Worksheet) (Option Result)}
    {passage : Option Passage} (hreporter : step.reporter = desk.reporter.at path passage)
    (hpaths : (desk.reporter.at path passage).trace.paths =
      meet desk.reporter.trace.paths errand.path?)
    (hends : Ends (Fails host desk.sheets errand) path step.ended passage)
    (hsheets : ∀ sheet ∈ step.state, Placed (meet desk.reporter.trace.paths errand.path?) sheet) :
    Handled host desk errand step where
  fatal := hreporter ▸ h.fatal
  paths := hreporter ▸ hpaths
  sheets := hsheets
  finished result hresult := by
    rw [hresult] at hends
    cases hends with
    | finished => exact hreporter ▸ h.clear.set path
  stopped reason hreason := by
    rw [hreason] at hends
    cases hends with
    | stopped hfails => exact ⟨_, hfails, hreporter ▸ h.clear.passages_set path passage⟩

theorem Placed.subset {paths paths' : List Text} (h : Placed paths sheet)
    (hpaths : paths ⊆ paths') : Placed paths' sheet :=
  ⟨hpaths h.path, h.read⟩

theorem handled_start (h : Kept errands desk) (host : Host)
    (files : Text → Option (List UInt8)) (path : Text) (interactive : Bool) (settings : Settings) :
    Handled host desk (.start files path interactive settings)
      ((Errand.start files path interactive settings).act host desk.reporter desk.sheets) := by
  obtain ⟨ended, passage, hstart, hends, hopened⟩ :=
    exists_start host desk.sheets files path interactive settings h.fatal
  have hbefore : ∀ sheet ∈ desk.sheets, Placed (meet desk.reporter.trace.paths (some path)) sheet :=
    fun sheet hsheet => (h.sheets sheet hsheet).subset (subset_meet _ _)
  have hpaths : (desk.reporter.at path passage).trace.paths =
      meet desk.reporter.trace.paths (some path) := Trace.paths_set _ _ _
  cases hends with
  | stopped hfails =>
      rw [Errand.act, Action.bind_of_error hstart]
      exact handled_of_ends h rfl hpaths (.stopped hfails) hbefore
  | @finished sheet =>
      rw [Errand.act, Action.bind_of_ok hstart]
      have hnew : Placed (meet desk.reporter.trace.paths (some path)) sheet :=
        (hopened sheet rfl).subset (List.cons_subset.2 ⟨mem_meet _ path, List.nil_subset _⟩)
      exact handled_of_ends h rfl hpaths .finished
        (List.forall_mem_append.2 ⟨hbefore, List.forall_mem_singleton.2 hnew⟩)

theorem act_call {index : Nat} {asked : Call} {printed : Text}
    {ended : Except Stop (Option Result)} {reporter' : Reporter}
    (hsheet : sheets[index]? = some sheet)
    (h : asked.act host reporter sheet = ⟨printed, ended, reporter', sheet'⟩) :
    (Errand.call index asked).act host reporter sheets =
      ⟨printed, ended, reporter', sheets.set index sheet'⟩ := by
  have hpart : Action.onPart (fun _ => sheet) (fun sheets sheet => sheets.set index sheet)
      (asked.act host) reporter sheets =
        ⟨printed, ended, reporter', sheets.set index sheet'⟩ := by
    rw [Action.onPart, h]
  rw [Errand.act, Action.get_bind_apply, hsheet]
  exact hpart

theorem act_call_of_none {index : Nat} {asked : Call} (h : sheets[index]? = none) :
    (Errand.call index asked).act host reporter sheets = ⟨[], .ok none, reporter, sheets⟩ := by
  rw [Errand.act, Action.get_bind_apply, h]
  rfl

theorem handled_call (h : Kept errands desk) (host : Host) (index : Nat) (asked : Call) :
    Handled host desk (.call index asked)
      ((Errand.call index asked).act host desk.reporter desk.sheets) := by
  cases hsheet : desk.sheets[index]? with
  | none =>
      rw [act_call_of_none hsheet]
      exact ⟨h.fatal, rfl, h.sheets, fun _ _ => h.clear, nofun⟩
  | some sheet =>
      have hplaced := h.sheets sheet (List.mem_of_getElem? hsheet)
      -- the path of the worksheet was met before, so it keeps its place in the trace
      have hidle : desk.reporter.at sheet.path none = desk.reporter := by
        rw [Reporter.at, h.clear.set_of_mem hplaced.path]
      obtain ⟨printed, ended, passage, sheet', hact, hplaced', hends⟩ :=
        exists_call host asked hsheet hplaced hidle
      have hsheets : ∀ other ∈ desk.sheets.set index sheet',
          Placed desk.reporter.trace.paths other := by
        intro other hother
        rcases List.mem_or_eq_of_mem_set hother with hother | rfl
        · exact h.sheets other hother
        · exact hplaced'
      rw [act_call hsheet hact]
      exact handled_of_ends h rfl (Trace.paths_set_of_mem hplaced.path passage) hends hsheets

theorem handled_act (h : Kept errands desk) (host : Host) (errand : Errand) :
    Handled host desk errand (errand.act host desk.reporter desk.sheets) := by
  cases errand with
  | start files path interactive settings =>
      exact handled_start h host files path interactive settings
  | call index asked => exact handled_call h host index asked

/-! ### Reports -/

/-- Whatever stops an errand is reported. -/
theorem Fails.exists_report (h : Fails host sheets errand reason inWork) :
    ∃ fault, reason.report? host = some fault := by
  cases h with
  | unreadable _ hreason => exact hreason.exists_report
  | reserved => exact ⟨_, rfl⟩
  | opened _ hparse => exact exists_report_of_evaluate (evaluate_of_parse_eq_error hparse)
  | added _ hparse => exact exists_report_of_evaluate (evaluate_of_parse_eq_error hparse)
  | ran _ _ _ hread hstop =>
      exact exists_report_of_evaluateWithin ((evaluateWithin_of_parse_eq_ok hread).trans hstop)
  | tookNone _ _ =>
      have hname : Text.Braceless "IndexError".toList := by simp [Text.Braceless]
      have hmessage : Text.Braceless "pop from empty list".toList := by simp [Text.Braceless]
      exact ⟨_, Failure.report?_of_braceless host hname hmessage⟩

/-- A guard takes the passage out of work at which an errand has stopped. -/
theorem Handled.kept {step : Step (List Worksheet) (Option Result)}
    (h : Handled host desk errand step) (hkept : Kept errands desk)
    (hact : errand.act host desk.reporter desk.sheets = step) :
    Kept (errands ++ [errand]) (desk.next host errand) := by
  obtain ⟨printed, ended, reporter, sheets⟩ := step
  have hpaths : reporter.trace.paths =
      ((errands ++ [errand]).filterMap Errand.path?).eraseDups := by
    rw [h.paths, hkept.paths, eraseDups_meet]
  have hsheets : ∀ sheet ∈ sheets, Placed reporter.trace.paths sheet := by
    rw [h.paths]
    exact h.sheets
  unfold next Desk.step
  cases ended with
  | ok result =>
      rw [Action.guarded_of_ok hact]
      exact ⟨h.fatal, h.finished result rfl, hpaths, hsheets⟩
  | error reason =>
      obtain ⟨inWork, hfails, -⟩ := h.stopped reason rfl
      obtain ⟨fault, hreport⟩ := hfails.exists_report
      rw [Action.guarded_of_not_fatal hact hreport h.fatal]
      exact ⟨h.fatal, Trace.clear_clear _, by rwa [Trace.paths_clear], by rwa [Trace.paths_clear]⟩

theorem kept_after (host : Host) (errands : List Errand) :
    Kept errands (after host errands) := by
  induction errands using List.reverseRecOn with
  | nil => exact ⟨rfl, Trace.clear_nil, rfl, nofun⟩
  | append_singleton errands errand ih =>
      have hafter : after host (errands ++ [errand]) =
          (after host errands).next host errand := by
        simp [after]
      rw [hafter]
      exact (handled_act ih host errand).kept ih rfl

theorem Kept.reports (h : Kept errands desk) (halarm : Style.Wraps host.alarm) (errand : Errand) :
    Reports host desk errand := by
  have hhandled := handled_act h host errand
  cases hact : errand.act host desk.reporter desk.sheets with
  | mk printed ended reporter sheets =>
      rw [hact] at hhandled
      constructor
      · intro result hended
        rw [hact] at hended ⊢
        obtain rfl : ended = .ok result := hended
        rw [Desk.step, Action.guarded_of_ok hact]
      · intro reason hended
        rw [hact] at hended ⊢
        obtain rfl : ended = .error reason := hended
        obtain ⟨inWork, hfails, hpassages⟩ := hhandled.stopped reason rfl
        obtain ⟨fault, hreport⟩ := hfails.exists_report
        refine ⟨fault, inWork, hreport, hfails, ?_, Reporter.not_isPrefix_brief halarm _ _,
          fun _ passage _ => Place.getElem?_lines passage.source _⟩
        rw [Desk.step, Action.printed_guarded_of_error hact hreport,
          Reporter.report_eq_brief hpassages]

/-- Behind each errand no passage is in work, and the files are kept in the order they were first
met in.  So the report of the next errand names no file but that of the expression it is about, with
a line of this expression, and has no title. -/
theorem reports_own_passage (host : Host) (halarm : Style.Wraps host.alarm)
    (errands : List Errand) :
    Kept errands (after host errands) ∧
      ∀ errand, Reports host (after host errands) errand :=
  ⟨kept_after host errands, (kept_after host errands).reports halarm⟩

/-- On a terminal, behind an empty file and an expression that is not finished. -/
theorem reports_own_passage_ansi :
    let errands : List Errand :=
      [.start (fun _ => none) consolePath true ⟨.separate, false⟩,
        .start (fun _ => some []) ['f'] true ⟨.separate, false⟩,
        .call 0 (.add ['x'] 3), .call 0 (.add ['('] 4)]
    Style.Wraps Host.ansi.alarm ∧ Kept errands (after .ansi errands) ∧
      Reports .ansi (after .ansi errands) (.call 0 .run) := by
  intro errands
  have hcodes : ∀ code ∈ [['1'], ['3', '1']], ∀ c ∈ code, c.isDigit ∨ c = ';' := by simp
  have halarm : Style.Wraps Host.ansi.alarm := Style.wraps_wrap hcodes
  obtain ⟨hkept, hreports⟩ := reports_own_passage .ansi halarm errands
  exact ⟨halarm, hkept, hreports _⟩

/-- A run is reported with the line of its own expression, whatever went wrong before. -/
example :
    ((after .plain
      [.start (fun _ => none) consolePath true ⟨.separate, false⟩,
        .start (fun _ => some []) ['f'] true ⟨.separate, false⟩,
        .call 0 (.add ['x'] 3), .call 0 (.add ['('] 4)]).step .plain (.call 0 .run)).printed =
      "  File '<in>', line 3:\n    x\nerror: 'x' is not a number\n  x\n  ^\n".toList := by
  rfl

end Desk

end Worksheet

end BracketCalc
