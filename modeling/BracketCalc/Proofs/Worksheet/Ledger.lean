import BracketCalc.Proofs.Worksheet.Files
/-!
# The ledger of a worksheet

The ledger of a worksheet is its past: the expressions it has accepted, the
results that were taken from it, and all that it has printed.  Whatever it is
called for, each accepted expression is executed once and in order, and its
result is kept until it is taken.  A run that is stopped by an expression has
executed those in front of it, and leaves those behind it pending.
-/

namespace BracketCalc

namespace Pending

/-- What comes of an expression when it is run. -/
def outcome (host : Host) (p : Pending) : Except Stop Float :=
  p.tree.evaluateWithin host Tree.callLimit

/-- The result of an expression that has a value. -/
def result? (host : Host) (p : Pending) : Option Result :=
  match p.outcome host with
  | .ok x => some ⟨p.source, p.tree, x⟩
  | .error _ => none

/-- All trees are low enough to be displayed, as those are that were read. -/
def AllLow (pending : List Pending) : Prop := ∀ p ∈ pending, p.tree.height ≤ Tree.callLimit

end Pending

namespace Worksheet

/-- What a worksheet is called for. -/
inductive Call where
  | add (source : Text) (number : Int)
  | run
  | take

namespace Call

/-- What a call does, and the result that it takes. -/
def act (host : Host) : Call → Action Worksheet (Option Result)
  | add source number => do
      Worksheet.add host source number
      pure none
  | run => do
      Worksheet.run host
      pure none
  | take => do
      let result ← takeResult
      pure (some result)

/-- The expression that a call adds, if it can be read. -/
def added (newlines : Newlines) : Call → List Pending
  | add source number =>
      match Tree.parse newlines source with
      | .error _ => []
      | .ok tree => [⟨number, source, tree⟩]
  | run => []
  | take => []

/-- The call adds nothing under a number that is still pending. -/
def Fresh (pending : List Pending) : Call → Prop
  | add _ number => ∀ p ∈ pending, p.number ≠ number
  | run => True
  | take => True

instance (pending : List Pending) : (call : Call) → Decidable (call.Fresh pending)
  | add _ number => inferInstanceAs (Decidable (∀ p ∈ pending, p.number ≠ number))
  | run => .isTrue trivial
  | take => .isTrue trivial

end Call

/-- A worksheet and its past. -/
structure Ledger where
  sheet : Worksheet
  accepted : List Pending
  taken : List Result
  printed : Text

namespace Ledger

/-- The ledger of a worksheet that was just opened. -/
def opened (sheet : Worksheet) : Ledger := ⟨sheet, sheet.pending, [], []⟩

/-- The ledger behind a call.  What is added is accepted unless it cannot be read. -/
def next (host : Host) (reporter : Reporter) (call : Call) (ledger : Ledger) : Ledger :=
  let step := call.act host reporter ledger.sheet
  { sheet := step.state
    accepted := ledger.accepted ++ call.added ledger.sheet.settings.newlines
    taken := ledger.taken ++ step.ended.toOption.join.toList
    printed := ledger.printed ++ step.printed }

/-- The ledgers of worksheets that are called again and again, with any reporter each time, and
never add under a number that is still pending. -/
inductive Reached (host : Host) : Ledger → Prop where
  | opened {files : Text → Option (List UInt8)} {path : Text} {interactive : Bool}
      {settings : Settings} {reporter : Reporter} {sheet : Worksheet} :
      ((start host files path interactive settings : Action Unit Worksheet)
        reporter ()).ended = .ok sheet →
      Reached host (opened sheet)
  | next {ledger : Ledger} (reporter : Reporter) (call : Call) : Reached host ledger →
      call.Fresh ledger.sheet.pending → Reached host (ledger.next host reporter call)

/-- The accepted expressions are those executed so far and those still pending.  The executed ones
were displayed, and those that have a value gave the results, in order. -/
structure Executed (host : Host) (ledger : Ledger) (executed : List Pending) : Prop where
  read : ∀ p ∈ ledger.accepted,
    Tree.parse ledger.sheet.settings.newlines p.source = .ok p.tree
  accepted : ledger.accepted = executed ++ ledger.sheet.pending
  results : ledger.taken ++ ledger.sheet.results = executed.filterMap (Pending.result? host)
  printed : ledger.printed =
    executed.flatMap fun p => displayed host ledger.sheet.settings p.tree
  numbers : (ledger.sheet.pending.map Pending.number).Nodup

end Ledger

variable {host : Host} {sheet : Worksheet} {reporter : Reporter} {next : Pending}
  {front rest : List Pending} {x : Float} {reason : Stop}

/-! ### Runs -/

theorem result?_of_ok (h : next.outcome host = .ok x) :
    next.result? host = some ⟨next.source, next.tree, x⟩ := by
  rw [Pending.result?, h]

theorem result?_of_error (h : next.outcome host = .error reason) : next.result? host = none := by
  rw [Pending.result?, h]

/-- What is kept as the value of a tree is its value. -/
theorem value_of_result? {result : Result} (h : next.result? host = some result) :
    result.tree.value = .ok result.value := by
  cases hvalue : next.outcome host with
  | error reason =>
      rw [result?_of_error hvalue] at h
      cases h
  | ok x =>
      rw [result?_of_ok hvalue] at h
      cases h
      exact Expr.evaluateWithin_eq_ok hvalue

/-- The worksheet when its first pending expressions have been executed, none of which stopped the
run. -/
def ran (host : Host) (sheet : Worksheet) (front rest : List Pending) : Worksheet :=
  { sheet with
    pending := rest
    results := sheet.results ++ front.filterMap (Pending.result? host) }

theorem ran_ran (sheet : Worksheet) (front more rest : List Pending) :
    (sheet.ran host front (more ++ rest)).ran host more rest =
      sheet.ran host (front ++ more) rest := by
  simp [ran]

theorem runOne_of_value (hpending : sheet.pending = next :: rest)
    (hlow : next.tree.height ≤ Tree.callLimit)
    (hnumbers : (sheet.pending.map Pending.number).Nodup) (h : next.outcome host = .ok x)
    (reporter : Reporter) :
    runOne host next reporter sheet =
      ⟨displayed host sheet.settings next.tree, .ok (), reporter.at sheet.path none,
        sheet.ran host [next] rest⟩ := by
  rw [runOne_of_ok hlow h, drop_of_pending hpending hnumbers]
  simp [ran, result?_of_ok h]

theorem runOne_of_stop (hpending : sheet.pending = next :: rest)
    (hlow : next.tree.height ≤ Tree.callLimit)
    (hnumbers : (sheet.pending.map Pending.number).Nodup) (h : next.outcome host = .error reason)
    (reporter : Reporter) :
    runOne host next reporter sheet =
      ⟨displayed host sheet.settings next.tree, .error reason,
        reporter.at sheet.path (some ⟨next.source, next.number⟩), sheet.ran host [next] rest⟩ := by
  rw [runOne_of_error hlow h, drop_of_pending hpending hnumbers]
  simp [ran, result?_of_error h]

/-- Expressions with a value do not stop a run. -/
theorem runEach_append (hpending : sheet.pending = front ++ rest)
    (hlow : Pending.AllLow sheet.pending) (hnumbers : (sheet.pending.map Pending.number).Nodup)
    (h : ∀ p ∈ front, ∃ x, p.outcome host = .ok x) (reporter : Reporter) :
    ∃ reporter', runEach host (front ++ rest) reporter sheet =
      (runEach host rest reporter' (sheet.ran host front rest)).after
        (front.flatMap fun p => displayed host sheet.settings p.tree) := by
  induction front generalizing sheet reporter with
  | nil =>
      have hsame : sheet.ran host [] rest = sheet := by
        rw [List.nil_append] at hpending
        simp [ran, ← hpending]
      exact ⟨reporter, by simp [hsame]⟩
  | cons next front ih =>
      obtain ⟨⟨x, hx⟩, hfront⟩ := List.forall_mem_cons.1 h
      rw [List.cons_append] at hpending
      have hall := hpending ▸ hlow
      have hone := runOne_of_value hpending (hall next List.mem_cons_self) hnumbers hx reporter
      rw [hpending, List.map_cons, List.nodup_cons] at hnumbers
      have hran : (sheet.ran host [next] (front ++ rest)).pending = front ++ rest := rfl
      have hlower : Pending.AllLow (sheet.ran host [next] (front ++ rest)).pending :=
        fun p hp => hall p (List.mem_cons_of_mem next hp)
      obtain ⟨reporter', hrest⟩ := ih hran hlower hnumbers.2 hfront (reporter.at sheet.path none)
      refine ⟨reporter', ?_⟩
      rw [List.cons_append, runEach, Action.bind_of_ok hone, hrest, ran_ran,
        Action.after_after, List.flatMap_cons]
      rfl

/-- The worksheet and all that is printed when a run has executed its first expressions. -/
theorem run_eq_runEach (hpending : sheet.pending = front ++ rest)
    (hlow : Pending.AllLow sheet.pending) (hnumbers : (sheet.pending.map Pending.number).Nodup)
    (h : ∀ p ∈ front, ∃ x, p.outcome host = .ok x) (reporter : Reporter) :
    ∃ reporter', run host reporter sheet =
      (runEach host rest reporter' (sheet.ran host front rest)).after
        (front.flatMap fun p => displayed host sheet.settings p.tree) := by
  obtain ⟨reporter', hrun⟩ := runEach_append hpending hlow hnumbers h reporter
  refine ⟨reporter', ?_⟩
  rw [run, Action.get_bind_apply, hpending, hrun]

theorem run_of_values (hlow : Pending.AllLow sheet.pending)
    (hnumbers : (sheet.pending.map Pending.number).Nodup)
    (h : ∀ p ∈ sheet.pending, ∃ x, p.outcome host = .ok x) (reporter : Reporter) :
    ∃ reporter', run host reporter sheet =
      ⟨sheet.pending.flatMap fun p => displayed host sheet.settings p.tree, .ok (), reporter',
        sheet.ran host sheet.pending []⟩ := by
  have hpending : sheet.pending = sheet.pending ++ [] := (List.append_nil _).symm
  obtain ⟨reporter', hrun⟩ := run_eq_runEach hpending hlow hnumbers h reporter
  refine ⟨reporter', ?_⟩
  rw [hrun, runEach, Action.pure_apply, Step.after, List.append_nil]

theorem run_of_stop (hpending : sheet.pending = front ++ next :: rest)
    (hlow : Pending.AllLow sheet.pending) (hnumbers : (sheet.pending.map Pending.number).Nodup)
    (hfront : ∀ p ∈ front, ∃ x, p.outcome host = .ok x) (h : next.outcome host = .error reason)
    (reporter : Reporter) :
    ∃ reporter', run host reporter sheet =
      ⟨(front ++ [next]).flatMap fun p => displayed host sheet.settings p.tree,
        .error reason, reporter', sheet.ran host (front ++ [next]) rest⟩ := by
  obtain ⟨reporter', hrun⟩ := run_eq_runEach hpending hlow hnumbers hfront reporter
  have hleft : ((sheet.ran host front (next :: rest)).pending.map Pending.number).Nodup := by
    rw [hpending, List.map_append] at hnumbers
    exact (List.nodup_append.1 hnumbers).2.1
  have hnext : next.tree.height ≤ Tree.callLimit := hlow next (by simp [hpending])
  have hone := runOne_of_stop rfl hnext hleft h reporter'
  refine ⟨reporter'.at sheet.path (some ⟨next.source, next.number⟩), ?_⟩
  rw [hrun, runEach, Action.bind_of_error hone, ← List.singleton_append, ran_ran, Step.after,
    List.flatMap_append, List.flatMap_singleton]
  rfl

/-- Unless all expressions have a value, there is a first one that has none. -/
theorem values_or_first_stop (host : Host) (pending : List Pending) :
    (∀ p ∈ pending, ∃ x, p.outcome host = .ok x) ∨
      ∃ front next rest reason, pending = front ++ next :: rest ∧
        (∀ p ∈ front, ∃ x, p.outcome host = .ok x) ∧ next.outcome host = .error reason := by
  induction pending with
  | nil => exact .inl nofun
  | cons p pending ih =>
      cases hp : p.outcome host with
      | error reason => exact .inr ⟨[], p, pending, reason, rfl, nofun, hp⟩
      | ok x =>
          rcases ih with hall | ⟨front, next, rest, reason, rfl, hfront, hnext⟩
          · exact .inl (List.forall_mem_cons.2 ⟨⟨x, hp⟩, hall⟩)
          · exact .inr ⟨p :: front, next, rest, reason, rfl,
              List.forall_mem_cons.2 ⟨⟨x, hp⟩, hfront⟩, hnext⟩

/-- What a run does: the first pending expression without a value stops it. -/
structure Runs (host : Host) (sheet : Worksheet) (step : Step Worksheet Unit) : Prop where
  stopped_iff : (∃ reason, step.ended = .error reason) ↔
    ∃ p ∈ sheet.pending, ∃ reason, p.outcome host = .error reason
  stopped : ∀ front next rest reason, sheet.pending = front ++ next :: rest →
    (∀ p ∈ front, ∃ x, p.outcome host = .ok x) → next.outcome host = .error reason →
    step.ended = .error reason ∧
      step.state = { sheet with
        pending := rest
        results := sheet.results ++ front.filterMap (Pending.result? host) }
  finished : (∀ p ∈ sheet.pending, ∃ x, p.outcome host = .ok x) →
    step.ended = .ok () ∧
      step.state = { sheet with
        pending := []
        results := sheet.results ++ sheet.pending.filterMap (Pending.result? host) }

theorem runs_run (host : Host) (hlow : Pending.AllLow sheet.pending)
    (hnumbers : (sheet.pending.map Pending.number).Nodup) (reporter : Reporter) :
    Runs host sheet (run host reporter sheet) where
  stopped_iff := by
    rcases values_or_first_stop host sheet.pending with
      hall | ⟨front, next, rest, reason, hpending, hfront, hnext⟩
    · obtain ⟨reporter', hrun⟩ := run_of_values hlow hnumbers hall reporter
      rw [hrun]
      refine ⟨nofun, ?_⟩
      rintro ⟨p, hp, reason, hreason⟩
      obtain ⟨x, hx⟩ := hall p hp
      rw [hreason] at hx
      cases hx
    · obtain ⟨reporter', hrun⟩ := run_of_stop hpending hlow hnumbers hfront hnext reporter
      rw [hrun]
      exact ⟨fun _ => ⟨next, by simp [hpending], reason, hnext⟩, fun _ => ⟨_, rfl⟩⟩
  stopped := by
    intro front next rest reason hpending hfront hnext
    obtain ⟨reporter', hrun⟩ := run_of_stop hpending hlow hnumbers hfront hnext reporter
    rw [hrun]
    refine ⟨rfl, ?_⟩
    simp [ran, result?_of_error hnext]
  finished := by
    intro hall
    obtain ⟨reporter', hrun⟩ := run_of_values hlow hnumbers hall reporter
    rw [hrun]
    exact ⟨rfl, rfl⟩

theorem takeResult_of_nil (h : sheet.results = []) (reporter : Reporter) :
    takeResult reporter sheet = ⟨[], .error (.failure .noResult), reporter, sheet⟩ := by
  rw [takeResult, Action.get_bind_apply, h]
  rfl

theorem takeResult_of_cons {result : Result} {results : List Result}
    (h : sheet.results = result :: results) (reporter : Reporter) :
    takeResult reporter sheet = ⟨[], .ok result, reporter, { sheet with results := results }⟩ := by
  rw [takeResult, Action.get_bind_apply, h]
  rfl

theorem insert_of_fresh {new : Pending} {pending : List Pending}
    (h : ∀ p ∈ pending, p.number ≠ new.number) : Pending.insert new pending = pending ++ [new] := by
  induction pending with
  | nil => rfl
  | cons p pending ih =>
      obtain ⟨hp, hpending⟩ := List.forall_mem_cons.1 h
      rw [Pending.insert, if_neg hp, ih hpending, List.cons_append]

/-! ### Calls -/

namespace Ledger

variable {ledger : Ledger} {executed : List Pending} {source : Text} {number : Int} {tree : Tree}

/-- What cannot be read changes nothing. -/
theorem next_add_of_error {e : ParseError}
    (h : Tree.parse ledger.sheet.settings.newlines source = .error e) :
    ledger.next host reporter (.add source number) = ledger := by
  have hact : (Call.add source number).act host reporter ledger.sheet =
      ⟨[], .error (e.stop host), reporter.at ledger.sheet.path (some ⟨source, number⟩),
        ledger.sheet⟩ := Action.bind_of_error (add_of_error h)
  simp [next, hact, Call.added, h, Except.toOption]

theorem next_add_of_ok (h : Tree.parse ledger.sheet.settings.newlines source = .ok tree)
    (hfresh : (Call.add source number).Fresh ledger.sheet.pending) :
    ledger.next host reporter (.add source number) =
      { ledger with
        sheet := { ledger.sheet with
          pending := ledger.sheet.pending ++ [⟨number, source, tree⟩] }
        accepted := ledger.accepted ++ [⟨number, source, tree⟩] } := by
  have hact : (Call.add source number).act host reporter ledger.sheet =
      (pure none : Action Worksheet (Option Result)) (reporter.at ledger.sheet.path none)
        { ledger.sheet with
          pending := Pending.insert ⟨number, source, tree⟩ ledger.sheet.pending } :=
    Action.bind_of_ok (add_of_ok h)
  have hinsert : Pending.insert ⟨number, source, tree⟩ ledger.sheet.pending =
      ledger.sheet.pending ++ [⟨number, source, tree⟩] := insert_of_fresh hfresh
  rw [hinsert] at hact
  simp [next, hact, Call.added, h, Except.toOption, Action.pure_apply]

theorem next_take_of_nil (h : ledger.sheet.results = []) :
    ledger.next host reporter .take = ledger := by
  have hact : Call.take.act host reporter ledger.sheet =
      ⟨[], .error (.failure .noResult), reporter, ledger.sheet⟩ :=
    Action.bind_of_error (takeResult_of_nil h reporter)
  simp [next, hact, Call.added, Except.toOption]

theorem next_take_of_cons {result : Result} {results : List Result}
    (h : ledger.sheet.results = result :: results) :
    ledger.next host reporter .take =
      { ledger with
        sheet := { ledger.sheet with results := results }
        taken := ledger.taken ++ [result] } := by
  have hact : Call.take.act host reporter ledger.sheet =
      (pure (some result) : Action Worksheet (Option Result)) reporter
        { ledger.sheet with results := results } :=
    Action.bind_of_ok (takeResult_of_cons h reporter)
  simp [next, hact, Call.added, Except.toOption, Action.pure_apply]

theorem next_run {printed : Text} {ended : Except Stop Unit} {reporter' : Reporter}
    (h : run host reporter ledger.sheet = ⟨printed, ended, reporter', sheet⟩) :
    ledger.next host reporter .run =
      { ledger with
        sheet := sheet
        printed := ledger.printed ++ printed } := by
  have hact : Call.run.act host reporter ledger.sheet =
      ⟨printed, ended.map fun _ => none, reporter', sheet⟩ := by
    rw [Call.act, Action.bind_pure_apply, h]
  cases ended <;> simp [next, hact, Call.added, Except.toOption, Except.map]

namespace Executed

/-- A run executes the first of the pending expressions. -/
theorem ran {front rest : List Pending} (h : Executed host ledger executed)
    (hpending : ledger.sheet.pending = front ++ rest) :
    Executed host
      { ledger with
        sheet := ledger.sheet.ran host front rest
        printed := ledger.printed ++
          front.flatMap fun p => displayed host ledger.sheet.settings p.tree }
      (executed ++ front) where
  read := h.read
  accepted := by
    rw [h.accepted, hpending, List.append_assoc]
    rfl
  results := by
    rw [List.filterMap_append, ← h.results, List.append_assoc]
    rfl
  printed := by
    rw [List.flatMap_append]
    exact congrArg (· ++ _) h.printed
  numbers := by
    have hnumbers := h.numbers
    rw [hpending, List.map_append] at hnumbers
    exact (List.nodup_append.1 hnumbers).2.1

/-- The trees that are pending were read. -/
theorem allLow (h : Executed host ledger executed) : Pending.AllLow ledger.sheet.pending := by
  intro p hp
  refine Tree.height_le_of_parse_eq_ok (h.read p ?_)
  rw [h.accepted]
  exact List.mem_append_right executed hp

theorem value_eq (h : Executed host ledger executed) {result : Result}
    (hresult : result ∈ ledger.taken ++ ledger.sheet.results) :
    result.tree.value = .ok result.value := by
  rw [h.results] at hresult
  obtain ⟨p, -, hp⟩ := List.mem_filterMap.1 hresult
  exact value_of_result? hp

/-- A call executes the first of the pending expressions, all of them or none, and loses none. -/
theorem exists_next (h : Executed host ledger executed) {call : Call}
    (hfresh : call.Fresh ledger.sheet.pending) (reporter : Reporter) :
    ∃ more, Executed host (ledger.next host reporter call) (executed ++ more) := by
  cases call with
  | add source number =>
      refine ⟨[], ?_⟩
      rw [List.append_nil]
      cases hparse : Tree.parse ledger.sheet.settings.newlines source with
      | error e => rwa [next_add_of_error hparse]
      | ok tree =>
          rw [next_add_of_ok hparse hfresh]
          exact
            { read := List.forall_mem_append.2 ⟨h.read, by simpa using hparse⟩
              accepted := by simp [h.accepted]
              results := h.results
              printed := h.printed
              numbers := by
                rw [List.map_append, List.map_singleton, List.nodup_append]
                refine ⟨h.numbers, by simp, ?_⟩
                rintro _ hnumber _ hnew rfl
                obtain ⟨p, hp, hsame⟩ := List.mem_map.1 hnumber
                exact hfresh p hp (hsame.trans (List.mem_singleton.1 hnew)) }
  | run =>
      rcases values_or_first_stop host ledger.sheet.pending with
        hall | ⟨front, stopping, rest, reason, hpending, hfront, hstopping⟩
      · obtain ⟨reporter', hrun⟩ := run_of_values h.allLow h.numbers hall reporter
        rw [next_run hrun]
        exact ⟨_, h.ran (List.append_nil _).symm⟩
      · obtain ⟨reporter', hrun⟩ :=
          run_of_stop hpending h.allLow h.numbers hfront hstopping reporter
        rw [next_run hrun]
        rw [← List.singleton_append, ← List.append_assoc] at hpending
        exact ⟨_, h.ran hpending⟩
  | take =>
      refine ⟨[], ?_⟩
      rw [List.append_nil]
      cases hresults : ledger.sheet.results with
      | nil => rwa [next_take_of_nil hresults]
      | cons result results =>
          rw [next_take_of_cons hresults]
          exact
            { read := h.read
              accepted := h.accepted
              results := by simp [← h.results, hresults]
              printed := h.printed
              numbers := h.numbers }

end Executed

/-! ### Pasts -/

/-- A worksheet opens with the expression of its file, or with none. -/
theorem executed_opened {files : Text → Option (List UInt8)} {path : Text} {interactive : Bool}
    {settings : Settings} {sheet : Worksheet}
    (h : ((start host files path interactive settings : Action Unit Worksheet)
      reporter ()).ended = .ok sheet) :
    Executed host (opened sheet) [] := by
  have hadded : ∃ pending : List Pending, sheet = ⟨path, settings, pending, []⟩ ∧
      (∀ p ∈ pending, Tree.parse settings.newlines p.source = .ok p.tree) ∧
      (pending.map Pending.number).Nodup := by
    by_cases hpath : path = consolePath
    · refine ⟨[], ?_, nofun, .nil⟩
      rw [hpath] at h ⊢
      cases interactive with
      | true => exact (Except.ok.inj h).symm
      | false => cases h
    · rcases gives_or_unreadable host files hpath with ⟨text, hgives⟩ | ⟨reason, hreason⟩
      · cases hparse : Tree.parse settings.newlines (Source.clean text) with
        | error e =>
            rw [start_of_gives hgives (add_idle_of_error hparse)] at h
            cases h
        | ok tree =>
            rw [start_of_gives hgives (add_idle_of_ok hparse)] at h
            exact ⟨_, (Except.ok.inj h).symm, by simpa using hparse, by simp⟩
      · rw [start_of_unreadable hpath hreason] at h
        cases h
  obtain ⟨pending, rfl, hread, hnumbers⟩ := hadded
  exact ⟨hread, rfl, rfl, rfl, hnumbers⟩

theorem exists_executed (h : Reached host ledger) :
    ∃ executed, Executed host ledger executed := by
  induction h with
  | opened hopened => exact ⟨[], executed_opened hopened⟩
  | next reporter call _ hfresh ih =>
      obtain ⟨executed, hexecuted⟩ := ih
      obtain ⟨more, hmore⟩ := hexecuted.exists_next hfresh reporter
      exact ⟨executed ++ more, hmore⟩

/-- Whatever a worksheet was called for, each accepted expression has been executed once and in
order, or is still pending, and each result holds the value of its tree.  What cannot be read
changes nothing, a run is stopped by the first pending expression without a value and has then
executed those in front of it, and no result can be taken when there is none. -/
theorem executes_in_order (h : Reached host ledger) (reporter : Reporter) :
    (∃ executed, Executed host ledger executed) ∧
      (∀ result ∈ ledger.taken ++ ledger.sheet.results,
        result.tree.value = .ok result.value) ∧
      (∀ source number e, Tree.parse ledger.sheet.settings.newlines source = .error e →
        (add host source number reporter ledger.sheet).ended = .error (e.stop host) ∧
          ledger.next host reporter (.add source number) = ledger) ∧
      (∀ source number tree, Tree.parse ledger.sheet.settings.newlines source = .ok tree →
        (add host source number reporter ledger.sheet).ended = .ok ()) ∧
      Runs host ledger.sheet (run host reporter ledger.sheet) ∧
      (ledger.sheet.results = [] →
        takeResult reporter ledger.sheet =
          ⟨[], .error (.failure .noResult), reporter, ledger.sheet⟩) := by
  obtain ⟨executed, hexecuted⟩ := exists_executed h
  refine ⟨⟨executed, hexecuted⟩, fun result => hexecuted.value_eq,
    fun source number e he => ⟨?_, next_add_of_error he⟩, fun source number tree htree => ?_,
    runs_run host hexecuted.allLow hexecuted.numbers reporter,
    fun hresults => takeResult_of_nil hresults reporter⟩
  · rw [add_of_error he]
  · rw [add_of_ok htree]

/-- Three expressions are added and run.  The second one has no value, so the third stays pending,
and nothing is lost when the first result is taken. -/
theorem executes_in_order_around_fault :
    let reporter := Reporter.fresh true
    let ledger := (opened (idle consolePath ⟨.separate, true⟩))
      |>.next .plain reporter (.add ['1'] 1)
      |>.next .plain reporter (.add ['x'] 2)
      |>.next .plain reporter (.add ['2'] 3)
      |>.next .plain reporter .run
      |>.next .plain reporter .take
    Reached .plain ledger ∧ ledger.accepted.map Pending.number = [1, 2, 3] ∧
      ledger.sheet.pending.map Pending.number = [3] ∧
      ledger.taken.map Result.source = [['1']] ∧
      ∃ executed, Executed .plain ledger executed := by
  intro reporter ledger
  have hstart : ((start .plain (fun _ => none) consolePath true ⟨.separate, true⟩ :
      Action Unit Worksheet) reporter ()).ended = .ok (idle consolePath ⟨.separate, true⟩) := rfl
  have hone := (Reached.opened hstart).next reporter (.add ['1'] 1) (by decide)
  have htwo := hone.next reporter (.add ['x'] 2) (by decide)
  have hthree := htwo.next reporter (.add ['2'] 3) (by decide)
  have hreached : Reached .plain ledger :=
    (hthree.next reporter .run trivial).next reporter .take trivial
  exact ⟨hreached, rfl, rfl, rfl, (executes_in_order hreached reporter).1⟩

end Ledger

end Worksheet

end BracketCalc
