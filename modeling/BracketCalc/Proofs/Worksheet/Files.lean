import BracketCalc.Proofs.Worksheet.Steps
/-!
# Worksheets from files

A file that can be read gives a text, and the worksheet opens with the cleaned
text as its expression.  A file that gives no text stops the opening, for a
reason that is reported.
-/

namespace BracketCalc

namespace Worksheet

/-- The file at the path, which is no name for the console, holds the text. -/
structure Holds (files : Text → Option (List UInt8)) (path text : Text) : Prop where
  ne_console : path ≠ consolePath
  noNul : path.contains '\x00' = false
  bytes : ∃ bytes, files path = some bytes ∧ Utf8.decode bytes = .ok text

/-- The file at the path can be read, and gives the text with its line ends unified. -/
def Gives (files : Text → Option (List UInt8)) (path text : Text) : Prop :=
  ∃ held, Holds files path held ∧ held.unifyNewlines = text

variable {host : Host} {σ : Type} {files : Text → Option (List UInt8)} {path text : Text}
  {settings : Settings} {interactive : Bool} {reporter : Reporter} {state : σ} {reason : Stop}

theorem unifyNewlines_of_not_mem (h : '\r' ∉ text) : text.unifyNewlines = text := by
  induction text using Text.unifyNewlines.induct with
  | case1 rest ih => simp at h
  | case2 c rest _ ih =>
      rw [List.mem_cons, not_or] at h
      rw [Text.unifyNewlines, if_neg (Ne.symm h.1), ih h.2]
      rintro rest' rfl
      simp at h
  | case3 => rfl

theorem Holds.gives (h : Holds files path text) (hreturn : '\r' ∉ text) : Gives files path text :=
  ⟨text, h, unifyNewlines_of_not_mem hreturn⟩

theorem Gives.ne_console (h : Gives files path text) : path ≠ consolePath := by
  obtain ⟨held, hholds, -⟩ := h
  exact hholds.ne_console

theorem Gives.unique {other : Text} (h : Gives files path text) (hother : Gives files path other) :
    text = other := by
  obtain ⟨held, ⟨-, -, bytes, hfile, hdecode⟩, rfl⟩ := h
  obtain ⟨held', ⟨-, -, bytes', hfile', hdecode'⟩, rfl⟩ := hother
  rw [hfile, Option.some.injEq] at hfile'
  rw [← hfile', hdecode, Except.ok.injEq] at hdecode'
  rw [hdecode']

theorem readFile_of_gives (h : Gives files path text) :
    (readFile host files path : Action σ Text) = pure text := by
  obtain ⟨held, ⟨-, hnul, bytes, hfile, hdecode⟩, rfl⟩ := h
  unfold readFile
  simp only [hnul, hfile, hdecode]
  rfl

def unopened (host : Host) (path : Text) : Fault :=
  Fault.remark ('\'' :: path ++ "' could not be opened".toList)
    ('\'' :: host.bold path ++ "' could not be opened".toList) path

/-- Why the file at a path gives no text. -/
inductive Unreadable (host : Host) (files : Text → Option (List UInt8)) (path : Text) :
    Stop → Prop where
  | nul : path.contains '\x00' = true → Unreadable host files path (.failure .nulInPath)
  | missing : path.contains '\x00' = false → files path = none →
      Unreadable host files path (.fault (unopened host path))
  | undecodable {bytes : List UInt8} {broken : Utf8.Fault} : path.contains '\x00' = false →
      files path = some bytes → Utf8.decode bytes = .error broken →
      Unreadable host files path (.failure (.undecodable broken))

theorem gives_or_unreadable (host : Host) (files : Text → Option (List UInt8))
    (h : path ≠ consolePath) :
    (∃ text, Gives files path text) ∨ ∃ reason, Unreadable host files path reason := by
  cases hnul : path.contains '\x00' with
  | true => exact .inr ⟨_, .nul hnul⟩
  | false =>
      cases hfile : files path with
      | none => exact .inr ⟨_, .missing hnul hfile⟩
      | some bytes =>
          cases hdecode : Utf8.decode bytes with
          | error broken => exact .inr ⟨_, .undecodable hnul hfile hdecode⟩
          | ok held => exact .inl ⟨_, held, ⟨h, hnul, bytes, hfile, hdecode⟩, rfl⟩

namespace Unreadable

variable (h : Unreadable host files path reason)
include h

theorem not_gives (text : Text) : ¬ Gives files path text := by
  rintro ⟨held, ⟨-, hnul, bytes, hfile, hdecode⟩, -⟩
  cases h with
  | nul hcontains =>
      rw [hnul] at hcontains
      cases hcontains
  | missing _ hnone => simp [hnone] at hfile
  | undecodable _ hsome herror =>
      rw [hfile, Option.some.injEq] at hsome
      rw [← hsome, hdecode] at herror
      cases herror

theorem readFile_eq : (readFile host files path : Action σ Text) = Action.stop reason := by
  unfold readFile
  cases h with
  | nul hnul =>
      simp only [hnul]
      rfl
  | missing hnul hfile =>
      simp only [hnul, hfile]
      rfl
  | undecodable hnul hfile hdecode =>
      simp only [hnul, hfile, hdecode]
      rfl

theorem exists_report : ∃ fault, reason.report? host = some fault := by
  cases h with
  | nul _ => exact ⟨_, Failure.report?_nul host⟩
  | missing _ _ => exact ⟨_, rfl⟩
  | undecodable _ _ _ => exact ⟨_, Failure.report?_undecodable host _⟩

end Unreadable

/-- The reporter when a file has been entered. -/
def entered (path : Text) (interactive : Bool) (reporter : Reporter) : Reporter :=
  let reporter := reporter.at path none
  if interactive then { reporter with fatal := false } else reporter

theorem start_of_readFile (h : path ≠ consolePath) {read : Action σ Text}
    (hread : readFile host files path = read) :
    (start host files path interactive settings : Action σ Worksheet) reporter state =
      (read >>= fun text => do
        let ((), sheet) ← Action.onOwn (idle path settings) (add host (Source.clean text) 1)
        pure sheet : Action σ Worksheet) (entered path interactive reporter) state := by
  unfold start entered
  simp only [h, if_false, hread]
  cases interactive <;> rfl

theorem start_of_unreadable (hpath : path ≠ consolePath)
    (h : Unreadable host files path reason) :
    (start host files path interactive settings : Action σ Worksheet) reporter state =
      ⟨[], .error reason, entered path interactive reporter, state⟩ := by
  rw [start_of_readFile hpath h.readFile_eq, Action.stop_bind_apply]

theorem start_of_gives {printed : Text} {ended : Except Stop Unit} {reporter' : Reporter}
    {sheet : Worksheet} (hgives : Gives files path text)
    (h : add host (Source.clean text) 1 (entered path interactive reporter)
      (idle path settings) = ⟨printed, ended, reporter', sheet⟩) :
    (start host files path interactive settings : Action σ Worksheet) reporter state =
      ⟨printed, ended.map fun _ => sheet, reporter', state⟩ := by
  rw [start_of_readFile hgives.ne_console (readFile_of_gives hgives), pure_bind,
    Action.bind_apply, Action.onOwn_of_eq h]
  cases ended with
  | error reason => rfl
  | ok result => simp [Step.andThen, Except.map, Action.pure_apply, Step.after]

theorem start_of_add {printed : Text} {ended : Except Stop Unit} {reporter' : Reporter}
    {sheet : Worksheet} (hholds : Holds files path text) (hreturn : '\r' ∉ text)
    (h : add host (Source.clean text) 1 (entered path interactive reporter)
      (idle path settings) = ⟨printed, ended, reporter', sheet⟩) :
    (start host files path interactive settings : Action σ Worksheet) reporter state =
      ⟨printed, ended.map fun _ => sheet, reporter', state⟩ :=
  start_of_gives (hholds.gives hreturn) h

end Worksheet

end BracketCalc
