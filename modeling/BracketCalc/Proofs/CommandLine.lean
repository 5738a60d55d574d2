import BracketCalc.CommandLine
/-!
# Command lines with a file

The options may stand on both sides of a file.  A file with a name of any form
is asked for behind the end of the options.  Either way the words on the command
line alone say how the file is evaluated.
-/

namespace BracketCalc

/-- The settings, as an option changes them. -/
def Settings.add (settings : Settings) : Flag → Settings
  | .help => settings
  | .mergeNewlines => { settings with newlines := .merge }
  | .quiet => { settings with showTree := false }

/-- The settings that options ask for. -/
def Settings.asked (flags : List Flag) : Settings := flags.foldl Settings.add ⟨.separate, true⟩

theorem Settings.foldl_add (flags : List Flag) (settings : Settings) :
    flags.foldl Settings.add settings =
      ⟨if .mergeNewlines ∈ flags then .merge else settings.newlines,
        settings.showTree && ! flags.contains .quiet⟩ := by
  induction flags generalizing settings with
  | nil => simp
  | cons flag flags ih =>
      rw [List.foldl_cons, ih]
      cases flag <;> simp [add]

theorem Settings.asked_eq (flags : List Flag) :
    Settings.asked flags =
      ⟨if .mergeNewlines ∈ flags then .merge else .separate, ! flags.contains .quiet⟩ := by
  rw [asked, foldl_add, Bool.true_and]

namespace CommandLine

variable {found : Found} {options before behind : List Text} {flags flags' : List Flag}
  {option path : Text} {flag : Flag}

/-- Works through the arguments that come behind those that have been dealt with. -/
def requestFrom (found : Found) (arguments : List Text) : Request :=
  match classifyAll arguments with
  | .error complaint => .refuse complaint
  | .ok arguments => collect found arguments

theorem request_eq (arguments : List Text) :
    request arguments = requestFrom ⟨⟨.separate, true⟩, false, none, []⟩ arguments := rfl

theorem requestFrom_nil (found : Found) : requestFrom found [] = found.request := rfl

theorem classify_of_spelling (h : Flag.ofSpelling? option = some flag) :
    classify option = .ok (.option flag (isLong option) none) ∧ option ≠ ['-', '-'] := by
  obtain ⟨front, back, hspellings, -⟩ := List.lookup_eq_some_iff.1 h
  have hmem : (option, flag) ∈ Flag.spellings := by simp [hspellings]
  simp only [Flag.spellings, List.mem_cons, Prod.mk.injEq, List.not_mem_nil, or_false] at hmem
  rcases hmem with ⟨rfl, rfl⟩ | ⟨rfl, rfl⟩ | ⟨rfl, rfl⟩ | ⟨rfl, rfl⟩ | ⟨rfl, rfl⟩ <;>
    exact ⟨rfl, by decide⟩

/-- An option changes the settings, whatever follows it. -/
theorem requestFrom_option (h : Flag.ofSpelling? option = some flag) (hhelp : flag ≠ .help)
    (rest : List Text) :
    requestFrom found (option :: rest) =
      requestFrom { found with settings := found.settings.add flag } rest := by
  obtain ⟨hclassify, hterminator⟩ := classify_of_spelling h
  unfold requestFrom
  rw [classifyAll, if_neg hterminator, hclassify]
  cases hrest : classifyAll rest with
  | error complaint => rfl
  | ok arguments =>
      cases flag with
      | help => exact absurd rfl hhelp
      | mergeNewlines => rfl
      | quiet => rfl

theorem requestFrom_options (h : options.map Flag.ofSpelling? = flags.map some)
    (hhelp : .help ∉ flags) (rest : List Text) :
    requestFrom found (options ++ rest) =
      requestFrom { found with settings := flags.foldl Settings.add found.settings } rest := by
  induction options generalizing found flags with
  | nil =>
      cases flags with
      | nil => rfl
      | cons flag flags => simp at h
  | cons option options ih =>
      cases flags with
      | nil => simp at h
      | cons flag flags =>
          rw [List.map_cons, List.map_cons, List.cons.injEq] at h
          rw [List.mem_cons, not_or] at hhelp
          rw [List.cons_append, requestFrom_option h.1 (Ne.symm hhelp.1), ih h.2 hhelp.2]
          rfl

theorem collect_word {arguments : List Argument} (hfilled : found.filled = false)
    (h : ∀ rest, arguments ≠ .terminator :: rest) :
    collect found (.word path :: arguments) = collect (found.fill (some path)) arguments := by
  conv => lhs; rw [collect.eq_def]
  split
  all_goals simp_all

theorem classify_of_head? (h : path.head? ≠ some '-') : classify path = .ok (.word path) := by
  unfold classify
  split
  · simp at h
  · rfl

/-- What starts with no dash is the file, when options follow. -/
theorem requestFrom_word (hpath : path.head? ≠ some '-') (hfilled : found.filled = false)
    (h : options.map Flag.ofSpelling? = flags.map some) :
    requestFrom found (path :: options) = requestFrom (found.fill (some path)) options := by
  have hterminator : path ≠ ['-', '-'] := by
    rintro rfl
    exact hpath rfl
  unfold requestFrom
  rw [classifyAll, if_neg hterminator, classify_of_head? hpath]
  cases options with
  | nil => exact collect_word hfilled (by simp)
  | cons option options =>
      cases flags with
      | nil => simp at h
      | cons flag flags =>
          rw [List.map_cons, List.map_cons, List.cons.injEq] at h
          obtain ⟨hclassify, hterminator⟩ := classify_of_spelling h.1
          rw [classifyAll, if_neg hterminator, hclassify]
          cases classifyAll options with
          | error complaint => rfl
          | ok arguments => exact collect_word hfilled (by simp)

/-- Options on both sides of a file set how it is evaluated. -/
theorem request_around (hpath : path.head? ≠ some '-')
    (hbefore : before.map Flag.ofSpelling? = flags.map some)
    (hbehind : behind.map Flag.ofSpelling? = flags'.map some) (hhelp : .help ∉ flags ++ flags') :
    request (before ++ path :: behind) = .evaluate path (.asked (flags ++ flags')) := by
  rw [List.mem_append, not_or] at hhelp
  rw [request_eq, requestFrom_options hbefore hhelp.1, requestFrom_word hpath rfl hbehind,
    ← List.append_nil behind, requestFrom_options hbehind hhelp.2, requestFrom_nil,
    Settings.asked, List.foldl_append]
  rfl

/-- Behind the end of the options stands a file of any name. -/
theorem request_terminated (path : Text) (h : options.map Flag.ofSpelling? = flags.map some)
    (hhelp : .help ∉ flags) :
    request (options ++ [['-', '-'], path]) = .evaluate path (.asked flags) := by
  rw [request_eq, requestFrom_options h hhelp]
  rfl

/-! ### Options as they are written -/

/-- An option that changes the settings. -/
def IsOption (option : Text) : Prop :=
  option = "--merge-newlines".toList ∨ option = "-q".toList ∨ option = "--quiet".toList

instance (option : Text) : Decidable (IsOption option) :=
  inferInstanceAs (Decidable (_ ∨ _ ∨ _))

/-- The settings of a command line with some options. -/
def settings (options : List Text) : Settings where
  newlines := if options.contains "--merge-newlines".toList then .merge else .separate
  showTree := ! (options.contains "-q".toList || options.contains "--quiet".toList)

/-- A command line with some options and a file.  They stand on both sides of a file whose name
starts with no dash, or in front of the end of the options and a file of any name. -/
inductive Asks : List Text → List Text → Text → Prop where
  | around {before behind : List Text} {path : Text} : path.head? ≠ some '-' →
      Asks (before ++ path :: behind) (before ++ behind) path
  | terminated {options : List Text} {path : Text} :
      Asks (options ++ [['-', '-'], path]) options path

theorem exists_flag (h : IsOption option) : ∃ flag, Flag.ofSpelling? option = some flag ∧
    flag ≠ .help ∧ (.mergeNewlines = flag ↔ "--merge-newlines".toList = option) ∧
    (.quiet = flag ↔ "-q".toList = option ∨ "--quiet".toList = option) := by
  rcases h with rfl | rfl | rfl
  · exact ⟨.mergeNewlines, rfl, by decide, by decide, by decide⟩
  · exact ⟨.quiet, rfl, by decide, by decide, by decide⟩
  · exact ⟨.quiet, rfl, by decide, by decide, by decide⟩

theorem exists_mem_flags (h : ∀ option ∈ options, IsOption option) :
    ∃ flags : List Flag, options.map Flag.ofSpelling? = flags.map some ∧ .help ∉ flags ∧
      (.mergeNewlines ∈ flags ↔ "--merge-newlines".toList ∈ options) ∧
      (.quiet ∈ flags ↔ "-q".toList ∈ options ∨ "--quiet".toList ∈ options) := by
  induction options with
  | nil => exact ⟨[], rfl, by simp, by simp, by simp⟩
  | cons option options ih =>
      obtain ⟨hoption, hoptions⟩ := List.forall_mem_cons.1 h
      obtain ⟨flag, hflag, hnohelp, hmerge, hquiet⟩ := exists_flag hoption
      obtain ⟨flags, hspelled, hhelp, hmerges, hquiets⟩ := ih hoptions
      refine ⟨flag :: flags, ?_, ?_, ?_, ?_⟩
      · rw [List.map_cons, List.map_cons, hflag, hspelled]
      · exact List.not_mem_cons_of_ne_of_not_mem (Ne.symm hnohelp) hhelp
      · rw [List.mem_cons, List.mem_cons, hmerge, hmerges]
      · rw [List.mem_cons, List.mem_cons, List.mem_cons, hquiet, hquiets, or_or_or_comm]

/-- The options are flags that ask for what the options say. -/
theorem exists_flags (h : ∀ option ∈ options, IsOption option) :
    ∃ flags : List Flag, options.map Flag.ofSpelling? = flags.map some ∧ .help ∉ flags ∧
      Settings.asked flags = settings options := by
  obtain ⟨flags, hspelled, hhelp, hmerge, hquiet⟩ := exists_mem_flags h
  have hmerges : .mergeNewlines ∈ flags ↔ options.contains "--merge-newlines".toList = true := by
    rw [hmerge, List.contains_iff_mem]
  have hquiets : flags.contains .quiet =
      (options.contains "-q".toList || options.contains "--quiet".toList) := by
    rw [Bool.eq_iff_iff, Bool.or_eq_true, List.contains_iff_mem, List.contains_iff_mem,
      List.contains_iff_mem]
    exact hquiet
  refine ⟨flags, hspelled, hhelp, ?_⟩
  simp only [Settings.asked_eq, settings, hmerges, hquiets]

/-- A file is asked for with the settings that the options say. -/
theorem request_of_asks {arguments : List Text} (h : Asks arguments options path)
    (hoptions : ∀ option ∈ options, IsOption option) :
    request arguments = .evaluate path (settings options) := by
  obtain ⟨flags, hspelled, hhelp, hasked⟩ := exists_flags hoptions
  rw [← hasked]
  cases h with
  | around hpath =>
      rw [List.map_append] at hspelled
      obtain ⟨before, behind, rfl, hbefore, hbehind⟩ := List.append_eq_map_iff.1 hspelled
      exact request_around hpath hbefore.symm hbehind.symm hhelp
  | terminated => exact request_terminated path hspelled hhelp

end CommandLine

end BracketCalc
