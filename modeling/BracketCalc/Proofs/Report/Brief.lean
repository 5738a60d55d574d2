import BracketCalc.Proofs.Report.Place
import BracketCalc.Report.Reporter
/-!
# Reports with one passage at most

When no more than one passage is in work, a report names no more than one file,
with a line of the passage, and has no title.  The title is plain, and a style
puts nothing but control sequences in front of a text.
-/

namespace BracketCalc

/-- The passage as it is named in a report.  An empty source is no passage. -/
def Passage.named (passage : Passage) (path : Text) : Option (Text × Passage) :=
  if passage.source.isEmpty then none else some (path, passage)

namespace Trace

/-- No passage is in work. -/
def Clear (trace : Trace) : Prop := ∀ entry ∈ trace, entry.2 = none

variable {trace : Trace} {path : Text}

theorem clear_nil : Clear [] := nofun

theorem clear_cons {entry : Text × Option Passage} :
    Clear (entry :: trace) ↔ entry.2 = none ∧ Clear trace :=
  List.forall_mem_cons

theorem clear_clear (trace : Trace) : trace.clear.Clear := by
  intro entry hentry
  obtain ⟨_, _, rfl⟩ := List.mem_map.1 hentry
  rfl

theorem Clear.set (h : trace.Clear) (path : Text) : (trace.set path none).Clear := by
  induction trace with
  | nil => exact clear_cons.2 ⟨rfl, clear_nil⟩
  | cons entry rest ih =>
      obtain ⟨hentry, hrest⟩ := clear_cons.1 h
      rw [Trace.set]
      split
      · exact clear_cons.2 ⟨rfl, hrest⟩
      · exact clear_cons.2 ⟨hentry, ih hrest⟩

theorem passages_cons_none (path : Text) (trace : Trace) :
    passages ((path, none) :: trace) = passages trace := rfl

theorem passages_cons_some (path : Text) (passage : Passage) (trace : Trace) :
    passages ((path, some passage) :: trace) = (passage.named path).toList ++ passages trace := by
  unfold passages Passage.named
  rw [List.filterMap_cons]
  by_cases h : passage.source.isEmpty
  · simp only [h]
    rfl
  · simp only [h]
    rfl

theorem Clear.passages_eq (h : trace.Clear) : trace.passages = [] := by
  induction trace with
  | nil => rfl
  | cons entry rest ih =>
      obtain ⟨path, passage⟩ := entry
      obtain ⟨rfl, hrest⟩ : passage = none ∧ Clear rest := clear_cons.1 h
      rw [passages_cons_none, ih hrest]

/-- A passage in work is the only one. -/
theorem Clear.passages_set (h : trace.Clear) (path : Text) (passage : Option Passage) :
    (trace.set path passage).passages = (passage.bind (·.named path)).toList := by
  cases passage with
  | none => exact (h.set path).passages_eq
  | some passage =>
      rw [Option.bind_some]
      induction trace with
      | nil => rw [Trace.set, passages_cons_some, clear_nil.passages_eq, List.append_nil]
      | cons entry rest ih =>
          obtain ⟨other, before⟩ := entry
          obtain ⟨rfl, hrest⟩ : before = none ∧ Clear rest := clear_cons.1 h
          rw [Trace.set]
          split
          · rw [passages_cons_some, hrest.passages_eq, List.append_nil]
          · rw [passages_cons_none, ih hrest]

theorem Clear.set_of_mem (h : trace.Clear) (hpath : path ∈ trace.paths) :
    trace.set path none = trace := by
  induction trace with
  | nil => cases hpath
  | cons entry rest ih =>
      obtain ⟨other, before⟩ := entry
      obtain ⟨rfl, hrest⟩ : before = none ∧ Clear rest := clear_cons.1 h
      rw [Trace.set]
      split
      · next hother => rw [← hother]
      · next hother =>
          have hbehind : path ∈ paths rest :=
            (List.mem_cons.1 hpath).resolve_left fun heq => hother heq.symm
          rw [ih hrest hbehind]

theorem paths_set_of_mem (h : path ∈ trace.paths) (passage : Option Passage) :
    (trace.set path passage).paths = trace.paths := by
  rw [paths_set, if_pos h]

end Trace

/-- A text in a style starts with a control sequence, or as the text does. -/
theorem Style.Wraps.exists_head {style : Text → Text} (h : Wraps style) (c : Char)
    (text behind : Text) :
    ∃ first, (style (c :: text) ++ behind).head? = some first ∧ (first = '\x1b' ∨ first = c) := by
  obtain ⟨before, after, ⟨codes, -, rfl⟩, -, hstyle⟩ := h
  rw [hstyle]
  cases codes with
  | nil => exact ⟨c, rfl, .inr rfl⟩
  | cons code codes => exact ⟨'\x1b', rfl, .inl rfl⟩

namespace Reporter

/-- The report of a fault with no more than one passage in work: the file, the number of the line in
which the fault starts, and this line, then the message, and the fault in the passage. -/
def brief (palette : Palette) (inWork : Option (Text × Passage)) (fault : Fault) : Text :=
  let offset := fault.span.start.toNat
  let named :=
    match inWork with
    | none => []
    | some (path, passage) =>
        let place := Place.ofOffset passage.source offset
        "  File '".toList ++ path ++ "', line ".toList ++
          Text.ofInt (passage.number + place.lineIndex) ++ ":\n    ".toList ++ place.line ++ ['\n']
  let mark := if fault.internal then palette.alarm "[internal] ".toList else []
  let shown :=
    match inWork with
    | none => []
    | some (_, passage) =>
        if fault.located && ! fault.internal then
          Diagnosis.render palette passage.source fault.span ++ ['\n']
        else []
  named ++ mark ++ palette.alarm "error: ".toList ++ fault.styled ++ '\n' :: shown

variable {palette : Palette} {trace : Trace} {inWork : Option (Text × Passage)} {fault : Fault}

theorem report_eq_brief (h : trace.passages = inWork.toList) :
    report palette trace fault = brief palette inWork fault := by
  unfold report brief
  rw [h]
  cases inWork with
  | none => rfl
  | some entry =>
      simp only [Option.toList_some, List.flatMap_singleton]
      rfl

/-- A brief report has no title. -/
theorem not_isPrefix_brief (h : Style.Wraps palette.alarm) (inWork : Option (Text × Passage))
    (fault : Fault) : ¬ "Traceback:".toList <+: brief palette inWork fault := by
  rintro ⟨rest, hrest⟩
  have hhead : (brief palette inWork fault).head? = some 'T' := hrest ▸ rfl
  unfold brief at hhead
  cases inWork with
  | some entry => exact absurd (Option.some.inj hhead) (by decide : ' ' ≠ 'T')
  | none =>
      have hstyled : ∀ c text behind, c ≠ 'T' →
          (palette.alarm (c :: text) ++ behind).head? ≠ some 'T' := by
        intro c text behind hne hstart
        obtain ⟨first, hfirst, hcases⟩ := h.exists_head c text behind
        obtain rfl : first = 'T' := Option.some.inj (hfirst.symm.trans hstart)
        rcases hcases with hcontrol | hsame
        · cases hcontrol
        · exact hne hsame.symm
      cases hinternal : fault.internal with
      | false =>
          simp only [hinternal, List.nil_append, List.append_assoc] at hhead
          exact hstyled 'e' _ _ (by decide) hhead
      | true =>
          simp only [hinternal, List.nil_append, List.append_assoc] at hhead
          exact hstyled '[' _ _ (by decide) hhead

end Reporter

end BracketCalc
