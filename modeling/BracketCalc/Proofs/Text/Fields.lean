import BracketCalc.Proofs.Text.Braces
import BracketCalc.Text.Template.Basic
import Mathlib.Data.List.TakeWhile
/-!
# Fields without braces

A field that is filled with a snippet without braces gives a text without
braces, if the braces of its layout balance.  Only the fill character could bring
in a brace.  But then the layout would hold a single brace, since nothing else
in a layout of texts is one.
-/

namespace BracketCalc

/-! ### Counting braces -/

namespace Text

variable {text a b : Text} {c : Char}

/-- How many left braces a text has more than right ones. -/
def surplus (text : Text) : Int := text.count '{' - text.count '}'

@[simp] theorem surplus_nil : surplus [] = 0 := rfl

@[simp] theorem surplus_append : surplus (a ++ b) = surplus a + surplus b := by
  simp only [surplus, List.count_append, Int.natCast_add]
  omega

@[simp] theorem surplus_reverse : surplus text.reverse = surplus text := by
  simp only [surplus, List.count_reverse]

@[simp] theorem surplus_open : surplus ('{' :: text) = surplus text + 1 := by
  simp [surplus]
  omega

@[simp] theorem surplus_close : surplus ('}' :: text) = surplus text - 1 := by
  simp [surplus]
  omega

theorem surplus_cons_of_ne (h : c ≠ '{' ∧ c ≠ '}') : surplus (c :: text) = surplus text := by
  simp [surplus, List.count_cons_of_ne h.1, List.count_cons_of_ne h.2]

theorem braceless_iff_count : Braceless text ↔ text.count '{' = 0 ∧ text.count '}' = 0 := by
  simp only [Braceless, List.count_eq_zero, forall_and]
  exact and_congr ⟨fun h hmem => h _ hmem rfl, fun h c hc heq => h (heq ▸ hc)⟩
    ⟨fun h hmem => h _ hmem rfl, fun h c hc heq => h (heq ▸ hc)⟩

theorem surplus_of_braceless (h : Braceless text) : surplus text = 0 := by
  rw [braceless_iff_count] at h
  simp [surplus, h]

theorem braceless_of_isDecimal (h : ∀ c ∈ text, isDecimal c = true) : Braceless text := by
  intro c hc
  have hdecimal := h c hc
  constructor
  · rintro rfl
    exact absurd hdecimal (by decide)
  · rintro rfl
    exact absurd hdecimal (by decide)

end Text

namespace Template

open Text

variable {text rest layout out name : Text} {c : Char} {n : Nat}

/-! ### Numbers, keys and subscripts -/

theorem takeNumber_eq_ok {number : Option Nat} (h : takeNumber text = .ok (number, rest)) :
    ∃ digits, text = digits ++ rest ∧ Braceless digits := by
  unfold takeNumber at h
  split at h
  · obtain ⟨-, rfl⟩ := Prod.mk.inj (Except.ok.inj h)
    exact ⟨[], rfl, nofun⟩
  · split at h
    · cases h
    · obtain ⟨-, rfl⟩ := Prod.mk.inj (Except.ok.inj h)
      refine ⟨_, (List.takeWhile_append_dropWhile).symm, braceless_of_isDecimal fun c hc => ?_⟩
      exact List.mem_takeWhile_imp hc

theorem braceless_of_wholeNumber (h : wholeNumber? text = .ok (some n)) : Braceless text := by
  unfold wholeNumber? at h
  split at h
  · cases h
  · next number rest hnumber =>
      obtain ⟨digits, rfl, hdigits⟩ := takeNumber_eq_ok hnumber
      cases rest with
      | nil => simpa using hdigits
      | cons c rest => simp at h

theorem braceless_of_choose {numbering numbering' : Numbering}
    (h : choose numbering text = .ok (n, numbering')) : Braceless text := by
  unfold choose at h
  split at h
  · next hempty =>
      rw [List.isEmpty_iff] at hempty
      subst hempty
      exact nofun
  · split at h
    · cases h
    · cases h
    · cases h
    · next hnumber _ => exact braceless_of_wholeNumber hnumber

theorem characterAt_eq_ok {subscript : Text} (h : characterAt text subscript = .ok out) :
    Braceless subscript ∧ ∀ c ∈ out, c ∈ text := by
  unfold characterAt at h
  split at h
  · cases h
  · split at h
    · cases h
    · cases h
    · next hnumber =>
        split at h
        · cases h
        · next c hc =>
            obtain rfl := Except.ok.inj h
            refine ⟨braceless_of_wholeNumber hnumber, fun d hd => ?_⟩
            rw [List.mem_singleton.1 hd]
            exact List.mem_of_getElem? hc

/-- A name that selects something from a text without braces has none itself. -/
theorem braceless_of_select {subscript : Option Text} {selected : Selected}
    (h : select .none text subscript name = .ok selected) (htext : Braceless text) :
    Braceless (subscript.getD []) ∧ Braceless name ∧
      ∃ chosen, selected = .ofText chosen ∧ Braceless chosen := by
  fun_induction select Attributes.none text subscript name with
  | case1 text =>
      obtain rfl := Except.ok.inj h
      exact ⟨nofun, nofun, text, rfl, htext⟩
  | case2 text rest ih =>
      obtain ⟨-, hrest, hselected⟩ := ih h htext
      exact ⟨nofun, braceless_cons.2 ⟨by decide, hrest⟩, hselected⟩
  | case3 => cases h
  | case4 => cases h
  | case5 => cases h
  | case6 => cases h
  | case7 => cases h
  | case8 text subscript rest character hcharacter ih =>
      obtain ⟨hsubscript, hmem⟩ := characterAt_eq_ok hcharacter
      obtain ⟨-, hrest, hselected⟩ := ih h fun c hc => htext c (hmem c hc)
      refine ⟨fun c hc => hsubscript c (List.mem_reverse.2 hc), ?_, hselected⟩
      exact braceless_cons.2 ⟨by decide, hrest⟩
  | case9 text subscript c rest hc ih =>
      obtain ⟨hsubscript, hrest, hselected⟩ := ih h htext
      obtain ⟨hc, hsubscript⟩ := braceless_cons.1 hsubscript
      exact ⟨hsubscript, braceless_cons.2 ⟨hc, hrest⟩, hselected⟩

theorem braceless_of_convert {mark : Option Char} (h : convert mark text = .ok out)
    (htext : Braceless text) : Braceless mark.toList ∧ Braceless out := by
  unfold convert at h
  split at h
  · obtain rfl := Except.ok.inj h
    exact ⟨nofun, htext⟩
  · obtain rfl := Except.ok.inj h
    exact ⟨braceless_singleton.2 (by decide), htext⟩
  · obtain rfl := Except.ok.inj h
    exact ⟨braceless_singleton.2 (by decide), htext⟩
  · obtain rfl := Except.ok.inj h
    exact ⟨braceless_singleton.2 (by decide), braceless_quotedBy htext⟩
  · obtain rfl := Except.ok.inj h
    exact ⟨braceless_singleton.2 (by decide), braceless_quotedBy htext⟩
  · cases h

/-! ### Layouts -/

theorem exists_of_bind_eq_ok {α β : Type} {first : Except Fault α} {next : α → Except Fault β}
    {b : β} (h : first >>= next = .ok b) : ∃ a, first = .ok a ∧ next a = .ok b := by
  cases first with
  | error fault => cases h
  | ok a => exact ⟨a, rfl, h⟩

theorem takeMark_eq (marks : List Char) (text : Text) :
    (takeMark marks text).1.toList ++ (takeMark marks text).2 = text ∧
      ∀ mark, (takeMark marks text).1 = some mark → mark ∈ marks := by
  unfold takeMark
  split
  · exact ⟨rfl, nofun⟩
  · split
    · next hmem => exact ⟨rfl, fun mark hmark => Option.some.inj hmark ▸ hmem⟩
    · exact ⟨rfl, nofun⟩

theorem braceless_mark {marks : List Char} (hmarks : Braceless marks) (text : Text) :
    Braceless (takeMark marks text).1.toList := by
  intro c hc
  refine hmarks c ((takeMark_eq marks text).2 c ?_)
  simpa using hc

theorem braceless_of_takeMark {marks : List Char} (hmarks : Braceless marks)
    (h : Braceless (takeMark marks text).2) : Braceless text := by
  rw [← (takeMark_eq marks text).1, braceless_append]
  exact ⟨braceless_mark hmarks text, h⟩

theorem braceless_of_takeNumber {number : Option Nat} (h : takeNumber text = .ok (number, rest))
    (hrest : Braceless rest) : Braceless text := by
  obtain ⟨digits, rfl, hdigits⟩ := takeNumber_eq_ok h
  exact braceless_append.2 ⟨hdigits, hrest⟩

namespace LayoutMarks

theorem braceless_of_takeSeparator {separator : Option Char}
    (h : takeSeparator text = .ok (separator, rest)) (hrest : Braceless rest) :
    Braceless text := by
  unfold takeSeparator at h
  dsimp only at h
  split at h
  · cases h
  · obtain ⟨-, rfl⟩ := Prod.mk.inj (Except.ok.inj h)
    have hcomma : Braceless [','] := by simp [Braceless]
    have hunderscore : Braceless ['_'] := by simp [Braceless]
    exact braceless_of_takeMark hcomma (braceless_of_takeMark hunderscore hrest)

theorem braceless_of_takePrecision {precision : Option Nat}
    (h : takePrecision text = .ok (precision, rest)) (hrest : Braceless rest) :
    Braceless text := by
  unfold takePrecision at h
  split at h
  · split at h
    · cases h
    · exact braceless_cons.2 ⟨by decide, braceless_of_takeNumber h hrest⟩
  · obtain ⟨-, rfl⟩ := Prod.mk.inj (Except.ok.inj h)
    exact hrest

/-- Only the fill character of a layout of texts may be a brace. -/
theorem braceless_of_ofText {marks : LayoutMarks} (h : ofText text = .ok marks)
    (hkind : marks.kind = 's') :
    (∃ behind, text = marks.fill.toList ++ behind ∧ Braceless behind) ∧
      Braceless marks.zero.toList := by
  have hsigns : Braceless ['+', '-', ' '] := by simp [Braceless]
  have hzeros : ∀ fill : Option Char, Braceless (if fill.isSome then [] else ['0']) := by
    intro fill
    cases fill <;> simp [Braceless]
  have halignment : ∃ behind, text = (takeAlignment text).1.toList ++ behind ∧
      (Braceless (takeAlignment text).2.2 → Braceless behind) := by
    have halignments : Braceless alignments := by simp [Braceless, alignments]
    unfold takeAlignment
    split
    · split
      · next hmark => exact ⟨_, rfl, fun hrest => braceless_cons.2 ⟨halignments _ hmark, hrest⟩⟩
      · exact ⟨_, rfl, braceless_of_takeMark halignments⟩
    · exact ⟨_, rfl, braceless_of_takeMark halignments⟩
  obtain ⟨behind, htext, hbehind⟩ := halignment
  unfold ofText at h
  obtain ⟨⟨width, rest⟩, hwidth, h⟩ := exists_of_bind_eq_ok h
  obtain ⟨⟨separator, rest'⟩, hseparator, h⟩ := exists_of_bind_eq_ok h
  obtain ⟨⟨precision, last⟩, hprecision, h⟩ := exists_of_bind_eq_ok h
  have hmarks : marks.fill = (takeAlignment text).1 ∧ Braceless marks.zero.toList ∧
      Braceless last := by
    dsimp only at h
    split at h
    · obtain rfl := Except.ok.inj h
      exact ⟨rfl, braceless_mark (hzeros _) _, braceless_nil⟩
    · obtain rfl := Except.ok.inj h
      obtain rfl : _ = 's' := hkind
      exact ⟨rfl, braceless_mark (hzeros _) _, braceless_singleton.2 (by decide)⟩
    · cases h
  obtain ⟨hfill, hzeroMark, hlast⟩ := hmarks
  refine ⟨⟨behind, hfill ▸ htext, hbehind ?_⟩, hzeroMark⟩
  -- what is taken off in front of the last character has no braces
  have hnumber := braceless_of_takeNumber hwidth
    (braceless_of_takeSeparator hseparator (braceless_of_takePrecision hprecision hlast))
  have hzero := braceless_of_takeMark (hzeros _) hnumber
  have halternate := braceless_of_takeMark (by simp [Braceless]) hzero
  have hnegativeZero := braceless_of_takeMark (by simp [Braceless]) halternate
  exact braceless_of_takeMark hsigns hnegativeZero

end LayoutMarks

namespace LayoutMarks

theorem kind_of_fault? {marks : LayoutMarks} (h : marks.fault? = none) : marks.kind = 's' := by
  unfold fault? at h
  split at h
  · cases h
  · by_contra hkind
    simp [hkind] at h

end LayoutMarks

/-- A layout whose braces balance fills with none. -/
theorem Layout.fill_of_surplus {made : Layout} (h : Layout.ofText layout = .ok made)
    (hlayout : surplus layout = 0) : made.fill ≠ '{' ∧ made.fill ≠ '}' := by
  unfold Layout.ofText at h
  split at h
  · cases h
  · next marks hmarks =>
      split at h
      · cases h
      · next hfault =>
          obtain rfl := Except.ok.inj h
          obtain ⟨⟨behind, rfl, hbehind⟩, hzeroMark⟩ :=
            LayoutMarks.braceless_of_ofText hmarks (LayoutMarks.kind_of_fault? hfault)
          rw [surplus_append, surplus_of_braceless hbehind] at hlayout
          unfold ofMarks
          cases hfill : marks.fill with
          | none =>
              cases hzero : marks.zero with
              | none => simp
              | some mark => exact hzeroMark mark (by simp [hzero])
          | some mark =>
              rw [hfill] at hlayout
              constructor
              · rintro rfl
                simp at hlayout
              · rintro rfl
                simp at hlayout

theorem braceless_of_layOut (h : layOut layout text = .ok out) (hlayout : surplus layout = 0)
    (htext : Braceless text) : Braceless out := by
  unfold layOut at h
  split at h
  · exact Except.ok.inj h ▸ htext
  · split at h
    · cases h
    · next made hmade =>
        have hfill := Layout.fill_of_surplus hmade hlayout
        have hpadding : ∀ count, Braceless (List.replicate count made.fill) := by
          intro count c hc
          rwa [List.eq_of_mem_replicate hc]
        have hcut : Braceless (made.cut text) := by
          intro c hc
          refine htext c ?_
          unfold Layout.cut at hc
          split at hc
          · exact List.mem_of_mem_take hc
          · exact hc
        unfold Layout.apply at h
        dsimp only at h
        split at h
        · cases h
        · rw [← Except.ok.inj h, braceless_append, braceless_append]
          exact ⟨⟨hpadding _, hcut⟩, hpadding _⟩

/-! ### Fields -/

/-- What is left of a text: twice the surplus of braces was there before, and at least twice the
left braces. -/
structure Spent (text out : Text) : Prop where
  surplus_eq : surplus text = 2 * surplus out
  le_count : 2 * out.count '{' ≤ text.count '{'

theorem Spent.append {text' out' : Text} (h : Spent text out) (h' : Spent text' out') :
    Spent (text ++ text') (out ++ out') := by
  constructor
  · rw [surplus_append, surplus_append, h.surplus_eq, h'.surplus_eq]
    omega
  · rw [List.count_append, List.count_append]
    exact (Nat.mul_add 2 _ _).symm ▸ Nat.add_le_add h.le_count h'.le_count

theorem spent_of_braceless (h : surplus text = 0) (hout : Braceless out) : Spent text out := by
  constructor
  · rw [h, surplus_of_braceless hout]
    rfl
  · rw [(braceless_iff_count.1 hout).1]
    omega

theorem Spent.braceless (h : Spent text text) : Braceless text := by
  obtain ⟨hsurplus, hle⟩ := h
  unfold surplus at hsurplus
  rw [braceless_iff_count]
  omega

/-- What fills layouts loses braces, too. -/
def Spends (expand : Numbering → Text → Except Fault (Text × Numbering)) : Prop :=
  ∀ numbering text out numbering', expand numbering text = .ok (out, numbering') → Spent text out

section Field

variable {attributes : Attributes}
  {expand expand' : Numbering → Text → Except Fault (Text × Numbering)} {snippets : List Text}
  {numbering numbering' : Numbering} {field : Field}

/-- The steps in which a field is filled. -/
theorem Field.fill_eq_ok_iff :
    field.fill attributes expand snippets numbering = .ok (out, numbering') ↔
      ∃ n numbered snippet selected laidOut layout,
        choose numbering (field.name.takeWhile isPartChar) = .ok (n, numbered) ∧
        snippetAt snippets n = .ok snippet ∧
        select attributes snippet none (field.name.dropWhile isPartChar) = .ok selected ∧
        selected field.conversion = .ok laidOut ∧
        field.filledLayout expand numbered = .ok (layout, numbering') ∧
        laidOut layout = .ok out := by
  unfold Field.fill
  constructor
  · intro h
    obtain ⟨⟨n, numbered⟩, hchoose, h⟩ := exists_of_bind_eq_ok h
    obtain ⟨snippet, hsnippet, h⟩ := exists_of_bind_eq_ok h
    obtain ⟨selected, hselect, h⟩ := exists_of_bind_eq_ok h
    obtain ⟨laidOut, hconvert, h⟩ := exists_of_bind_eq_ok h
    obtain ⟨⟨layout, numbered'⟩, hlayout, h⟩ := exists_of_bind_eq_ok h
    obtain ⟨laid, hlaid, h⟩ := exists_of_bind_eq_ok h
    obtain ⟨rfl, rfl⟩ := Prod.mk.inj (Except.ok.inj h)
    exact ⟨n, numbered, snippet, selected, laidOut, layout, hchoose, hsnippet, hselect, hconvert,
      hlayout, hlaid⟩
  · rintro ⟨n, numbered, snippet, selected, laidOut, layout, hchoose, hsnippet, hselect, hconvert,
      hlayout, hlaid⟩
    simp only [bind, Except.bind, hchoose, hsnippet, hselect, hconvert, hlayout, hlaid]

theorem mem_of_snippetAt {n : Nat} {snippet : Text} (h : snippetAt snippets n = .ok snippet) :
    snippet ∈ snippets := by
  unfold snippetAt at h
  split at h
  · cases h
  · next hfound => exact Except.ok.inj h ▸ List.mem_of_getElem? hfound

/-- A field that is filled without attributes has braces in its layout only, and gives none if these
balance. -/
theorem braceless_of_fill (hexpand : Spends expand) (hsnippets : ∀ s ∈ snippets, Braceless s)
    (hlayout : surplus field.layout = 0)
    (h : field.fill .none expand snippets numbering = .ok (out, numbering')) :
    Braceless field.name ∧ Braceless field.conversion.toList ∧ Braceless out := by
  obtain ⟨n, numbered, snippet, selected, laidOut, layout, hchoose, hsnippet, hselect, hselected,
    hfilled, hlaid⟩ := Field.fill_eq_ok_iff.1 h
  obtain ⟨-, hrest, chosen, rfl, hchosen⟩ :=
    braceless_of_select hselect (hsnippets snippet (mem_of_snippetAt hsnippet))
  obtain ⟨converted, hconvert, hlaidOut⟩ := exists_of_bind_eq_ok hselected
  obtain rfl := Except.ok.inj hlaidOut
  obtain ⟨hmark, hconverted⟩ := braceless_of_convert hconvert hchosen
  have hbalanced : surplus layout = 0 := by
    unfold Field.filledLayout at hfilled
    split at hfilled
    · have hspent := (hexpand _ _ _ _ hfilled).surplus_eq
      omega
    · obtain ⟨rfl, -⟩ := Prod.mk.inj (Except.ok.inj hfilled)
      exact hlayout
  refine ⟨?_, hmark, braceless_of_layOut hlaid hbalanced hconverted⟩
  rw [← List.takeWhile_append_dropWhile (p := isPartChar) (l := field.name), braceless_append]
  exact ⟨braceless_of_choose hchoose, hrest⟩

/-! ### Attributes -/

theorem select_of_none {subscript : Option Text} {selected : Selected}
    (h : select .none text subscript name = .ok selected) :
    select attributes text subscript name = .ok selected := by
  fun_induction select Attributes.none text subscript name with
  | case1 text => exact h
  | case2 text rest ih => exact ih h
  | case3 => cases h
  | case4 => cases h
  | case5 => cases h
  | case6 => cases h
  | case7 => cases h
  | case8 text subscript rest character hcharacter ih =>
      rw [select, if_pos rfl, hcharacter]
      exact ih h
  | case9 text subscript c rest hc ih =>
      rw [select, if_neg hc]
      exact ih h

/-- A field that is filled without attributes needs none. -/
theorem Field.fill_of_none (hexpand : ∀ numbering text filled,
      expand numbering text = .ok filled → expand' numbering text = .ok filled)
    (h : field.fill .none expand snippets numbering = .ok (out, numbering')) :
    field.fill attributes expand' snippets numbering = .ok (out, numbering') := by
  obtain ⟨n, numbered, snippet, selected, laidOut, layout, hchoose, hsnippet, hselect, hconvert,
    hfilled, hlaid⟩ := Field.fill_eq_ok_iff.1 h
  refine Field.fill_eq_ok_iff.2 ⟨n, numbered, snippet, selected, laidOut, layout, hchoose, hsnippet,
    select_of_none hselect, hconvert, ?_, hlaid⟩
  unfold Field.filledLayout at hfilled ⊢
  split at hfilled
  · next hfields => rw [if_pos hfields, hexpand _ _ _ hfilled]
  · next hfields => rw [if_neg hfields, hfilled]

end Field

end Template

end BracketCalc
