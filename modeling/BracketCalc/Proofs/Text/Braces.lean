import BracketCalc.Proofs.Numeral.Grammar
import BracketCalc.Text.Style
import BracketCalc.Text.Utf8
/-!
# Texts without braces

A text without braces is a template for itself.  Quoting a text adds no braces
to it, nor does a style, and a dotted word has none, nor has what is told of
broken UTF-8.
-/

namespace BracketCalc

/-- No brace stands in the text. -/
def Text.Braceless (text : Text) : Prop := ∀ c ∈ text, c ≠ '{' ∧ c ≠ '}'

namespace Text

variable {text a b : Text} {c : Char}

@[simp] theorem braceless_nil : Braceless [] := nofun

theorem braceless_cons : Braceless (c :: text) ↔ (c ≠ '{' ∧ c ≠ '}') ∧ Braceless text :=
  List.forall_mem_cons

theorem braceless_append : Braceless (a ++ b) ↔ Braceless a ∧ Braceless b := by
  simp only [Braceless, List.mem_append, or_imp, forall_and]
  tauto

theorem braceless_singleton : Braceless [c] ↔ c ≠ '{' ∧ c ≠ '}' := by
  simp [Braceless]

theorem braceless_hexPlaces (places n : Nat) : Braceless (hexPlaces places n) := by
  induction places generalizing n with
  | zero => exact nofun
  | succ places ih =>
      have hdigits : ∀ d < 16, Nat.digitChar d ≠ '{' ∧ Nat.digitChar d ≠ '}' := by decide
      have hdigit := hdigits (n % 16) (Nat.mod_lt n (by omega))
      rw [hexPlaces, braceless_append, braceless_singleton]
      exact ⟨ih (n / 16), hdigit⟩

theorem braceless_escaped (shows : Char → Bool) (quote : Char) (h : c ≠ '{' ∧ c ≠ '}') :
    Braceless (escaped shows quote c) := by
  have hhex : ∀ lead, lead = 'x' ∨ lead = 'u' ∨ lead = 'U' → ∀ places,
      Braceless ('\\' :: lead :: hexPlaces places c.toNat) := by
    intro lead hlead places
    have hlead : Braceless ['\\', lead] := by rcases hlead with rfl | rfl | rfl <;> simp [Braceless]
    exact braceless_append.2 ⟨hlead, braceless_hexPlaces places c.toNat⟩
  unfold escaped
  split_ifs
  · simpa [Braceless] using h
  · simp [Braceless]
  · simp [Braceless]
  · simp [Braceless]
  · exact braceless_singleton.2 h
  · exact hhex 'x' (by simp) 2
  · exact hhex 'u' (by simp) 4
  · exact hhex 'U' (by simp) 8

theorem braceless_quotedBy {shows : Char → Bool} (h : Braceless text) :
    Braceless (text.quotedBy shows) := by
  have hquote : ∀ b : Bool, Braceless [if b then '"' else '\''] := by
    intro b
    cases b <;> simp [Braceless]
  have hflat : ∀ quote, Braceless (text.flatMap (escaped shows quote)) := by
    intro quote c hc
    obtain ⟨d, hd, hc⟩ := List.mem_flatMap.1 hc
    exact braceless_escaped shows quote (h d hd) c hc
  unfold quotedBy
  rw [braceless_append, ← List.singleton_append, braceless_append]
  exact ⟨⟨hquote _, hflat _⟩, hquote _⟩

theorem braceless_quoted (h : Braceless text) : Braceless text.quoted := braceless_quotedBy h

theorem braceless_ofNat (n : Nat) : Braceless (ofNat n) := by
  intro c hc
  have hdigit : c.isDigit = true := Nat.isDigit_of_mem_toDigits (by omega) (by omega) hc
  constructor
  · rintro rfl
    cases hdigit
  · rintro rfl
    cases hdigit

end Text

namespace Style

variable {text : Text}

theorem IsControl.braceless (h : IsControl text) : text.Braceless := by
  obtain ⟨codes, hcodes, rfl⟩ := h
  intro c hc
  obtain ⟨code, hcode, hc⟩ := List.mem_flatMap.1 hc
  have hplain : code.Braceless := by
    intro d hd
    constructor
    · rintro rfl
      simpa using hcodes code hcode '{' hd
    · rintro rfl
      simpa using hcodes code hcode '}' hd
  have hsequence : (sequence code).Braceless := by
    simp [sequence, Text.braceless_cons, Text.braceless_append, hplain]
  exact hsequence c hc

theorem Wraps.braceless {style : Text → Text} (h : Wraps style) (htext : text.Braceless) :
    (style text).Braceless := by
  obtain ⟨before, behind, hbefore, hbehind, hstyle⟩ := h
  rw [hstyle, Text.braceless_append, Text.braceless_append]
  exact ⟨⟨hbefore.braceless, htext⟩, hbehind.braceless⟩

end Style

namespace Utf8

theorem braceless_message (fault : Fault) : Text.Braceless fault.message := by
  have hreason : Text.Braceless fault.reason.message := by
    unfold Reason.message
    split <;> simp [Text.Braceless]
  unfold Fault.message
  split_ifs <;>
    simp [Text.braceless_cons, Text.braceless_append, Text.braceless_ofNat,
      Text.braceless_hexPlaces, hreason]

end Utf8

namespace Numeral

variable {text : Text}

theorem braceless_of_recognised (h : Recognised text) : text.Braceless := by
  have hnames : ∀ name ∈ names, ∀ letter ∈ name,
      (letter ≠ '{' ∧ letter ≠ '}') ∧ letter.toUpper ≠ '{' ∧ letter.toUpper ≠ '}' := by
    simp [names]
  obtain ⟨name, hname, hforms⟩ := h
  intro c hc
  obtain ⟨letter, hletter, hform⟩ := exists_form hforms hc
  obtain ⟨hsmall, hcapital⟩ := hnames name hname letter hletter
  rcases hform with rfl | rfl | ⟨-, rfl | rfl⟩
  · exact hsmall
  · exact hcapital
  · decide
  · decide

theorem braceless_of_dotted (h : Dotted text) : text.Braceless := by
  obtain ⟨sign, unsigned, rfl, hsign, hword, -⟩ := h
  refine Text.braceless_append.2 ⟨?_, braceless_of_recognised hword⟩
  cases hsign <;> simp [Text.Braceless]

end Numeral

end BracketCalc
