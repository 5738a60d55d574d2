import BracketCalc.Numeral.Read
import Mathlib.Data.List.Forall2
/-!
# The language of numerals

`Numeric` texts are the decimals and the words `inf`, `infinity` and `nan` in
any case, each with an optional sign.  `Dotted` texts are such words with a
form of the letter `i` that has its dot wrong.  These are the texts that denote
a number and those that are recognised but unreadable.
-/

namespace BracketCalc.Numeral

inductive Sign : Text → Prop where
  | none : Sign []
  | plus : Sign ['+']
  | minus : Sign ['-']

def Digits (text : Text) : Prop := text ≠ [] ∧ ∀ c ∈ text, c.isDigit = true

inductive Mantissa : Text → Prop where
  | whole {digits : Text} : Digits digits → Mantissa digits
  | point {digits fraction : Text} :
      Digits digits → (∀ c ∈ fraction, c.isDigit = true) → Mantissa (digits ++ '.' :: fraction)
  | fraction {fraction : Text} : Digits fraction → Mantissa ('.' :: fraction)

inductive Exponent : Text → Prop where
  | absent : Exponent []
  | present {mark : Char} {sign digits : Text} :
      mark = 'e' ∨ mark = 'E' → Sign sign → Digits digits → Exponent (mark :: (sign ++ digits))

def Decimal (text : Text) : Prop :=
  ∃ mantissa exponent, text = mantissa ++ exponent ∧ Mantissa mantissa ∧ Exponent exponent

def names : List Text := ["inf".toList, "infinity".toList, "nan".toList]

/-- The text is one of the names in any case. -/
def Word (text : Text) : Prop :=
  ∃ name ∈ names, List.Forall₂ (fun letter c => c = letter ∨ c = letter.toUpper) name text

/-- The letter `i` with a dot on its capital, or without one on its small form. -/
def WrongDot (c : Char) : Prop := c = 'İ' ∨ c = 'ı'

def Form (letter c : Char) : Prop := c = letter ∨ c = letter.toUpper ∨ letter = 'i' ∧ WrongDot c

/-- The text is one of the names in any case, whether or not the dots are right. -/
def Recognised (text : Text) : Prop := ∃ name ∈ names, List.Forall₂ Form name text

def DottedWord (text : Text) : Prop := Recognised text ∧ ∃ c ∈ text, WrongDot c

def Numeric (text : Text) : Prop :=
  ∃ sign unsigned, text = sign ++ unsigned ∧ Sign sign ∧ (Decimal unsigned ∨ Word unsigned)

def Dotted (text : Text) : Prop :=
  ∃ sign unsigned, text = sign ++ unsigned ∧ Sign sign ∧ DottedWord unsigned

variable {text rest digits fraction sign unsigned : Text}

/-! ### Signs -/

theorem exists_sign (text : Text) : ∃ sign, Sign sign ∧ text = sign ++ (takeSign text).2 := by
  unfold takeSign
  split
  · exact ⟨['-'], .minus, rfl⟩
  · exact ⟨['+'], .plus, rfl⟩
  · exact ⟨[], .none, rfl⟩

theorem takeSign_of_head (h : ∀ c ∈ text.head?, c ≠ '-' ∧ c ≠ '+') :
    takeSign text = (false, text) := by
  unfold takeSign
  split
  · exact absurd rfl (h _ rfl).1
  · exact absurd rfl (h _ rfl).2
  · rfl

theorem takeSign_append (h : Sign sign) (hhead : ∀ c ∈ unsigned.head?, c ≠ '-' ∧ c ≠ '+') :
    (takeSign (sign ++ unsigned)).2 = unsigned := by
  cases h with
  | none => rw [List.nil_append, takeSign_of_head hhead]
  | plus => rfl
  | minus => rfl

/-! ### Decimals -/

theorem not_isDigit_of_exponent (h : Exponent text) :
    ∀ c ∈ text.head?, c.isDigit = false ∧ c ≠ '.' := by
  cases h with
  | absent => exact nofun
  | present hmark _ _ =>
      rintro c hc
      cases hc
      rcases hmark with rfl | rfl
      · decide
      · decide

theorem head_of_digits (h : Digits text) : ∀ c ∈ text.head?, c ≠ '-' ∧ c ≠ '+' := by
  intro c hc
  have hdigit := h.2 c (List.mem_of_mem_head? hc)
  constructor
  · rintro rfl
    cases hdigit
  · rintro rfl
    cases hdigit

theorem digits_iff : (text.isEmpty || ! text.all Char.isDigit) = false ↔ Digits text := by
  rw [Bool.or_eq_false_iff, Bool.not_eq_false', List.all_eq_true, List.isEmpty_eq_false_iff]
  rfl

theorem exponent?_cons_isSome_iff {mark : Char} (h : mark = 'e' ∨ mark = 'E') :
    (exponent? (mark :: rest)).isSome = true ↔ Digits (takeSign rest).2 := by
  rw [exponent?, if_pos h, ← digits_iff]
  cases hempty : ((takeSign rest).2.isEmpty || ! (takeSign rest).2.all Char.isDigit) with
  | true => simp [hempty]
  | false =>
      simp only [hempty, Bool.false_eq_true, if_false, iff_true]
      split
      · rfl
      · rfl

theorem exponent?_isSome_iff : (exponent? text).isSome = true ↔ Exponent text := by
  constructor
  · intro h
    cases text with
    | nil => exact .absent
    | cons mark rest =>
        by_cases hmark : mark = 'e' ∨ mark = 'E'
        · obtain ⟨sign, hsign, heq⟩ := exists_sign rest
          rw [exponent?_cons_isSome_iff hmark] at h
          rw [heq]
          exact .present hmark hsign h
        · rw [exponent?, if_neg hmark] at h
          cases h
  · intro h
    cases h with
    | absent => rfl
    | present hmark hsign hdigits =>
        rw [exponent?_cons_isSome_iff hmark, takeSign_append hsign (head_of_digits hdigits)]
        exact hdigits

theorem takeWhile_digits (hdigits : ∀ c ∈ digits, c.isDigit = true)
    (hrest : ∀ c ∈ rest.head?, c.isDigit = false) :
    (digits ++ rest).takeWhile Char.isDigit = digits ∧
      (digits ++ rest).dropWhile Char.isDigit = rest := by
  rw [List.takeWhile_append_of_pos hdigits, List.dropWhile_append_of_pos hdigits]
  cases rest with
  | nil => simp
  | cons c rest => simp [hrest c rfl]

theorem mantissa_append_point (hdigits : ∀ c ∈ digits, c.isDigit = true)
    (hfraction : ∀ c ∈ fraction, c.isDigit = true) (hrest : ∀ c ∈ rest.head?, c.isDigit = false) :
    mantissa (digits ++ '.' :: (fraction ++ rest)) = (digits, fraction, rest) := by
  have hpoint : ∀ c ∈ ('.' :: (fraction ++ rest)).head?, c.isDigit = false := by simp
  obtain ⟨hwhole, hbehind⟩ := takeWhile_digits hdigits hpoint
  obtain ⟨hfront, hback⟩ := takeWhile_digits hfraction hrest
  rw [mantissa, hwhole, hbehind]
  simp only [hfront, hback]

theorem mantissa_append (hdigits : ∀ c ∈ digits, c.isDigit = true)
    (hrest : ∀ c ∈ rest.head?, c.isDigit = false ∧ c ≠ '.') :
    mantissa (digits ++ rest) = (digits, [], rest) := by
  obtain ⟨hwhole, hbehind⟩ := takeWhile_digits hdigits fun c hc => (hrest c hc).1
  rw [mantissa, hwhole, hbehind]
  split
  · exact absurd rfl (hrest _ rfl).2
  · rfl

theorem isDigit_of_mem_takeWhile (text : Text) :
    ∀ c ∈ text.takeWhile Char.isDigit, c.isDigit = true :=
  List.all_eq_true.1 List.all_takeWhile

theorem exists_mantissa {whole : Text} (h : mantissa text = (whole, fraction, rest))
    (hne : whole ≠ [] ∨ fraction ≠ []) : ∃ front, text = front ++ rest ∧ Mantissa front := by
  have hsplit : text.takeWhile Char.isDigit ++ text.dropWhile Char.isDigit = text :=
    List.takeWhile_append_dropWhile
  have hwhole := isDigit_of_mem_takeWhile text
  rw [mantissa] at h
  split at h
  · next behind hbehind =>
    have hfraction := isDigit_of_mem_takeWhile behind
    have hsplitBehind : behind.takeWhile Char.isDigit ++ behind.dropWhile Char.isDigit = behind :=
      List.takeWhile_append_dropWhile
    cases h
    rw [hbehind] at hsplit
    by_cases hempty : text.takeWhile Char.isDigit = []
    · have hsome := hne.resolve_left (absurd hempty)
      refine ⟨_, ?_, .fraction ⟨hsome, hfraction⟩⟩
      rw [List.cons_append, hsplitBehind, ← hsplit, hempty, List.nil_append]
    · refine ⟨_, ?_, .point ⟨hempty, hwhole⟩ hfraction⟩
      rw [List.append_assoc, List.cons_append, hsplitBehind, hsplit]
  · cases h
    have hsome := hne.resolve_right (absurd rfl)
    exact ⟨_, hsplit.symm, .whole ⟨hsome, hwhole⟩⟩

theorem mantissa_of_decimal {front : Text} (h : Mantissa front) (hrest : Exponent rest) :
    ∃ whole fraction, mantissa (front ++ rest) = (whole, fraction, rest) ∧
      (whole ≠ [] ∨ fraction ≠ []) := by
  have hhead := not_isDigit_of_exponent hrest
  cases h with
  | whole hdigits => exact ⟨_, _, mantissa_append hdigits.2 hhead, .inl hdigits.1⟩
  | @point digits fraction hdigits hfraction =>
      rw [List.append_assoc, List.cons_append]
      exact ⟨_, _, mantissa_append_point hdigits.2 hfraction fun c hc => (hhead c hc).1,
        .inl hdigits.1⟩
  | @fraction fraction hdigits =>
      have hread : mantissa ([] ++ '.' :: (fraction ++ rest)) = _ :=
        mantissa_append_point nofun hdigits.2 fun c hc => (hhead c hc).1
      exact ⟨_, _, hread, .inr hdigits.1⟩

theorem decimal?_isSome_iff : (decimal? text).isSome = true ↔ Decimal text := by
  rcases hread : mantissa text with ⟨whole, fraction, rest⟩
  have hsome : (decimal? text).isSome = true ↔
      (whole ≠ [] ∨ fraction ≠ []) ∧ Exponent rest := by
    rw [decimal?, hread, ← exponent?_isSome_iff]
    cases whole <;> cases fraction <;> simp
  rw [hsome]
  constructor
  · rintro ⟨hne, hexponent⟩
    obtain ⟨front, heq, hfront⟩ := exists_mantissa hread hne
    exact ⟨front, rest, heq, hfront, hexponent⟩
  · rintro ⟨front, exponent, rfl, hfront, hexponent⟩
    obtain ⟨whole, fraction, hmantissa, hne⟩ := mantissa_of_decimal hfront hexponent
    rw [hmantissa] at hread
    cases hread
    exact ⟨hne, hexponent⟩

theorem head_of_decimal (h : Decimal text) : ∃ c ∈ text.head?, c.isDigit = true ∨ c = '.' := by
  have hdigits : ∀ {run}, Digits run → ∃ c more, run = c :: more ∧ c.isDigit = true := by
    rintro run ⟨hne, hall⟩
    obtain ⟨c, more, rfl⟩ := List.exists_cons_of_ne_nil hne
    exact ⟨c, more, rfl, hall c List.mem_cons_self⟩
  obtain ⟨front, exponent, rfl, hfront, -⟩ := h
  cases hfront with
  | whole h =>
      obtain ⟨c, more, rfl, hc⟩ := hdigits h
      exact ⟨c, rfl, .inl hc⟩
  | point h _ =>
      obtain ⟨c, more, rfl, hc⟩ := hdigits h
      exact ⟨c, rfl, .inl hc⟩
  | fraction _ => exact ⟨'.', rfl, .inr rfl⟩

/-! ### Words -/

theorem isForm_iff {letter c : Char} : isForm letter c = true ↔ Form letter c := by
  simp [isForm, Form, WrongDot, or_assoc]

theorem isWord_iff {name : Text} : isWord name text = true ↔ List.Forall₂ Form name text := by
  induction name generalizing text with
  | nil => cases text <;> simp [isWord]
  | cons letter name ih =>
      cases text with
      | nil => simp [isWord]
      | cons c text => simp [isWord, isForm_iff, ih]

theorem word?_isSome_iff : (word? text).isSome = true ↔ Recognised text := by
  simp only [word?, Recognised, names, List.exists_mem_cons_iff, ← isWord_iff]
  cases isWord "inf".toList text <;> cases isWord "infinity".toList text <;>
    cases isWord "nan".toList text <;> simp

theorem ascii_of_mem_names : ∀ name ∈ names, ∀ letter ∈ name,
    letter.toNat < 0x80 ∧ letter.toUpper.toNat < 0x80 := by
  simp [names]

theorem not_ascii_of_wrongDot {c : Char} (h : WrongDot c) : ¬ c.toNat < 0x80 := by
  rcases h with rfl | rfl
  · decide
  · decide

theorem small_or_capital_iff {letter c : Char}
    (h : letter.toNat < 0x80 ∧ letter.toUpper.toNat < 0x80) :
    c = letter ∨ c = letter.toUpper ↔ Form letter c ∧ c.toNat < 0x80 := by
  constructor
  · rintro (rfl | rfl)
    · exact ⟨.inl rfl, h.1⟩
    · exact ⟨.inr (.inl rfl), h.2⟩
  · rintro ⟨hform | hform | ⟨-, hdot⟩, hascii⟩
    · exact .inl hform
    · exact .inr hform
    · exact absurd hascii (not_ascii_of_wrongDot hdot)

theorem forall₂_form_iff {name : Text}
    (hname : ∀ letter ∈ name, letter.toNat < 0x80 ∧ letter.toUpper.toNat < 0x80) :
    List.Forall₂ (fun letter c => c = letter ∨ c = letter.toUpper) name text ↔
      List.Forall₂ Form name text ∧ ∀ c ∈ text, c.toNat < 0x80 := by
  induction name generalizing text with
  | nil => cases text <;> simp
  | cons letter name ih =>
      cases text with
      | nil => simp
      | cons c text =>
          rw [List.forall_mem_cons] at hname
          rw [List.forall₂_cons, List.forall₂_cons, List.forall_mem_cons, ih hname.2,
            small_or_capital_iff hname.1]
          tauto

theorem exists_form {name : Text} (h : List.Forall₂ Form name text) {c : Char} (hc : c ∈ text) :
    ∃ letter ∈ name, Form letter c := by
  induction h with
  | nil => cases hc
  | @cons letter d name text hform _ ih =>
      rcases List.mem_cons.1 hc with rfl | hc
      · exact ⟨letter, List.mem_cons_self, hform⟩
      · obtain ⟨other, hother, hform⟩ := ih hc
        exact ⟨other, List.mem_cons_of_mem _ hother, hform⟩

theorem word_iff : Word text ↔ Recognised text ∧ ∀ c ∈ text, c.toNat < 0x80 := by
  constructor
  · rintro ⟨name, hname, hspelled⟩
    obtain ⟨hforms, hascii⟩ := (forall₂_form_iff (ascii_of_mem_names name hname)).1 hspelled
    exact ⟨⟨name, hname, hforms⟩, hascii⟩
  · rintro ⟨⟨name, hname, hforms⟩, hascii⟩
    exact ⟨name, hname, (forall₂_form_iff (ascii_of_mem_names name hname)).2 ⟨hforms, hascii⟩⟩

theorem dottedWord_iff : DottedWord text ↔ Recognised text ∧ ¬ ∀ c ∈ text, c.toNat < 0x80 := by
  constructor
  · rintro ⟨hrecognised, c, hc, hdot⟩
    exact ⟨hrecognised, fun hascii => not_ascii_of_wrongDot hdot (hascii c hc)⟩
  · rintro ⟨⟨name, hname, hforms⟩, hascii⟩
    simp only [not_forall] at hascii
    obtain ⟨c, hc, hhigh⟩ := hascii
    refine ⟨⟨name, hname, hforms⟩, c, hc, ?_⟩
    obtain ⟨letter, hletter, hform⟩ := exists_form hforms hc
    have hlow := ascii_of_mem_names name hname letter hletter
    rcases hform with rfl | rfl | ⟨-, hdot⟩
    · omega
    · omega
    · exact hdot

/-- No name begins as a decimal or with a sign. -/
theorem head_of_recognised (h : Recognised text) :
    ∀ c ∈ text.head?, c.isDigit = false ∧ c ≠ '.' ∧ c ≠ '-' ∧ c ≠ '+' := by
  have hfirst : ∀ name ∈ names, ∃ letter rest, name = letter :: rest ∧
      (letter = 'i' ∨ letter = 'n') := by
    simp [names]
  obtain ⟨name, hname, hforms⟩ := h
  obtain ⟨letter, rest, rfl, hletter⟩ := hfirst name hname
  cases hforms with
  | cons hform _ =>
      intro c hc
      cases hc
      rcases hform with rfl | rfl | ⟨-, rfl | rfl⟩
      · rcases hletter with rfl | rfl <;> decide
      · rcases hletter with rfl | rfl <;> decide
      · decide
      · decide

/-! ### Reading -/

theorem head_of_unsigned (h : Decimal unsigned ∨ Recognised unsigned) :
    ∀ c ∈ unsigned.head?, c ≠ '-' ∧ c ≠ '+' := by
  rcases h with h | h
  · obtain ⟨d, hd, hkind⟩ := head_of_decimal h
    intro c hc
    rw [hd] at hc
    cases hc
    constructor
    · rintro rfl
      simp at hkind
    · rintro rfl
      simp at hkind
  · exact fun c hc => (head_of_recognised h c hc).2.2

theorem numeric_iff : Numeric text ↔ Decimal (takeSign text).2 ∨ Word (takeSign text).2 := by
  constructor
  · rintro ⟨sign, unsigned, rfl, hsign, h⟩
    have hhead := head_of_unsigned (h.imp_right fun h => (word_iff.1 h).1)
    rwa [takeSign_append hsign hhead]
  · intro h
    obtain ⟨sign, hsign, heq⟩ := exists_sign text
    exact ⟨sign, _, heq, hsign, h⟩

theorem dotted_iff : Dotted text ↔ DottedWord (takeSign text).2 := by
  constructor
  · rintro ⟨sign, unsigned, rfl, hsign, h⟩
    have hhead := head_of_unsigned (.inr (dottedWord_iff.1 h).1)
    rwa [takeSign_append hsign hhead]
  · intro h
    obtain ⟨sign, hsign, heq⟩ := exists_sign text
    exact ⟨sign, _, heq, hsign, h⟩

theorem not_decimal_of_recognised (h : Recognised text) : ¬ Decimal text := by
  intro hdecimal
  obtain ⟨c, hc, hkind⟩ := head_of_decimal hdecimal
  obtain ⟨hdigit, hpoint, -⟩ := head_of_recognised h c hc
  rcases hkind with hkind | hkind
  · rw [hdigit] at hkind
    cases hkind
  · exact hpoint hkind

theorem decimal?_eq_none (h : ¬ Decimal text) : decimal? text = none := by
  rwa [← Option.isNone_iff_eq_none, ← Option.not_isSome, Bool.not_eq_true', ← Bool.not_eq_true,
    decimal?_isSome_iff]

theorem all_ascii_iff : text.all (·.toNat < 0x80) = true ↔ ∀ c ∈ text, c.toNat < 0x80 := by
  simp

theorem read_of_numeric (h : Numeric text) : ∃ x, read text = .value x := by
  rw [numeric_iff] at h
  unfold read
  generalize takeSign text = taken at h
  obtain ⟨negative, unsigned⟩ := taken
  by_cases hdecimal : Decimal unsigned
  · obtain ⟨d, hd⟩ := Option.isSome_iff_exists.1 (decimal?_isSome_iff.2 hdecimal)
    simp [hd]
  · obtain ⟨hrecognised, hascii⟩ := word_iff.1 (h.resolve_left hdecimal)
    obtain ⟨x, hx⟩ := Option.isSome_iff_exists.1 (word?_isSome_iff.2 hrecognised)
    simp only [decimal?_eq_none hdecimal, hx, all_ascii_iff.2 hascii, if_true]
    exact ⟨_, rfl⟩

theorem read_of_dotted (h : Dotted text) : read text = .unreadable := by
  rw [dotted_iff, dottedWord_iff] at h
  obtain ⟨hrecognised, hascii⟩ := h
  unfold read
  generalize takeSign text = taken at hrecognised hascii
  obtain ⟨negative, unsigned⟩ := taken
  obtain ⟨x, hx⟩ := Option.isSome_iff_exists.1 (word?_isSome_iff.2 hrecognised)
  rw [← all_ascii_iff] at hascii
  simp only [decimal?_eq_none (not_decimal_of_recognised hrecognised), hx, if_neg hascii]

theorem read_of_neither (hnumeric : ¬ Numeric text) (hdotted : ¬ Dotted text) :
    read text = .notANumeral := by
  rw [numeric_iff, not_or, word_iff] at hnumeric
  rw [dotted_iff, dottedWord_iff] at hdotted
  unfold read
  generalize takeSign text = taken at hnumeric hdotted
  obtain ⟨negative, unsigned⟩ := taken
  have hword : word? unsigned = none := by
    rw [← Option.isNone_iff_eq_none, ← Option.not_isSome, Bool.not_eq_true', ← Bool.not_eq_true,
      word?_isSome_iff]
    intro hrecognised
    exact hdotted ⟨hrecognised, fun hascii => hnumeric.2 ⟨hrecognised, hascii⟩⟩
  simp only [decimal?_eq_none hnumeric.1, hword]

theorem numeric_of_read {x : Float} (h : read text = .value x) : Numeric text := by
  by_contra hnumeric
  by_cases hdotted : Dotted text
  · rw [read_of_dotted hdotted] at h
    cases h
  · rw [read_of_neither hnumeric hdotted] at h
    cases h

/-- A text is recognised as a numeral but denotes no number exactly if it is dotted. -/
theorem read_eq_unreadable_iff : read text = .unreadable ↔ Dotted text := by
  refine ⟨fun h => ?_, read_of_dotted⟩
  by_contra hdotted
  by_cases hnumeric : Numeric text
  · obtain ⟨x, hx⟩ := read_of_numeric hnumeric
    rw [hx] at h
    cases h
  · rw [read_of_neither hnumeric hdotted] at h
    cases h

end BracketCalc.Numeral
