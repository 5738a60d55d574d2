import BracketCalc.Numeral.Write
import BracketCalc.Proofs.Double.Equal
import BracketCalc.Proofs.Double.Exact
import BracketCalc.Proofs.Numeral.Grammar
/-!
# Written numbers are read back

Digits are read back from either layout with their power of ten: zeros behind
the digits of a whole number multiply them, and no others count.  Hence a number
that is written is read back, except that zero loses its sign (`read_write`).
-/

namespace BracketCalc

namespace Text

theorem toNat_append (front digits : Text) :
    toNat (front ++ digits) = 10 ^ digits.length * toNat front + toNat digits := by
  rw [toNat, Nat.ofDigitChars_append, Nat.ofDigitChars_eq_ofDigitChars_zero]
  rfl

theorem toNat_zeros (count : Nat) : toNat (List.replicate count '0') = 0 :=
  Nat.ofDigitChars_replicate_zero

/-- Zeros in front of digits do not count. -/
theorem toNat_zeros_append (count : Nat) (digits : Text) :
    toNat (List.replicate count '0' ++ digits) = toNat digits := by
  rw [toNat_append, toNat_zeros, Nat.mul_zero, Nat.zero_add]

theorem toNat_append_zeros (digits : Text) (count : Nat) :
    toNat (digits ++ List.replicate count '0') = toNat digits * 10 ^ count := by
  rw [toNat_append, toNat_zeros, List.length_replicate, Nat.add_zero, Nat.mul_comm]

theorem isDigit_of_mem_zeros {count : Nat} : ∀ c ∈ List.replicate count '0', c.isDigit = true := by
  intro c hc
  rw [List.eq_of_mem_replicate hc]
  rfl

end Text

namespace Numeral

open Double

variable {digits fraction rest unsigned : Text} {n : Nat} {places : Int}
  {d : Double.Decimal} {x : Float}

theorem digits_ofNat (n : Nat) : Digits (Text.ofNat n) :=
  ⟨Nat.toDigits_ne_nil, fun _ => Nat.isDigit_of_mem_toDigits (by omega) (by omega)⟩

/-! ### Layouts -/

/-- A point is only written where digits stand behind it. -/
theorem mantissa_pointed (hdigits : ∀ c ∈ digits, c.isDigit = true)
    (hfraction : ∀ c ∈ fraction, c.isDigit = true) (hrest : Exponent rest) :
    mantissa (digits ++ (if fraction.isEmpty then [] else '.' :: fraction) ++ rest) =
      (digits, fraction, rest) := by
  have hhead := not_isDigit_of_exponent hrest
  cases fraction with
  | nil =>
      have hempty : digits ++ (if List.isEmpty ([] : Text) then [] else ['.']) = digits := by simp
      rw [hempty, mantissa_append hdigits hhead]
  | cons c fraction =>
      have hpoint : digits ++ (if (c :: fraction).isEmpty then [] else '.' :: c :: fraction) ++ rest
          = digits ++ '.' :: (c :: fraction ++ rest) := by simp
      rw [hpoint, mantissa_append_point hdigits hfraction fun c hc => (hhead c hc).1]

theorem decimal?_pointed (hdigits : Digits digits) (hfraction : ∀ c ∈ fraction, c.isDigit = true)
    (hrest : Exponent rest) {e : Int} (hexponent : exponent? rest = some e) :
    decimal? (digits ++ (if fraction.isEmpty then [] else '.' :: fraction) ++ rest) =
      some ⟨Text.toNat (digits ++ fraction), e - fraction.length⟩ := by
  have hne : digits.isEmpty = false := List.isEmpty_eq_false_iff.2 hdigits.1
  rw [decimal?, mantissa_pointed hdigits.2 hfraction hrest]
  simp [hne, hexponent]

theorem toNat_padded (places : Nat) (digits : Text) :
    Text.toNat (padded places digits) = Text.toNat digits := Text.toNat_zeros_append ..

theorem digits_padded (h : Digits digits) (places : Nat) : Digits (padded places digits) := by
  refine ⟨List.append_ne_nil_of_right_ne_nil _ h.1, ?_⟩
  rw [padded, List.forall_mem_append]
  exact ⟨Text.isDigit_of_mem_zeros, h.2⟩

theorem exponent_written (places : Nat) (power : Int) :
    Exponent ('e' :: (if power < 0 then '-' else '+') ::
      padded places (Text.ofNat power.natAbs)) := by
  have hdigits := digits_padded (digits_ofNat power.natAbs) places
  split
  · exact .present (.inl rfl) .minus hdigits
  · exact .present (.inl rfl) .plus hdigits

theorem exponent?_written (places : Nat) (power : Int) :
    exponent? ('e' :: (if power < 0 then '-' else '+') :: padded places (Text.ofNat power.natAbs)) =
      some power := by
  have hdigits := digits_iff.2 (digits_padded (digits_ofNat power.natAbs) places)
  have htoNat : Text.toNat (padded places (Text.ofNat power.natAbs)) = power.natAbs := by
    rw [toNat_padded, Text.toNat_ofNat]
  by_cases hneg : power < 0
  · simp only [exponent?, true_or, if_true, hneg, takeSign, hdigits, htoNat, Bool.false_eq_true,
      if_false, Option.some.injEq]
    omega
  · simp only [exponent?, true_or, if_true, hneg, takeSign, hdigits, htoNat, Bool.false_eq_true,
      if_false, Option.some.injEq]
    omega

theorem decimal?_scientific (style : Style) (hdigits : Digits digits) (power : Int) :
    decimal? (scientific style digits power) =
      some ⟨Text.toNat digits, power - (digits.length - 1 : Nat)⟩ := by
  have hfirst : Digits (digits.take 1) := by
    refine ⟨?_, fun c hc => hdigits.2 c (List.mem_of_mem_take hc)⟩
    simp [hdigits.1]
  have hfraction : ∀ c ∈ digits.drop 1, c.isDigit = true :=
    fun c hc => hdigits.2 c (List.mem_of_mem_drop hc)
  have hread := decimal?_pointed hfirst hfraction (exponent_written style.exponentPlaces power)
    (exponent?_written style.exponentPlaces power)
  rw [List.take_append_drop, List.length_drop] at hread
  exact hread

theorem decimal?_positional_nonpos (hdigits : Digits digits) (h : places ≤ 0) :
    decimal? (positional digits places) = some ⟨Text.toNat digits, places - digits.length⟩ := by
  let zeros := List.replicate (-places).toNat '0'
  have hzero : Digits ['0'] := ⟨List.cons_ne_nil _ _, by simp⟩
  have hfraction : ∀ c ∈ zeros ++ digits, c.isDigit = true := by
    rw [List.forall_mem_append]
    exact ⟨Text.isDigit_of_mem_zeros, hdigits.2⟩
  have hne : (zeros ++ digits).isEmpty = false :=
    List.isEmpty_eq_false_iff.2 (List.append_ne_nil_of_right_ne_nil _ hdigits.1)
  have hlayout : positional digits places =
      ['0'] ++ (if (zeros ++ digits).isEmpty then [] else '.' :: (zeros ++ digits)) ++ [] := by
    simp [positional, h, hne, zeros]
  have htoNat : Text.toNat (['0'] ++ (zeros ++ digits)) = Text.toNat digits := by
    rw [← List.append_assoc]
    exact Text.toNat_zeros_append ((-places).toNat + 1) digits
  have hexponent : (0 : Int) - (zeros ++ digits).length = places - digits.length := by
    rw [List.length_append, List.length_replicate]
    omega
  rw [hlayout, decimal?_pointed hzero hfraction .absent rfl, htoNat, hexponent]

/-- Places without a digit are those of a whole number. -/
theorem decimal?_positional_pos (hdigits : Digits digits) (h : 0 < places) :
    decimal? (positional digits places) =
      some ⟨Text.toNat digits * 10 ^ (places - digits.length).toNat,
        min 0 (places - digits.length)⟩ := by
  let zeros := List.replicate (places.toNat - digits.length) '0'
  have hwhole : Digits (digits.take places.toNat ++ zeros) := by
    refine ⟨List.append_ne_nil_of_left_ne_nil ?_ _, ?_⟩
    · rw [ne_eq, List.take_eq_nil_iff, not_or]
      exact ⟨by omega, hdigits.1⟩
    · rw [List.forall_mem_append]
      exact ⟨fun c hc => hdigits.2 c (List.mem_of_mem_take hc), Text.isDigit_of_mem_zeros⟩
  have hfraction : ∀ c ∈ digits.drop places.toNat, c.isDigit = true :=
    fun c hc => hdigits.2 c (List.mem_of_mem_drop hc)
  have hread := decimal?_pointed hwhole hfraction .absent rfl
  rw [List.append_nil] at hread
  have hlayout : positional digits places = digits.take places.toNat ++ zeros ++
      (if (digits.drop places.toNat).isEmpty then [] else '.' :: digits.drop places.toNat) := by
    simp only [positional, if_neg (Int.not_le.2 h), zeros]
  have htoNat : Text.toNat (digits.take places.toNat ++ zeros ++ digits.drop places.toNat) =
      Text.toNat digits * 10 ^ (places - digits.length).toNat := by
    rcases Nat.le_total places.toNat digits.length with hshort | hlong
    · have hnone : (places - digits.length).toNat = 0 := by omega
      have hempty : zeros = [] := by
        simp only [zeros, Nat.sub_eq_zero_of_le hshort, List.replicate_zero]
      rw [hempty, List.append_nil, List.take_append_drop, hnone, Nat.pow_zero, Nat.mul_one]
    · have hcount : (places - digits.length).toNat = places.toNat - digits.length := by omega
      rw [List.take_of_length_le hlong, List.drop_of_length_le hlong, List.append_nil,
        Text.toNat_append_zeros, hcount]
  have hexponent : (0 : Int) - (digits.drop places.toNat).length =
      min 0 (places - digits.length) := by
    rw [List.length_drop]
    omega
  rw [hlayout, hread, htoNat, hexponent]

/-- A decimal whose exponent is within reach is read back from its layout with the same code. -/
theorem exists_decimal?_layout (d : Double.Decimal) :
    ∃ d', decimal? (layout .answers d) = some d' ∧ d'.code = d.code := by
  have hdigits := digits_ofNat d.digits
  have htoNat := Text.toNat_ofNat d.digits
  unfold layout
  generalize Text.ofNat d.digits = digits at hdigits htoNat
  have hlength : 0 < digits.length := List.length_pos_of_ne_nil hdigits.1
  have hplaces : (digits.length - 1 + d.exponent + 1 : Int) - digits.length = d.exponent := by omega
  dsimp only
  split
  · next hpower =>
    by_cases hpoint : (digits.length - 1 + d.exponent + 1 : Int) ≤ 0
    · refine ⟨_, decimal?_positional_nonpos hdigits hpoint, ?_⟩
      rw [htoNat, hplaces]
    · refine ⟨_, decimal?_positional_pos hdigits (Int.not_le.1 hpoint), ?_⟩
      have hreach : d.exponent ≤ 400 := by
        have hfirst : Style.answers.firstScientific = 16 := rfl
        omega
      rw [htoNat, hplaces, code_multiplied hreach]
  · refine ⟨_, decimal?_scientific .answers hdigits _, ?_⟩
    have hexponent : (digits.length - 1 + d.exponent : Int) - (digits.length - 1 : Nat) =
        d.exponent := by omega
    rw [htoNat, hexponent]

theorem decimal?_ofNat (n : Nat) : decimal? (Text.ofNat n) = some ⟨n, 0⟩ := by
  have hread := @decimal?_pointed _ [] [] (digits_ofNat n) nofun .absent 0 rfl
  simpa using hread

/-! ### Numbers -/

/-- The sign that is written before a magnitude. -/
theorem read_signed (negative : Bool) (h : decimal? unsigned = some d) :
    read ((if negative then ['-'] else []) ++ unsigned) = .value (ofCode negative d.code) := by
  have hdecimal : Decimal unsigned := decimal?_isSome_iff.1 (by rw [h]; rfl)
  have htake : takeSign ((if negative then ['-'] else []) ++ unsigned) = (negative, unsigned) := by
    cases negative with
    | true => rfl
    | false => exact takeSign_of_head (head_of_unsigned (.inl hdecimal))
  rw [read, htake]
  simp only [h]

theorem read_infinity (negative : Bool) :
    read ((if negative then ['-'] else []) ++ "inf".toList) =
      .value (ofCode negative infinityCode) := by
  cases negative <;> rfl

theorem mul_unitsOfOne_of_whole? {code : Nat} (h : whole? code = some n) :
    n * unitsOfOne = units code := by
  rw [whole?] at h
  split at h
  · next hwhole =>
    cases h
    exact Nat.div_mul_cancel (Nat.dvd_of_mod_eq_zero hwhole.1)
  · cases h

theorem write_zero (h : code x = 0) : write x = ['0'] := by
  have hnan : isNaNCode (code x) = false := by rw [h]; rfl
  have hinfinity : code x ≠ infinityCode := by rw [h]; decide
  have hwhole : whole? (code x) = some 0 := by
    simp [whole?, units_eq_zero_iff.2 h]
  simp [write, hnan, hinfinity, hwhole]

/-- What is written for a magnitude other than zero is read back as it, in either layout. -/
theorem read_write_finite (hzero : code x ≠ 0) (h : code x < infinityCode) :
    read (write x) = .value x := by
  have hle : code x ≤ infinityCode := h.le
  have hnan : isNaNCode (code x) = false := decide_eq_false (Nat.not_lt.2 hle)
  simp only [write, hnan, Bool.false_eq_true, if_false, h.ne]
  cases hwhole : whole? (code x) with
  | some n =>
      have hunits := mul_unitsOfOne_of_whole? hwhole
      have hn : n ≠ 0 := by
        rintro rfl
        rw [Nat.zero_mul] at hunits
        exact hzero (units_eq_zero_iff.1 hunits.symm)
      simp only [hn, if_false]
      rw [read_signed _ (decimal?_ofNat n), code_of_whole hunits hle, ofCode_code hle]
  | none =>
      obtain ⟨d, hd, hcode⟩ := exists_decimal?_layout (shortest (code x))
      rw [read_signed _ hd, hcode, code_shortest hle, ofCode_code hle]

/-- What is written for a number is read back as it, though zero without its sign. -/
theorem read_write (x : Float) : read (write x) = .value (if x == 0 then 0 else x) := by
  by_cases hzero : code x = 0
  · rw [beq_zero_iff.2 hzero, write_zero hzero]
    rfl
  · have hne : (x == 0) = false := by rwa [← Bool.not_eq_true, beq_zero_iff]
    rw [hne, if_neg Bool.false_ne_true]
    rcases Nat.lt_trichotomy (code x) infinityCode with hfinite | hinfinity | hnan
    · exact read_write_finite hzero hfinite
    · have hnumber : isNaNCode (code x) = false := decide_eq_false (Nat.not_lt.2 hinfinity.le)
      have hwrite : write x = (if isNegative x then ['-'] else []) ++ "inf".toList := by
        simp only [write, hnumber, Bool.false_eq_true, if_false]
        exact if_pos hinfinity
      rw [hwrite, read_infinity, ← hinfinity, ofCode_code hinfinity.le]
    · have hcode : isNaNCode (code x) = true := decide_eq_true hnan
      have hwrite : write x = "nan".toList := by simp [write, hcode]
      rw [hwrite, eq_notANumber hcode]
      rfl

end Numeral

end BracketCalc
