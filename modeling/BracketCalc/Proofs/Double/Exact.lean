import BracketCalc.Double.Shortest
import Mathlib.Algebra.Order.Ring.Nat
import Mathlib.Data.Nat.Log
/-!
# Magnitudes that are read back

A finite magnitude is a significand of at most 53 bits with a power of two, and
its code is put together of the same two numbers (`exists_significand`).  A
quotient that is a magnitude is therefore rounded to it (`nearestCode_of_units`).
Hence the decimal of a magnitude, on whichever grid it is found, and the whole
number that a magnitude is, are read back as it.
-/

namespace BracketCalc.Double

variable {code num den n exponent : Nat}

theorem roundHalfEven_mul (hden : 0 < den) : roundHalfEven (n * den) den = n := by
  simp [roundHalfEven, Nat.mul_div_cancel n hden, hden]

theorem roundHalfEven_eq_or (num den : Nat) :
    roundHalfEven num den = num / den ∨ roundHalfEven num den = num / den + 1 := by
  unfold roundHalfEven
  rcases Nat.mod_two_eq_zero_or_one (num / den) with heven | hodd
  · grind
  · grind

/-- The significand of a magnitude and its power of two, which is that of the unit unless the
significand has all its bits. -/
theorem exists_significand (code : Nat) : ∃ significand power,
    units code = significand * 2 ^ power ∧ power * 2 ^ 52 + significand = code ∧
      significand < 2 ^ 53 ∧ (power = 0 ∨ 2 ^ 52 ≤ significand) := by
  have hpow : ∀ e, Nat.pow 2 e = 2 ^ e := fun _ => rfl
  simp only [units, hpow]
  by_cases h : code < 2 ^ 52
  · refine ⟨code, 0, ?_, ?_, ?_, .inl rfl⟩
    · rw [if_pos h, Nat.pow_zero, Nat.mul_one]
    · omega
    · omega
  · refine ⟨2 ^ 52 + code % 2 ^ 52, code / 2 ^ 52 - 1, if_neg h, ?_, ?_, .inr ?_⟩ <;> omega

theorem log2_significand {significand power : Nat} (h : significand < 2 ^ 53)
    (hbits : power = 0 ∨ 2 ^ 52 ≤ significand) :
    (significand * 2 ^ power).log2 - 52 = power := by
  rcases hbits with rfl | hbits
  · rw [Nat.pow_zero, Nat.mul_one]
    by_cases hzero : significand = 0
    · rw [hzero, Nat.log2_zero]
    · have hlog := (Nat.log2_lt hzero).2 h
      omega
  · have hpos : 0 < 2 ^ power := Nat.two_pow_pos power
    have hne : significand * 2 ^ power ≠ 0 := Nat.mul_ne_zero (by omega) hpos.ne'
    have hlow : 2 ^ (52 + power) ≤ significand * 2 ^ power := by
      rw [Nat.pow_add]
      exact Nat.mul_le_mul_right _ hbits
    have hhigh : significand * 2 ^ power < 2 ^ (52 + power + 1) := by
      rw [Nat.add_right_comm, Nat.pow_add]
      exact Nat.mul_lt_mul_of_pos_right h hpos
    rw [(Nat.log2_eq_iff hne).2 ⟨hlow, hhigh⟩, Nat.add_sub_cancel_left]

theorem units_eq_zero_iff : units code = 0 ↔ code = 0 := by
  obtain ⟨significand, power, hunits, hcode, -, hbits⟩ := exists_significand code
  have hpos : 2 ^ power ≠ 0 := (Nat.two_pow_pos power).ne'
  rw [hunits, Nat.mul_eq_zero, or_iff_left hpos]
  rcases hbits with rfl | hbits
  · omega
  · omega

/-- A quotient that is a magnitude is rounded to it. -/
theorem nearestCode_of_units (hden : 0 < den) (h : num * unitsOfOne = units code * den)
    (hcode : code ≤ infinityCode) : nearestCode num den = code := by
  obtain ⟨significand, power, hunits, hsum, hlt, hbits⟩ := exists_significand code
  have hscale : (num * unitsOfOne / den).log2 - 52 = power := by
    rw [h, Nat.mul_div_cancel _ hden, hunits, log2_significand hlt hbits]
  have hround : roundHalfEven (num * unitsOfOne) (den * Nat.pow 2 power) = significand := by
    have hproduct : num * unitsOfOne = significand * (den * 2 ^ power) := by
      rw [h, hunits, Nat.mul_assoc, Nat.mul_comm (2 ^ power)]
    rw [hproduct]
    exact roundHalfEven_mul (Nat.mul_pos hden (Nat.two_pow_pos power))
  have hsum' : power * Nat.pow 2 52 + significand = code := hsum
  simp only [nearestCode, hscale, hround, hsum']
  exact Nat.min_eq_right hcode

/-! ### Decimals -/

theorem Decimal.code_zero (exponent : Int) : Decimal.code ⟨0, exponent⟩ = 0 := if_pos rfl

/-- A power of ten within reach may be multiplied out. -/
theorem code_multiplied {exponent : Int} (h : exponent ≤ 400) :
    Decimal.code ⟨n * 10 ^ exponent.toNat, min 0 exponent⟩ = Decimal.code ⟨n, exponent⟩ := by
  cases exponent with
  | ofNat e =>
      have hnear : ¬ 400 < e := by
        change (e : Int) ≤ 400 at h
        omega
      have hzero : min 0 (Int.ofNat e) = 0 := Int.min_eq_left (Int.natCast_nonneg e)
      rw [hzero]
      simp [Decimal.code, hnear]
  | negSucc e =>
      have hmin : min 0 (Int.negSucc e) = Int.negSucc e :=
        Int.min_eq_right (Int.le_of_lt (Int.negSucc_lt_zero e))
      have hnone : n * 10 ^ (Int.negSucc e).toNat = n := Nat.mul_one n
      rw [hmin, hnone]

/-- A whole number is read back as the magnitude that it is. -/
theorem code_of_whole (h : n * unitsOfOne = units code) (hcode : code ≤ infinityCode) :
    Decimal.code ⟨n, 0⟩ = code := by
  by_cases hzero : n = 0
  · rw [hzero, Nat.zero_mul] at h
    rw [hzero, Decimal.code_zero, units_eq_zero_iff.1 h.symm]
  · have hnearest : nearestCode n 1 = code :=
      nearestCode_of_units Nat.one_pos (by rw [h, Nat.mul_one]) hcode
    simp [Decimal.code, hzero, hnearest]

theorem le_log2_mul_pow_five (hn : n ≠ 0) (e : Nat) : 2 * e ≤ (n * 5 ^ e).log2 := by
  have hpow : 5 ^ e ≠ 0 := (Nat.pow_pos (by omega)).ne'
  rw [Nat.le_log2 (Nat.mul_ne_zero hn hpow)]
  calc 2 ^ (2 * e) = 4 ^ e := Nat.pow_mul 2 2 e
    _ ≤ 5 ^ e := Nat.pow_le_pow_left (by omega) e
    _ ≤ n * 5 ^ e := Nat.le_mul_of_pos_left _ (Nat.pos_of_ne_zero hn)

theorem unitsOfOne_eq : unitsOfOne = Nat.pow 2 1074 := by
  delta unitsOfOne
  exact rfl

/-- On the grid of its unit a magnitude is read back. -/
theorem code_of_finest (hcode : code ≤ infinityCode) :
    Decimal.code ⟨units code * Nat.pow 5 1074, -1074⟩ = code := by
  have hexponent : (-1074 : Int) = .negSucc 1073 := rfl
  have hunit := unitsOfOne_eq
  rw [hexponent]
  -- with a variable as their exponent, none of the powers is computed
  generalize hpower : 1074 = power at hunit ⊢
  have hnext : power = 1073 + 1 := hpower.symm
  by_cases hzero : units code = 0
  · rw [hzero, Nat.zero_mul, Decimal.code_zero, units_eq_zero_iff.1 hzero]
  · have hlog : 2 * power ≤ (units code * Nat.pow 5 power).log2 := le_log2_mul_pow_five hzero power
    have hnear : ¬ (units code * Nat.pow 5 power).log2 + 400 ≤ 1073 := by omega
    have hfive : Nat.pow 5 power ≠ 0 := (Nat.pow_pos (by omega)).ne'
    have hten : Nat.pow 5 power * Nat.pow 2 power = Nat.pow 10 power :=
      (Nat.mul_pow 5 2 power).symm
    simp only [Decimal.code, Nat.mul_ne_zero hzero hfive, hnear, if_false, ← hnext]
    refine nearestCode_of_units (Nat.pow_pos (by omega)) ?_ hcode
    rw [hunit, Nat.mul_assoc, hten]

theorem code_of_neighbour {exponent : Int} {d : Decimal}
    (h : neighbour? code exponent = some d) : d.code = code := by
  unfold neighbour? at h
  generalize units code * Nat.pow 10 (-exponent).toNat = num at h
  generalize unitsOfOne * Nat.pow 10 exponent.toNat = den at h
  dsimp only at h
  split at h
  · next hbelow habove =>
    cases h
    rw [decide_eq_true_iff] at hbelow habove
    rcases roundHalfEven_eq_or _ _ with hround | hround
    · rw [hround, hbelow]
    · rw [hround, habove]
  · next hbelow _ =>
    cases h
    exact of_decide_eq_true hbelow
  · next _ habove =>
    cases h
    exact of_decide_eq_true habove
  · cases h

theorem code_shortestFrom (hcode : code ≤ infinityCode) (exponent : Int) (grids : Nat) :
    (shortestFrom code exponent grids).code = code := by
  induction grids generalizing exponent with
  | zero => exact code_of_finest hcode
  | succ grids ih =>
      rw [shortestFrom]
      split
      · next d hd => exact code_of_neighbour hd
      · exact ih (exponent - 1)

/-- The shortest decimal of a magnitude is read back as it. -/
theorem code_shortest (hcode : code ≤ infinityCode) : (shortest code).code = code :=
  code_shortestFrom hcode _ _

end BracketCalc.Double
