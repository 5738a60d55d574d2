import BracketCalc.Proofs.Double.Same
import Mathlib.Algebra.Order.Ring.Nat
/-!
# Equality of doubles

The bits of a double unpack to its sign and to what its code stands for
(`unpack_cases`).  Hence a double is not a number exactly if its code is above
that of infinity, it is equal to zero exactly if its code is 0, and otherwise
numbers are equal only if they are the same double (`eq_or_zero_of_beq`).
-/

namespace BracketCalc.Double

open Float.Model

variable {x y : Float} {a b : UnpackedFloat}

/-! ### The fields of a double -/

def sign (x : Float) : UnpackedFloat.Sign := if isNegative x then .negative else .positive

theorem code_lt (x : Float) : code x < 2 ^ 63 := Nat.mod_lt _ (by decide)

theorem sign_eq (x : Float) :
    .ofBitVec (@UnpackedFloat.unpackSign .binary64 x.toModel.toBits.toBitVec) = sign x := by
  have hnegative : isNegative x = decide (0x8000000000000000 ≤ x.toModel.toBits.toNat) := rfl
  have hlt := x.toModel.toBits.toNat_lt
  have hpositive : @UnpackedFloat.unpackSign .binary64 x.toModel.toBits.toBitVec = 0 ↔
      ¬ 0x8000000000000000 ≤ x.toModel.toBits.toNat := by
    have htoNat : (@UnpackedFloat.unpackSign .binary64 x.toModel.toBits.toBitVec).toNat =
        x.toModel.toBits.toNat >>> 63 % 2 := rfl
    have hzero : (0 : BitVec 1).toNat = 0 := rfl
    rw [← BitVec.toNat_inj, htoNat, hzero, Nat.shiftRight_eq_div_pow]
    omega
  rw [sign, hnegative]
  by_cases h : 0x8000000000000000 ≤ x.toModel.toBits.toNat
  · rw [if_pos (decide_eq_true h)]
    exact if_neg fun hzero => hpositive.1 hzero h
  · rw [decide_eq_false h, if_neg Bool.false_ne_true]
    exact if_pos (hpositive.2 h)

theorem toNat_exponent (x : Float) :
    (@UnpackedFloat.unpackExponent .binary64 x.toModel.toBits.toBitVec).toNat =
      code x / 2 ^ 52 := by
  have hcode : code x = x.toModel.toBits.toNat % 0x8000000000000000 := rfl
  rw [hcode]
  simp [UnpackedFloat.unpackExponent]
  omega

theorem toNat_mantissa (x : Float) :
    (@UnpackedFloat.unpackMantissa .binary64 x.toModel.toBits.toBitVec).toNat =
      code x % 2 ^ 52 := by
  have hcode : code x = x.toModel.toBits.toNat % 0x8000000000000000 := rfl
  rw [hcode]
  simp [UnpackedFloat.unpackMantissa]

theorem exponent_eq_ones_iff :
    @UnpackedFloat.unpackExponent .binary64 x.toModel.toBits.toBitVec = -1 ↔
      infinityCode ≤ code x := by
  have hinfinity : infinityCode = 0x7FF0000000000000 := rfl
  have hones : (-1 : BitVec Format.binary64.exponentBits).toNat = 2047 := by decide
  have hlt := code_lt x
  rw [hinfinity, ← BitVec.toNat_inj, toNat_exponent, hones]
  omega

theorem exponent_eq_zero_iff :
    @UnpackedFloat.unpackExponent .binary64 x.toModel.toBits.toBitVec = 0 ↔
      code x < 2 ^ 52 := by
  have hzero : (0 : BitVec Format.binary64.exponentBits).toNat = 0 := rfl
  rw [← BitVec.toNat_inj, toNat_exponent, hzero]
  omega

theorem mantissa_eq_zero_iff :
    @UnpackedFloat.unpackMantissa .binary64 x.toModel.toBits.toBitVec = 0 ↔
      code x % 2 ^ 52 = 0 := by
  have hzero : (0 : BitVec Format.binary64.mantissaBitsWithoutImplicit).toNat = 0 := rfl
  rw [← BitVec.toNat_inj, toNat_mantissa, hzero]

theorem toNat_significand (m : BitVec 52) : (1#1 ++ m).toNat = 2 ^ 52 + m.toNat := by
  have hone : (1#1).toNat <<< 52 = 2 ^ 52 := by decide
  have hadd := Nat.two_pow_add_eq_or_of_lt m.isLt 1
  rw [Nat.mul_one] at hadd
  rw [BitVec.toNat_append, hone, hadd]

theorem finite_congr {s : UnpackedFloat.Sign} {m m' : Nat} {e e' : Int} {h : 0 < m} {h' : 0 < m'}
    (hm : m = m') (he : e = e') : UnpackedFloat.finite s m e h = .finite s m' e' h' := by
  subst hm he
  rfl

/-- Ones in the exponent belong to infinity and to what is not a number. -/
theorem unpack_cases (x : Float) :
    infinityCode < code x ∧ x.toModel.unpack = .notANumber ∨
    code x = infinityCode ∧ x.toModel.unpack = .infinity (sign x) ∨
    code x = 0 ∧ x.toModel.unpack = .zero (sign x) ∨
    0 < code x ∧ code x < infinityCode ∧
      ∃ significand power h, power * 2 ^ 52 + significand = code x ∧
        x.toModel.unpack = .finite (sign x) significand ((power : Nat) - 1074) h := by
  have hinfinity : infinityCode = 0x7FF0000000000000 := rfl
  have hbias : ((Format.binary64.exponentBias : Int) +
      (Format.binary64.mantissaBitsWithoutImplicit : Int)) = 1075 := rfl
  have hlt := code_lt x
  rw [← sign_eq x]
  by_cases hones : infinityCode ≤ code x
  · have hexponent := exponent_eq_ones_iff.2 hones
    by_cases hzero : code x % 2 ^ 52 = 0
    · have hmantissa := mantissa_eq_zero_iff.2 hzero
      exact .inr (.inl ⟨by omega, (if_pos hexponent).trans (if_pos hmantissa)⟩)
    · have hmantissa := mt mantissa_eq_zero_iff.1 hzero
      exact .inl ⟨by omega, (if_pos hexponent).trans (if_neg hmantissa)⟩
  · have hexponent := mt exponent_eq_ones_iff.1 hones
    by_cases hlow : code x < 2 ^ 52
    · have hunit := exponent_eq_zero_iff.2 hlow
      by_cases hzero : code x % 2 ^ 52 = 0
      · have hmantissa := mantissa_eq_zero_iff.2 hzero
        exact .inr (.inr (.inl ⟨by omega,
          (if_neg hexponent).trans ((if_pos hunit).trans (dif_pos hmantissa))⟩))
      · have hmantissa := mt mantissa_eq_zero_iff.1 hzero
        refine .inr (.inr (.inr ⟨by omega, by omega, code x, 0, by omega, by omega,
          (if_neg hexponent).trans ((if_pos hunit).trans
            ((dif_neg hmantissa).trans (finite_congr ?_ ?_)))⟩))
        · rw [toNat_mantissa]
          omega
        · rw [toNat_exponent, hbias]
          omega
    · have hunit := mt exponent_eq_zero_iff.1 hlow
      refine .inr (.inr (.inr ⟨by omega, by omega, 2 ^ 52 + code x % 2 ^ 52,
        code x / 2 ^ 52 - 1, by omega, by omega,
        (if_neg hexponent).trans ((if_neg hunit).trans (finite_congr ?_ ?_))⟩))
      · rw [← toNat_mantissa]
        exact toNat_significand _
      · rw [toNat_exponent, hbias]
        omega

theorem isNaN_iff : x.isNaN = true ↔ isNaNCode (code x) = true := by
  have hcode : isNaNCode (code x) = true ↔ infinityCode < code x := decide_eq_true_iff
  have hmodel : x.isNaN = x.toModel.unpack.isNaN := rfl
  rw [hcode, hmodel]
  rcases unpack_cases x with ⟨h, hunpack⟩ | ⟨h, hunpack⟩ | ⟨h, hunpack⟩ |
    ⟨_, h, _, _, _, _, hunpack⟩
  · rw [hunpack]
    exact iff_of_true rfl h
  · rw [hunpack]
    exact iff_of_false Bool.false_ne_true (by omega)
  · rw [hunpack]
    exact iff_of_false Bool.false_ne_true (by omega)
  · rw [hunpack]
    exact iff_of_false Bool.false_ne_true (by omega)

/-! ### Unpacked doubles -/

/-- The sign and the code of what is a number. -/
def packed : UnpackedFloat → UnpackedFloat.Sign × Nat
  | .notANumber => (.positive, 0)
  | .infinity sign => (sign, infinityCode)
  | .zero sign => (sign, 0)
  | .finite sign significand exponent _ =>
      (sign, (exponent + 1074).toNat * 2 ^ 52 + significand)

theorem packed_unpack (h : code x ≤ infinityCode) : packed x.toModel.unpack = (sign x, code x) := by
  rcases unpack_cases x with ⟨hnan, -⟩ | ⟨hcode, hunpack⟩ | ⟨hcode, hunpack⟩ |
    ⟨-, -, significand, power, _, hcode, hunpack⟩
  · omega
  · rw [hunpack, hcode]
    rfl
  · rw [hunpack, hcode]
    rfl
  · have hpower : ((power : Nat) - 1074 + 1074 : Int).toNat = power := by omega
    rw [hunpack, ← hcode]
    exact congrArg (fun p => (sign x, p * 2 ^ 52 + significand)) hpower

theorem eq_of_unpack_eq (hx : code x ≤ infinityCode) (hy : code y ≤ infinityCode)
    (h : x.toModel.unpack = y.toModel.unpack) : x = y := by
  have hpacked : (sign x, code x) = (sign y, code y) := by
    rw [← packed_unpack hx, ← packed_unpack hy, h]
  obtain ⟨hsign, hcode⟩ := Prod.mk.inj hpacked
  have hnegative : isNegative x = isNegative y := by
    revert hsign
    unfold sign
    cases isNegative x <;> cases isNegative y <;> simp
  rw [← ofCode_code hx, ← ofCode_code hy, hnegative, hcode]

theorem eq_of_then_eq {e e' : Int} {m m' : Nat} (h : (compare e e').then (compare m m') = .eq) :
    m = m' ∧ e = e' := by
  obtain ⟨he, hm⟩ := Ordering.then_eq_eq.1 h
  exact ⟨Std.LawfulEqOrd.eq_of_compare hm, Std.LawfulEqOrd.eq_of_compare he⟩

/-- Only zeros are equal without being the same. -/
theorem eq_of_compare (h : a.compare b = some .eq) :
    a = b ∨ ∃ s t, a = .zero s ∧ b = .zero t := by
  cases a with
  | notANumber => cases h
  | infinity s =>
      cases b with
      | infinity t => cases s <;> cases t <;> first | exact .inl rfl | cases h
      | notANumber | zero | finite => cases s <;> cases h
  | zero s =>
      cases b with
      | zero t => exact .inr ⟨s, t, rfl, rfl⟩
      | notANumber => cases h
      | infinity t | finite t => cases t <;> cases h
  | finite s m e hpos =>
      cases b with
      | notANumber => cases s <;> cases h
      | infinity t => cases s <;> cases t <;> cases h
      | zero => cases s <;> cases h
      | finite t m' e' hpos' =>
          have hequal : s = t ∧ (compare e e').then (compare m m') = .eq := by
            cases s <;> cases t
            · exact ⟨rfl, Ordering.swap_eq_eq.1 (Option.some.inj h)⟩
            · cases h
            · cases h
            · exact ⟨rfl, Option.some.inj h⟩
          obtain ⟨rfl, hequal⟩ := hequal
          obtain ⟨rfl, rfl⟩ := eq_of_then_eq hequal
          exact .inl rfl

theorem compare_self (h : a.isNaN = false) : a.compare a = some .eq := by
  cases a with
  | notANumber => cases h
  | infinity sign => cases sign <;> rfl
  | zero sign => rfl
  | finite sign mantissa exponent hpos =>
      have hequal : (compare exponent exponent).then (compare mantissa mantissa) = .eq := by
        rw [Std.compare_self, Std.compare_self]
        rfl
      cases sign with
      | negative => exact congrArg (some ∘ Ordering.swap) hequal
      | positive => exact congrArg some hequal

/-! ### Equality -/

theorem beq_eq (x y : Float) :
    (x == y) = (x.toModel.unpack.compare y.toModel.unpack == some .eq) := rfl

theorem beq_self (h : x.isNaN = false) : (x == x) = true := by
  rw [beq_eq, compare_self h]
  rfl

theorem code_eq_zero_iff : code x = 0 ↔ ∃ s, x.toModel.unpack = .zero s := by
  have hinfinity : infinityCode ≠ 0 := by decide
  rcases unpack_cases x with ⟨h, hunpack⟩ | ⟨h, hunpack⟩ | ⟨h, hunpack⟩ |
    ⟨h, _, _, _, _, _, hunpack⟩
  · exact iff_of_false (by omega) (by rintro ⟨s, hs⟩; cases hunpack.symm.trans hs)
  · exact iff_of_false (by omega) (by rintro ⟨s, hs⟩; cases hunpack.symm.trans hs)
  · exact iff_of_true h ⟨_, hunpack⟩
  · exact iff_of_false (by omega) (by rintro ⟨s, hs⟩; cases hunpack.symm.trans hs)

theorem code_le_of_compare (h : x.toModel.unpack.compare a = some .eq) :
    code x ≤ infinityCode := by
  rcases unpack_cases x with ⟨-, hunpack⟩ | ⟨hcode, -⟩ | ⟨hcode, -⟩ | ⟨-, hlt, -⟩
  · rw [hunpack] at h
    cases h
  · exact Nat.le_of_eq hcode
  · exact hcode ▸ Nat.zero_le _
  · exact Nat.le_of_lt hlt

/-- Equal numbers are the same double, zeros of either sign apart. -/
theorem eq_or_zero_of_beq (h : (x == y) = true) : x = y ∨ code x = 0 ∧ code y = 0 := by
  rw [beq_eq, beq_iff_eq] at h
  rcases eq_of_compare h with hunpack | ⟨s, t, hs, ht⟩
  · have hx := code_le_of_compare h
    rw [hunpack] at h
    exact .inl (eq_of_unpack_eq hx (code_le_of_compare h) hunpack)
  · exact .inr ⟨code_eq_zero_iff.2 ⟨s, hs⟩, code_eq_zero_iff.2 ⟨t, ht⟩⟩

/-- Zeros of either sign are equal. -/
theorem beq_of_code_eq_zero (hx : code x = 0) (hy : code y = 0) : (x == y) = true := by
  obtain ⟨s, hs⟩ := code_eq_zero_iff.1 hx
  obtain ⟨t, ht⟩ := code_eq_zero_iff.1 hy
  rw [beq_eq, hs, ht]
  rfl

theorem beq_zero_iff : (x == 0) = true ↔ code x = 0 := by
  constructor
  · intro h
    rcases eq_or_zero_of_beq h with rfl | hcode
    · rfl
    · exact hcode.1
  · intro h
    exact beq_of_code_eq_zero h rfl

end BracketCalc.Double
