/-!
# Doubles by their codes

The 63 bits below the sign of a double number its magnitudes in ascending
order: the code of zero is 0, each code up to that of infinity stands for the
next greater magnitude, and codes above that of infinity are not numbers.  A
finite magnitude is a whole number of units of `2 ^ -1074`.
-/

namespace BracketCalc.Double

-- `Nat.pow` is the power of numbers alone, whereas `^` is that of monoids where there are any
def infinityCode : Nat := 2047 * Nat.pow 2 52

def isNegative (x : Float) : Bool := Nat.pow 2 63 ≤ x.toBits.toNat

def code (x : Float) : Nat := x.toBits.toNat % Nat.pow 2 63

private theorem pow_sign : Nat.pow 2 63 = 0x8000000000000000 := rfl

private theorem infinityCode_eq : infinityCode = 0x7FF0000000000000 := rfl

private theorem min_infinityCode_le (code : Nat) : min code infinityCode ≤ 0x7FF0000000000000 :=
  Nat.min_le_right ..

private theorem valid_ofNat {n : Nat} (h : n % Nat.pow 2 63 ≤ infinityCode) :
    Float.Model.Format.binary64.Valid (UInt64.ofNat n).toBitVec := by
  constructor
  intro exponent mantissa
  exfalso
  have exponent := congrArg BitVec.toNat exponent
  have mantissa : ¬ _ = _ := fun h => mantissa (BitVec.eq_of_toNat_eq h)
  simp [Float.Model.UnpackedFloat.unpackExponent, Float.Model.UnpackedFloat.unpackMantissa]
    at exponent mantissa
  rw [pow_sign, infinityCode_eq] at h
  omega

/-- The bits of a sign and a code, which is cut to that of infinity. -/
def pack (negative : Bool) (code : Nat) : Nat :=
  (if negative then Nat.pow 2 63 else 0) + min code infinityCode

private theorem pack_mod (negative : Bool) (code : Nat) :
    pack negative code % Nat.pow 2 63 = min code infinityCode := by
  have capped := min_infinityCode_le code
  unfold pack
  rw [pow_sign]
  split <;> omega

/-- The double with this sign and this code, which is cut to that of infinity. -/
def ofCode (negative : Bool) (code : Nat) : Float :=
  .ofModel ⟨.ofNat (pack negative code),
    valid_ofNat (by rw [pack_mod]; exact Nat.min_le_right ..)⟩

/-- The double that is not a number. -/
def notANumber : Float := .ofModel ⟨0x7FF8000000000000, ⟨fun _ _ => by decide⟩⟩

/-- Whether a code belongs to no number. -/
def isNaNCode (code : Nat) : Bool := infinityCode < code

/-- The units of a finite magnitude. -/
def units (code : Nat) : Nat :=
  if code < Nat.pow 2 52 then code
  else (Nat.pow 2 52 + code % Nat.pow 2 52) * Nat.pow 2 (code / Nat.pow 2 52 - 1)

/-- The units that make one. -/
def unitsOfOne : Nat := Nat.pow 2 1074

theorem toNat_toBits_ofCode (negative : Bool) (code : Nat) :
    (ofCode negative code).toBits.toNat = pack negative code := by
  have capped := min_infinityCode_le code
  change (UInt64.ofNat _).toNat = _
  rw [UInt64.toNat_ofNat', Nat.mod_eq_of_lt]
  unfold pack
  rw [pow_sign]
  split <;> omega

/-- A double is known by its bits. -/
theorem eq_of_toBits_eq {x y : Float} (h : x.toBits = y.toBits) : x = y := by
  obtain ⟨⟨a, ha⟩⟩ := x
  obtain ⟨⟨b, hb⟩⟩ := y
  obtain rfl : a = b := h
  rfl

/-- A double that is a number is known by its sign and its code. -/
theorem ofCode_code {x : Float} (h : code x ≤ infinityCode) :
    ofCode (isNegative x) (code x) = x := by
  apply eq_of_toBits_eq
  apply UInt64.toNat_inj.1
  have bound := x.toBits.toNat_lt
  rw [toNat_toBits_ofCode, pack, Nat.min_eq_left h, code, isNegative, pow_sign]
  by_cases s : 0x8000000000000000 ≤ x.toBits.toNat
  · rw [if_pos (decide_eq_true s)]
    omega
  · rw [decide_eq_false s, if_neg Bool.false_ne_true]
    omega

end BracketCalc.Double
