import BracketCalc.Double.Basic
/-!
# The same double

All doubles that are not a number are the same one, so that two doubles are the
same exactly if they are equal.
-/

namespace BracketCalc.Double

/-- Both have the same bits, or neither is a number. -/
def Same (x y : Float) : Prop :=
  x.toBits = y.toBits ∨ isNaNCode (code x) = true ∧ isNaNCode (code y) = true

variable {x y : Float}

/-- There is only one double that is not a number. -/
theorem eq_notANumber (h : isNaNCode (code x) = true) : x = notANumber := by
  obtain ⟨⟨bits, hvalid⟩⟩ := x
  have hcode : infinityCode < bits.toNat % Nat.pow 2 63 := of_decide_eq_true h
  have hinfinity : infinityCode = 0x7FF0000000000000 := rfl
  have hsign : Nat.pow 2 63 = 0x8000000000000000 := rfl
  have hlt := bits.toNat_lt
  rw [hinfinity, hsign] at hcode
  apply eq_of_toBits_eq
  apply UInt64.eq_of_toBitVec_eq
  -- the bits of the exponent are all set and those of the mantissa are not zero
  refine hvalid.eq_packedNaN (BitVec.eq_of_toNat_eq ?_) fun hmantissa => ?_
  · simp [Float.Model.UnpackedFloat.unpackExponent]
    omega
  · have hzero := congrArg BitVec.toNat hmantissa
    simp [Float.Model.UnpackedFloat.unpackMantissa] at hzero
    omega

theorem same_iff : Same x y ↔ x = y := by
  constructor
  · rintro (hbits | ⟨hx, hy⟩)
    · exact eq_of_toBits_eq hbits
    · rw [eq_notANumber hx, eq_notANumber hy]
  · rintro rfl
    exact .inl rfl

end BracketCalc.Double
