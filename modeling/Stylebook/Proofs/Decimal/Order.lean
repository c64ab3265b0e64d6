import Mathlib
import Stylebook.Analysis.Similarity

/-!
Numbers are ordered like their bits. A number is a significand times a power of two, and its bits
without the sign are the two in one number, the power above the significand; of two numbers that
are not negative the one with the greater bits is therefore the greater.
-/

namespace Stylebook

open Float.Model Float.Model.UnpackedFloat

/-! ## Fields of bits -/

section

variable (bits : BitVec Format.binary64.numBits)

theorem toNat_unpackMantissa : (unpackMantissa bits).toNat = bits.toNat % 2 ^ 52 := by
  simp [unpackMantissa, BitVec.extractLsb]

theorem toNat_unpackExponent : (unpackExponent bits).toNat = bits.toNat / 2 ^ 52 % 2 ^ 11 := by
  simp [unpackExponent, BitVec.extractLsb, Nat.shiftRight_eq_div_pow]

theorem toNat_unpackSign : (unpackSign bits).toNat = bits.toNat / 2 ^ 63 % 2 := by
  simp [unpackSign, BitVec.extractLsb, Nat.shiftRight_eq_div_pow]

end

theorem toNat_one_append {width : Nat} (fraction : BitVec width) :
    (1#1 ++ fraction).toNat = 2 ^ width + fraction.toNat := by
  rw [BitVec.toNat_append, ← Nat.shiftLeft_add_eq_or_of_lt fraction.isLt]
  simp [Nat.shiftLeft_eq]

/-- The bits without the sign. -/
theorem magnitude_eq (bits : BitVec Format.binary64.numBits) :
    bits.toNat % 2 ^ 63 = (unpackExponent bits).toNat * 2 ^ 52 + (unpackMantissa bits).toNat := by
  rw [toNat_unpackMantissa, toNat_unpackExponent]
  omega

inductive StandsFor (sign : Sign) (magnitude : Nat) : UnpackedFloat → Prop
  | notANumber : StandsFor sign magnitude .notANumber
  | infinite (largest : magnitude = 2047 * 2 ^ 52) : StandsFor sign magnitude (.infinity sign)
  | zero (least : magnitude = 0) : StandsFor sign magnitude (.zero sign)
  | finite (exponent : Nat) {significand : Nat} {power : Int} (positive : 0 < significand)
      (isPower : power = exponent - 1074) (parts : magnitude = exponent * 2 ^ 52 + significand)
      (small : significand < 2 ^ 53) (within : exponent ≤ 2045)
      (normal : exponent = 0 ∨ 2 ^ 52 ≤ significand) :
      StandsFor sign magnitude (.finite sign significand power positive)

theorem standsFor_unpack (bits : BitVec Format.binary64.numBits) :
    StandsFor (Sign.ofBitVec (unpackSign bits)) (bits.toNat % 2 ^ 63)
      (UnpackedFloat.unpack .binary64 bits) := by
  have bias : ((Format.binary64.exponentBias : Nat) : Int) = 1023 := rfl
  have width : ((Format.binary64.mantissaBitsWithoutImplicit : Nat) : Int) = 52 := rfl
  have fraction : (unpackMantissa bits).toNat < 2 ^ 52 := (unpackMantissa bits).isLt
  have exponent : (unpackExponent bits).toNat < 2048 := (unpackExponent bits).isLt
  rw [magnitude_eq, UnpackedFloat.unpack]
  by_cases isLargest : unpackExponent bits = -(1#_)
  · rw [if_pos isLargest]
    split
    · next isZero =>
        rw [isLargest, isZero]
        exact .infinite rfl
    · exact .notANumber
  · rw [if_neg isLargest]
    have notLargest : (unpackExponent bits).toNat ≠ 2047 :=
      fun same => isLargest (BitVec.eq_of_toNat_eq same)
    by_cases isLeast : unpackExponent bits = 0#_
    · rw [if_pos isLeast]
      have least : (unpackExponent bits).toNat = 0 := congrArg BitVec.toNat isLeast
      split
      · next isZero =>
          rw [isLeast, isZero]
          exact .zero rfl
      · exact .finite 0 _ (by omega) (by omega) (by omega) (by omega) (.inl rfl)
    · rw [if_neg isLeast]
      have notLeast : (unpackExponent bits).toNat ≠ 0 :=
        fun same => isLeast (BitVec.eq_of_toNat_eq same)
      have significand : (1#1 ++ unpackMantissa bits).toNat =
          2 ^ 52 + (unpackMantissa bits).toNat := toNat_one_append _
      exact .finite ((unpackExponent bits).toNat - 1) _ (by omega) (by omega)
        (by omega) (by omega) (by omega)

/-! ## Order -/

theorem le_of_finite_le {significand other : Nat} {power otherPower : Int}
    {positive : 0 < significand} {otherPositive : 0 < other}
    (holds : (UnpackedFloat.finite .positive significand power positive).le
      (.finite .positive other otherPower otherPositive)) :
    power < otherPower ∨ power = otherPower ∧ significand ≤ other := by
  replace holds : ((compare power otherPower).then (compare significand other)).isLE := holds
  rcases Int.lt_trichotomy power otherPower with less | rfl | greater
  · exact .inl less
  · have same : compare power power = .eq := Std.ReflCmp.compare_self
    rw [same, Ordering.eq_then, Nat.isLE_compare] at holds
    exact .inr ⟨rfl, holds⟩
  · rw [Int.compare_eq_gt.mpr greater] at holds
    cases holds

/-- A number that is not negative is above all negative ones, and above one that is not negative
if it has greater bits. -/
theorem StandsFor.magnitude_le {sign : Sign} {magnitude otherMagnitude : Nat}
    {number other : UnpackedFloat} (first : StandsFor .positive magnitude number)
    (second : StandsFor sign otherMagnitude other) (holds : number.le other) :
    magnitude = 0 ∨ sign = .positive ∧ magnitude ≤ otherMagnitude := by
  cases first with
  | notANumber => cases holds
  | zero least => exact .inl least
  | infinite largest =>
      cases second with
      | infinite otherLargest =>
          cases sign with
          | negative => cases holds
          | positive => exact .inr ⟨rfl, Nat.le_of_eq (largest.trans otherLargest.symm)⟩
      | notANumber => cases holds
      | zero least => cases holds
      | finite exponent positive isPower parts small within normal => cases holds
  | finite exponent positive isPower parts small within normal =>
      cases second with
      | notANumber => cases holds
      | zero least => cases holds
      | infinite largest =>
          cases sign with
          | negative => cases holds
          | positive => exact .inr ⟨rfl, by omega⟩
      | finite otherExponent otherPositive otherIsPower otherParts otherSmall _ otherNormal =>
          cases sign with
          | negative => cases holds
          | positive =>
              refine .inr ⟨rfl, ?_⟩
              rcases le_of_finite_le holds with less | ⟨same, below⟩ <;> omega

theorem ofBitVec_unpackSign (bits : BitVec Format.binary64.numBits) :
    Sign.ofBitVec (unpackSign bits) = if bits.toNat < 2 ^ 63 then .positive else .negative := by
  have isBit := toNat_unpackSign bits
  have bound : bits.toNat < 2 ^ 64 := bits.isLt
  by_cases below : bits.toNat < 2 ^ 63
  · have isZero : bits.toNat / 2 ^ 63 % 2 = 0 := by omega
    have positive : unpackSign bits = 0#1 := BitVec.eq_of_toNat_eq (isBit.trans isZero)
    rw [if_pos below, positive]
    rfl
  · have isOne : bits.toNat / 2 ^ 63 % 2 = 1 := by omega
    have negative : unpackSign bits = 1#1 := BitVec.eq_of_toNat_eq (isBit.trans isOne)
    rw [if_neg below, negative]
    rfl

theorem toModel_le {number other : Float} (holds : number ≤ other) :
    number.toModel.unpack.le other.toModel.unpack :=
  of_decide_eq_true (p := number.toModel ≤ other.toModel) holds

theorem standsFor_toModel (number : Float) :
    StandsFor (if number.toBits.toNat < 2 ^ 63 then .positive else .negative)
      (number.toBits.toNat % 2 ^ 63) number.toModel.unpack := by
  have unpacked := standsFor_unpack number.toModel.toBits.toBitVec
  rwa [ofBitVec_unpackSign] at unpacked

theorem Similarity.ofFloat_eq (number : Float) :
    ofFloat number = if number.toBits.toNat < 2 ^ 63 then number.toBits.toNat % 2 ^ 63 else 0 := by
  show (if 2 ^ 63 ≤ number.toBits.toNat then 0 else number.toBits.toNat) = _
  by_cases isPositive : number.toBits.toNat < 2 ^ 63
  · rw [if_pos isPositive, if_neg (Nat.not_le_of_lt isPositive), Nat.mod_eq_of_lt isPositive]
  · rw [if_neg isPositive, if_pos (Nat.le_of_not_lt isPositive)]

/-- Numbers in order name similarities in order. -/
theorem Similarity.ofFloat_le {number other : Float} (holds : number ≤ other) :
    ofFloat number ≤ ofFloat other := by
  have first := standsFor_toModel number
  have second := standsFor_toModel other
  rw [ofFloat_eq, ofFloat_eq]
  by_cases isPositive : number.toBits.toNat < 2 ^ 63
  · rw [if_pos isPositive] at first ⊢
    rcases first.magnitude_le second (toModel_le holds) with isZero | ⟨sign, below⟩
    · rw [isZero]
      exact Nat.zero_le _
    · by_cases otherIsPositive : other.toBits.toNat < 2 ^ 63
      · rwa [if_pos otherIsPositive]
      · rw [if_neg otherIsPositive] at sign
        cases sign
  · rw [if_neg isPositive]
    exact Nat.zero_le _

end Stylebook
