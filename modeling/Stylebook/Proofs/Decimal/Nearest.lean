import Mathlib.Algebra.Ring.Nat
import Stylebook.Analysis.Similarity

/-!
The number nearest to a fraction that is not greater than one is not greater than one. The fraction
is scaled up by `2 ^ 52` at least before it is rounded, and a scaled fraction that is not greater
than a whole number is not rounded to a greater one.
-/

namespace Stylebook

variable {numerator denominator : Nat}

theorem roundQuotient_le {tie : Tie} {bound : Nat} (positive : 0 < denominator)
    (within : numerator ≤ bound * denominator) :
    roundQuotient tie numerator denominator ≤ bound := by
  have below : numerator / denominator ≤ bound :=
    Nat.div_le_of_le_mul (Nat.mul_comm bound denominator ▸ within)
  rcases Nat.lt_or_eq_of_le below with less | exact
  · rw [roundQuotient]
    split
    · exact less
    · exact below
  · have product := Nat.div_add_mod numerator denominator
    rw [exact, Nat.mul_comm] at product
    have remainder : numerator % denominator = 0 := by omega
    have unraised : (0 == denominator) = false := beq_eq_false_iff_ne.mpr (Nat.ne_of_lt positive)
    simp [roundQuotient, remainder, unraised, below]

theorem scaledByPower_neg (numerator denominator gap : Nat) :
    scaledByPower numerator denominator (-(gap : Int)) = (numerator * 2 ^ gap, denominator) := by
  cases gap with
  | zero => simp [scaledByPower]
  | succ gap => rfl

/-- A fraction that is not greater than one is less than two after it is scaled up. -/
theorem floorLog2Quotient_of_le (positive : 0 < numerator) (within : numerator ≤ denominator) :
    ∃ gap : Nat, floorLog2Quotient numerator denominator = -(gap : Int) ∧
      numerator * 2 ^ gap < 2 * denominator := by
  have lower : numerator.log2 ≤ denominator.log2 :=
    (Nat.le_log2 (by omega)).mpr (Nat.le_trans (Nat.log2_self_le (by omega)) within)
  have estimate : (numerator.log2 : Int) - denominator.log2 =
      -((denominator.log2 - numerator.log2 : Nat) : Int) := by omega
  simp only [floorLog2Quotient, estimate, scaledByPower_neg]
  by_cases below : numerator * 2 ^ (denominator.log2 - numerator.log2) < denominator
  · refine ⟨denominator.log2 - numerator.log2 + 1, ?_, ?_⟩
    · rw [if_pos below]
      omega
    · rw [Nat.pow_succ, ← Nat.mul_assoc]
      omega
  · refine ⟨denominator.log2 - numerator.log2, if_neg below, ?_⟩
    calc numerator * 2 ^ (denominator.log2 - numerator.log2)
        < 2 ^ (numerator.log2 + 1) * 2 ^ (denominator.log2 - numerator.log2) :=
          Nat.mul_lt_mul_of_pos_right Nat.lt_log2_self (Nat.two_pow_pos _)
      _ = 2 * 2 ^ denominator.log2 := by
          rw [← Nat.pow_add, ← Nat.pow_succ']
          congr 1
          omega
      _ ≤ 2 * denominator := Nat.mul_le_mul_left 2 (Nat.log2_self_le (by omega))

/-- How far a fraction is scaled up before it is rounded. -/
theorem nearestBits_of_le (positive : 0 < numerator) (within : numerator ≤ denominator) :
    ∃ gap : Nat, numerator * 2 ^ gap < 2 * denominator ∧
      nearestBits numerator denominator ≤ (1074 - min (gap + 52) 1074) * 2 ^ 52 +
        roundQuotient .toEven (numerator * 2 ^ min (gap + 52) 1074) denominator := by
  rcases floorLog2Quotient_of_le positive within with ⟨gap, isGap, doubled⟩
  have power : max (floorLog2Quotient numerator denominator - 52) (-1074) =
      -((min (gap + 52) 1074 : Nat) : Int) := by omega
  have exponent : (-((min (gap + 52) 1074 : Nat) : Int) + 1074).toNat =
      1074 - min (gap + 52) 1074 := by omega
  refine ⟨gap, doubled, ?_⟩
  rw [nearestBits, if_neg (Nat.ne_of_gt positive)]
  simp only [power, scaledByPower_neg, exponent]
  exact Nat.min_le_left _ _

theorem nearestBits_le_one (within : numerator ≤ denominator) :
    nearestBits numerator denominator ≤ Similarity.one := by
  rcases Nat.eq_zero_or_pos numerator with rfl | positive
  · exact Nat.zero_le _
  have positiveDenominator : 0 < denominator := Nat.lt_of_lt_of_le positive within
  rcases nearestBits_of_le positive within with ⟨gap, doubled, bound⟩
  refine Nat.le_trans bound ?_
  rw [Similarity.one]
  cases gap with
  | zero =>
      have scaled : numerator * 2 ^ min (0 + 52) 1074 ≤ 2 ^ 52 * denominator := by
        rw [Nat.mul_comm]
        exact Nat.mul_le_mul_left _ within
      have rounded : roundQuotient .toEven _ denominator ≤ _ :=
        roundQuotient_le positiveDenominator scaled
      omega
  | succ gap =>
      have shift : 2 ^ min (gap + 1 + 52) 1074 ≤ 2 ^ (gap + 1) * 2 ^ 52 := by
        rw [← Nat.pow_add]
        exact Nat.pow_le_pow_right Nat.two_pos (Nat.min_le_left _ _)
      have scaled : numerator * 2 ^ min (gap + 1 + 52) 1074 ≤ 2 ^ 53 * denominator := by
        calc numerator * 2 ^ min (gap + 1 + 52) 1074
            ≤ numerator * (2 ^ (gap + 1) * 2 ^ 52) := Nat.mul_le_mul_left _ shift
          _ = numerator * 2 ^ (gap + 1) * 2 ^ 52 := (Nat.mul_assoc _ _ _).symm
          _ ≤ 2 * denominator * 2 ^ 52 := Nat.mul_le_mul_right _ (Nat.le_of_lt doubled)
          _ = 2 ^ 53 * denominator := by omega
      have rounded : roundQuotient .toEven _ denominator ≤ _ :=
        roundQuotient_le positiveDenominator scaled
      omega

end Stylebook
