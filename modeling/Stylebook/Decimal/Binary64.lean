/-!
Binary64 numbers as integers times powers of two, and the binary64 number that is
nearest to a fraction. All arithmetic is exact, in `Nat` and `Int`; `Float` enters
only through its bits.
-/

namespace Stylebook

/-! ## Taking a number apart -/

/-- What the bits of a binary64 number say. A finite number is
`significand · 2 ^ power`, negated if `negative`. -/
inductive Binary64 where
  | notANumber
  | infinite (negative : Bool)
  | finite (negative : Bool) (significand : Nat) (power : Int)
  deriving DecidableEq, Repr

namespace Binary64

def ofBits (bits : Nat) : Binary64 :=
  let negative := bits / Nat.pow 2 63 % 2 == 1
  let exponent : Nat := bits / Nat.pow 2 52 % Nat.pow 2 11
  let fraction : Nat := bits % Nat.pow 2 52
  if exponent = 2047 then
    if fraction = 0 then .infinite negative else .notANumber
  else if exponent = 0 then
    .finite negative fraction (-1074)
  else
    .finite negative (Nat.pow 2 52 + fraction) ((exponent : Int) - 1075)

def ofFloat (number : Float) : Binary64 := ofBits number.toBits.toNat

example : ofBits 0x3FF0000000000000 = .finite false (2 ^ 52) (-52) := by decide

example : ofBits 0x8000000000000000 = .finite true 0 (-1074) := by decide

end Binary64

/-! ## Rounding -/

inductive Tie where
  | toEven
  | up
  deriving DecidableEq, Repr

namespace Tie

def raises (tie : Tie) (lower : Nat) : Bool :=
  match tie with
  | .toEven => lower % 2 == 1
  | .up => true

end Tie

def roundQuotient (tie : Tie) (numerator denominator : Nat) : Nat :=
  let lower := numerator / denominator
  let rest := 2 * (numerator % denominator)
  if rest > denominator || (rest == denominator && tie.raises lower) then lower + 1 else lower

example : [roundQuotient .toEven 5 2, roundQuotient .toEven 7 2, roundQuotient .up 5 2] =
    [2, 4, 3] := by decide

/-! ## The nearest binary64 number -/

/-- The quotient `numerator / denominator` as a quotient of the two numbers
`numerator / 2 ^ power` and `denominator`, both made whole. -/
def scaledByPower (numerator denominator : Nat) (power : Int) : Nat × Nat :=
  match power with
  | .ofNat exponent => (numerator, denominator * Nat.pow 2 exponent)
  | .negSucc exponent => (numerator * Nat.pow 2 (exponent + 1), denominator)

/-- The greatest `power` with `2 ^ power ≤ numerator / denominator`. -/
def floorLog2Quotient (numerator denominator : Nat) : Int :=
  let estimate : Int := (numerator.log2 : Int) - denominator.log2
  let (scaled, unit) := scaledByPower numerator denominator estimate
  if scaled < unit then estimate - 1 else estimate

/-- The bits of the binary64 number nearest to `numerator / denominator`, a tie
going to the even significand. Numbers out of range become infinite. -/
def nearestBits (numerator denominator : Nat) : Nat :=
  if numerator = 0 then 0
  else
    let power := max (floorLog2Quotient numerator denominator - 52) (-1074)
    let (scaled, unit) := scaledByPower numerator denominator power
    min ((power + 1074).toNat * Nat.pow 2 52 + roundQuotient .toEven scaled unit)
      (2047 * Nat.pow 2 52)

example : nearestBits 1 1 = 0x3FF0000000000000 := by decide

example : nearestBits 1 (2 ^ 1074) = 1 := by decide +kernel

end Stylebook
