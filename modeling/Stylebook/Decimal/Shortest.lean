import Stylebook.Decimal.Binary64

/-!
Decimal numbers, and the shortest decimal that reads back as a given binary64
number.

Every binary64 number has an interval of reals that round to it. On the grid of the
multiples of a power of ten, if any point lies in the interval then so does one of
the two neighbours of the number itself; so it is enough to try these two on grids
of one digit, two digits, and so on, up to seventeen.
-/

namespace Stylebook

/-- The number `digits · 10 ^ exponent`. -/
structure Decimal where
  digits : Nat
  exponent : Int
  deriving DecidableEq, Repr, Inhabited

def decimalLength (number : Nat) : Nat := (Nat.toDigits 10 number).length

namespace Decimal

/-! ## Reading back -/

/-- The bits of the binary64 number nearest to a decimal. The first two tests keep
the powers of ten small: beyond them the result is infinite or zero. -/
def nearestBits (number : Decimal) : Nat :=
  let magnitude : Int := decimalLength number.digits + number.exponent
  if number.digits = 0 then 0
  else if magnitude > 310 then 2047 * Nat.pow 2 52
  else if magnitude < -330 then 0
  else
    match number.exponent with
    | .ofNat exponent => Stylebook.nearestBits (number.digits * Nat.pow 10 exponent) 1
    | .negSucc exponent => Stylebook.nearestBits number.digits (Nat.pow 10 (exponent + 1))

def toFloat (number : Decimal) (negative : Bool) : Float :=
  Float.ofBits ((if negative then Nat.pow 2 63 else 0) + number.nearestBits).toUInt64

/-! ## The shortest decimal -/

/-- The reals that round to a positive number. The three ends are numerators over
`denominator`; the outer two belong to the interval if `closed`. -/
structure RoundingInterval where
  low : Nat
  value : Nat
  high : Nat
  denominator : Nat
  closed : Bool
  deriving Repr

namespace RoundingInterval

/-- The interval of `significand · 2 ^ power`. Its neighbour below is half as far
away when the significand is the least one of its binade. -/
def ofBinary (significand : Nat) (power : Int) : RoundingInterval :=
  let below := if significand = Nat.pow 2 52 ∧ power > -1074 then 1 else 2
  let closed := significand % 2 == 0
  match power - 2 with
  | .ofNat exponent =>
      let unit := Nat.pow 2 exponent
      ⟨(4 * significand - below) * unit, 4 * significand * unit, (4 * significand + 2) * unit, 1,
        closed⟩
  | .negSucc exponent =>
      ⟨4 * significand - below, 4 * significand, 4 * significand + 2, Nat.pow 2 (exponent + 1),
        closed⟩

def inUnits (interval : RoundingInterval) : Int → RoundingInterval
  | .ofNat exponent =>
      { interval with denominator := interval.denominator * Nat.pow 10 exponent }
  | .negSucc exponent =>
      let factor := Nat.pow 10 (exponent + 1)
      ⟨interval.low * factor, interval.value * factor, interval.high * factor,
        interval.denominator, interval.closed⟩

def contains (interval : RoundingInterval) (number : Nat) : Bool :=
  let scaled := number * interval.denominator
  if interval.closed then decide (interval.low ≤ scaled ∧ scaled ≤ interval.high)
  else decide (interval.low < scaled ∧ scaled < interval.high)

def nearestWhole? (tie : Tie) (interval : RoundingInterval) : Option Nat :=
  let lower := interval.value / interval.denominator
  match interval.contains lower, interval.contains (lower + 1) with
  | true, true => some (roundQuotient tie interval.value interval.denominator)
  | true, false => some lower
  | false, true => some (lower + 1)
  | false, false => none

def magnitude (interval : RoundingInterval) : Int :=
  if interval.denominator ≤ interval.value then
    (decimalLength (interval.value / interval.denominator) : Int) - 1
  else
    -(decimalLength ((interval.denominator - 1) / interval.value) : Int)

/-- The nearest point of the interval on the first grid that has one, starting with
the grid of multiples of `10 ^ exponent`. -/
def firstGridPoint (tie : Tie) (interval : RoundingInterval) (exponent : Int) : Nat → Decimal
  | 0 => ⟨(interval.inUnits exponent).value / (interval.inUnits exponent).denominator, exponent⟩
  | grids + 1 =>
      match (interval.inUnits exponent).nearestWhole? tie with
      | some digits => ⟨digits, exponent⟩
      | none => firstGridPoint tie interval (exponent - 1) grids

end RoundingInterval

def stripZeros (number : Decimal) : Nat → Decimal
  | 0 => number
  | fuel + 1 =>
      if number.digits % 10 = 0 ∧ number.digits ≠ 0 then
        stripZeros ⟨number.digits / 10, number.exponent + 1⟩ fuel
      else number

/-- The decimal with the fewest digits that rounds to `significand · 2 ^ power`, and
of those the nearest one. -/
def shortest (tie : Tie) (significand : Nat) (power : Int) : Decimal :=
  if significand = 0 then ⟨0, 0⟩
  else
    let interval := RoundingInterval.ofBinary significand power
    (interval.firstGridPoint tie interval.magnitude 17).stripZeros 20

example : shortest .toEven (2 ^ 52) (-52) = ⟨1, 0⟩ := by decide +kernel

example : shortest .toEven 1 (-1074) = ⟨5, -324⟩ := by decide +kernel

example : shortest .toEven 7205759403792794 (-56) = ⟨1, -1⟩ := by decide +kernel

end Decimal

end Stylebook
