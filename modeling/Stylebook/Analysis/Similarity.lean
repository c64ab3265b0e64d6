import Stylebook.Decimal.Binary64

/-!
Similarity of sets: how much of what either has they both have.

A similarity is kept as the bits of the binary64 number nearest to the quotient. The
bits of numbers that are not negative are ordered like the numbers, so similarities are
compared as natural numbers.
-/

namespace Stylebook

/-- The bits of a number that is not negative. -/
abbrev Similarity := Nat

namespace Similarity

def one : Similarity := 0x3FF0000000000000

def infinite : Similarity := 2047 * Nat.pow 2 52

example : nearestBits 7 7 = one := by decide

def toFloat (similarity : Similarity) : Float := Float.ofBits similarity.toUInt64

/-- The similarity that a number names. A zero with a sign is zero. -/
def ofFloat (number : Float) : Similarity :=
  let bits := number.toBits.toNat
  if Nat.pow 2 63 ≤ bits then 0 else bits

/-- The similarity of two sets, given as lists without repetitions: the size of their
intersection over that of their union. Empty sets are equal. -/
def jaccard [BEq α] (first second : List α) : Similarity :=
  let shared := first.countP fun item => second.contains item
  let union := first.length + second.length - shared
  if union = 0 then one else nearestBits shared union

example : (jaccard [1, 2] [2, 3] : Similarity) = nearestBits 1 3 := rfl

end Similarity

end Stylebook
