import Stylebook.Decimal.Shortest

/-!
Reading numerals: integers in a base, and decimal fractions with an exponent.
-/

namespace Stylebook.Decimal

/-! ## Integers -/

def digitValue? (base : Nat) (character : Char) : Option Nat :=
  let value? :=
    if '0' ≤ character ∧ character ≤ '9' then some (character.toNat - '0'.toNat)
    else if 'a' ≤ character ∧ character ≤ 'f' then some (character.toNat - 'a'.toNat + 10)
    else if 'A' ≤ character ∧ character ≤ 'F' then some (character.toNat - 'A'.toNat + 10)
    else none
  value?.filter fun value => decide (value < base)

def naturalFrom? (base : Nat) (value : Nat) : List Char → Option Nat
  | [] => some value
  | character :: rest =>
      match digitValue? base character with
      | some digit => naturalFrom? base (base * value + digit) rest
      | none => none

def natural? (base : Nat) (text : List Char) : Option Nat :=
  if text.isEmpty then none else naturalFrom? base 0 text

example : natural? 10 ['0', '4', '2'] = some 42 := by decide

example : natural? 8 ['8'] = none := by decide

/-! ## Fractions -/

def takeDigits (text : List Char) : List Char × List Char :=
  (text.takeWhile Char.isDigit, text.dropWhile Char.isDigit)

def takeSign : List Char → Bool × List Char
  | '-' :: rest => (true, rest)
  | '+' :: rest => (false, rest)
  | text => (false, text)

def exponent? : List Char → Option Int
  | [] => some 0
  | mark :: rest =>
      if mark = 'e' ∨ mark = 'E' then
        let (negative, digits) := takeSign rest
        (natural? 10 digits).map fun value => if negative then -(value : Int) else value
      else none

def decimal? (text : List Char) : Option (Bool × Decimal) :=
  let (negative, text) := takeSign text
  let (whole, rest) := takeDigits text
  let (fraction, rest) :=
    match rest with
    | '.' :: rest => takeDigits rest
    | rest => ([], rest)
  if whole.isEmpty && fraction.isEmpty then none
  else
    match natural? 10 (whole ++ fraction), exponent? rest with
    | some digits, some exponent => some (negative, ⟨digits, exponent - fraction.length⟩)
    | _, _ => none

example : decimal? ['-', '1', '.', '5', 'e', '3'] = some (true, ⟨15, 2⟩) := by decide

example : decimal? ['.'] = none := by decide

/-! ## Numbers with words -/

/-- The binary64 number nearest to what a text spells. Besides decimals, which become
infinite when they are too large, these are the words for the infinities and for what is
not a number, in capital or small letters and with or without a sign. -/
def real? (text : List Char) : Option Float :=
  let (negative, unsigned) := takeSign text
  let word := String.ofList (unsigned.map Char.toLower)
  if word == "inf" || word == "infinity" then some (if negative then -1.0 / 0.0 else 1.0 / 0.0)
  else if word == "nan" then some (0.0 / 0.0)
  else (decimal? text).map fun (negative, decimal) => decimal.toFloat negative

def word? (text : List Char) : Option Nat :=
  let digits := match text with
    | '+' :: rest => rest
    | rest => rest
  (natural? 10 digits).filter fun value => decide (value < UInt64.size)

end Stylebook.Decimal
