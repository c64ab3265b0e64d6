import Stylebook.Decimal.Shortest

/-!
How numbers are written: three layouts of the shortest decimal, and fixed places.
-/

namespace Stylebook.Decimal

def digitChars (number : Nat) : List Char := Nat.toDigits 10 number

def zeros (count : Nat) : List Char := List.replicate count '0'

/-! ## Positional notation -/

/-- The decimal without an exponent. A whole number is written with `wholeEnding`
after its last digit. -/
def positional (wholeEnding : List Char) (number : Decimal) : List Char :=
  let digits := digitChars number.digits
  match number.exponent with
  | .ofNat exponent => digits ++ zeros exponent ++ wholeEnding
  | .negSucc less =>
      let places := less + 1
      if digits.length > places then
        digits.take (digits.length - places) ++ '.' :: digits.drop (digits.length - places)
      else
        ['0', '.'] ++ zeros (places - digits.length) ++ digits

example : positional ['.', '0'] ⟨15, 1⟩ = ['1', '5', '0', '.', '0'] := by decide

example : positional [] ⟨15, -3⟩ = ['0', '.', '0', '1', '5'] := by decide

/-! ## Scientific notation -/

def scientific (number : Decimal) : List Char :=
  let digits := digitChars number.digits
  let exponent := number.exponent + digits.length - 1
  let ending := 'e' :: (toString exponent).toList
  match digits with
  | [] => ending
  | [digit] => digit :: ending
  | digit :: rest => digit :: '.' :: rest ++ ending

/-! ## Layouts -/

/-- The texts by which a layout writes numbers: finite ones by `finite`, and what is
not a number and the infinities by a fixed word. -/
structure NumberLayout where
  tie : Tie
  finite : Decimal → List Char
  notANumber : String
  infinity : String
  negativeInfinity : String

def NumberLayout.write (layout : NumberLayout) (number : Float) : String :=
  match Binary64.ofFloat number with
  | .notANumber => layout.notANumber
  | .infinite false => layout.infinity
  | .infinite true => layout.negativeInfinity
  | .finite negative significand power =>
      let digits := layout.finite (shortest layout.tie significand power)
      String.ofList (if negative then '-' :: digits else digits)

/-- Numbers of moderate size are written positionally and always with a fraction; others
have an exponent. Of numbers below one, those with fewer zeros after the point than
`zeros` are moderate. -/
def moderate (zeros : Nat) (number : Decimal) : List Char :=
  let point := number.exponent + decimalLength number.digits
  if -(zeros : Int) < point ∧ point ≤ 16 then positional ['.', '0'] number
  else scientific number

def dataLayout : NumberLayout := ⟨.toEven, moderate 5, "null", "null", "null"⟩

def documentLayout : NumberLayout := ⟨.toEven, moderate 5, ".nan", ".inf", "-.inf"⟩

def summaryLayout : NumberLayout := ⟨.up, moderate 4, "NaN", "inf", "-inf"⟩

def messageLayout : NumberLayout := ⟨.up, positional [], "NaN", "inf", "-inf"⟩

/-! ## Fixed places -/

/-- A number rounded to a number of decimal places, a tie going to the even digit. -/
def fixed (places : Nat) (number : Float) : String :=
  match Binary64.ofFloat number with
  | .notANumber => "NaN"
  | .infinite false => "inf"
  | .infinite true => "-inf"
  | .finite negative significand power =>
      let (scaled, unit) := scaledByPower (significand * Nat.pow 10 places) 1 (-power)
      let digits := positional [] ⟨roundQuotient .toEven scaled unit, -(places : Int)⟩
      String.ofList (if negative then '-' :: digits else digits)

end Stylebook.Decimal
