import Stylebook.Decimal.Reading
import Stylebook.Yaml.Document

/-!
What a plain scalar stands for: nothing, a truth value, a number or a text.
-/

namespace Stylebook.Yaml

/-! ## Nothing and truth values -/

def isNull (text : List Char) : Bool :=
  [['~'], ['n', 'u', 'l', 'l'], ['N', 'u', 'l', 'l'], ['N', 'U', 'L', 'L']].contains text

def truthValue? (text : String) : Option Bool :=
  if ["true", "True", "TRUE"].contains text then some true
  else if ["false", "False", "FALSE"].contains text then some false
  else none

/-! ## Integers -/

/-- Whether a text is made of digits with a superfluous zero in front, which makes it a
text and no number. -/
def hasLeadingZero (text : List Char) : Bool :=
  match text with
  | '-' :: '0' :: rest => !rest.isEmpty && rest.all Char.isDigit
  | '+' :: '0' :: rest => !rest.isEmpty && rest.all Char.isDigit
  | '0' :: rest => !rest.isEmpty && rest.all Char.isDigit
  | _ => false

def magnitude? : List Char → Option Nat
  | '0' :: 'x' :: digits => Decimal.natural? 16 digits
  | '0' :: 'o' :: digits => Decimal.natural? 8 digits
  | '0' :: 'b' :: digits => Decimal.natural? 2 digits
  | digits => Decimal.natural? 10 digits

def integer? (text : List Char) : Option Int :=
  if hasLeadingZero text then none
  else
    match text with
    | '-' :: rest => (magnitude? rest).map fun value => -(value : Int)
    | '+' :: rest => (magnitude? rest).map Int.ofNat
    | rest => (magnitude? rest).map Int.ofNat

/-- An integer as far as it can be kept: `wide` ones are known but not accepted. -/
inductive SizedInteger where
  | word (value : Int)
  | wideUnsigned (value : Nat)
  | wideSigned (value : Int)
  deriving DecidableEq, Repr

def SizedInteger.of? (value : Int) : Option SizedInteger :=
  if -(Nat.pow 2 63 : Int) ≤ value ∧ value < Nat.pow 2 64 then some (.word value)
  else if 0 ≤ value ∧ value < Nat.pow 2 128 then some (.wideUnsigned value.toNat)
  else if -(Nat.pow 2 127 : Int) ≤ value ∧ value < 0 then some (.wideSigned value)
  else none

def sizedInteger? (text : List Char) : Option SizedInteger := (integer? text).bind SizedInteger.of?

/-! ## Floating point numbers -/

def finiteFloat? (text : List Char) : Option Float :=
  (Decimal.decimal? text).bind fun (negative, decimal) =>
    let number := decimal.toFloat negative
    if number.isFinite then some number else none

def float? (text : String) : Option Float :=
  let unsigned? : Option (List Char) :=
    match text.toList with
    | '+' :: '+' :: _ => none
    | '+' :: '-' :: _ => none
    | '+' :: rest => some rest
    | rest => some rest
  unsigned?.bind fun unsigned =>
    if [".inf", ".Inf", ".INF"].contains (String.ofList unsigned) then some (1.0 / 0.0)
    else if ["-.inf", "-.Inf", "-.INF"].contains text then some (-1.0 / 0.0)
    else if [".nan", ".NaN", ".NAN"].contains text then some (0.0 / 0.0)
    else finiteFloat? unsigned

/-! ## All scalars -/

inductive Scalar where
  | null
  | boolean (value : Bool)
  | integer (value : SizedInteger)
  | float (value : Float)
  | text (value : String)
  deriving Repr, Inhabited

def plainValue (text : String) : Scalar :=
  let characters := text.toList
  if characters.isEmpty || isNull characters then .null
  else
    match truthValue? text, sizedInteger? characters with
    | some value, _ => .boolean value
    | none, some value => .integer value
    | none, none =>
        if hasLeadingZero characters then .text text
        else
          match float? text with
          | some value => .float value
          | none => .text text

end Stylebook.Yaml
