import Stylebook.Decimal.Layout
import Stylebook.Text
import Stylebook.Yaml.Document

/-!
Why a YAML text cannot be read as a value of the kind that is wanted.
-/

namespace Stylebook.Yaml

/-! ## Paths -/

inductive Path where
  | root
  | item (parent : Path) (index : Nat)
  | entry (parent : Path) (key : String)
  | unnamed (parent : Path)
  | target (parent : Path)
  deriving DecidableEq, Repr, Inhabited

namespace Path

def text : Path → String
  | root => "."
  | item parent index => parent.text ++ "[" ++ toString index ++ "]"
  | entry root key => key
  | entry parent key => parent.text ++ "." ++ key
  | unnamed root => "?"
  | unnamed parent => parent.text ++ ".?"
  | target parent => parent.text

end Path

/-! ## Mismatches -/

inductive Found where
  | boolean (value : Bool)
  | integer (value : Int)
  | wideUnsigned (value : Nat)
  | wideSigned (value : Int)
  | float (value : Float)
  | text (value : String)
  | nothing
  | sequence
  | mapping
  | tagged
  deriving Repr

def floatInMessage (value : Float) : String :=
  let text := Decimal.messageLayout.write value
  if value.isFinite && !text.toList.contains '.' then text ++ ".0" else text

def Found.message : Found → String
  | boolean value => "boolean \x60" ++ (if value then "true" else "false") ++ "\x60"
  | integer value => "integer \x60" ++ toString value ++ "\x60"
  | wideUnsigned value => "integer \x60" ++ toString value ++ "\x60 as u128"
  | wideSigned value => "integer \x60" ++ toString value ++ "\x60 as i128"
  | float value => "floating point \x60" ++ floatInMessage value ++ "\x60"
  | text value => "string " ++ Text.escapedText value
  | nothing => "unit value"
  | sequence => "sequence"
  | mapping => "map"
  | tagged => "enum"

inductive Mismatch where
  | wrongType (found : Found) (wanted : String)
  | wrongValue (found : Found) (wanted : String)
  | unknownField (name : String) (known : List String)
  | duplicateField (name : String)
  deriving Repr

def Mismatch.text : Mismatch → String
  | wrongType found wanted => "invalid type: " ++ found.message ++ ", expected " ++ wanted
  | wrongValue found wanted => "invalid value: " ++ found.message ++ ", expected " ++ wanted
  | unknownField name known =>
      "unknown field \x60" ++ name ++ "\x60, expected one of " ++
        ", ".intercalate (known.map fun field => "\x60" ++ field ++ "\x60")
  | duplicateField name => "duplicate field \x60" ++ name ++ "\x60"

/-! ## Errors -/

inductive Error where
  | fault (fault : Fault)
  | unknownAnchor (mark : Mark)
  | mismatch (mismatch : Mismatch) (mark : Mark) (path : Path)
  | tooDeep (mark : Mark)
  | tooManyAliases
  | endOfText
  | severalDocuments
  deriving Repr

namespace Error

def ofInterruption : Interruption → Error
  | .fault problem => .fault problem
  | .unknownAnchor mark => .unknownAnchor mark

def mark? : Error → Option Mark
  | fault problem => some problem.mark
  | unknownAnchor mark => some mark
  | mismatch _ mark _ => some mark
  | tooDeep mark => some mark
  | tooManyAliases => none
  | endOfText => none
  | severalDocuments => none

/-- The message without the place. A mismatch is led by its path, unless it is at the
root. -/
def cause : Error → String
  | fault problem => problem.text
  | unknownAnchor _ => "unknown anchor"
  | mismatch reason _ path =>
      let place := path.text
      (if place == "." then "" else place ++ ": ") ++ reason.text
  | tooDeep _ => "recursion limit exceeded"
  | tooManyAliases => "repetition limit exceeded"
  | endOfText => "EOF while parsing a value"
  | severalDocuments =>
      "deserializing from YAML containing more than one document is not supported"

def text : Error → String
  | fault problem => problem.text
  | error =>
      match error.mark? with
      | some mark => if mark.isStart then error.cause else error.cause ++ " at " ++ mark.text
      | none => error.cause

end Error

end Stylebook.Yaml
