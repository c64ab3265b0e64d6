import Stylebook.Analysis.Options
import Stylebook.Yaml.Value

/-!
Options as a document: a mapping with a field for each option. Fields that are left out
or empty have their defaults; fields of other names are refused.
-/

namespace Stylebook

open Yaml

/-! ## Fields -/

/-- A kind of number in a field: its name in messages, the name of its standard tag, and
the number that a text spells. -/
structure FieldKind (Number : Type) where
  wanted : String
  tagName : String
  number? : String → Option Number

namespace FieldKind

def real : FieldKind Float := ⟨"f64", "float", float?⟩

def count : FieldKind Nat where
  wanted := "usize"
  tagName := "int"
  number? text :=
    if text.startsWith "-" then none
    else
      (integer? text.toList).bind fun value =>
        if value < UInt64.size then some value.toNat else none

end FieldKind

def Scalar.found : Scalar → Found
  | .null => .nothing
  | .boolean value => .boolean value
  | .integer (.word value) => .integer value
  | .integer (.wideUnsigned value) => .wideUnsigned value
  | .integer (.wideSigned value) => .wideSigned value
  | .float value => .float value
  | .text value => .text value

def scalarMismatch (tag : Option TagText) (text : String) (style : ScalarStyle)
    (wanted : String) : Mismatch :=
  match scalarValue tag text style with
  | .ok scalar => .wrongType (Scalar.found scalar) wanted
  | .error reason => reason

/-- The number in a field. A field that is empty or null has none. `holder` is the mark
of the mapping that has the field, which is to blame for a false null. -/
def fieldNumber (kind : FieldKind Number) (holder mark : Mark) (path : Path) :
    Piece → Except Yaml.Error (Option Number)
  | .absent => .ok none
  | .scalar tag text style =>
      let standard (name : String) : Bool := tag == some (standardTag name)
      if style == .plain && standard "null" then
        if isNull text.toList then .ok none
        else .error (.mismatch (.wrongValue (.text text) "null") holder .root)
      else if style == .plain && tag.isNone && (text.isEmpty || isNull text.toList) then .ok none
      else
        let readable := style == .plain || (style == .literal && standard kind.tagName)
        match if readable then kind.number? text else none with
        | some number => .ok (some number)
        | none => .error (.mismatch (scalarMismatch tag text style kind.wanted) mark path)
  | .sequenceStart _ => .error (.mismatch (.wrongType .sequence kind.wanted) mark path)
  | .mappingStart _ => .error (.mismatch (.wrongType .mapping kind.wanted) mark path)
  | .aliasTo _ => .error .endOfText
  | .sequenceEnd => .error .endOfText
  | .mappingEnd => .error .endOfText

/-- The piece at a place, or that of its anchor if it is an alias; its mark and path;
and the place after it. -/
def resolvePiece (document : Document) (path : Path) (place : Place) :
    Except Yaml.Error (Piece × Mark × Path × Place) := do
  let (piece, mark) ← document.peek place
  match piece with
  | .aliasTo anchor =>
      let target ← document.follow place anchor
      let (piece, mark) ← document.peek target
      return (piece, mark, .target path, { Document.skip place with followed := target.followed })
  | _ => return (piece, mark, path, Document.skip place)

def readField (document : Document) (kind : FieldKind Number) (holder : Mark) (path : Path)
    (place : Place) : Except Yaml.Error (Option Number × Place) := do
  let (piece, mark, path, after) ← resolvePiece document path place
  let number? ← fieldNumber kind holder mark path piece
  return (number?, after)

/-! ## Records -/

namespace Options.Partial

def fieldNames : List String := ["minimum_cohesion", "minimum_frequency", "max_depth"]

structure Draft where
  given : Partial := {}
  seen : List String := []

def fieldName (mark : Mark) (path : Path) : Piece → Except Yaml.Error String
  | .scalar _ text _ =>
      if fieldNames.contains text then .ok text
      else .error (.mismatch (.unknownField text fieldNames) mark path)
  | .sequenceStart _ => .error (.mismatch (.wrongType .sequence "field identifier") mark path)
  | .mappingStart _ => .error (.mismatch (.wrongType .mapping "field identifier") mark path)
  | _ => .error .endOfText

def readNamed (document : Document) (holder : Mark) (path : Path) (draft : Draft) (name : String)
    (place : Place) : Except Yaml.Error (Draft × Place) := do
  if name == "minimum_cohesion" then
    let (value, place) ← readField document .real holder path place
    return (⟨{ draft.given with minimumCohesion := value }, name :: draft.seen⟩, place)
  else if name == "minimum_frequency" then
    let (value, place) ← readField document .count holder path place
    return (⟨{ draft.given with minimumFrequency := value }, name :: draft.seen⟩, place)
  else
    let (value, place) ← readField document .count holder path place
    return (⟨{ draft.given with maximumDepth := value }, name :: draft.seen⟩, place)

def readFields (document : Document) (holder : Mark) (draft : Draft) (place : Place) :
    Nat → Except Yaml.Error Partial
  | 0 => .ok draft.given
  | fuel + 1 => do
      let (piece, _) ← document.peek place
      if piece == .mappingEnd then return draft.given
      let (key, mark, path, place) ← resolvePiece document .root place
      let name ← fieldName mark path key
      if draft.seen.contains name then .error (.mismatch (.duplicateField name) holder .root)
      let (draft, place) ←
        readNamed document holder (Document.entryPath .root piece) draft name place
      readFields document holder draft place fuel

def readDocument (document : Document) : Except Yaml.Error Partial := do
  let place := document.place
  let (piece, mark) ← document.peek place
  let refuse (reason : Mismatch) : Except Yaml.Error Partial :=
    .error (.mismatch reason mark .root)
  match piece with
  | .absent => return {}
  | .mappingStart _ => readFields document mark {} (Document.skip place) place.rest.length
  | .scalar tag text style =>
      if text.isEmpty && style == .plain then return {}
      else refuse (scalarMismatch tag text style "struct RawOptions")
  | .sequenceStart _ => refuse (.wrongType .sequence "struct RawOptions")
  | _ => .error .endOfText

end Options.Partial

/-! ## Options -/

inductive OptionsTextError where
  | document (error : Yaml.Error)
  | range (error : OptionsError)
  deriving Repr

def OptionsTextError.text : OptionsTextError → String
  | document error => error.text
  | range error => error.text

def Options.ofText (text : String) : Except OptionsTextError Options :=
  match Yaml.readText Options.Partial.readDocument text with
  | .error error => .error (.document error)
  | .ok given =>
      match Options.ofPartial given with
      | .ok options => .ok options
      | .error error => .error (.range error)

end Stylebook
