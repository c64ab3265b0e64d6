import Stylebook.Yaml.Error
import Stylebook.Yaml.Plain

/-!
Values of YAML documents. Mappings are lists of entries: they keep the order of the
document and repeated keys.

A document is read by a cursor over its pieces. Reading follows aliases, so it is
bounded twice: by a number of nested collections, and by a number of aliases that
grows with the document.
-/

namespace Stylebook.Yaml

inductive Value where
  | null
  | boolean (value : Bool)
  | integer (value : Int)
  | float (value : Float)
  | text (value : String)
  | sequence (items : List Value)
  | mapping (entries : List (Value × Value))
  deriving Inhabited, Repr

/-! ## Places in a document -/

structure Place where
  rest : List (Piece × Mark)
  followed : Nat := 0
  deriving Repr

namespace Document

def place (document : Document) : Place := { rest := document.pieces }

def endError (document : Document) : Error :=
  match document.interruption? with
  | some interruption => .ofInterruption interruption
  | none => .endOfText

def peek (document : Document) (place : Place) : Except Error (Piece × Mark) :=
  match place.rest with
  | piece :: _ => .ok piece
  | [] => .error document.endError

def skip (place : Place) : Place := { place with rest := place.rest.drop 1 }

/-- The place of an anchor that an alias refers to. At most a hundred aliases are
followed for each piece of the document. -/
def follow (document : Document) (place : Place) (anchor : Nat) : Except Error Place :=
  if place.followed + 1 > 100 * document.pieces.length then .error .tooManyAliases
  else
    match document.anchorPlace? anchor with
    | some position => .ok ⟨document.pieces.drop position, place.followed + 1⟩
    | none => .error .endOfText

end Document

/-! ## Scalars -/

def standardTag (name : String) : TagText := standardNamespace ++ asciiBytes name.toList

def isLocalTag : Option TagText → Bool
  | some (first :: rest) => first == 33 && (String.fromUTF8? ⟨rest.toArray⟩).isSome
  | _ => false

/-- What a scalar stands for. Four standard tags demand a kind of value; other tags make
a text of the scalar. -/
def scalarValue (tag : Option TagText) (text : String) (style : ScalarStyle) :
    Except Mismatch Scalar :=
  let demanded (value? : Option Scalar) (wanted : String) : Except Mismatch Scalar :=
    match value? with
    | some value => .ok value
    | none => .error (.wrongValue (.text text) wanted)
  match tag with
  | none => .ok (if style == .plain then plainValue text else .text text)
  | some tag =>
      if tag == standardTag "bool" then
        demanded ((truthValue? text).map .boolean) "a boolean"
      else if tag == standardTag "int" then
        demanded ((sizedInteger? text.toList).map .integer) "an integer"
      else if tag == standardTag "float" then
        demanded ((float? text).map .float) "a float"
      else if tag == standardTag "null" then
        demanded (if isNull text.toList then some .null else none) "null"
      else if tag.head? == some 33 && style == .plain then .ok (plainValue text)
      else .ok (.text text)

/-! ## Reading

Reading follows aliases, so it is bounded twice: by a number of nested collections, and
by the number of aliases that may be followed. -/

def maximumDepth : Nat := 128

def Value.wanted : String := "a YAML scalar, sequence or mapping"

def Value.ofScalar : Scalar → Except Mismatch Value
  | .null => .ok .null
  | .boolean value => .ok (.boolean value)
  | .integer (.word value) => .ok (.integer value)
  | .integer (.wideUnsigned value) => .error (.wrongType (.wideUnsigned value) Value.wanted)
  | .integer (.wideSigned value) => .error (.wrongType (.wideSigned value) Value.wanted)
  | .float value => .ok (.float value)
  | .text value => .ok (.text value)

namespace Document

abbrev ValueReader := Path → Place → Except Error (Value × Place)

def readItems (document : Document) (read : ValueReader) (path : Path) (index : Nat)
    (place : Place) : Nat → Except Error (List Value × Place)
  | 0 => .ok ([], place)
  | fuel + 1 => do
      let (piece, _) ← document.peek place
      if piece == .sequenceEnd then return ([], skip place)
      let (item, place) ← read (.item path index) place
      let (items, place) ← document.readItems read path (index + 1) place fuel
      return (item :: items, place)

def entryPath (path : Path) : Piece → Path
  | .scalar _ text _ => .entry path text
  | _ => .unnamed path

def readEntries (document : Document) (read : ValueReader) (path : Path) (place : Place) :
    Nat → Except Error (List (Value × Value) × Place)
  | 0 => .ok ([], place)
  | fuel + 1 => do
      let (piece, _) ← document.peek place
      if piece == .mappingEnd then return ([], skip place)
      let (key, place) ← read path place
      let (value, place) ← read (entryPath path piece) place
      let (entries, place) ← document.readEntries read path place fuel
      return ((key, value) :: entries, place)

/-- Reads a value that is not an alias. The values within it are read by `inner?`;
without that it may not be a collection. A collection has less than `fuel` items or
entries. -/
def readPiece (document : Document) (fuel : Nat) (inner? : Option ValueReader) (path : Path)
    (place : Place) : Except Error (Value × Place) := do
  let (piece, mark) ← document.peek place
  let after := skip place
  let mismatch (reason : Mismatch) : Error := .mismatch reason mark path
  match piece with
  | .absent => return (.null, after)
  | .scalar tag text style =>
      if isLocalTag tag then .error (mismatch (.wrongType .tagged Value.wanted))
      else
        match (scalarValue tag text style).bind Value.ofScalar with
        | .ok value => return (value, after)
        | .error reason => .error (mismatch reason)
  | .sequenceStart tag =>
      if isLocalTag tag then .error (mismatch (.wrongType .tagged Value.wanted))
      else
        match inner? with
        | none => .error (.tooDeep mark)
        | some read =>
            let (items, place) ← document.readItems read path 0 after fuel
            return (.sequence items, place)
  | .mappingStart tag =>
      if isLocalTag tag then .error (mismatch (.wrongType .tagged Value.wanted))
      else
        match inner? with
        | none => .error (.tooDeep mark)
        | some read =>
            let (entries, place) ← document.readEntries read path after fuel
            return (.mapping entries, place)
  | .aliasTo _ => .error .endOfText
  | .sequenceEnd => .error .endOfText
  | .mappingEnd => .error .endOfText

/-- Reads a value. An alias is read where its anchor is, and reading goes on after the
alias. -/
def readNode (document : Document) (fuel : Nat) (inner? : Option ValueReader) : ValueReader :=
  fun path place => do
    let (piece, _) ← document.peek place
    match piece with
    | .aliasTo anchor =>
        let target ← document.follow place anchor
        let (value, after) ← document.readPiece fuel inner? (.target path) target
        return (value, { skip place with followed := after.followed })
    | _ => document.readPiece fuel inner? path place

def readValue (document : Document) (fuel : Nat) : Nat → ValueReader
  | 0 => document.readNode fuel none
  | depth + 1 => document.readNode fuel (some (document.readValue fuel depth))

end Document

/-- Reads the only document of a text by `read`. A value that cannot be read is reported
before a fault of the text, and that before a second document. -/
def readText (read : Document → Except Error α) (text : String) : Except Error α := do
  let reading := firstDocument text
  let value ← read reading.document
  match reading.document.interruption? with
  | some interruption => .error (.ofInterruption interruption)
  | none => if reading.more then .error .severalDocuments else .ok value

def Value.ofText (text : String) : Except Error Value :=
  readText (fun document => do
    let fuel := document.pieces.length + 1
    let (value, _) ← document.readValue fuel maximumDepth .root document.place
    return value) text

end Stylebook.Yaml
