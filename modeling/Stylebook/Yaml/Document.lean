import Stylebook.Yaml.Event
import Stylebook.Yaml.Token.Scan

/-!
A document: the events of one YAML document, with aliases resolved to the places of
their anchors.
-/

namespace Stylebook.Yaml

inductive Piece where
  | aliasTo (anchor : Nat)
  | scalar (tag : Option TagText) (text : String) (style : ScalarStyle)
  | sequenceStart (tag : Option TagText)
  | sequenceEnd
  | mappingStart (tag : Option TagText)
  | mappingEnd
  | absent
  deriving DecidableEq, Repr, Inhabited

inductive Interruption where
  | fault (fault : Fault)
  | unknownAnchor (mark : Mark)
  deriving DecidableEq, Repr

structure Document where
  pieces : List (Piece × Mark)
  anchors : List (Nat × Nat) := []
  interruption? : Option Interruption := none
  deriving Repr

namespace Document

/-! ## Anchors

An anchor gets the number of different names seen before it. A name that is used again
gets a new number, which the next new name gets as well; an alias leads to the last
anchor with its number. -/

structure AnchorTable where
  names : List (String × Nat) := []
  places : List (Nat × Nat) := []
  deriving Repr

namespace AnchorTable

def number? (table : AnchorTable) (name : String) : Option Nat :=
  (table.names.find? fun entry => entry.1 == name).map Prod.snd

def enter (table : AnchorTable) (anchor : Option String) (place : Nat) : AnchorTable :=
  match anchor with
  | none => table
  | some name =>
      let number := table.names.length
      { names :=
          if table.names.any fun entry => entry.1 == name then
            table.names.map fun entry => if entry.1 == name then (name, number) else entry
          else table.names ++ [(name, number)]
        places := (number, place) :: table.places }

end AnchorTable

def anchorPlace? (document : Document) (number : Nat) : Option Nat :=
  (document.anchors.find? fun entry => entry.1 == number).map Prod.snd

/-! ## Reading one document -/

structure Reading where
  document : Document
  more : Bool
  deriving Repr

def Reading.cons (piece : Piece) (mark : Mark) (reading : Reading) : Reading :=
  { reading with
    document := { reading.document with pieces := (piece, mark) :: reading.document.pieces } }

def Reading.finish (table : AnchorTable) (interruption? : Option Interruption) (more : Bool) :
    Reading :=
  ⟨⟨[], table.places, interruption?⟩, more⟩

/-- Reads the first document from the events of a text. `place` counts the pieces so
far. Text without any document is a document whose only piece is absent. -/
def readFirst (table : AnchorTable) (place : Nat) (fault? : Option Fault) : List Event → Reading
  | [] => .finish table (fault?.map .fault) false
  | event :: rest =>
      let next (piece : Piece) (anchor : Option String) :=
        (readFirst (table.enter anchor place) (place + 1) fault? rest).cons piece event.mark
      match event.kind with
      | .documentStart => readFirst table place fault? rest
      | .documentEnd =>
          let onlyEnd := fault?.isNone && rest.all fun later => later.kind == .streamEnd
          .finish table none !onlyEnd
      | .streamEnd => (Reading.finish table none false).cons .absent event.mark
      | .aliasTo name =>
          match table.number? name with
          | some number => next (.aliasTo number) none
          | none => .finish table (some (.unknownAnchor event.mark)) true
      | .scalar anchor tag text style => next (.scalar tag text style) anchor
      | .sequenceStart anchor tag => next (.sequenceStart tag) anchor
      | .sequenceEnd => next .sequenceEnd none
      | .mappingStart anchor tag => next (.mappingStart tag) anchor
      | .mappingEnd => next .mappingEnd none

end Document

/-! ## Texts -/

def firstDocument (text : String) : Document.Reading :=
  let (tokens, fault?) := tokens text.toList
  let (events, fault?) := eventsOfTokens tokens fault?
  Document.readFirst {} 0 fault? events

end Stylebook.Yaml
