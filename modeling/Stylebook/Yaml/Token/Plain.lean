import Stylebook.Yaml.Token.Basic

/-!
Plain scalars. A plain scalar ends before a colon that a blank follows, before a
comment, before an indicator of the flow collection it stands in, and before a line
that is indented too little.
-/

namespace Stylebook.Yaml

/-- A plain scalar with the mark of its end. The cursor may be further on, after
blanks and breaks; `broken` says whether there was a break among them. -/
structure PlainScalar where
  text : String
  stop : Mark
  broken : Bool
  deriving Repr

def isFlowIndicator (character : Char) : Bool :=
  character == ',' || character == '[' || character == ']' ||
    character == '{' || character == '}'

def endsPlainWord (inFlow : Bool) : List Char → Bool
  | [] => true
  | ':' :: rest => startsBlank rest
  | character :: _ => inFlow && isFlowIndicator character

def hasMisplacedColon (inFlow : Bool) : List Char → Bool
  | ':' :: character :: _ => inFlow && (isFlowIndicator character || character == '?')
  | _ => false

/-- Whether a plain scalar ends before a word. Outside flow collections the words after a
break are indented, and a word never begins as a comment or as an indicator of
documents does. -/
def endsBefore (inFlow : Bool) (indent : Nat) (afterGap : Bool) (mark : Mark)
    (text : List Char) : Bool :=
  (afterGap && !inFlow && decide (mark.column < indent)) ||
    (mark.column == 0 && startsIndicator text) || (afterGap && text.head? == some '#')

def endedScalar (read : List Char) (stop : Mark) (gap : Gap) (mark : Mark) (rest : List Char) :
    PlainScalar × Cursor :=
  (⟨String.ofList read.reverse, stop, gap.broken⟩, ⟨rest, mark⟩)

/-- Reads on in a plain scalar that began at `start`. `read` holds its text so far in
reverse, `stop` the mark after that, and `gap` what followed it; between two words
the gap is not empty. Lines of the scalar are indented by at least `indent`. -/
def plainRest (inFlow : Bool) (indent : Nat) (start : Mark) (read : List Char) (stop : Mark)
    (afterGap : Bool) (gap : Gap) (mark : Mark) : List Char → Except Fault (PlainScalar × Cursor)
  | [] => .ok (endedScalar read stop gap mark [])
  | '\r' :: '\n' :: rest =>
      plainRest inFlow indent start read stop true (gap.addBreak ['\n']) (mark.nextLine 2) rest
  | character :: rest =>
      if isBreak character then
        plainRest inFlow indent start read stop true (gap.addBreak (Cursor.breakText character))
          (mark.nextLine character.utf8Size) rest
      else if isBlank character then
        if gap.broken && decide (mark.column < indent) && character == '\t' then
          .error (.during .plainScalar start .tabInIndentation mark)
        else
          plainRest inFlow indent start read stop true (gap.addBlank character)
            (mark.next character) rest
      else if endsBefore inFlow indent afterGap mark (character :: rest) then
        .ok (endedScalar read stop gap mark (character :: rest))
      else if hasMisplacedColon inFlow (character :: rest) then
        .error (.during .plainScalar start .unexpectedColon mark)
      else if endsPlainWord inFlow (character :: rest) then
        .ok (endedScalar read stop gap mark (character :: rest))
      else
        plainRest inFlow indent start (character :: (gap.text.reverse ++ read))
          (mark.next character) false {} (mark.next character) rest

def plainScalar (inFlow : Bool) (indent : Nat) (cursor : Cursor) :
    Except Fault (PlainScalar × Cursor) :=
  plainRest inFlow indent cursor.mark [] cursor.mark false {} cursor.mark cursor.rest

end Stylebook.Yaml
