import Stylebook.Yaml.Fault

/-!
Character classes of YAML, and the cursor: what is left of a text, together with the
mark of its first character.
-/

namespace Stylebook.Yaml

/-! ## Character classes -/

def isBlank (character : Char) : Bool := character == ' ' || character == '\t'

def isBreak (character : Char) : Bool :=
  character == '\r' || character == '\n' || character == '\u0085' ||
    character == '\u2028' || character == '\u2029'

def isWord (character : Char) : Bool :=
  character.isAlphanum || character == '_' || character == '-'

def startsBlank : List Char → Bool
  | [] => true
  | character :: _ => isBlank character || isBreak character

def startsBreak : List Char → Bool
  | [] => true
  | character :: _ => isBreak character

def startsIndicator : List Char → Bool
  | '-' :: '-' :: '-' :: rest => startsBlank rest
  | '.' :: '.' :: '.' :: rest => startsBlank rest
  | _ => false

/-! ## Cursors -/

structure Cursor where
  rest : List Char
  mark : Mark
  deriving Repr, Inhabited

namespace Mark

def next (mark : Mark) (character : Char) : Mark :=
  { mark with index := mark.index + character.utf8Size, column := mark.column + 1 }

def nextLine (mark : Mark) (bytes : Nat) : Mark :=
  ⟨mark.index + bytes, mark.line + 1, 0⟩

end Mark

namespace Cursor

def next (cursor : Cursor) : Cursor :=
  match cursor.rest with
  | [] => cursor
  | character :: rest => ⟨rest, cursor.mark.next character⟩

def skip (cursor : Cursor) : Nat → Cursor
  | 0 => cursor
  | count + 1 => cursor.next.skip count

/-- What a break stands for: the breaks of the first Unicode planes that separate lines
and paragraphs stand for themselves, all others for a line feed. -/
def breakText (character : Char) : List Char :=
  if character == '\u2028' || character == '\u2029' then [character] else ['\n']

/-- The cursor after one break, with what the break stands for. A carriage return
with a line feed is one break. -/
def takeBreak (cursor : Cursor) : List Char × Cursor :=
  match cursor.rest with
  | '\r' :: '\n' :: rest => (['\n'], ⟨rest, cursor.mark.nextLine 2⟩)
  | character :: rest =>
      if isBreak character then
        (breakText character, ⟨rest, cursor.mark.nextLine character.utf8Size⟩)
      else ([], cursor)
  | [] => ([], cursor)

def takeRun (accept : Char → Bool) (mark : Mark) : List Char → List Char × Cursor
  | [] => ([], ⟨[], mark⟩)
  | character :: rest =>
      if accept character then
        let (taken, cursor) := takeRun accept (mark.next character) rest
        (character :: taken, cursor)
      else ([], ⟨character :: rest, mark⟩)

def takeWhile (accept : Char → Bool) (cursor : Cursor) : List Char × Cursor :=
  takeRun accept cursor.mark cursor.rest

def skipWhile (accept : Char → Bool) (cursor : Cursor) : Cursor :=
  (cursor.takeWhile accept).2

def skipLine (cursor : Cursor) : Cursor := cursor.skipWhile fun character => !isBreak character

def startsWith (cursor : Cursor) (character : Char) : Bool := cursor.rest.head? == some character

end Cursor

/-! ## Gaps -/

/-- Blanks and breaks between two words of a scalar. `blanks` are those before the
first break; once there is a break they no longer matter. -/
structure Gap where
  blanks : List Char := []
  broken : Bool := false
  firstBreak : List Char := []
  laterBreaks : List Char := []
  deriving Repr, Inhabited

namespace Gap

def addBlank (gap : Gap) (character : Char) : Gap :=
  if gap.broken then gap else { gap with blanks := gap.blanks ++ [character] }

def addBreak (gap : Gap) (text : List Char) : Gap :=
  if gap.broken then { gap with laterBreaks := gap.laterBreaks ++ text }
  else { blanks := [], broken := true, firstBreak := text, laterBreaks := [] }

/-- What the gap stands for: its blanks if it is within a line; a space for a single
line feed; otherwise the breaks, less a first line feed. -/
def text (gap : Gap) : List Char :=
  if !gap.broken then gap.blanks
  else if gap.firstBreak == ['\n'] then
    if gap.laterBreaks.isEmpty then [' '] else gap.laterBreaks
  else gap.firstBreak ++ gap.laterBreaks

end Gap

end Stylebook.Yaml
