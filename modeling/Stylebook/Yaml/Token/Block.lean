import Stylebook.Yaml.Token.Basic

/-!
Block scalars: a header with chomping and indentation, then the lines that are indented
by as much. A folded scalar joins lines by spaces, a literal one keeps its breaks.
-/

namespace Stylebook.Yaml

/-! ## The header -/

inductive Chomping where
  | strip
  | clip
  | keep
  deriving DecidableEq, Repr

structure BlockHeader where
  chomping : Chomping := .clip
  indentation : Option Nat := none
  deriving Repr

def chompingOf? : Char → Option Chomping
  | '+' => some .keep
  | '-' => some .strip
  | _ => none

def indentationIndicator (start : Mark) (cursor : Cursor) : Except Fault (Option Nat × Cursor) :=
  match cursor.rest with
  | character :: _ =>
      if character == '0' then .error (.during .blockScalar start .zeroIndentation cursor.mark)
      else if character.isDigit then .ok (some (character.toNat - '0'.toNat), cursor.next)
      else .ok (none, cursor)
  | [] => .ok (none, cursor)

def chompingIndicator (cursor : Cursor) : Option Chomping × Cursor :=
  match cursor.rest.head?.bind chompingOf? with
  | some chomping => (some chomping, cursor.next)
  | none => (none, cursor)

/-- The header at the cursor. The two indicators come in either order; a comment may
follow. -/
def blockHeader (start : Mark) (cursor : Cursor) : Except Fault (BlockHeader × Cursor) := do
  let (early, cursor) := chompingIndicator cursor
  let (indentation, cursor) ← indentationIndicator start cursor
  let (late, cursor) :=
    if early.isNone && indentation.isSome then chompingIndicator cursor else (none, cursor)
  let cursor := cursor.skipWhile isBlank
  let cursor := if cursor.startsWith '#' then cursor.skipLine else cursor
  if startsBreak cursor.rest then
    .ok (⟨(early.or late).getD .clip, indentation⟩, cursor.takeBreak.2)
  else .error (.during .blockScalar start .commentOrBreakExpected cursor.mark)

/-! ## The lines -/

structure EmptyLines where
  breaks : List Char := []
  stop : Mark
  widest : Nat := 0
  deriving Repr

/-- Reads empty lines, and the indentation of the line after them. Without an
indentation given, all leading spaces count. -/
def emptyLines (start : Mark) (indentation : Option Nat) (lines : EmptyLines) (mark : Mark) :
    List Char → Except Fault (EmptyLines × Cursor)
  | [] => .ok ({ lines with widest := max lines.widest mark.column }, ⟨[], mark⟩)
  | '\r' :: '\n' :: rest =>
      emptyLines start indentation
        ⟨lines.breaks ++ ['\n'], mark.nextLine 2, max lines.widest mark.column⟩
        (mark.nextLine 2) rest
  | character :: rest =>
      let within := indentation.all fun width => decide (mark.column < width)
      if within && character == ' ' then
        emptyLines start indentation lines (mark.next character) rest
      else if within && character == '\t' then
        .error (.during .blockScalar start .tabForIndentation mark)
      else if isBreak character then
        emptyLines start indentation
          ⟨lines.breaks ++ Cursor.breakText character, mark.nextLine character.utf8Size,
            max lines.widest mark.column⟩
          (mark.nextLine character.utf8Size) rest
      else .ok ({ lines with widest := max lines.widest mark.column }, ⟨character :: rest, mark⟩)

/-- What stands between two lines of text. Lines that begin with a blank are not
folded. -/
def blockJoin (folded : Bool) (indented nextIndented : Bool) (lineBreak : List Char)
    (breaks : List Char) : List Char :=
  if folded && lineBreak == ['\n'] && !indented && !nextIndented then
    if breaks.isEmpty then [' '] else breaks
  else lineBreak ++ breaks

def blockEnding (chomping : Chomping) (lineBreak breaks : List Char) : List Char :=
  match chomping with
  | .strip => []
  | .clip => lineBreak
  | .keep => lineBreak ++ breaks

structure BlockScalar where
  text : String
  stop : Mark
  deriving Repr

abbrev BlockRest := List Char × Mark × Cursor

/-- Reads the lines of a block scalar. `indented` says whether the line before began with
a blank, `lineBreak` is the break after that line and `lines` are the empty lines since.
At most `fuel` lines are read. -/
def blockLines (folded : Bool) (chomping : Chomping) (start : Mark) (indentation : Nat)
    (indented : Bool) (lineBreak : List Char) (lines : EmptyLines) (cursor : Cursor) :
    Nat → Except Fault BlockRest
  | 0 => .ok ([], lines.stop, cursor)
  | fuel + 1 =>
      if cursor.mark.column == indentation && !cursor.rest.isEmpty then do
        let nextIndented := cursor.rest.head?.any isBlank
        let join := blockJoin folded indented nextIndented lineBreak lines.breaks
        let (text, cursor) := cursor.takeWhile fun character => !isBreak character
        let (lineBreak, cursor) := cursor.takeBreak
        let (lines, cursor) ←
          emptyLines start (some indentation) { stop := cursor.mark } cursor.mark cursor.rest
        let (later, stop, cursor) ←
          blockLines folded chomping start indentation nextIndented lineBreak lines cursor fuel
        return (join ++ text ++ later, stop, cursor)
      else .ok (blockEnding chomping lineBreak lines.breaks, lines.stop, cursor)

/-- The block scalar at the cursor, which is at its `|` or `>`. The enclosing block is
indented by `parentIndent`, which is negative outside all blocks. -/
def blockScalar (folded : Bool) (parentIndent : Int) (cursor : Cursor) :
    Except Fault (BlockScalar × Cursor) := do
  let start := cursor.mark
  let (header, cursor) ← blockHeader start cursor.next
  let given := header.indentation.map fun width => parentIndent.toNat + width
  let (lines, cursor) ← emptyLines start given { stop := cursor.mark } cursor.mark cursor.rest
  let indentation := given.getD (max lines.widest (max (parentIndent + 1).toNat 1))
  let (text, stop, cursor) ←
    blockLines folded header.chomping start indentation false [] lines cursor
      (cursor.rest.length + 1)
  return (⟨String.ofList text, stop⟩, cursor)

end Stylebook.Yaml
