import Stylebook.Decimal.Layout
import Stylebook.Report.Content
import Stylebook.Yaml.Plain

/-!
Data as YAML text, in block style: a line for each scalar, and items and fields below
their owner. A text is written plain wherever a reader would take it for the same text.
-/

namespace Stylebook.Yaml

/-! ## What a text allows -/

def isWritable (character : Char) : Bool :=
  let code := character.toNat
  code == 0x0A || (0x20 ≤ code && code ≤ 0x7E) || (0xA0 ≤ code && code ≤ 0xD7FF) ||
    (0xE000 ≤ code && code ≤ 0xFFFD && code != 0xFEFF) || 0x10000 ≤ code

def openingIndicators : List Char :=
  ['#', ',', '[', ']', '\x7b', '\x7d', '&', '*', '!', '|', '>', '\'', '"', '%', '@', '\x60']

def opensWithIndicator : List Char → Bool
  | '-' :: '-' :: '-' :: _ => true
  | '.' :: '.' :: '.' :: _ => true
  | first :: rest =>
      openingIndicators.contains first || (['?', ':', '-'].contains first && startsBlank rest)
  | [] => false

/-- Whether a text holds the end of a key or the start of a comment after the character
`previous`. -/
def holdsIndicator (previous : Char) : List Char → Bool
  | [] => false
  | character :: rest =>
      (character == ':' && startsBlank rest) ||
        (character == '#' && (isBlank previous || isBreak previous)) ||
        holdsIndicator character rest

def hasNeighbours (condition : Char → Char → Bool) (text : List Char) : Bool :=
  (text.zip (text.drop 1)).any fun pair => condition pair.1 pair.2

def hasSpaceBeforeBreak (text : List Char) : Bool :=
  hasNeighbours (fun first second => first == ' ' && isBreak second) text

def hasSpaceAfterBreak (text : List Char) : Bool :=
  hasNeighbours (fun first second => isBreak first && second == ' ') text

def mayBePlain (text : List Char) : Bool :=
  let indicated := match text with
    | [] => false
    | first :: rest => opensWithIndicator text || holdsIndicator first rest
  text.all isWritable && !text.any isBreak && !indicated &&
    text.head? != some ' ' && text.getLast? != some ' '

def mayBeSingleQuoted (text : List Char) : Bool :=
  text.all isWritable && !hasSpaceBeforeBreak text && !hasSpaceAfterBreak text

def mayBeLiteral (text : List Char) : Bool :=
  text.all isWritable && !hasSpaceBeforeBreak text && text.getLast? != some ' '

/-! ## Choice of a style -/

def isAmbiguous (text : String) : Bool :=
  hasLeadingZero text.toList ||
    match plainValue text with
    | .text _ => false
    | _ => true

def styleOf (text : String) : ScalarStyle :=
  let characters := text.toList
  if characters.contains '\n' then
    if mayBeLiteral characters then .literal else .doubleQuoted
  else if !isAmbiguous text && mayBePlain characters then .plain
  else if mayBeSingleQuoted characters then .singleQuoted
  else .doubleQuoted

/-! ## Scalars -/

def spaces (count : Nat) : List Char := List.replicate count ' '

/-- The characters of a text with the indentation before the first of each line;
`fresh` says whether a line has just begun. -/
def indentedLines (indent : Nat) (write : Char → List Char) (fresh : Bool) :
    List Char → List Char
  | [] => []
  | character :: rest =>
      if isBreak character then character :: indentedLines indent write true rest
      else
        (if fresh then spaces indent else []) ++ write character ++
          indentedLines indent write false rest

def singleQuoted (indent : Nat) (text : List Char) : List Char :=
  let ending := if (text.getLast?.map isBreak).getD false then spaces indent else []
  '\'' :: indentedLines indent
      (fun character => if character = '\'' then ['\'', '\''] else [character]) false text ++
    ending ++ ['\'']

def capitalHex (width number : Nat) : List Char :=
  let digits := (Nat.toDigits 16 number).map Char.toUpper
  List.replicate (width - digits.length) '0' ++ digits

def escape (character : Char) : List Char :=
  let code := character.toNat
  if code = 0x00 then ['\\', '0']
  else if code = 0x07 then ['\\', 'a']
  else if code = 0x08 then ['\\', 'b']
  else if code = 0x09 then ['\\', 't']
  else if code = 0x0A then ['\\', 'n']
  else if code = 0x0B then ['\\', 'v']
  else if code = 0x0C then ['\\', 'f']
  else if code = 0x0D then ['\\', 'r']
  else if code = 0x1B then ['\\', 'e']
  else if code = 0x22 then ['\\', '"']
  else if code = 0x5C then ['\\', '\\']
  else if code = 0x85 then ['\\', 'N']
  else if code = 0x2028 then ['\\', 'L']
  else if code = 0x2029 then ['\\', 'P']
  else if code ≤ 0xFF then ['\\', 'x'] ++ capitalHex 2 code
  else if code ≤ 0xFFFF then ['\\', 'u'] ++ capitalHex 4 code
  else ['\\', 'U'] ++ capitalHex 8 code

def doubleQuotedCharacter (character : Char) : List Char :=
  if !isWritable character || isBreak character || character = '"' || character = '\\' then
    escape character
  else [character]

def doubleQuoted (text : List Char) : List Char :=
  '"' :: text.flatMap doubleQuotedCharacter ++ ['"']

/-- What follows the bar of a block of lines: a digit if the first line has its own
indentation, and a sign unless the text ends in exactly one break. -/
def literalHints (text : List Char) : List Char :=
  let indentation := match text with
    | first :: _ => if first == ' ' || isBreak first then ['2'] else []
    | [] => []
  let chomping := match text.reverse with
    | [] => ['-']
    | last :: before =>
        if !isBreak last then ['-']
        else if startsBreak before then ['+']
        else []
  indentation ++ chomping

def literal (indent : Nat) (text : List Char) : List Char :=
  '|' :: literalHints text ++ '\n' :: indentedLines indent (fun character => [character]) true text

def writtenText (indent : Nat) (text : String) : List Char :=
  let characters := text.toList
  match styleOf text with
  | .plain => characters ++ ['\n']
  | .singleQuoted => singleQuoted indent characters ++ ['\n']
  | .doubleQuoted => doubleQuoted characters ++ ['\n']
  | _ =>
      literal indent characters ++
        (if (characters.getLast?.map isBreak).getD false then [] else ['\n'])

/-! ## Collections -/

mutual

def writtenItem (indent : Nat) : Datum → List Char
  | .null => "null\n".toList
  | .flag value => if value then "true\n".toList else "false\n".toList
  | .count value => (toString value).toList ++ ['\n']
  | .number value => (Decimal.documentLayout.write value).toList ++ ['\n']
  | .text value => writtenText indent value
  | .list [] => "[]\n".toList
  | .list (item :: rest) => writtenItems indent true (item :: rest)
  | .record [] => "\x7b\x7d\n".toList
  | .record (field :: rest) => writtenFields indent true (field :: rest)

/-- Items of a list, one to a line. The first is not indented if `inline` says so. -/
def writtenItems (indent : Nat) (inline : Bool) : List Datum → List Char
  | [] => []
  | item :: rest =>
      (if inline then [] else spaces indent) ++ '-' :: ' ' :: writtenItem (indent + 2) item ++
        writtenItems indent false rest

def writtenValue (indent : Nat) : Datum → List Char
  | .null => " null\n".toList
  | .flag value => if value then " true\n".toList else " false\n".toList
  | .count value => ' ' :: (toString value).toList ++ ['\n']
  | .number value => ' ' :: (Decimal.documentLayout.write value).toList ++ ['\n']
  | .text value => ' ' :: writtenText (indent + 2) value
  | .list [] => " []\n".toList
  | .list (item :: rest) => '\n' :: writtenItems indent false (item :: rest)
  | .record [] => " \x7b\x7d\n".toList
  | .record (field :: rest) => '\n' :: writtenFields (indent + 2) false (field :: rest)

def writtenFields (indent : Nat) (inline : Bool) : List (String × Datum) → List Char
  | [] => []
  | (name, value) :: rest =>
      (if inline then [] else spaces indent) ++ name.toList ++ ':' :: writtenValue indent value ++
        writtenFields indent false rest

end

def document (datum : Datum) : String := String.ofList (writtenItem 0 datum)

end Stylebook.Yaml
