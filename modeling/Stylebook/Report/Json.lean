import Stylebook.Decimal.Layout
import Stylebook.Report.Content
import Stylebook.Text

/-!
Data as JSON text.
-/

namespace Stylebook.Json

/-! ## Strings -/

def escaped (character : Char) : List Char :=
  if character = '"' then ['\\', '"']
  else if character = '\\' then ['\\', '\\']
  else if character = '\x08' then ['\\', 'b']
  else if character = '\x0c' then ['\\', 'f']
  else if character = '\n' then ['\\', 'n']
  else if character = '\r' then ['\\', 'r']
  else if character = '\t' then ['\\', 't']
  else if character.toNat < 0x20 then
    ['\\', 'u', '0', '0'] ++ Text.hexByte character.toNat.toUInt8
  else [character]

def quoted (text : String) : String :=
  String.ofList ('"' :: text.toList.flatMap escaped ++ ['"'])

/-! ## Layout -/

def lineBreak (level : Nat) : String :=
  String.ofList ('\n' :: List.replicate (2 * level) ' ')

def bracketed (opening closing : String) (level : Nat) (items : List String) : String :=
  if items.isEmpty then opening ++ closing
  else
    opening ++ lineBreak (level + 1) ++ ("," ++ lineBreak (level + 1)).intercalate items ++
      lineBreak level ++ closing

mutual

/-- The datum over several lines, the first of which stands at the given level. -/
def pretty (level : Nat) : Datum → String
  | .null => "null"
  | .flag value => if value then "true" else "false"
  | .count value => toString value
  | .number value => Decimal.dataLayout.write value
  | .text value => quoted value
  | .list items => bracketed "[" "]" level (prettyItems (level + 1) items)
  | .record fields => bracketed "\x7b" "\x7d" level (prettyFields (level + 1) fields)

def prettyItems (level : Nat) : List Datum → List String
  | [] => []
  | item :: rest => pretty level item :: prettyItems level rest

def prettyFields (level : Nat) : List (String × Datum) → List String
  | [] => []
  | (name, value) :: rest =>
      (quoted name ++ ": " ++ pretty level value) :: prettyFields level rest

end

end Stylebook.Json
