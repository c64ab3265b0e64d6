/-!
The tokens of CSS text, as far as selectors and values need to tell them apart.
-/

namespace Stylebook.Css

inductive Bracket where
  | round
  | square
  | curly
  deriving DecidableEq, Repr, Inhabited

inductive Token where
  | identifier (name : String)
  /-- A name with an opening round bracket directly after it. -/
  | function (name : String)
  | atKeyword (name : String)
  | hash (name : String)
  | string (text : String)
  | badString
  | url (address : String)
  | badUrl
  | delimiter (character : Char)
  | number
  | percentage
  | dimension (unit : String)
  | blank
  | comment
  | colon
  | semicolon
  | comma
  | opening (bracket : Bracket)
  | closing (bracket : Bracket)
  /-- One of `~=`, `|=`, `^=`, `$=` and `*=`, by its first character. -/
  | matcher (character : Char)
  /-- One of `<!--` and `-->`. -/
  | documentComment
  deriving DecidableEq, Repr, Inhabited

namespace Token

def opens? : Token → Option Bracket
  | function _ => some .round
  | opening bracket => some bracket
  | _ => none

def closes? : Token → Option Bracket
  | closing bracket => some bracket
  | _ => none

end Token

end Stylebook.Css
