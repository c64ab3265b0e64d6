/-!
What can be wrong with the form of a YAML text: the problem, where it shows, and
what was being read at the time.
-/

namespace Stylebook.Yaml

/-! ## Marks -/

/-- A position between two characters. All three numbers count from zero; an index
counts bytes and a column characters. -/
structure Mark where
  index : Nat := 0
  line : Nat := 0
  column : Nat := 0
  deriving DecidableEq, Repr, Inhabited

namespace Mark

def isStart (mark : Mark) : Bool := mark.line == 0 && mark.column == 0

def text (mark : Mark) : String :=
  if mark.isStart then "position " ++ toString mark.index
  else "line " ++ toString (mark.line + 1) ++ " column " ++ toString (mark.column + 1)

end Mark

/-! ## Problems -/

inductive Problem where
  | controlCharacter
  | valueNotAllowed
  | keyNotAllowed
  | sequenceEntryNotAllowed
  | missingColon
  | strayCharacter
  | unexpectedColon
  | tabInIndentation
  | tabForIndentation
  | zeroIndentation
  | commentOrBreakExpected
  | documentIndicatorInQuotes
  | endInQuotes
  | unknownEscape
  | hexDigitExpected
  | badCodePoint
  | anchorNameExpected
  | tagUnclosed
  | tagNotSeparated
  | exclamationExpected
  | tagUriExpected
  | escapedOctetExpected
  | badLeadingOctet
  | badTrailingOctet
  | directiveNameExpected
  | badDirectiveName
  | unknownDirective
  | versionPointExpected
  | versionTooLong
  | versionNumberExpected
  | blankExpected
  | documentStartExpected
  | duplicateVersion
  | duplicateTagDirective
  | incompatibleVersion
  | undefinedTagHandle
  | contentExpected
  | blockEntryExpected
  | blockKeyExpected
  | flowEntryExpected
  | flowPairExpected
  deriving DecidableEq, Repr

namespace Problem

def text : Problem → String
  | controlCharacter => "control characters are not allowed"
  | valueNotAllowed => "mapping values are not allowed in this context"
  | keyNotAllowed => "mapping keys are not allowed in this context"
  | sequenceEntryNotAllowed => "block sequence entries are not allowed in this context"
  | missingColon => "could not find expected ':'"
  | strayCharacter => "found character that cannot start any token"
  | unexpectedColon => "found unexpected ':'"
  | tabInIndentation => "found a tab character that violates indentation"
  | tabForIndentation => "found a tab character where an indentation space is expected"
  | zeroIndentation => "found an indentation indicator equal to 0"
  | commentOrBreakExpected => "did not find expected comment or line break"
  | documentIndicatorInQuotes => "found unexpected document indicator"
  | endInQuotes => "found unexpected end of stream"
  | unknownEscape => "found unknown escape character"
  | hexDigitExpected => "did not find expected hexadecimal number"
  | badCodePoint => "found invalid Unicode character escape code"
  | anchorNameExpected => "did not find expected alphabetic or numeric character"
  | tagUnclosed => "did not find the expected '>'"
  | tagNotSeparated => "did not find expected whitespace or line break"
  | exclamationExpected => "did not find expected '!'"
  | tagUriExpected => "did not find expected tag URI"
  | escapedOctetExpected => "did not find URI escaped octet"
  | badLeadingOctet => "found an incorrect leading UTF-8 octet"
  | badTrailingOctet => "found an incorrect trailing UTF-8 octet"
  | directiveNameExpected => "could not find expected directive name"
  | badDirectiveName => "found unexpected non-alphabetical character"
  | unknownDirective => "found unknown directive name"
  | versionPointExpected => "did not find expected digit or '.' character"
  | versionTooLong => "found extremely long version number"
  | versionNumberExpected => "did not find expected version number"
  | blankExpected => "did not find expected whitespace"
  | documentStartExpected => "did not find expected <document start>"
  | duplicateVersion => "found duplicate %YAML directive"
  | duplicateTagDirective => "found duplicate %TAG directive"
  | incompatibleVersion => "found incompatible YAML document"
  | undefinedTagHandle => "found undefined tag handle"
  | contentExpected => "did not find expected node content"
  | blockEntryExpected => "did not find expected '-' indicator"
  | blockKeyExpected => "did not find expected key"
  | flowEntryExpected => "did not find expected ',' or ']'"
  | flowPairExpected => "did not find expected ',' or '\x7d'"

end Problem

inductive Activity where
  | simpleKey
  | nextToken
  | plainScalar
  | blockScalar
  | quotedScalar
  | escape
  | anchor
  | aliasName
  | tag
  | tagUri
  | directive
  | versionDirective
  | tagDirective
  | tagDirectiveStart
  | tagDirectiveHandle
  | tagDirectiveUri
  | node
  | blockNode
  | flowNode
  | blockCollection
  | blockMapping
  | flowSequence
  | flowMapping
  deriving DecidableEq, Repr

namespace Activity

def text : Activity → String
  | simpleKey => "while scanning a simple key"
  | nextToken => "while scanning for the next token"
  | plainScalar => "while scanning a plain scalar"
  | blockScalar => "while scanning a block scalar"
  | quotedScalar => "while scanning a quoted scalar"
  | escape => "while parsing a quoted scalar"
  | anchor => "while scanning an anchor"
  | aliasName => "while scanning an alias"
  | tag => "while scanning a tag"
  | tagUri => "while parsing a tag"
  | directive => "while scanning a directive"
  | versionDirective => "while scanning a %YAML directive"
  | tagDirective => "while scanning a %TAG directive"
  | tagDirectiveStart => "while scanning a tag directive"
  | tagDirectiveHandle => "while parsing a tag directive"
  | tagDirectiveUri => "while parsing a %TAG directive"
  | node => "while parsing a node"
  | blockNode => "while parsing a block node"
  | flowNode => "while parsing a flow node"
  | blockCollection => "while parsing a block collection"
  | blockMapping => "while parsing a block mapping"
  | flowSequence => "while parsing a flow sequence"
  | flowMapping => "while parsing a flow mapping"

end Activity

/-! ## Faults -/

/-- A problem with its position. `offset` is a position in bytes, given for problems
with single characters only. -/
structure Fault where
  problem : Problem
  mark : Mark
  offset : Nat := 0
  context : Option (Activity × Mark) := none
  deriving DecidableEq, Repr

namespace Fault

def during (activity : Activity) (start : Mark) (problem : Problem) (mark : Mark) : Fault :=
  ⟨problem, mark, 0, some (activity, start)⟩

/-- The message: the problem, its place, the activity and the place where that began.
A place is left out where it is the start of the text or was just named. -/
def text (fault : Fault) : String :=
  let place :=
    if !fault.mark.isStart then " at " ++ fault.mark.text
    else if fault.offset ≠ 0 then " at position " ++ toString fault.offset
    else ""
  let activity :=
    match fault.context with
    | none => ""
    | some (activity, start) =>
        let known := start.line == fault.mark.line && start.column == fault.mark.column
        ", " ++ activity.text ++ (if start.isStart || known then "" else " at " ++ start.text)
  fault.problem.text ++ place ++ activity

end Fault

end Stylebook.Yaml
