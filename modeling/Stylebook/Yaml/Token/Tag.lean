import Stylebook.Yaml.Token.Quoted

/-!
Anchors, tags and directives.
-/

namespace Stylebook.Yaml

/-! ## Anchors and aliases -/

def endsAnchor : List Char → Bool
  | [] => true
  | character :: _ =>
      isBlank character || isBreak character || character == '?' || character == ':' ||
        character == ',' || character == ']' || character == '}' || character == '%' ||
        character == '@' || character == '`'

def anchorName (activity : Activity) (cursor : Cursor) : Except Fault (String × Cursor) :=
  let (name, after) := cursor.next.takeWhile isWord
  if name.isEmpty || !endsAnchor after.rest then
    .error (.during activity cursor.mark .anchorNameExpected after.mark)
  else .ok (String.ofList name, after)

/-! ## Tag handles -/

/-- The handle at the cursor: `!`, `!!` or `!name!`. Within a tag `!name` is read too,
since it may turn out to be a handle `!` with a suffix. -/
def tagHandle (inDirective : Bool) (start : Mark) (cursor : Cursor) :
    Except Fault (List Char × Cursor) :=
  if !cursor.startsWith '!' then
    .error (.during (if inDirective then .tagDirectiveStart else .tag) start
      .exclamationExpected cursor.mark)
  else
    let (name, after) := cursor.next.takeWhile isWord
    if after.startsWith '!' then .ok ('!' :: name ++ ['!'], after.next)
    else if inDirective && !name.isEmpty then
      .error (.during .tagDirectiveHandle start .exclamationExpected after.mark)
    else .ok ('!' :: name, after)

/-! ## Tag suffixes -/

/-- Whether a character may stand in a tag suffix. Where no flow collection can end,
three more are allowed. -/
def isUriCharacter (wide : Bool) (character : Char) : Bool :=
  isWord character || [';', '/', '?', ':', '@', '&', '=', '+', '$', '.', '!', '~', '*', '\'',
      '(', ')'].contains character ||
    (wide && [',', '[', ']'].contains character)

def escapedOctet? : List Char → Option Nat
  | '%' :: high :: low :: _ =>
      match hexValue? high, hexValue? low with
      | some high, some low => some (16 * high + low)
      | _, _ => none
  | _ => none

def octetCount? (octet : Nat) : Option Nat :=
  if octet < 0x80 then some 1
  else if octet / 0x20 = 6 then some 2
  else if octet / 0x10 = 14 then some 3
  else if octet / 0x08 = 30 then some 4
  else none

/-- The tag suffix at the cursor. `pending` counts the octets that an escape sequence
still lacks, and `read` holds the bytes so far in reverse. At most `fuel` characters
and escapes are read. -/
def uriRest (wide : Bool) (activity : Activity) (start : Mark) (read : TagText) (pending : Nat)
    (cursor : Cursor) : Nat → Except Fault (TagText × Cursor)
  | 0 => .ok (read.reverse, cursor)
  | fuel + 1 =>
      match cursor.rest with
      | [] =>
          if pending = 0 then .ok (read.reverse, cursor)
          else .error (.during activity start .escapedOctetExpected cursor.mark)
      | character :: _ =>
          if character == '%' || pending ≠ 0 then
            match escapedOctet? cursor.rest with
            | none => .error (.during activity start .escapedOctetExpected cursor.mark)
            | some octet =>
                if pending = 0 then
                  match octetCount? octet with
                  | none => .error (.during activity start .badLeadingOctet cursor.mark)
                  | some count =>
                      uriRest wide activity start (octet.toUInt8 :: read) (count - 1)
                        (cursor.skip 3) fuel
                else if octet / 0x40 = 2 then
                  uriRest wide activity start (octet.toUInt8 :: read) (pending - 1)
                    (cursor.skip 3) fuel
                else .error (.during activity start .badTrailingOctet cursor.mark)
          else if isUriCharacter wide character then
            uriRest wide activity start (character.toNat.toUInt8 :: read) 0 cursor.next fuel
          else .ok (read.reverse, cursor)

/-- The tag suffix at the cursor after the characters in `already`. A suffix is not
empty, unless `mayBeEmpty`. Text after a zero byte is dropped. -/
def tagUri (wide inDirective mayBeEmpty : Bool) (start : Mark) (already : List Char)
    (cursor : Cursor) : Except Fault (TagText × Cursor) := do
  let activity : Activity := if inDirective then .tagDirectiveUri else .tagUri
  let (suffix, after) ← uriRest wide activity start [] 0 cursor (cursor.rest.length + 1)
  if suffix.isEmpty && !mayBeEmpty then
    .error (.during activity start .tagUriExpected after.mark)
  else .ok ((asciiBytes already ++ suffix).takeWhile (· != 0), after)

/-! ## Tags -/

structure WrittenTag where
  handle : TagText
  suffix : TagText
  deriving Repr

def tag (inFlow : Bool) (cursor : Cursor) : Except Fault (WrittenTag × Cursor) := do
  let start := cursor.mark
  let (written, after) ←
    if cursor.next.startsWith '<' then do
      let (suffix, after) ← tagUri true false false start [] (cursor.skip 2)
      if after.startsWith '>' then Except.ok (WrittenTag.mk [] suffix, after.next)
      else .error (.during .tag start .tagUnclosed after.mark)
    else do
      let (handle, after) ← tagHandle false start cursor
      if handle.length > 1 && handle.getLast? == some '!' then
        let (suffix, after) ← tagUri false false false start [] after
        .ok (WrittenTag.mk (asciiBytes handle) suffix, after)
      else
        let (suffix, after) ← tagUri false false true start (handle.drop 1) after
        if suffix.isEmpty then .ok (WrittenTag.mk [] (asciiBytes ['!']), after)
        else .ok (WrittenTag.mk (asciiBytes ['!']) suffix, after)
  if startsBlank after.rest || (inFlow && after.startsWith ',') then .ok (written, after)
  else .error (.during .tag start .tagNotSeparated after.mark)

/-! ## Directives -/

def versionNumber (start : Mark) (cursor : Cursor) : Except Fault (Nat × Cursor) :=
  let (digits, after) := cursor.takeWhile Char.isDigit
  if digits.isEmpty then
    .error (.during .versionDirective start .versionNumberExpected after.mark)
  else if digits.length > 9 then
    .error (.during .versionDirective start .versionTooLong (cursor.skip 9).mark)
  else
    .ok (digits.foldl (fun value digit => 10 * value + (digit.toNat - '0'.toNat)) 0, after)

def versionValue (start : Mark) (cursor : Cursor) : Except Fault (TokenKind × Cursor) := do
  let (major, cursor) ← versionNumber start (cursor.skipWhile isBlank)
  if !cursor.startsWith '.' then
    .error (.during .versionDirective start .versionPointExpected cursor.mark)
  else
    let (minor, cursor) ← versionNumber start cursor.next
    .ok (.versionDirective major minor, cursor)

def tagDirectiveValue (start : Mark) (cursor : Cursor) : Except Fault (TokenKind × Cursor) := do
  let (handle, cursor) ← tagHandle true start (cursor.skipWhile isBlank)
  if !cursor.rest.head?.any isBlank then
    .error (.during .tagDirective start .blankExpected cursor.mark)
  else
    let (expansion, cursor) ← tagUri true true false start [] (cursor.skipWhile isBlank)
    if startsBlank cursor.rest then .ok (.tagDirective (asciiBytes handle) expansion, cursor)
    else .error (.during .tagDirective start .tagNotSeparated cursor.mark)

def directive (cursor : Cursor) : Except Fault (Token × Cursor) := do
  let start := cursor.mark
  let (name, cursor) := cursor.next.takeWhile isWord
  if name.isEmpty then
    .error (.during .directive start .directiveNameExpected cursor.mark)
  else if !startsBlank cursor.rest then
    .error (.during .directive start .badDirectiveName cursor.mark)
  else
    let (kind, cursor) ←
      if name == ['Y', 'A', 'M', 'L'] then versionValue start cursor
      else if name == ['T', 'A', 'G'] then tagDirectiveValue start cursor
      else .error (.during .directive start .unknownDirective cursor.mark)
    let stop := cursor.mark
    let cursor := cursor.skipWhile isBlank
    let cursor := if cursor.startsWith '#' then cursor.skipLine else cursor
    if startsBreak cursor.rest then .ok (⟨kind, start, stop⟩, cursor.takeBreak.2)
    else .error (.during .directive start .commentOrBreakExpected cursor.mark)

end Stylebook.Yaml
