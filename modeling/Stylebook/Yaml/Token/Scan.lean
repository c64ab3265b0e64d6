import Stylebook.Yaml.Token.Barrier
import Stylebook.Yaml.Token.Block
import Stylebook.Yaml.Token.Plain
import Stylebook.Yaml.Token.Tag

/-!
Reading a text as tokens.

Whether a word is a key is known only at the colon after it. The scanner therefore
keeps, for the block structure and for each open flow collection, the place of the last
word that may still turn out to be a key, and holds back the tokens from there on. A
word stays a possible key up to the end of its line, and for 1024 bytes.
-/

namespace Stylebook.Yaml

/-! ## State -/

/-- A word that may turn out to be a key. `token` is its number among all tokens. It is
required to be a key if nothing else can begin at its indentation. -/
structure PossibleKey where
  required : Bool
  token : Nat
  mark : Mark
  deriving Repr

/-- What is known between two tokens. `released` counts the tokens handed out so far and
`held` lists those that are held back. `keys` has an entry for each open flow
collection, the innermost first, and a last one for the block structure. `indents`
lists the indentations of the open blocks, the innermost first. -/
structure Scanner where
  cursor : Cursor
  released : Nat := 0
  held : List Token := []
  keys : List (Option PossibleKey) := [none]
  indents : List Nat := []
  keyAllowed : Bool := true
  ended : Bool := false
  deriving Repr

namespace Scanner

def ofText (text : List Char) : Scanner :=
  { cursor := ⟨text, {}⟩, held := [⟨.streamStart, {}, {}⟩] }

def mark (scanner : Scanner) : Mark := scanner.cursor.mark

def inFlow (scanner : Scanner) : Bool := !(scanner.keys.drop 1).isEmpty

def indent (scanner : Scanner) : Int :=
  match scanner.indents with
  | [] => -1
  | indent :: _ => indent

def push (scanner : Scanner) (token : Token) : Scanner :=
  { scanner with held := scanner.held ++ [token] }

def insertAt (scanner : Scanner) (number : Nat) (token : Token) : Scanner :=
  let before := number - scanner.released
  { scanner with held := scanner.held.take before ++ token :: scanner.held.drop before }

/-! ## Possible keys -/

def missingColon (key : PossibleKey) (mark : Mark) : Fault :=
  .during .simpleKey key.mark .missingColon mark

def dropKey (scanner : Scanner) : Except Fault Scanner :=
  match scanner.keys with
  | some key :: outer =>
      if key.required then .error (missingColon key scanner.mark)
      else .ok { scanner with keys := none :: outer }
  | _ => .ok scanner

def noteKey (scanner : Scanner) : Except Fault Scanner :=
  if scanner.keyAllowed then do
    let scanner ← scanner.dropKey
    let key : PossibleKey :=
      { required := !scanner.inFlow && scanner.indent == scanner.mark.column
        token := scanner.released + scanner.held.length
        mark := scanner.mark }
    .ok { scanner with keys := some key :: scanner.keys.drop 1 }
  else .ok scanner

def PossibleKey.isStale (key : PossibleKey) (mark : Mark) : Bool :=
  decide (key.mark.line < mark.line) || decide (key.mark.index + 1024 < mark.index)

def dropStaleKeys (scanner : Scanner) : Except Fault Scanner :=
  let stale := scanner.keys.reverse.filterMap fun key? =>
    key?.filter fun key => PossibleKey.isStale key scanner.mark
  match stale.find? PossibleKey.required with
  | some key => .error (missingColon key scanner.mark)
  | none =>
      .ok { scanner with
        keys := scanner.keys.map fun key? =>
          key?.filter fun key => !PossibleKey.isStale key scanner.mark }

/-! ## Indentation -/

/-- Opens a block at a column if that lies deeper than the innermost one. Its token is
`kind`, placed before the token with the number `before` if one is given. -/
def openBlock (scanner : Scanner) (column : Nat) (before : Option Nat) (kind : TokenKind)
    (mark : Mark) : Scanner :=
  if scanner.inFlow || decide ((column : Int) ≤ scanner.indent) then scanner
  else
    let token : Token := ⟨kind, mark, mark⟩
    let scanner := { scanner with indents := column :: scanner.indents }
    match before with
    | some number => scanner.insertAt number token
    | none => scanner.push token

def closedBlocks (column : Int) (mark : Mark) : List Nat → List Nat × List Token
  | [] => ([], [])
  | indent :: outer =>
      if (indent : Int) > column then
        let (indents, tokens) := closedBlocks column mark outer
        (indents, ⟨.blockEnd, mark, mark⟩ :: tokens)
      else (indent :: outer, [])

def closeBlocks (scanner : Scanner) (column : Int) : Scanner :=
  if scanner.inFlow then scanner
  else
    let (indents, tokens) := closedBlocks column scanner.mark scanner.indents
    { scanner with indents, held := scanner.held ++ tokens }

/-! ## Blanks and comments before a token -/

/-- The cursor at the next token, and whether a simple key may begin there. A break
outside all flow collections allows a key. -/
def skipToToken (inFlow : Bool) (keyAllowed : Bool) (mark : Mark) (inComment : Bool) :
    List Char → Cursor × Bool
  | [] => (⟨[], mark⟩, keyAllowed)
  | '\r' :: '\n' :: rest =>
      skipToToken inFlow (keyAllowed || !inFlow) (mark.nextLine 2) false rest
  | character :: rest =>
      if isBreak character then
        skipToToken inFlow (keyAllowed || !inFlow)
          (mark.nextLine character.utf8Size) false rest
      else if inComment || character == ' ' || (character == '\t' && (inFlow || !keyAllowed)) ||
          (character == '\ufeff' && mark.column == 0) then
        skipToToken inFlow keyAllowed (mark.next character) inComment rest
      else if character == '#' then
        skipToToken inFlow keyAllowed (mark.next character) true rest
      else (⟨character :: rest, mark⟩, keyAllowed)

/-! ## One token -/

def indicator (scanner : Scanner) (kind : TokenKind) (characters : Nat) : Scanner :=
  let cursor := scanner.cursor.skip characters
  { scanner with cursor }.push ⟨kind, scanner.mark, cursor.mark⟩

def fetchEnd (scanner : Scanner) : Except Fault Scanner := do
  let mark := scanner.mark
  let mark := if mark.column = 0 then mark else ⟨mark.index, mark.line + 1, 0⟩
  let scanner := { scanner with cursor := ⟨[], mark⟩ }.closeBlocks (-1)
  let scanner ← scanner.dropKey
  .ok ({ scanner with keyAllowed := false, ended := true }.push ⟨.streamEnd, mark, mark⟩)

def fetchDirective (scanner : Scanner) : Except Fault Scanner := do
  let scanner ← (scanner.closeBlocks (-1)).dropKey
  let (token, cursor) ← directive scanner.cursor
  .ok ({ scanner with keyAllowed := false, cursor }.push token)

def fetchDocumentIndicator (scanner : Scanner) (kind : TokenKind) : Except Fault Scanner := do
  let scanner ← (scanner.closeBlocks (-1)).dropKey
  .ok ({ scanner with keyAllowed := false }.indicator kind 3)

def fetchFlowStart (scanner : Scanner) (kind : TokenKind) : Except Fault Scanner := do
  let scanner ← scanner.noteKey
  .ok ({ scanner with keys := none :: scanner.keys, keyAllowed := true }.indicator kind 1)

def fetchFlowEnd (scanner : Scanner) (kind : TokenKind) : Except Fault Scanner := do
  let scanner ← scanner.dropKey
  let keys := if scanner.inFlow then scanner.keys.drop 1 else scanner.keys
  .ok ({ scanner with keys, keyAllowed := false }.indicator kind 1)

def fetchFlowEntry (scanner : Scanner) : Except Fault Scanner := do
  let scanner ← scanner.dropKey
  .ok ({ scanner with keyAllowed := true }.indicator .flowEntry 1)

/-- Opens a block for an entry at the cursor. Outside flow collections an entry may
begin only where a key may. -/
def beginEntry (scanner : Scanner) (kind : TokenKind) (problem : Problem) :
    Except Fault Scanner :=
  if scanner.inFlow then .ok scanner
  else if !scanner.keyAllowed then .error ⟨problem, scanner.mark, 0, none⟩
  else .ok (scanner.openBlock scanner.mark.column none kind scanner.mark)

def fetchBlockEntry (scanner : Scanner) : Except Fault Scanner := do
  let scanner ← scanner.beginEntry .blockSequenceStart .sequenceEntryNotAllowed
  let scanner ← scanner.dropKey
  .ok ({ scanner with keyAllowed := true }.indicator .blockEntry 1)

def fetchKey (scanner : Scanner) : Except Fault Scanner := do
  let scanner ← scanner.beginEntry .blockMappingStart .keyNotAllowed
  let scanner ← scanner.dropKey
  .ok ({ scanner with keyAllowed := !scanner.inFlow }.indicator .key 1)

def fetchValue (scanner : Scanner) : Except Fault Scanner := do
  match scanner.keys with
  | some key :: outer =>
      let scanner := scanner.insertAt key.token ⟨.key, key.mark, key.mark⟩
      let scanner :=
        scanner.openBlock key.mark.column (some key.token) .blockMappingStart key.mark
      .ok ({ scanner with keys := none :: outer, keyAllowed := false }.indicator .value 1)
  | _ =>
      let scanner ← scanner.beginEntry .blockMappingStart .valueNotAllowed
      .ok ({ scanner with keyAllowed := !scanner.inFlow }.indicator .value 1)

def fetchWord (scanner : Scanner) (read : Cursor → Except Fault (TokenKind × Cursor)) :
    Except Fault Scanner := do
  let scanner ← scanner.noteKey
  let (kind, cursor) ← read scanner.cursor
  .ok ({ scanner with keyAllowed := false, cursor }.push ⟨kind, scanner.mark, cursor.mark⟩)

def fetchAnchor (scanner : Scanner) : Except Fault Scanner :=
  scanner.fetchWord fun cursor => do
    let (name, cursor) ← anchorName .anchor cursor
    .ok (.anchor name, cursor)

def fetchAlias (scanner : Scanner) : Except Fault Scanner :=
  scanner.fetchWord fun cursor => do
    let (name, cursor) ← anchorName .aliasName cursor
    .ok (.aliasTo name, cursor)

def fetchTag (scanner : Scanner) : Except Fault Scanner :=
  scanner.fetchWord fun cursor => do
    let (written, cursor) ← tag scanner.inFlow cursor
    .ok (.tag written.handle written.suffix, cursor)

def fetchQuoted (scanner : Scanner) (style : ScalarStyle) : Except Fault Scanner :=
  scanner.fetchWord fun cursor => do
    let (text, cursor) ← quotedScalar (style == .singleQuoted) cursor
    .ok (.scalar text style, cursor)

/-- A block scalar, after which a key may follow, though it is none itself. -/
def fetchBlockScalar (scanner : Scanner) (style : ScalarStyle) : Except Fault Scanner := do
  let scanner ← scanner.dropKey
  let (scalar, cursor) ← blockScalar (style == .folded) scanner.indent scanner.cursor
  .ok ({ scanner with keyAllowed := true, cursor }.push
    ⟨.scalar scalar.text style, scanner.mark, scalar.stop⟩)

def fetchPlain (scanner : Scanner) : Except Fault Scanner := do
  let scanner ← scanner.noteKey
  let (scalar, cursor) ←
    plainScalar scanner.inFlow (scanner.indent + 1).toNat scanner.cursor
  .ok ({ scanner with keyAllowed := scalar.broken, cursor }.push
    ⟨.scalar scalar.text .plain, scanner.mark, scalar.stop⟩)

def indicators : List Char :=
  ['-', '?', ':', ',', '[', ']', '{', '}', '#', '&', '*', '!', '|', '>', '\'', '"', '%', '@',
    '\x60']

def startsPlain (character : Char) : Bool :=
  !indicators.contains character && !isBlank character && !isBreak character

def fetchAt (scanner : Scanner) (character : Char) (rest : List Char) : Except Fault Scanner :=
  let lineStart := scanner.mark.column == 0
  let inFlow := scanner.inFlow
  if lineStart && character == '%' then scanner.fetchDirective
  else if lineStart && character == '-' && startsIndicator (character :: rest) then
    scanner.fetchDocumentIndicator .documentStart
  else if lineStart && character == '.' && startsIndicator (character :: rest) then
    scanner.fetchDocumentIndicator .documentEnd
  else if character == '[' then scanner.fetchFlowStart .flowSequenceStart
  else if character == '{' then scanner.fetchFlowStart .flowMappingStart
  else if character == ']' then scanner.fetchFlowEnd .flowSequenceEnd
  else if character == '}' then scanner.fetchFlowEnd .flowMappingEnd
  else if character == ',' then scanner.fetchFlowEntry
  else if character == '-' && startsBlank rest then scanner.fetchBlockEntry
  else if character == '?' && (inFlow || startsBlank rest) then scanner.fetchKey
  else if character == ':' && (inFlow || startsBlank rest) then scanner.fetchValue
  else if character == '*' then scanner.fetchAlias
  else if character == '&' then scanner.fetchAnchor
  else if character == '!' then scanner.fetchTag
  else if character == '|' && !inFlow then scanner.fetchBlockScalar .literal
  else if character == '>' && !inFlow then scanner.fetchBlockScalar .folded
  else if character == '\'' then scanner.fetchQuoted .singleQuoted
  else if character == '"' then scanner.fetchQuoted .doubleQuoted
  else if startsPlain character || character == '-' || character == '?' || character == ':' then
    scanner.fetchPlain
  else .error (.during .nextToken scanner.mark .strayCharacter scanner.mark)

def fetch (scanner : Scanner) : Except Fault Scanner := do
  let (cursor, keyAllowed) :=
    skipToToken scanner.inFlow scanner.keyAllowed scanner.mark false scanner.cursor.rest
  let scanner ← { scanner with cursor, keyAllowed }.dropStaleKeys
  let scanner := scanner.closeBlocks scanner.mark.column
  match scanner.cursor.rest with
  | [] => scanner.fetchEnd
  | character :: rest => scanner.fetchAt character rest

/-! ## All tokens -/

def isWaiting (scanner : Scanner) : Bool :=
  scanner.keys.any fun key? => key?.any fun key => key.token == scanner.released

def release (scanner : Scanner) : Nat → List Token × Scanner
  | 0 => ([], scanner)
  | fuel + 1 =>
      match scanner.held with
      | [] => ([], scanner)
      | token :: held =>
          if scanner.isWaiting then ([], scanner)
          else
            let (tokens, scanner) :=
              { scanner with held, released := scanner.released + 1 }.release fuel
            (token :: tokens, scanner)

def fetchBefore (scanner : Scanner) : Option Barrier → Except Fault Scanner
  | none => scanner.fetch
  | some barrier =>
      if barrier.isNear scanner.mark then .error barrier.fault
      else
        match scanner.fetch with
        | .error fault => .error (if barrier.isNear fault.mark then barrier.fault else fault)
        | .ok next => if barrier.index < next.mark.index then .error barrier.fault else .ok next

/-- Reads all tokens, up to the end or to a fault. Each fetch but the last reads at
least one character, which bounds `fuel`. -/
def scanFrom (barrier? : Option Barrier) (scanner : Scanner) : Nat → List Token × Option Fault
  | 0 => ([], none)
  | fuel + 1 =>
      match scanner.dropStaleKeys with
      | .error fault => ([], some fault)
      | .ok scanner =>
          let (tokens, scanner) := scanner.release scanner.held.length
          if scanner.ended && scanner.held.isEmpty then (tokens, none)
          else
            match scanner.fetchBefore barrier? with
            | .error fault => (tokens, some fault)
            | .ok scanner =>
                let (later, fault?) := scanner.scanFrom barrier? fuel
                (tokens ++ later, fault?)

end Scanner

def tokens (text : List Char) : List Token × Option Fault :=
  (Scanner.ofText text).scanFrom (barrier? text) (text.length + 3)

end Stylebook.Yaml
