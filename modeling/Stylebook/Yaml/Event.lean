import Stylebook.Yaml.Token.Basic

/-!
The events of a YAML text: its collections opened and closed, and its scalars and aliases, in
document order. They are read from the tokens by an automaton: `Expected` says what may come next,
and a stack says what is expected after the node that is being read.
-/

namespace Stylebook.Yaml

/-! ## Events -/

inductive EventKind where
  | streamEnd
  | documentStart
  | documentEnd
  | aliasTo (name : String)
  | scalar (anchor : Option String) (tag : Option TagText) (text : String) (style : ScalarStyle)
  | sequenceStart (anchor : Option String) (tag : Option TagText)
  | sequenceEnd
  | mappingStart (anchor : Option String) (tag : Option TagText)
  | mappingEnd
  deriving DecidableEq, Repr, Inhabited

structure Event where
  kind : EventKind
  mark : Mark
  deriving DecidableEq, Repr, Inhabited

/-! ## Expectations -/

/-- What may come next. A collection is entered by its `first` state, which also reads
the token that opens it. -/
inductive Expected where
  | stream
  | document (mayBeImplicit : Bool)
  | documentContent
  | documentEnd
  | blockNode
  | blockEntry (first : Bool)
  | indentlessEntry
  | blockKey (first : Bool)
  | blockValue
  | flowEntry (first : Bool)
  | pairKey
  | pairValue
  | pairEnd
  | flowKey (first : Bool)
  | flowValue (absent : Bool)
  | nothing
  deriving DecidableEq, Repr

abbrev TagHandles := List (TagText × TagText)

def primaryHandle : TagText := asciiBytes ['!']

def secondaryHandle : TagText := asciiBytes ['!', '!']

def standardNamespace : TagText := asciiBytes "tag:yaml.org,2002:".toList

/-- What is expected, now and later, where the open collections began, and the tag
abbreviations of the document. -/
structure Reader where
  tokens : List Token
  fault? : Option Fault
  expected : Expected := .stream
  later : List Expected := []
  opened : List Mark := []
  handles : TagHandles := []
  deriving Repr

namespace Reader

/-! ## Steps -/

/-- Why reading stops: a fault of the text, or tokens that end too soon. The latter
does not happen with the tokens of a text. -/
inductive Halt where
  | fault (fault : Fault)
  | outOfTokens
  deriving Repr

abbrev Step := Except Halt (Event × Reader)

def peek (reader : Reader) : Except Halt Token :=
  match reader.tokens with
  | token :: _ => .ok token
  | [] =>
      match reader.fault? with
      | some fault => .error (.fault fault)
      | none => .error .outOfTokens

def skip (reader : Reader) : Reader := { reader with tokens := reader.tokens.drop 1 }

def pop (reader : Reader) : Reader :=
  match reader.later with
  | [] => { reader with expected := .nothing }
  | expected :: later => { reader with expected, later }

def thenExpect (reader : Reader) (expected : Expected) : Reader :=
  { reader with later := expected :: reader.later }

def close (reader : Reader) : Reader := { reader with opened := reader.opened.drop 1 }.pop

def failure (problem : Problem) (mark : Mark) : Step := .error (.fault ⟨problem, mark, 0, none⟩)

def collectionFailure (reader : Reader) (activity : Activity) (problem : Problem) (mark : Mark) :
    Step :=
  .error (.fault (.during activity (reader.opened.headD {}) problem mark))

def emptyScalar (reader : Reader) (expected : Expected) (mark : Mark) : Step :=
  .ok (⟨.scalar none none "" .plain, mark⟩, { reader with expected })

/-! ## Nodes -/

/-- The anchor and tag before a node, in either order, with the mark of the first of
them and that of the tag. -/
structure Properties where
  anchor : Option String := none
  tag : Option (TagText × TagText) := none
  start : Option Mark := none
  tagMark : Mark := {}
  deriving Repr

def anchorProperty (reader : Reader) (properties : Properties) :
    Except Halt (Properties × Reader) := do
  let token ← reader.peek
  match token.kind with
  | .anchor name =>
      .ok ({ properties with
        anchor := some name, start := properties.start.or (some token.start) }, reader.skip)
  | _ => .ok (properties, reader)

def tagProperty (reader : Reader) (properties : Properties) :
    Except Halt (Properties × Reader) := do
  let token ← reader.peek
  match token.kind with
  | .tag handle suffix =>
      .ok ({ properties with
        tag := some (handle, suffix), start := properties.start.or (some token.start)
        tagMark := token.start }, reader.skip)
  | _ => .ok (properties, reader)

def properties (reader : Reader) : Except Halt (Properties × Reader) := do
  let token ← reader.peek
  match token.kind with
  | .anchor _ =>
      let (properties, reader) ← reader.anchorProperty {}
      reader.tagProperty properties
  | .tag _ _ =>
      let (properties, reader) ← reader.tagProperty {}
      reader.anchorProperty properties
  | _ => .ok ({}, reader)

def expandTag (reader : Reader) (start tagMark : Mark) (handle suffix : TagText) :
    Except Halt TagText :=
  if handle.isEmpty then .ok suffix
  else
    match reader.handles.find? fun entry => entry.1 == handle with
    | some (_, expansion) => .ok (expansion ++ suffix)
    | none => .error (.fault (.during .node start .undefinedTagHandle tagMark))

/-- Reads a node, up to the event that it begins with. A sequence need not be indented
where `indentless`. -/
def node (reader : Reader) (block indentless : Bool) : Step := do
  let token ← reader.peek
  if let .aliasTo name := token.kind then
    return (⟨.aliasTo name, token.start⟩, reader.skip.pop)
  let (properties, reader) ← reader.properties
  let token ← reader.peek
  let start := properties.start.getD token.start
  let tag ←
    match properties.tag with
    | none => Except.ok none
    | some (handle, suffix) =>
        Except.map some (reader.expandTag start properties.tagMark handle suffix)
  let anchor := properties.anchor
  if indentless && token.kind == .blockEntry then
    return (⟨.sequenceStart anchor tag, start⟩, { reader with expected := .indentlessEntry })
  match token.kind with
  | .scalar text style => return (⟨.scalar anchor tag text style, start⟩, reader.skip.pop)
  | .flowSequenceStart =>
      return (⟨.sequenceStart anchor tag, start⟩, { reader with expected := .flowEntry true })
  | .flowMappingStart =>
      return (⟨.mappingStart anchor tag, start⟩, { reader with expected := .flowKey true })
  | kind =>
      if block && kind == .blockSequenceStart then
        return (⟨.sequenceStart anchor tag, start⟩, { reader with expected := .blockEntry true })
      else if block && kind == .blockMappingStart then
        return (⟨.mappingStart anchor tag, start⟩, { reader with expected := .blockKey true })
      else if anchor.isSome || tag.isSome then
        return (⟨.scalar anchor tag "" .plain, start⟩, reader.pop)
      else
        .error (.fault
          (.during (if block then .blockNode else .flowNode) start .contentExpected token.start))

/-- Reads a node after which `next` is expected, unless the next token is one of those
that show that the node is not written. -/
def nodeUnless (reader : Reader) (absent : List TokenKind) (next : Expected)
    (block indentless : Bool) (emptyMark : Option Mark) : Step := do
  let token ← reader.peek
  if absent.contains token.kind then
    reader.emptyScalar next (emptyMark.getD token.start)
  else (reader.thenExpect next).node block indentless

def enter (reader : Reader) (first : Bool) : Except Halt Reader := do
  if first then
    let token ← reader.peek
    return { reader.skip with opened := token.start :: reader.opened }
  else return reader

/-! ## Documents -/

def directives (versionSeen : Bool) (handles : TagHandles) (reader : Reader) :
    Nat → Except Halt (TagHandles × Reader)
  | 0 => .ok (handles, reader)
  | fuel + 1 => do
      let token ← reader.peek
      match token.kind with
      | .versionDirective major minor =>
          if versionSeen then .error (.fault ⟨.duplicateVersion, token.start, 0, none⟩)
          else if major ≠ 1 || (minor ≠ 1 && minor ≠ 2) then
            .error (.fault ⟨.incompatibleVersion, token.start, 0, none⟩)
          else directives true handles reader.skip fuel
      | .tagDirective handle expansion =>
          if handles.any fun entry => entry.1 == handle then
            .error (.fault ⟨.duplicateTagDirective, token.start, 0, none⟩)
          else directives versionSeen (handles ++ [(handle, expansion)]) reader.skip fuel
      | _ => .ok (handles, reader)

def withDefaults (handles : TagHandles) : TagHandles :=
  handles ++ [(primaryHandle, primaryHandle), (secondaryHandle, standardNamespace)]

def skipDocumentEnds (reader : Reader) : Reader :=
  { reader with tokens := reader.tokens.dropWhile fun token => token.kind == .documentEnd }

def TokenKind.isDirective : TokenKind → Bool
  | .versionDirective _ _ => true
  | .tagDirective _ _ => true
  | _ => false

/-- Reads the start of a document or the end of the text. Only the first document may
begin without a marker. -/
def document (reader : Reader) (mayBeImplicit : Bool) : Step := do
  let reader := if mayBeImplicit then reader else reader.skipDocumentEnds
  let token ← reader.peek
  if token.kind == .streamEnd then
    return (⟨.streamEnd, token.start⟩, { reader.skip with expected := .nothing })
  else if mayBeImplicit && token.kind != .documentStart && !TokenKind.isDirective token.kind then
    return (⟨.documentStart, token.start⟩,
      { reader with
        expected := .blockNode, later := .documentEnd :: reader.later, handles := withDefaults [] })
  else
    let (handles, reader) ← directives false [] reader (reader.tokens.length + 1)
    let opening ← reader.peek
    if opening.kind != .documentStart then failure .documentStartExpected opening.start
    else
      return (⟨.documentStart, token.start⟩,
        { reader.skip with
          expected := .documentContent, later := .documentEnd :: reader.later
          handles := withDefaults handles })

def documentContent (reader : Reader) : Step := do
  let token ← reader.peek
  let absent := TokenKind.isDirective token.kind ||
    [TokenKind.documentStart, .documentEnd, .streamEnd].contains token.kind
  if absent then reader.pop.emptyScalar reader.pop.expected token.start
  else reader.node true false

def documentEnd (reader : Reader) : Step := do
  let token ← reader.peek
  let reader := if token.kind == .documentEnd then reader.skip else reader
  return (⟨.documentEnd, token.start⟩, { reader with expected := .document false })

/-! ## Block collections -/

def blockEntry (reader : Reader) (first : Bool) : Step := do
  let reader ← reader.enter first
  let token ← reader.peek
  match token.kind with
  | .blockEntry =>
      reader.skip.nodeUnless [.blockEntry, .blockEnd] (.blockEntry false) true false
        (some token.stop)
  | .blockEnd => return (⟨.sequenceEnd, token.start⟩, reader.skip.close)
  | _ => reader.collectionFailure .blockCollection .blockEntryExpected token.start

def indentlessEntry (reader : Reader) : Step := do
  let token ← reader.peek
  match token.kind with
  | .blockEntry =>
      reader.skip.nodeUnless [.blockEntry, .key, .value, .blockEnd] .indentlessEntry true false
        (some token.stop)
  | _ => return (⟨.sequenceEnd, token.start⟩, reader.pop)

def blockKey (reader : Reader) (first : Bool) : Step := do
  let reader ← reader.enter first
  let token ← reader.peek
  match token.kind with
  | .key =>
      reader.skip.nodeUnless [.key, .value, .blockEnd] .blockValue true true (some token.stop)
  | .blockEnd => return (⟨.mappingEnd, token.start⟩, reader.skip.close)
  | _ => reader.collectionFailure .blockMapping .blockKeyExpected token.start

def blockValue (reader : Reader) : Step := do
  let token ← reader.peek
  match token.kind with
  | .value =>
      reader.skip.nodeUnless [.key, .value, .blockEnd] (.blockKey false) true true
        (some token.stop)
  | _ => reader.emptyScalar (.blockKey false) token.start

/-! ## Flow collections -/

def separator (reader : Reader) (first : Bool) (activity : Activity) (problem : Problem) :
    Except Halt Reader := do
  let token ← reader.peek
  if first then return reader
  else if token.kind == .flowEntry then return reader.skip
  else .error (.fault (.during activity (reader.opened.headD {}) problem token.start))

def flowEntry (reader : Reader) (first : Bool) : Step := do
  let reader ← reader.enter first
  let token ← reader.peek
  if token.kind == .flowSequenceEnd then
    return (⟨.sequenceEnd, token.start⟩, reader.skip.close)
  let reader ← reader.separator first .flowSequence .flowEntryExpected
  let token ← reader.peek
  match token.kind with
  | .key =>
      return (⟨.mappingStart none none, token.start⟩, { reader.skip with expected := .pairKey })
  | .flowSequenceEnd => return (⟨.sequenceEnd, token.start⟩, reader.skip.close)
  | _ => (reader.thenExpect (.flowEntry false)).node false false

/-- The key of a pair that is an entry of a flow sequence. Where the key is not written,
the token after it is passed over. -/
def pairKey (reader : Reader) : Step := do
  let token ← reader.peek
  if [TokenKind.value, .flowEntry, .flowSequenceEnd].contains token.kind then
    reader.skip.emptyScalar .pairValue token.stop
  else (reader.thenExpect .pairValue).node false false

def pairValue (reader : Reader) : Step := do
  let token ← reader.peek
  match token.kind with
  | .value => reader.skip.nodeUnless [.flowEntry, .flowSequenceEnd] .pairEnd false false none
  | _ => reader.emptyScalar .pairEnd token.start

def pairEnd (reader : Reader) : Step := do
  let token ← reader.peek
  return (⟨.mappingEnd, token.start⟩, { reader with expected := .flowEntry false })

def flowKey (reader : Reader) (first : Bool) : Step := do
  let reader ← reader.enter first
  let token ← reader.peek
  if token.kind == .flowMappingEnd then
    return (⟨.mappingEnd, token.start⟩, reader.skip.close)
  let reader ← reader.separator first .flowMapping .flowPairExpected
  let token ← reader.peek
  match token.kind with
  | .key =>
      reader.skip.nodeUnless [.value, .flowEntry, .flowMappingEnd] (.flowValue false) false false
        none
  | .flowMappingEnd => return (⟨.mappingEnd, token.start⟩, reader.skip.close)
  | _ => (reader.thenExpect (.flowValue true)).node false false

def flowValue (reader : Reader) (absent : Bool) : Step := do
  let token ← reader.peek
  if absent then reader.emptyScalar (.flowKey false) token.start
  else
    match token.kind with
    | .value =>
        reader.skip.nodeUnless [.flowEntry, .flowMappingEnd] (.flowKey false) false false none
    | _ => reader.emptyScalar (.flowKey false) token.start

/-! ## All events -/

def step (reader : Reader) : Step :=
  match reader.expected with
  | .stream => { reader.skip with expected := .document true }.document true
  | .document mayBeImplicit => reader.document mayBeImplicit
  | .documentContent => reader.documentContent
  | .documentEnd => reader.documentEnd
  | .blockNode => reader.node true false
  | .blockEntry first => reader.blockEntry first
  | .indentlessEntry => reader.indentlessEntry
  | .blockKey first => reader.blockKey first
  | .blockValue => reader.blockValue
  | .flowEntry first => reader.flowEntry first
  | .pairKey => reader.pairKey
  | .pairValue => reader.pairValue
  | .pairEnd => reader.pairEnd
  | .flowKey first => reader.flowKey first
  | .flowValue absent => reader.flowValue absent
  | .nothing => .error .outOfTokens

def events (reader : Reader) : Nat → List Event × Option Fault
  | 0 => ([], none)
  | fuel + 1 =>
      match reader.step with
      | .error (.fault fault) => ([], some fault)
      | .error .outOfTokens => ([], none)
      | .ok (event, reader) =>
          let (later, fault?) := reader.events fuel
          (event :: later, fault?)

end Reader

/-- The events of a list of tokens, and the fault after the last of them if there is
one. No token leads to more than four events. -/
def eventsOfTokens (tokens : List Token) (fault? : Option Fault) : List Event × Option Fault :=
  Reader.events { tokens, fault? } (4 * tokens.length + 8)

end Stylebook.Yaml
