/-!
The grammar of class names: a block, an element of it after `__`, and a modifier after
`--`. Names without either separator are not checked.
-/

namespace Stylebook.Naming

/-! ## Segments -/

inductive Separator where
  | element
  | modifier
  deriving DecidableEq, Repr, Inhabited

structure Segments where
  first : List Char
  later : List (Separator × List Char)
  deriving DecidableEq, Repr, Inhabited

namespace Segments

/-- The segments of a name, separators being taken from the left. -/
def ofName : List Char → Segments
  | [] => ⟨[], []⟩
  | '_' :: '_' :: rest =>
      let segments := ofName rest
      ⟨[], (.element, segments.first) :: segments.later⟩
  | '-' :: '-' :: rest =>
      let segments := ofName rest
      ⟨[], (.modifier, segments.first) :: segments.later⟩
  | character :: rest =>
      let segments := ofName rest
      ⟨character :: segments.first, segments.later⟩

def parts (segments : Segments) : List (List Char) :=
  segments.first :: segments.later.map Prod.snd

def separators (segments : Segments) : List Separator := segments.later.map Prod.fst

end Segments

/-! ## Rules -/

inductive ViolationKind where
  | emptySegment
  | malformedSeparator
  | multipleElements
  | multipleModifiers
  | modifierBeforeElement
  deriving DecidableEq, Repr, Inhabited

namespace ViolationKind

def text : ViolationKind → String
  | emptySegment => "empty-segment"
  | malformedSeparator => "malformed-separator"
  | multipleElements => "multiple-elements"
  | multipleModifiers => "multiple-modifiers"
  | modifierBeforeElement => "modifier-before-element"

def explanation (kind : ViolationKind) (name : String) : String :=
  "'" ++ name ++ "' " ++
    match kind with
    | emptySegment => "has a separator with an empty name beside it"
    | malformedSeparator => "has a separator that is not exactly '__' or '--'"
    | multipleElements => "nests elements; use a single '__element'"
    | multipleModifiers => "chains modifiers; use one '--modifier' per class"
    | modifierBeforeElement => "puts the modifier before the element"

end ViolationKind

def isRagged (character : Char) : Bool := character == '_' || character == '-'

def hasRaggedEnd (part : List Char) : Bool :=
  part.head?.any isRagged || part.getLast?.any isRagged

def violationOf? (name : String) : Option ViolationKind :=
  let segments := Segments.ofName name.toList
  let separators := segments.separators
  let elements := separators.count .element
  let modifiers := separators.count .modifier
  if separators.isEmpty then none
  else if segments.parts.any List.isEmpty then some .emptySegment
  else if segments.parts.any hasRaggedEnd then some .malformedSeparator
  else if elements > 1 then some .multipleElements
  else if modifiers > 1 then some .multipleModifiers
  else if separators.head? == some .modifier && elements == 1 then some .modifierBeforeElement
  else none

end Stylebook.Naming
