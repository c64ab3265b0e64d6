import Stylebook.Css.Component
import Stylebook.Text

/-!
The profile of a selector list: its specificity, its length in compounds, and how often
it uses the universal selector; and the class names that an identifier mentions.

The components of a list are first read as parts, which say what each of them is to a
selector; the profile is then a matter of counting.
-/

namespace Stylebook.Selector

open Css

/-! ## Specificity -/

structure Specificity where
  ids : UInt32 := 0
  classes : UInt32 := 0
  types : UInt32 := 0
  deriving DecidableEq, Repr, Inhabited

namespace Specificity

def weight (specificity : Specificity) : UInt32 :=
  specificity.ids * 100 + specificity.classes * 10 + specificity.types

def add (first second : Specificity) : Specificity :=
  ⟨first.ids + second.ids, first.classes + second.classes, first.types + second.types⟩

def isLess (first second : Specificity) : Bool :=
  decide (first.ids < second.ids) ||
    (first.ids == second.ids &&
      (decide (first.classes < second.classes) ||
        (first.classes == second.classes && decide (first.types < second.types))))

def max (first second : Specificity) : Specificity :=
  if first.isLess second then second else first

end Specificity

/-! ## Parts -/

/-- What a component is to a selector. A part other than a comma or boundary belongs to
a compound; the specificity counts the `idLike`, `classLike` and `typeLike` ones, and a
`list` has that of its greatest member. -/
inductive Part where
  | comma
  | boundary
  | plain
  | universal
  | idLike
  | classLike
  | typeLike
  | list (parts : List Part)
  deriving Repr, Inhabited

def singleColonElements : List String := ["before", "after", "first-line", "first-letter"]

def transparentClasses : List String := ["not", "is", "has", "matches", "any"]

def lowerName (name : String) : String := String.ofList (name.toList.map Char.toLower)

def Part.ofComponent? : Component → Option Part
  | .token .comma => some .comma
  | .token .blank => some .boundary
  | .token (.delimiter '>') => some .boundary
  | .token (.delimiter '+') => some .boundary
  | .token (.delimiter '~') => some .boundary
  | .token (.delimiter '*') => some .universal
  | .token (.delimiter '&') => some .plain
  | .token (.hash _) => some .idLike
  | .token (.identifier _) => some .typeLike
  | .block (.opening .square) _ => some .classLike
  | _ => none

def withPart (read : List Part) : Option Part → List Part
  | some part => part :: read
  | none => read

mutual

def pseudo? : Component → Option Part
  | .token (.identifier name) =>
      some (if singleColonElements.contains (lowerName name) then .typeLike else .classLike)
  | .block (.function name) contents =>
      if lowerName name = "where" then some .plain
      else if transparentClasses.contains (lowerName name) then
        some (.list (partsOnto [] contents))
      else some .classLike
  | .block _ _ => none
  | .token _ => none

/-- The parts of a selector list behind those that were read before, which `read` holds in
reverse. The component after a full stop or after two colons is a name, and is passed over
whatever it is. -/
def partsOnto (read : List Part) : List Component → List Part
  | [] => read.reverse
  | [.token (.delimiter '.')] => (.classLike :: read).reverse
  | .token (.delimiter '.') :: _ :: rest => partsOnto (.classLike :: read) rest
  | [.token .colon] => read.reverse
  | [.token .colon, .token .colon] => (.typeLike :: read).reverse
  | .token .colon :: .token .colon :: _ :: rest => partsOnto (.typeLike :: read) rest
  | .token .colon :: next :: rest => partsOnto (withPart read (pseudo? next)) rest
  | component :: rest => partsOnto (withPart read (Part.ofComponent? component)) rest

end

def parts (components : List Component) : List Part := partsOnto [] components

/-! ## Counting -/

def putBefore : Part → List (List Part) → List (List Part)
  | .comma, members => [] :: members
  | part, member :: later => (part :: member) :: later
  | part, [] => [[part]]

def memberParts (parts : List Part) : List (List Part) := parts.foldr putBefore [[]]

/-- How many compounds there are with those that the parts of a member make up, if there were
`count` before. Parts with no boundary between them belong to one compound; `within` says whether
one has begun. -/
def countCompounds (count : Nat) (within : Bool) : List Part → Nat
  | [] => count
  | .comma :: rest => countCompounds count within rest
  | .boundary :: rest => countCompounds count false rest
  | _ :: rest => countCompounds (if within then count else count + 1) true rest

def compoundCount (within : Bool) (parts : List Part) : Nat := countCompounds 0 within parts

def isUniversal : Part → Bool
  | .universal => true
  | _ => false

mutual

def Part.specificity : Part → Specificity
  | .idLike => { ids := 1 }
  | .classLike => { classes := 1 }
  | .typeLike => { types := 1 }
  | .list parts => greatestSpecificity {} {} parts
  | .comma => {}
  | .boundary => {}
  | .plain => {}
  | .universal => {}

/-- The greatest specificity among `best` and the members of a list, the first of which
already has the specificity `current`. -/
def greatestSpecificity (best current : Specificity) : List Part → Specificity
  | [] => best.max current
  | .comma :: rest => greatestSpecificity (best.max current) {} rest
  | part :: rest => greatestSpecificity best (current.add part.specificity) rest

end

/-- A summary of a selector list. `compounds` is that of the longest member, and
`universal` counts over all members. -/
structure Profile where
  specificity : Specificity := {}
  compounds : Nat := 0
  universal : Nat := 0
  deriving DecidableEq, Repr, Inhabited

namespace Profile

def ofParts (parts : List Part) : Profile :=
  { specificity := greatestSpecificity {} {} parts
    compounds := ((memberParts parts).map (compoundCount false)).foldl Nat.max 0
    universal := parts.countP isUniversal }

def ofSelector (selector : String) : Profile := ofParts (parts (Component.ofText selector))

end Profile

/-! ## Class names -/

inductive ClassRef where
  | name (name : String)
  | suffix (suffix : String)
  deriving DecidableEq, Repr, Inhabited

/-- The class names among components. A name follows a full stop directly, a suffix the
parent reference; components within blocks are not looked at. -/
def classRefsAfter (afterStop afterReference : Bool) : List Component → List ClassRef
  | [] => []
  | .token (.identifier name) :: rest =>
      let later := classRefsAfter false false rest
      if afterStop then .name name :: later
      else if afterReference then .suffix name :: later
      else later
  | .token (.delimiter '.') :: rest => classRefsAfter true false rest
  | _ :: rest => classRefsAfter false false rest

/-- The class names that an identifier mentions, in order. Only a parent reference at
its very beginning has a suffix. -/
def classRefs (identifier : String) : List ClassRef :=
  match Component.ofText (Text.trimmed identifier) with
  | .token (.delimiter '&') :: rest => classRefsAfter false true rest
  | components => classRefsAfter false false components

end Stylebook.Selector
