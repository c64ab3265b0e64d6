import Stylebook.Selector.List

/-!
Qualification: the selector of a nested node. Each member of its identifier is combined
with each selector of its parent. A member that begins with the parent reference `&` is
fused, which puts the parent's selector in place of every reference; any other member is
a descendant.
-/

namespace Stylebook.Selector

def maximumSelectors : Nat := 1024

inductive QualifyError where
  | emptyIdentifier
  | parentReferenceAtRoot
  | tooManySelectors
  deriving DecidableEq, Repr, Inhabited

/-! ## Combination -/

def isFused (identifier : List Char) : Bool := (Text.trimStart identifier).head? == some '&'

def substitute (parent : List Char) (member : List Char) : List Char :=
  member.flatMap fun character => if character = '&' then parent else [character]

def combine (parent member : List Char) : List Char :=
  if isFused member then substitute parent member else parent ++ ' ' :: member

example : combine ['.', 'a'] ['&', ':', 'x'] = ['.', 'a', ':', 'x'] := by decide

example : combine ['.', 'a'] ['b'] = ['.', 'a', ' ', 'b'] := by decide

def combinations (parents members : List (List Char)) : List (List Char) :=
  parents.flatMap fun parent => members.map (combine parent)

/-! ## Qualification -/

def qualifyRoot (identifier : List Char) : Except QualifyError (List Char) :=
  let members := members identifier
  if members.isEmpty then .error .emptyIdentifier
  else if members.any isFused then .error .parentReferenceAtRoot
  else if members.length > maximumSelectors then .error .tooManySelectors
  else .ok (joined members)

def qualifyUnder (parent identifier : List Char) : Except QualifyError (List Char) :=
  let members := members identifier
  let parents := Selector.members parent
  if members.isEmpty then .error .emptyIdentifier
  else if parents.length * members.length > maximumSelectors then .error .tooManySelectors
  else .ok (joined (combinations parents members))

def qualifyCharacters : Option (List Char) → List Char → Except QualifyError (List Char)
  | none, identifier => qualifyRoot identifier
  | some parent, identifier => qualifyUnder parent identifier

def qualifyAll (parent? : Option (List Char)) :
    List (List Char) → Except QualifyError (Option (List Char))
  | [] => .ok parent?
  | identifier :: rest => do
      let selector ← qualifyCharacters parent? identifier
      qualifyAll (some selector) rest

def qualifyLineage (lineage : List String) : Except QualifyError String := do
  match ← qualifyAll none (lineage.map String.toList) with
  | some selector => return String.ofList selector
  | none => .error .emptyIdentifier

def qualify (parent? : Option String) (identifier : String) : Except QualifyError String :=
  (qualifyCharacters (parent?.map String.toList) identifier.toList).map String.ofList

/-! ## Expansion -/

/-- The greatest count. Counts that would be greater stay at it. -/
def maximumCount : Nat := UInt64.size - 1

def saturatingProduct (first second : Nat) : Nat := min (first * second) maximumCount

/-- How many selectors the last identifier of a lineage expands to. An identifier
without members counts as one. -/
def expandedLength (lineage : List String) : Nat :=
  lineage.foldl
    (fun count identifier => saturatingProduct count (max (members identifier.toList).length 1)) 1

end Stylebook.Selector
