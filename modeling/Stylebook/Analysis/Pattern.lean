import Stylebook.Analysis.Options
import Stylebook.Analysis.Signature
import Stylebook.Selector.Qualify
import Stylebook.Tree.Walk

/-!
Patterns: declaration sets that several nodes have. They are looked for in two ways,
among all nodes of a tree and among siblings only, and the results are merged.
-/

namespace Stylebook

structure Occurrence where
  path : NodePath
  selector : String
  deriving DecidableEq, Repr, Inhabited

/-- A declaration set with its occurrences. `frequency` says how often it was seen,
which is more often than it occurs if several searches have seen it. -/
structure Pattern where
  signature : Signature
  declarations : List Declaration
  occurrences : List Occurrence
  frequency : Nat
  deriving DecidableEq, Repr, Inhabited

namespace Pattern

/-! ## Order -/

def leastPath? : List NodePath → Option NodePath
  | [] => none
  | path :: rest =>
      match leastPath? rest with
      | none => some path
      | some least => some (if path.le least then path else least)

def firstPath? (pattern : Pattern) : Option NodePath :=
  leastPath? (pattern.occurrences.map Occurrence.path)

def pathLe : Option NodePath → Option NodePath → Bool
  | none, _ => true
  | some _, none => false
  | some first, some second => first.le second

def le (first second : Pattern) : Bool :=
  decide (second.frequency < first.frequency) ||
    (first.frequency == second.frequency && pathLe first.firstPath? second.firstPath?)

def sorted (patterns : List Pattern) : List Pattern := patterns.mergeSort le

end Pattern

/-! ## Sightings -/

/-- One node with declarations. `scope` tells apart nodes that are not compared. -/
structure Sighting where
  scope : Option NodePath
  signature : Signature
  declarations : List Declaration
  occurrence : Occurrence
  deriving DecidableEq, Repr, Inhabited

namespace Sighting

def key (sighting : Sighting) : Option NodePath × Signature :=
  (sighting.scope, sighting.signature)

/-- The sighting of a visited node. A node without a selector is named by its
breadcrumb. -/
def ofVisit (scope : Visit → Option NodePath) (visit : Visit) : Sighting :=
  let declarations := canonical visit.node.declarations
  { scope := scope visit
    signature := .ofCanonical declarations
    declarations
    occurrence :=
      { path := visit.path
        selector :=
          match Selector.qualifyLineage visit.lineage with
          | .ok selector => selector
          | .error _ => visit.breadcrumb } }

end Sighting

def sightings (scope : Visit → Option NodePath) (visits : List Visit) : List Sighting :=
  (visits.filter fun visit => !visit.node.declarations.isEmpty).map (Sighting.ofVisit scope)

/-! ## Search -/

def patternOf (sightings : List Sighting) (key : Option NodePath × Signature) : Option Pattern :=
  match sightings.filter fun sighting => sighting.key == key with
  | [] => none
  | first :: rest =>
      some
        { signature := first.signature
          declarations := first.declarations
          occurrences := (first :: rest).map Sighting.occurrence
          frequency := rest.length + 1 }

def patternsOf (sightings : List Sighting) : List Pattern :=
  (sightings.map Sighting.key).eraseDups.filterMap (patternOf sightings)

def search (scope : Visit → Option NodePath) (options : Options) (visits : List Visit) :
    List Pattern :=
  Pattern.sorted
    ((patternsOf (sightings scope visits)).filter fun pattern =>
      decide (options.minimumFrequency ≤ pattern.frequency))

namespace StyleTree

def generalPatterns (tree : StyleTree) (options : Options) : List Pattern :=
  search (fun _ => none) options tree.walk

def siblingPatterns (tree : StyleTree) (options : Options) : List Pattern :=
  search (fun visit => visit.path.parent?) options (tree.walkWithin options.maximumDepth)

end StyleTree

/-! ## Merging -/

def addOccurrences (occurrences : List Occurrence) : List Occurrence → List Occurrence
  | [] => occurrences
  | occurrence :: rest =>
      if occurrences.any fun known => known.path == occurrence.path then
        addOccurrences occurrences rest
      else addOccurrences (occurrences ++ [occurrence]) rest

def Pattern.absorb (first second : Pattern) : Pattern :=
  { first with
    frequency := first.frequency + second.frequency
    occurrences := addOccurrences first.occurrences second.occurrences }

def mergedPattern (patterns : List Pattern) (signature : Signature) : Option Pattern :=
  match patterns.filter fun pattern => pattern.signature == signature with
  | [] => none
  | first :: rest => some (rest.foldl Pattern.absorb first)

def mergePatterns (options : Options) (lists : List (List Pattern)) : List Pattern :=
  let patterns := lists.flatten
  let merged := (patterns.map Pattern.signature).eraseDups.filterMap (mergedPattern patterns)
  Pattern.sorted (merged.filter fun pattern =>
    decide (options.minimumFrequency ≤ pattern.frequency))

end Stylebook
