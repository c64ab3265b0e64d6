import Stylebook.Analysis.Pattern
import Stylebook.Analysis.Similarity

/-!
Clusters of similar patterns. Groups of patterns, at first of one each, are merged for as
long as there are two groups in which every pattern of the one is similar enough to
every pattern of the other; the two most similar groups are merged first.
-/

namespace Stylebook

/-- Patterns that are similar to each other. `cohesion` is the least similarity of two
members, and `representative` the signature of the most frequent one. -/
structure Cluster where
  members : List Pattern
  cohesion : Similarity
  representative : Signature
  deriving DecidableEq, Repr, Inhabited

namespace Cluster

def totalFrequency (cluster : Cluster) : Nat :=
  cluster.members.foldr (fun member count => member.frequency + count) 0

def sharedDeclarations (cluster : Cluster) : List Declaration :=
  match cluster.members with
  | [] => []
  | first :: rest =>
      first.declarations.filter fun declaration =>
        rest.all fun member => member.declarations.contains declaration

def distinctPaths (seen : List NodePath) : List Occurrence → List Occurrence
  | [] => []
  | occurrence :: rest =>
      if seen.contains occurrence.path then distinctPaths seen rest
      else occurrence :: distinctPaths (occurrence.path :: seen) rest

def occurrences (cluster : Cluster) : List Occurrence :=
  distinctPaths [] (cluster.members.flatMap Pattern.occurrences)

end Cluster

/-! ## Similarity of patterns -/

def declarationToken (declaration : Declaration) : String :=
  declaration.property ++ ":" ++ declaration.value

def tokenSet (pattern : Pattern) : List String :=
  (pattern.declarations.map declarationToken).eraseDups

def similarityAt (tokens : Array (List String)) (first second : Nat) : Similarity :=
  Similarity.jaccard (tokens.getD first []) (tokens.getD second [])

/-! ## Grouping

Groups hold positions of patterns in ascending order. -/

def linkage (similarity : Nat → Nat → Similarity) (first second : List Nat) : Similarity :=
  (first.flatMap fun left => second.map fun right => similarity left right).foldl
    Nat.min Similarity.infinite

/-- Two groups by their places in a list, the first before the second, with their
linkage. -/
structure Link where
  first : Nat
  second : Nat
  linkage : Similarity
  deriving DecidableEq, Repr, Inhabited

def linksOf (similarity : Nat → Nat → Similarity) (place : Nat) (group : List Nat)
    (otherPlace : Nat) : List (List Nat) → List Link
  | [] => []
  | other :: rest =>
      ⟨place, otherPlace, Stylebook.linkage similarity group other⟩ ::
        linksOf similarity place group (otherPlace + 1) rest

def links (similarity : Nat → Nat → Similarity) (place : Nat) : List (List Nat) → List Link
  | [] => []
  | group :: rest =>
      linksOf similarity place group (place + 1) rest ++ links similarity (place + 1) rest

/-- The first of the strongest links. -/
def strongest? : List Link → Option Link
  | [] => none
  | link :: rest =>
      match strongest? rest with
      | none => some link
      | some later => if link.linkage < later.linkage then some later else some link

def joinGroups (first second : List Nat) : List Nat :=
  (first ++ second).mergeSort fun left right => decide (left ≤ right)

def mergeLink (link : Link) (groups : List (List Nat)) : List (List Nat) :=
  let absorbed := groups.getD link.second []
  (groups.eraseIdx link.second).modify link.first fun group => joinGroups group absorbed

/-- Merges groups until no link is as strong as `minimum`. Each step leaves one group
less, so as many steps as there are groups are enough. -/
def agglomerate (similarity : Nat → Nat → Similarity) (minimum : Similarity)
    (groups : List (List Nat)) : Nat → List (List Nat)
  | 0 => groups
  | steps + 1 =>
      let strong := (links similarity 0 groups).filter fun link => decide (minimum ≤ link.linkage)
      match strongest? strong with
      | none => groups
      | some link => agglomerate similarity minimum (mergeLink link groups) steps

def groupsOf (similarity : Nat → Nat → Similarity) (minimum : Similarity) (count : Nat) :
    List (List Nat) :=
  agglomerate similarity minimum ((List.range count).map fun position => [position]) count

/-! ## Clusters -/

def cohesionOf (similarity : Nat → Nat → Similarity) : List Nat → Similarity
  | [] => Similarity.one
  | position :: rest =>
      (rest.map (similarity position)).foldl Nat.min (cohesionOf similarity rest)

def precedes (first second : Pattern) : Bool :=
  decide (second.frequency < first.frequency) ||
    (first.frequency == second.frequency && first.signature.le second.signature)

def representative? : List Pattern → Option Signature
  | [] => none
  | first :: rest =>
      some (rest.foldl (fun best pattern => if precedes best pattern then best else pattern)
        first).signature

def clusterOf? (similarity : Nat → Nat → Similarity) (patterns : List Pattern)
    (group : List Nat) : Option Cluster :=
  let members := group.filterMap fun position => patterns[position]?
  (representative? members).map fun representative =>
    ⟨members, cohesionOf similarity group, representative⟩

def Cluster.le (first second : Cluster) : Bool :=
  decide (second.cohesion < first.cohesion) ||
    (first.cohesion == second.cohesion &&
      (decide (second.totalFrequency < first.totalFrequency) ||
        (first.totalFrequency == second.totalFrequency &&
          first.representative.le second.representative)))

def Cluster.isReported (options : Options) (cluster : Cluster) : Bool :=
  decide (Similarity.ofFloat options.minimumCohesion ≤ cluster.cohesion) &&
    (decide (1 < cluster.members.length) ||
      decide (options.minimumFrequency ≤ cluster.totalFrequency))

def clusters (options : Options) (patterns : List Pattern) : List Cluster :=
  let tokens := (patterns.map tokenSet).toArray
  let groups :=
    groupsOf (similarityAt tokens) (Similarity.ofFloat options.minimumCohesion) patterns.length
  let found := groups.filterMap (clusterOf? (similarityAt tokens) patterns)
  (found.filter (Cluster.isReported options)).mergeSort Cluster.le

end Stylebook
