import Stylebook.Tree.Basic

/-!
The walk of a tree: its nodes in document order, a node before its children and
the children from first to last. Every pass over a tree reads this list; passes
differ in the depth to which they walk and in the visits that they keep.

The same visits can be made one at a time: a traversal keeps those that it has yet
to make on a stack.
-/

namespace Stylebook

/-- One node that a walk reaches. `lineage` holds the identifiers from the root
down to the node itself. -/
structure Visit where
  node : StyleNode
  path : NodePath
  lineage : List String
  deriving BEq, Inhabited, Repr

namespace Visit

def depth (visit : Visit) : Nat := visit.path.depth

def isRoot (visit : Visit) : Bool := visit.depth == 1

def breadcrumb (visit : Visit) : String := " > ".intercalate visit.lineage

end Visit

/-! A walk may have a ceiling: a number of levels below which it neither visits
nor descends. `none` is no ceiling. -/

def levelsBelow : Option Nat → Option Nat
  | none => none
  | some levels => some (levels - 1)

mutual

/-- The node and its descendants in document order, on at most `levels` levels
below the node. -/
def StyleNode.visits (path : NodePath) (lineage : List String) (levels : Option Nat) :
    StyleNode → List Visit
  | ⟨identifier, declarations, children⟩ =>
      ⟨⟨identifier, declarations, children⟩, path, lineage⟩ ::
        (if levels = some 0 then [] else
          siblingVisits path lineage (levelsBelow levels) 0 children)

def siblingVisits (path : NodePath) (lineage : List String) (levels : Option Nat)
    (index : Nat) : List StyleNode → List Visit
  | [] => []
  | node :: rest =>
      node.visits (path.child index) (lineage ++ [node.identifier]) levels ++
        siblingVisits path lineage levels (index + 1) rest

end

namespace StyleTree

def walk (tree : StyleTree) : List Visit := siblingVisits [] [] none 0 tree.roots

def walkWithin (tree : StyleTree) (ceiling : Nat) : List Visit :=
  if ceiling = 0 then [] else siblingVisits [] [] (some (ceiling - 1)) 0 tree.roots

end StyleTree

example :
    let leaf := StyleNode.mk "c" [] []
    (StyleTree.mk [⟨"a", [], [⟨"b", [], [leaf]⟩]⟩, leaf] none).walk.map Visit.path =
      [[0], [0, 0], [0, 0, 0], [1]] := rfl

example :
    let leaf := StyleNode.mk "c" [] []
    ((StyleTree.mk [⟨"a", [], [⟨"b", [], [leaf]⟩]⟩, leaf] none).walkWithin 2).map Visit.path =
      [[0], [0, 0], [1]] := rfl

/-! ## Traversals

To go on, a traversal makes the visit on top of its stack and puts those of the node's
children in its place, unless they lie below the ceiling. -/

namespace Visit

def siblings (path : NodePath) (lineage : List String) (index : Nat) (nodes : List StyleNode) :
    List Visit :=
  (nodes.zipIdx index).map fun (node, index) =>
    ⟨node, path.child index, lineage ++ [node.identifier]⟩

def children (visit : Visit) : List Visit :=
  siblings visit.path visit.lineage 0 visit.node.children

def descends (ceiling : Option Nat) (visit : Visit) : Bool :=
  ceiling.all fun ceiling => visit.depth < ceiling

end Visit

/-- `pending` is the stack, from its top down. -/
structure Traversal where
  pending : List Visit
  ceiling : Option Nat := none

namespace Traversal

/-- Visits are put on a stack from the last to the first, so the first comes to lie on top. -/
def push (visits pending : List Visit) : List Visit := visits.foldr List.cons pending

def next? : Traversal → Option (Visit × Traversal)
  | ⟨[], _⟩ => none
  | ⟨visit :: rest, ceiling⟩ =>
      if visit.descends ceiling then some (visit, ⟨push visit.children rest, ceiling⟩)
      else some (visit, ⟨rest, ceiling⟩)

/-- The same traversal down to a ceiling. Nothing lies at depth zero. -/
def within (traversal : Traversal) (ceiling : Nat) : Traversal where
  pending := if ceiling = 0 then [] else traversal.pending
  ceiling := some ceiling

/-! What is left to do shrinks by the visit that is made, which is why a traversal ends. -/

def below (ceiling : Option Nat) (visit : Visit) : List Visit :=
  visit.node.visits visit.path visit.lineage (ceiling.map (· - visit.depth))

theorem flatMap_below_siblings (ceiling : Option Nat) (path : NodePath) (lineage : List String)
    (index : Nat) (nodes : List StyleNode) :
    (Visit.siblings path lineage index nodes).flatMap (below ceiling) =
      siblingVisits path lineage (ceiling.map (· - (path.depth + 1))) index nodes := by
  induction nodes generalizing index with
  | nil => rfl
  | cons node rest induction =>
      have deeper : NodePath.depth (path.child index) = path.depth + 1 := List.length_append
      have later := induction (index + 1)
      rw [Visit.siblings] at later ⊢
      rw [List.zipIdx_cons, List.map_cons, List.flatMap_cons, later, siblingVisits, below,
        Visit.depth, deeper]

/-- A node comes before its children, and no child comes if they lie below the ceiling. -/
theorem below_eq_cons (ceiling : Option Nat) (visit : Visit) :
    below ceiling visit =
      visit :: if visit.descends ceiling then visit.children.flatMap (below ceiling) else [] := by
  rcases visit with ⟨⟨identifier, declarations, children⟩, path, lineage⟩
  rw [below, StyleNode.visits, Visit.children, flatMap_below_siblings]
  cases ceiling with
  | none => rfl
  | some ceiling =>
      by_cases deep : path.depth < ceiling
      · have floor : ceiling - path.depth ≠ 0 := by omega
        simp [Visit.descends, Visit.depth, levelsBelow, deep, floor, Nat.sub_sub]
      · have floor : ceiling - path.depth = 0 := by omega
        simp [Visit.descends, Visit.depth, deep, floor]

def remaining (traversal : Traversal) : List Visit :=
  traversal.pending.flatMap (below traversal.ceiling)

/-- The next visit is the first of those that are left. -/
theorem remaining_of_next? {traversal later : Traversal} {visit : Visit}
    (next : traversal.next? = some (visit, later)) :
    traversal.remaining = visit :: later.remaining := by
  rcases traversal with ⟨_ | ⟨top, rest⟩, ceiling⟩
  · cases next
  · rw [next?] at next
    rw [remaining, List.flatMap_cons, below_eq_cons]
    split at next
    · next descends =>
      cases next
      rw [if_pos descends, remaining, push, List.foldr_cons_eq_append', List.flatMap_append,
        List.cons_append]
    · next floor =>
      cases next
      rw [if_neg floor, List.cons_append, List.nil_append, remaining]

theorem remaining_of_next?_eq_none {traversal : Traversal} (done : traversal.next? = none) :
    traversal.remaining = [] := by
  rcases traversal with ⟨_ | ⟨top, rest⟩, ceiling⟩
  · rfl
  · rw [next?] at done
    split at done <;> cases done

def visits (traversal : Traversal) : List Visit :=
  match _next : traversal.next? with
  | none => []
  | some (visit, later) => visit :: later.visits
termination_by traversal.remaining.length
decreasing_by
  rw [remaining_of_next? _next]
  exact Nat.lt_succ_self _

/-- All visits are made, in the order of the nodes. -/
theorem visits_eq_remaining (traversal : Traversal) : traversal.visits = traversal.remaining := by
  fun_induction visits traversal with
  | case1 traversal done => exact (remaining_of_next?_eq_none done).symm
  | case2 traversal visit later next induction => rw [remaining_of_next? next, induction]

end Traversal

namespace StyleTree

def traversal (tree : StyleTree) : Traversal where
  pending := Visit.siblings [] [] 0 tree.roots

theorem visits_traversal (tree : StyleTree) : tree.traversal.visits = tree.walk := by
  rw [Traversal.visits_eq_remaining]
  exact Traversal.flatMap_below_siblings none [] [] 0 tree.roots

theorem visits_traversal_within (tree : StyleTree) (ceiling : Nat) :
    (tree.traversal.within ceiling).visits = tree.walkWithin ceiling := by
  rw [Traversal.visits_eq_remaining, Traversal.remaining, Traversal.within, walkWithin]
  split
  · rfl
  · exact Traversal.flatMap_below_siblings (some ceiling) [] [] 0 tree.roots

def nodeCount (tree : StyleTree) : Nat := tree.traversal.visits.length

end StyleTree

end Stylebook
