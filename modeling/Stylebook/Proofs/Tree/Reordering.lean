import Mathlib.Data.List.Forall2
import Stylebook.Tree.Walk

/-!
Trees that differ only in the order of declarations. Walks of such trees visit the same paths
under the same identifiers, and the nodes they meet have the same declarations up to their order.
-/

namespace Stylebook

/-! ## Nodes and trees -/

mutual

/-- The nodes differ in the order of their declarations, and of those of nodes below, at most. -/
inductive StyleNode.Reorders : StyleNode → StyleNode → Prop
  | node {identifier : String} {declarations others : List Declaration}
      {children otherChildren : List StyleNode} (perm : declarations.Perm others)
      (siblings : SiblingsReorder children otherChildren) :
      StyleNode.Reorders ⟨identifier, declarations, children⟩ ⟨identifier, others, otherChildren⟩

inductive SiblingsReorder : List StyleNode → List StyleNode → Prop
  | nil : SiblingsReorder [] []
  | cons {node other : StyleNode} {rest otherRest : List StyleNode} (first : node.Reorders other)
      (later : SiblingsReorder rest otherRest) : SiblingsReorder (node :: rest) (other :: otherRest)

end

def StyleTree.Reorders (tree other : StyleTree) : Prop := SiblingsReorder tree.roots other.roots

mutual

theorem StyleNode.Reorders.symm {node other : StyleNode} :
    node.Reorders other → other.Reorders node
  | .node perm siblings => .node perm.symm siblings.symm

theorem SiblingsReorder.symm {siblings others : List StyleNode} :
    SiblingsReorder siblings others → SiblingsReorder others siblings
  | .nil => .nil
  | .cons first later => .cons first.symm later.symm

end

namespace StyleNode.Reorders

variable {node other : StyleNode} (reorders : node.Reorders other)

include reorders

theorem identifier : node.identifier = other.identifier := by
  cases reorders
  rfl

theorem declarations : node.declarations.Perm other.declarations := by
  cases reorders
  assumption

theorem children : SiblingsReorder node.children other.children := by
  cases reorders
  assumption

end StyleNode.Reorders

/-! ## Walks -/

structure Visit.Reorders (visit other : Visit) : Prop where
  path : visit.path = other.path
  lineage : visit.lineage = other.lineage
  node : visit.node.Reorders other.node

mutual

theorem StyleNode.Reorders.visits (path : NodePath) (lineage : List String)
    (levels : Option Nat) {node other : StyleNode} : node.Reorders other →
      List.Forall₂ Visit.Reorders (node.visits path lineage levels)
        (other.visits path lineage levels)
  | .node perm siblings => by
      rw [StyleNode.visits, StyleNode.visits]
      refine .cons ⟨rfl, rfl, .node perm siblings⟩ ?_
      split
      · exact .nil
      · exact siblings.visits path lineage (levelsBelow levels) 0

theorem SiblingsReorder.visits (path : NodePath) (lineage : List String) (levels : Option Nat)
    (start : Nat) {siblings others : List StyleNode} : SiblingsReorder siblings others →
      List.Forall₂ Visit.Reorders (siblingVisits path lineage levels start siblings)
        (siblingVisits path lineage levels start others)
  | .nil => by
      rw [siblingVisits]
      exact .nil
  | .cons first later => by
      rw [siblingVisits, siblingVisits, first.identifier]
      exact List.rel_append (first.visits _ _ levels) (later.visits path lineage levels (start + 1))

end

namespace StyleTree.Reorders

variable {tree other : StyleTree} (reorders : tree.Reorders other)

include reorders

theorem symm : other.Reorders tree := SiblingsReorder.symm reorders

theorem walk : List.Forall₂ Visit.Reorders tree.walk other.walk :=
  SiblingsReorder.visits [] [] none 0 reorders

theorem walkWithin (ceiling : Nat) :
    List.Forall₂ Visit.Reorders (tree.walkWithin ceiling) (other.walkWithin ceiling) := by
  rw [StyleTree.walkWithin, StyleTree.walkWithin]
  split
  · exact .nil
  · exact SiblingsReorder.visits [] [] _ 0 reorders

end StyleTree.Reorders

end Stylebook
