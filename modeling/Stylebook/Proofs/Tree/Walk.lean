import Stylebook.Tree.Walk

/-!
The visits of a walk. Each is the visit of a root, or of a child of a node that is visited
too, so what holds of roots and passes on to children holds of every visit. A ceiling keeps
exactly the visits down to it.
-/

namespace Stylebook

/-! ## Parents -/

namespace Visit

/-- The visit of one of consecutive siblings under a node, of which the first has the given
index. -/
def IsAmong (visit : Visit) (path : NodePath) (lineage : List String) (start : Nat)
    (siblings : List StyleNode) : Prop :=
  ∃ index, siblings[index]? = some visit.node ∧ visit.path = path.child (start + index) ∧
    visit.lineage = lineage ++ [visit.node.identifier]

def IsRootOf (visit : Visit) (tree : StyleTree) : Prop := visit.IsAmong [] [] 0 tree.roots

def IsChildOf (visit parent : Visit) : Prop :=
  visit.IsAmong parent.path parent.lineage 0 parent.node.children

theorem IsAmong.tail {visit : Visit} {path : NodePath} {lineage : List String} {start : Nat}
    {head : StyleNode} {siblings : List StyleNode}
    (among : visit.IsAmong path lineage (start + 1) siblings) :
    visit.IsAmong path lineage start (head :: siblings) := by
  rcases among with ⟨index, found, isPath, isLineage⟩
  refine ⟨index + 1, by simpa using found, ?_, isLineage⟩
  rw [isPath, Nat.add_assoc, Nat.add_comm 1]

end Visit

theorem mem_visits {visit : Visit} {path : NodePath} {lineage : List String}
    {levels : Option Nat} {node : StyleNode} :
    visit ∈ node.visits path lineage levels ↔
      visit = ⟨node, path, lineage⟩ ∨
        levels ≠ some 0 ∧
          visit ∈ siblingVisits path lineage (levelsBelow levels) 0 node.children := by
  rcases node with ⟨identifier, declarations, children⟩
  rw [StyleNode.visits]
  by_cases floor : levels = some 0
  · simp [floor]
  · simp [floor]

mutual

private theorem StyleNode.exists_parent (path : NodePath) (lineage : List String) :
    (node : StyleNode) → ∀ visit ∈ node.visits path lineage none,
      visit = ⟨node, path, lineage⟩ ∨
        ∃ parent ∈ node.visits path lineage none, visit.IsChildOf parent
  | ⟨identifier, declarations, children⟩ => by
      intro visit member
      rcases mem_visits.mp member with here | ⟨unlimited, below⟩
      · exact .inl here
      · right
        rcases siblings_exist_parent path lineage 0 children visit below with
          among | ⟨parent, isVisit, child⟩
        · exact ⟨_, mem_visits.mpr (.inl rfl), among⟩
        · exact ⟨parent, mem_visits.mpr (.inr ⟨unlimited, isVisit⟩), child⟩

private theorem siblings_exist_parent (path : NodePath) (lineage : List String) (start : Nat) :
    (siblings : List StyleNode) → ∀ visit ∈ siblingVisits path lineage none start siblings,
      visit.IsAmong path lineage start siblings ∨
        ∃ parent ∈ siblingVisits path lineage none start siblings, visit.IsChildOf parent
  | [] => by
      intro visit member
      cases member
  | node :: rest => by
      intro visit member
      simp only [siblingVisits, List.mem_append] at member ⊢
      rcases member with member | member
      · rcases node.exists_parent (path.child start) (lineage ++ [node.identifier]) visit member
          with here | ⟨parent, isVisit, child⟩
        · subst visit
          exact .inl ⟨0, rfl, rfl, rfl⟩
        · exact .inr ⟨parent, .inl isVisit, child⟩
      · rcases siblings_exist_parent path lineage (start + 1) rest visit member with
          among | ⟨parent, isVisit, child⟩
        · exact .inl among.tail
        · exact .inr ⟨parent, .inr isVisit, child⟩

end

theorem StyleTree.isRootOf_or_isChildOf {tree : StyleTree} {visit : Visit}
    (member : visit ∈ tree.walk) :
    visit.IsRootOf tree ∨ ∃ parent ∈ tree.walk, visit.IsChildOf parent :=
  siblings_exist_parent [] [] 0 tree.roots visit member

theorem Visit.IsAmong.depth_eq {visit : Visit} {path : NodePath} {lineage : List String}
    {start : Nat} {siblings : List StyleNode} (among : visit.IsAmong path lineage start siblings) :
    visit.depth = path.length + 1 := by
  rcases among with ⟨index, _, isPath, _⟩
  simp [Visit.depth, NodePath.depth, isPath, NodePath.child]

theorem Visit.IsAmong.lineage_eq {visit : Visit} {path : NodePath} {lineage : List String}
    {start : Nat} {siblings : List StyleNode} (among : visit.IsAmong path lineage start siblings) :
    visit.lineage = lineage ++ [visit.node.identifier] := by
  rcases among with ⟨index, _, _, isLineage⟩
  exact isLineage

theorem StyleTree.lineage_eq_concat {tree : StyleTree} {visit : Visit}
    (member : visit ∈ tree.walk) :
    visit.lineage = visit.lineage.dropLast ++ [visit.node.identifier] := by
  rcases isRootOf_or_isChildOf member with isRoot | ⟨parent, _, isChild⟩
  · rw [isRoot.lineage_eq, List.dropLast_concat]
  · rw [Visit.IsAmong.lineage_eq isChild, List.dropLast_concat]

theorem StyleTree.lineage_ne_nil {tree : StyleTree} {visit : Visit} (member : visit ∈ tree.walk) :
    visit.lineage ≠ [] := by
  rw [lineage_eq_concat member]
  simp

/-- What holds of the roots, and of a child if it holds of its parent, holds throughout. -/
theorem StyleTree.walk_induction {tree : StyleTree} {Holds : Visit → Prop}
    (root : ∀ visit ∈ tree.walk, visit.IsRootOf tree → Holds visit)
    (child : ∀ parent ∈ tree.walk, ∀ visit ∈ tree.walk, visit.IsChildOf parent →
      Holds parent → Holds visit) :
    ∀ visit ∈ tree.walk, Holds visit := by
  have atDepth : ∀ depth, ∀ visit ∈ tree.walk, visit.depth = depth → Holds visit := by
    intro depth
    induction depth with
    | zero =>
        intro visit member atZero
        rcases isRootOf_or_isChildOf member with isRoot | ⟨parent, _, isChild⟩
        · have positive := isRoot.depth_eq
          omega
        · have positive := Visit.IsAmong.depth_eq isChild
          omega
    | succ depth induction =>
        intro visit member atDepth
        rcases isRootOf_or_isChildOf member with isRoot | ⟨parent, isVisit, isChild⟩
        · exact root visit member isRoot
        · have below : visit.depth = parent.depth + 1 := Visit.IsAmong.depth_eq isChild
          exact child parent isVisit visit member isChild
            (induction parent isVisit (by omega))
  intro visit member
  exact atDepth visit.depth visit member rfl

theorem StyleTree.depth_eq_length_lineage {tree : StyleTree} :
    ∀ visit ∈ tree.walk, visit.depth = visit.lineage.length := by
  apply StyleTree.walk_induction
  · intro visit _ isRoot
    rw [isRoot.depth_eq, isRoot.lineage_eq]
    simp
  · intro parent _ visit _ isChild equal
    rw [Visit.IsAmong.depth_eq isChild, Visit.IsAmong.lineage_eq isChild, List.length_append,
      ← equal]
    rfl

/-! ## Paths below a node -/

mutual

theorem StyleNode.exists_path (path : NodePath) (lineage : List String) :
    (node : StyleNode) → ∀ visit ∈ node.visits path lineage none,
      ∃ below, visit.path = path ++ below
  | ⟨identifier, declarations, children⟩ => by
      intro visit member
      rcases mem_visits.mp member with here | ⟨_, inside⟩
      · subst visit
        exact ⟨[], path.append_nil.symm⟩
      · rcases siblings_exist_path path lineage 0 children visit inside with
          ⟨index, below, _, isPath⟩
        exact ⟨index :: below, isPath⟩

theorem siblings_exist_path (path : NodePath) (lineage : List String) (start : Nat) :
    (siblings : List StyleNode) → ∀ visit ∈ siblingVisits path lineage none start siblings,
      ∃ index below, start ≤ index ∧ visit.path = path ++ index :: below
  | [] => by
      intro visit member
      cases member
  | node :: rest => by
      intro visit member
      simp only [siblingVisits, List.mem_append] at member
      rcases member with member | member
      · rcases node.exists_path (path.child start) (lineage ++ [node.identifier]) visit member
          with ⟨below, isPath⟩
        refine ⟨start, below, Nat.le_refl start, ?_⟩
        rw [isPath, NodePath.child, List.append_assoc, List.singleton_append]
      · rcases siblings_exist_path path lineage (start + 1) rest visit member with
          ⟨index, below, later, isPath⟩
        exact ⟨index, below, Nat.le_of_succ_le later, isPath⟩

end

/-! ## Ceilings -/

private theorem siblings_length_path_lt (path : NodePath) (lineage : List String)
    (start : Nat) (siblings : List StyleNode) :
    ∀ visit ∈ siblingVisits path lineage none start siblings,
      path.length < visit.path.length := by
  intro visit member
  rcases siblings_exist_path path lineage start siblings visit member with
    ⟨index, below, _, isPath⟩
  rw [isPath, List.length_append, List.length_cons]
  omega

mutual

private theorem StyleNode.visits_eq_filter (path : NodePath) (lineage : List String)
    (levels : Nat) : (node : StyleNode) →
      node.visits path lineage (some levels) =
        (node.visits path lineage none).filter
          fun visit => decide (visit.path.length ≤ path.length + levels)
  | ⟨identifier, declarations, children⟩ => by
      rw [StyleNode.visits, StyleNode.visits, List.filter_cons_of_pos (by simp)]
      cases levels with
      | zero =>
          have nothing : (siblingVisits path lineage none 0 children).filter
              (fun visit => decide (visit.path.length ≤ path.length + 0)) = [] := by
            apply List.filter_eq_nil_iff.mpr
            intro visit member
            have deeper := siblings_length_path_lt path lineage 0 children visit member
            simpa using deeper
          rw [if_pos rfl, if_neg (by simp), levelsBelow, nothing]
      | succ levels =>
          have below := siblings_eq_filter path lineage levels 0 children
          simp [levelsBelow, below, Nat.add_assoc, Nat.add_comm 1]

private theorem siblings_eq_filter (path : NodePath) (lineage : List String) (levels : Nat)
    (start : Nat) : (siblings : List StyleNode) →
      siblingVisits path lineage (some levels) start siblings =
        (siblingVisits path lineage none start siblings).filter
          fun visit => decide (visit.path.length ≤ path.length + 1 + levels)
  | [] => rfl
  | node :: rest => by
      rw [siblingVisits, siblingVisits, List.filter_append,
        siblings_eq_filter path lineage levels (start + 1) rest,
        node.visits_eq_filter (path.child start) (lineage ++ [node.identifier]) levels]
      simp [NodePath.child]

end

/-- A ceiling keeps the visits down to it, in their order. -/
theorem StyleTree.walkWithin_eq_filter (tree : StyleTree) (ceiling : Nat) :
    tree.walkWithin ceiling =
      tree.walk.filter fun visit => decide (visit.depth ≤ ceiling) := by
  rw [walkWithin]
  by_cases none : ceiling = 0
  · rw [if_pos none]
    symm
    apply List.filter_eq_nil_iff.mpr
    intro visit member
    have positive := siblings_length_path_lt [] [] 0 tree.roots visit member
    simp only [List.length_nil] at positive
    simp [Visit.depth, NodePath.depth, none]
    intro atTop
    simp [atTop] at positive
  · have levels : 0 + 1 + (ceiling - 1) = ceiling := by omega
    rw [if_neg none, siblings_eq_filter, List.length_nil, levels]
    rfl

theorem StyleTree.mem_walkWithin {tree : StyleTree} {ceiling : Nat} {visit : Visit} :
    visit ∈ tree.walkWithin ceiling ↔ visit ∈ tree.walk ∧ visit.depth ≤ ceiling := by
  rw [walkWithin_eq_filter, List.mem_filter, decide_eq_true_iff]

end Stylebook
