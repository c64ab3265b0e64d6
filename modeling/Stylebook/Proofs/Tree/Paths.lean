import Mathlib.Data.List.Infix
import Stylebook.Proofs.Tree.Walk

/-!
Walks and paths. A walk visits exactly the nodes that paths lead to, in the order of the paths,
and it knows each by the identifiers on the way there.
-/

namespace Stylebook

/-! ## Looking up children -/

theorem StyleNode.descendant?_concat (node : StyleNode) (path : List Nat) (index : Nat) :
    node.descendant? (path ++ [index]) =
      (node.descendant? path).bind fun parent => parent.children[index]? := by
  induction path generalizing node with
  | nil =>
      rw [List.nil_append, descendant?, descendant?, Option.bind_some]
      cases node.children[index]? <;> rfl
  | cons head tail induction =>
      rw [List.cons_append, descendant?, descendant?]
      cases node.children[head]? with
      | none => rfl
      | some child => exact induction child

namespace StyleTree

theorem node?_root (tree : StyleTree) (index : Nat) : tree.node? [index] = tree.roots[index]? := by
  rw [node?]
  cases tree.roots[index]? <;> rfl

theorem node?_child (tree : StyleTree) {path : NodePath} (nonempty : path ≠ []) (index : Nat) :
    tree.node? (path.child index) =
      (tree.node? path).bind fun parent => parent.children[index]? := by
  cases path with
  | nil => exact absurd rfl nonempty
  | cons head tail =>
      rw [NodePath.child, List.cons_append, node?, node?]
      cases tree.roots[head]? with
      | none => rfl
      | some root => exact root.descendant?_concat tail index

theorem ne_nil_of_node? {tree : StyleTree} {path : NodePath} {node : StyleNode}
    (found : tree.node? path = some node) : path ≠ [] := by
  intro empty
  subst empty
  cases found

def lineage (tree : StyleTree) (path : NodePath) : List String :=
  path.inits.filterMap fun above => (tree.node? above).map StyleNode.identifier

theorem lineage_child (tree : StyleTree) (path : NodePath) (index : Nat) :
    tree.lineage (path.child index) =
      tree.lineage path ++
        ((tree.node? (path.child index)).map StyleNode.identifier).toList := by
  have longer : (path.child index).inits = path.inits ++ [path.child index] :=
    List.inits_append path [index]
  rw [lineage, longer, List.filterMap_append]
  cases found : tree.node? (path.child index) <;> simp [lineage, found]

end StyleTree

/-! ## Visits of children -/

theorem mem_siblingVisits_of_isAmong {visit : Visit} {path : NodePath} {lineage : List String}
    {start : Nat} {siblings : List StyleNode}
    (among : visit.IsAmong path lineage start siblings) :
    visit ∈ siblingVisits path lineage none start siblings := by
  rcases among with ⟨index, found, isPath, isLineage⟩
  induction siblings generalizing start index with
  | nil => cases found
  | cons head rest induction =>
      rw [siblingVisits, List.mem_append]
      cases index with
      | zero =>
          left
          rw [List.getElem?_cons_zero, Option.some.injEq] at found
          subst head
          rw [← isLineage, ← Nat.add_zero start, ← isPath]
          exact mem_visits.mpr (.inl rfl)
      | succ index =>
          right
          refine induction index found ?_
          rw [isPath, Nat.add_assoc, Nat.add_comm 1]

mutual

private theorem StyleNode.mem_visits_of_isChildOf (path : NodePath) (lineage : List String)
    {visit parent : Visit} (isChild : visit.IsChildOf parent) :
    (node : StyleNode) → parent ∈ node.visits path lineage none →
      visit ∈ node.visits path lineage none
  | ⟨identifier, declarations, children⟩ => by
      intro isVisit
      rcases mem_visits.mp isVisit with here | ⟨unlimited, inside⟩
      · subst parent
        exact mem_visits.mpr (.inr ⟨by simp, mem_siblingVisits_of_isAmong isChild⟩)
      · exact mem_visits.mpr
          (.inr ⟨unlimited, siblings_mem_of_isChildOf path lineage 0 isChild children inside⟩)

private theorem siblings_mem_of_isChildOf (path : NodePath) (lineage : List String)
    (start : Nat) {visit parent : Visit} (isChild : visit.IsChildOf parent) :
    (siblings : List StyleNode) → parent ∈ siblingVisits path lineage none start siblings →
      visit ∈ siblingVisits path lineage none start siblings
  | [] => by
      intro isVisit
      cases isVisit
  | node :: rest => by
      intro isVisit
      simp only [siblingVisits, List.mem_append] at isVisit ⊢
      rcases isVisit with isVisit | isVisit
      · exact .inl (node.mem_visits_of_isChildOf _ _ isChild isVisit)
      · exact .inr (siblings_mem_of_isChildOf path lineage (start + 1) isChild rest isVisit)

end

namespace StyleTree

variable {tree : StyleTree}

theorem mem_walk_of_isChildOf {visit parent : Visit} (isVisit : parent ∈ tree.walk)
    (isChild : visit.IsChildOf parent) : visit ∈ tree.walk :=
  siblings_mem_of_isChildOf [] [] 0 isChild tree.roots isVisit

private theorem lookup_of_mem_walk : ∀ visit ∈ tree.walk,
    tree.node? visit.path = some visit.node ∧ visit.lineage = tree.lineage visit.path := by
  apply walk_induction
  · intro visit _ isRoot
    rcases isRoot with ⟨index, isNode, isPath, isLineage⟩
    have found : tree.node? visit.path = some visit.node := by
      rw [isPath, Nat.zero_add]
      exact (tree.node?_root index).trans isNode
    refine ⟨found, ?_⟩
    rw [isPath] at found ⊢
    rw [lineage_child, found, isLineage]
    rfl
  · intro parent _ visit _ isChild above
    rcases isChild with ⟨index, isNode, isPath, isLineage⟩
    rw [Nat.zero_add] at isPath
    have found : tree.node? visit.path = some visit.node := by
      rw [isPath, node?_child tree (ne_nil_of_node? above.1), above.1]
      exact isNode
    refine ⟨found, ?_⟩
    rw [isPath] at found ⊢
    rw [lineage_child, found, isLineage, above.2]
    rfl

private theorem mem_walk_of_node? (path : NodePath) {node : StyleNode}
    (found : tree.node? path = some node) : ⟨node, path, tree.lineage path⟩ ∈ tree.walk := by
  induction path using List.reverseRecOn generalizing node with
  | nil => cases found
  | append_singleton above index induction =>
      have isLineage : tree.lineage (above ++ [index]) =
          tree.lineage above ++ [node.identifier] := by
        have longer := tree.lineage_child above index
        rw [NodePath.child, found] at longer
        exact longer
      by_cases root : above = []
      · subst above
        rw [List.nil_append, node?_root] at found
        refine mem_siblingVisits_of_isAmong ⟨index, found, ?_, isLineage⟩
        rw [Nat.zero_add]
        rfl
      · have below := tree.node?_child root index
        rw [NodePath.child, found] at below
        rcases Option.bind_eq_some_iff.mp below.symm with ⟨parent, parentFound, isNode⟩
        refine mem_walk_of_isChildOf (induction parentFound) ⟨index, isNode, ?_, isLineage⟩
        rw [Nat.zero_add]
        rfl

/-- The walk visits the nodes that paths lead to. -/
theorem mem_walk_iff {visit : Visit} :
    visit ∈ tree.walk ↔
      tree.node? visit.path = some visit.node ∧ visit.lineage = tree.lineage visit.path := by
  constructor
  · exact lookup_of_mem_walk visit
  · intro holds
    rcases visit with ⟨node, path, identifiers⟩
    rcases holds with ⟨found, isLineage⟩
    replace isLineage : identifiers = tree.lineage path := isLineage
    subst identifiers
    exact mem_walk_of_node? path found

end StyleTree

/-! ## The order of visits -/

mutual

private theorem StyleNode.pairwise_visits (path : NodePath) (lineage : List String) :
    (node : StyleNode) → (node.visits path lineage none).Pairwise
      fun first second => first.path < second.path
  | ⟨identifier, declarations, children⟩ => by
      rw [StyleNode.visits, if_neg (by simp)]
      refine .cons ?_ (pairwise_siblingVisits path lineage 0 children)
      intro visit member
      rcases siblings_exist_path path lineage 0 children visit member with
        ⟨index, below, _, isPath⟩
      have deeper : path ++ [] < path ++ index :: below :=
        List.append_left_lt (List.nil_lt_cons index below)
      rw [isPath]
      rwa [List.append_nil] at deeper

private theorem pairwise_siblingVisits (path : NodePath) (lineage : List String) (start : Nat) :
    (siblings : List StyleNode) → (siblingVisits path lineage none start siblings).Pairwise
      fun first second => first.path < second.path
  | [] => .nil
  | node :: rest => by
      rw [siblingVisits, List.pairwise_append]
      refine ⟨node.pairwise_visits _ _, pairwise_siblingVisits path lineage (start + 1) rest, ?_⟩
      intro first isFirst second isSecond
      rcases node.exists_path _ _ first isFirst with ⟨inside, firstPath⟩
      rcases siblings_exist_path path lineage (start + 1) rest second isSecond with
        ⟨index, below, later, secondPath⟩
      rw [firstPath, secondPath, NodePath.child, List.append_assoc, List.singleton_append]
      exact List.append_left_lt (List.cons_lt_cons_iff.mpr (.inl later))

end

theorem StyleTree.pairwise_walk (tree : StyleTree) :
    tree.walk.Pairwise fun first second => first.path < second.path :=
  pairwise_siblingVisits [] [] 0 tree.roots

theorem StyleTree.nodup_map_path_walk (tree : StyleTree) : (tree.walk.map Visit.path).Nodup := by
  refine List.pairwise_map.mpr (tree.pairwise_walk.imp ?_)
  intro first second before same
  rw [same] at before
  exact List.lt_irrefl _ before

theorem StyleTree.nodup_map_path_walkWithin (tree : StyleTree) (ceiling : Nat) :
    ((tree.walkWithin ceiling).map Visit.path).Nodup := by
  rw [walkWithin_eq_filter]
  exact tree.nodup_map_path_walk.sublist (List.filter_sublist.map _)

/-- A node is visited once. -/
theorem StyleTree.eq_of_mem_walk_of_path {tree : StyleTree} {first second : Visit}
    (isFirst : first ∈ tree.walk) (isSecond : second ∈ tree.walk)
    (same : first.path = second.path) : first = second := by
  rcases mem_walk_iff.mp isFirst with ⟨firstFound, firstLineage⟩
  rcases mem_walk_iff.mp isSecond with ⟨secondFound, secondLineage⟩
  rw [← same] at secondFound secondLineage
  cases first
  cases second
  cases same
  cases Option.some.inj (firstFound.symm.trans secondFound)
  cases firstLineage.trans secondLineage.symm
  rfl

/-! ## Nodes that declare something -/

def declaring (visits : List Visit) : List Visit :=
  visits.filter fun visit => !visit.node.declarations.isEmpty

theorem mem_declaring {visits : List Visit} {visit : Visit} :
    visit ∈ declaring visits ↔ visit ∈ visits ∧ visit.node.declarations ≠ [] := by
  simp [declaring]

end Stylebook
