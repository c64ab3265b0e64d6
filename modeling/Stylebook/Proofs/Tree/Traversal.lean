import Stylebook.Proofs.Tree.Paths

/-!
Traversals and paths. The visits that a traversal makes one after the other are those of the walk:
each node that a path leads to comes up once, in the order of the paths, and a ceiling leaves out
the nodes below it and nothing else.
-/

namespace Stylebook

namespace StyleTree

variable {tree : StyleTree}

theorem count_path_walk (path : NodePath) :
    (tree.walk.map Visit.path).count path = if (tree.node? path).isSome then 1 else 0 := by
  rw [tree.nodup_map_path_walk.count]
  refine if_congr ?_ rfl rfl
  rw [Option.isSome_iff_exists, List.mem_map]
  constructor
  · rintro ⟨visit, isVisit, rfl⟩
    exact ⟨visit.node, (mem_walk_iff.mp isVisit).1⟩
  · rintro ⟨node, found⟩
    exact ⟨⟨node, path, tree.lineage path⟩, mem_walk_iff.mpr ⟨found, rfl⟩, rfl⟩

private theorem map_inits_child {path : NodePath} {index : Nat} {node : StyleNode}
    (found : tree.node? (path.child index) = some node) :
    ((path.child index).inits.tail.map fun above =>
        (tree.node? above).map StyleNode.identifier) =
      (path.inits.tail.map fun above => (tree.node? above).map StyleNode.identifier) ++
        [some node.identifier] := by
  have longer : (path.child index).inits.tail = path.inits.tail ++ [path.child index] := by
    have longer : (path.child index).inits = path.inits ++ [path.child index] :=
      List.inits_append path [index]
    rw [longer]
    cases path <;> rfl
  rw [longer, List.map_append, List.map_singleton, found]
  rfl

/-- Each identifier of a lineage is that of the node at a beginning of the path. -/
theorem lineage_eq_map_inits : ∀ visit ∈ tree.walk,
    visit.lineage.map some =
      visit.path.inits.tail.map fun above => (tree.node? above).map StyleNode.identifier := by
  apply walk_induction
  · intro visit isVisit isRoot
    have found := (mem_walk_iff.mp isVisit).1
    rcases isRoot with ⟨index, _, isPath, isLineage⟩
    rw [isPath] at found
    rw [isLineage, isPath, map_inits_child found]
    rfl
  · intro parent _ visit isVisit isChild above
    have found := (mem_walk_iff.mp isVisit).1
    rcases isChild with ⟨index, _, isPath, isLineage⟩
    rw [isPath] at found
    rw [isLineage, isPath, map_inits_child found, List.map_append, above]
    rfl

/-- A traversal visits the nodes that paths lead to, each once and in the order of the paths. -/
theorem traversal_follows_paths (tree : StyleTree) :
    (tree.traversal.visits.Pairwise fun first second => first.path < second.path) ∧
      (∀ path, (tree.traversal.visits.map Visit.path).count path =
        if (tree.node? path).isSome then 1 else 0) ∧
      (∀ visit ∈ tree.traversal.visits,
        tree.node? visit.path = some visit.node ∧ visit.depth = visit.path.length ∧
          visit.lineage.map some = visit.path.inits.tail.map fun above =>
            (tree.node? above).map StyleNode.identifier) ∧
      (∀ ceiling, (tree.traversal.within ceiling).visits =
        tree.traversal.visits.filter fun visit => decide (visit.depth ≤ ceiling)) ∧
      tree.traversal.visits = tree.walk ∧
      ∀ ceiling, (tree.traversal.within ceiling).visits = tree.walkWithin ceiling := by
  rw [visits_traversal]
  refine ⟨tree.pairwise_walk, count_path_walk, ?_, ?_, rfl, tree.visits_traversal_within⟩
  · intro visit isVisit
    exact ⟨(mem_walk_iff.mp isVisit).1, rfl, lineage_eq_map_inits visit isVisit⟩
  · intro ceiling
    rw [visits_traversal_within, walkWithin_eq_filter]

end StyleTree

end Stylebook
