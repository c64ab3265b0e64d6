import Stylebook.Proofs.Selector.Steps
import Stylebook.Proofs.Tree.Walk
import Stylebook.Validation.Check

/-!
Trees without errors. The check reaches all of their nodes, so each node is without errors
itself, and none of them expands to too many selectors.
-/

namespace Stylebook

open Selector

/-! ## Errors among findings -/

@[simp] theorem hasErrors_nil : hasErrors [] = false := rfl

theorem hasErrors_append (left right : List Finding) :
    hasErrors (left ++ right) = (hasErrors left || hasErrors right) :=
  List.any_append

theorem hasErrors_flatMap_eq_false_iff (visits : List Visit)
    (findings : Visit → List Finding) :
    hasErrors (visits.flatMap findings) = false ↔
      ∀ visit ∈ visits, hasErrors (findings visit) = false := by
  induction visits with
  | nil => simp
  | cons visit rest induction =>
      rw [List.flatMap_cons, hasErrors_append, Bool.or_eq_false_iff, induction,
        List.forall_mem_cons]

/-! ## Nodes of trees without errors -/

namespace StyleTree

private theorem hasErrors_checkVisit {tree : StyleTree} (clean : hasErrors tree.check = false)
    {visit : Visit} (member : visit ∈ tree.walk) (near : visit.depth ≤ maximumNesting + 1) :
    hasErrors (checkVisit visit) = false := by
  rw [check, hasErrors_append, Bool.or_eq_false_iff, hasErrors_flatMap_eq_false_iff] at clean
  exact clean.2 visit (mem_walkWithin.mpr ⟨member, near⟩)

theorem depth_le_of_clean {tree : StyleTree} (clean : hasErrors tree.check = false) :
    ∀ visit ∈ tree.walk, visit.depth ≤ maximumNesting := by
  apply walk_induction
  · intro visit _ isRoot
    rw [isRoot.depth_eq]
    decide
  · intro parent _ visit member isChild parentNear
    have below : visit.depth = parent.depth + 1 := Visit.IsAmong.depth_eq isChild
    have checked := hasErrors_checkVisit clean member (by omega)
    rw [checkVisit] at checked
    split at checked
    · cases checked
    · omega

theorem hasErrors_checkNode_of_clean {tree : StyleTree} (clean : hasErrors tree.check = false)
    {visit : Visit} (member : visit ∈ tree.walk) : hasErrors (checkNode visit) = false := by
  have near := depth_le_of_clean clean visit member
  have checked := hasErrors_checkVisit clean member (by omega)
  rw [checkVisit, if_neg (by omega), hasErrors_append, Bool.or_eq_false_iff] at checked
  exact checked.1

private theorem expandedLength_le_of_step {tree : StyleTree}
    (clean : hasErrors tree.check = false) {visit : Visit} (member : visit ∈ tree.walk)
    (above : expandedLength visit.lineage.dropLast ≤ maximumSelectors) :
    expandedLength visit.lineage ≤ maximumSelectors := by
  have checked := hasErrors_checkNode_of_clean clean member
  simp only [checkNode, hasErrors_append, Bool.or_eq_false_iff] at checked
  have expansion := checked.1.1.2
  rw [checkExpansion] at expansion
  split at expansion
  · cases expansion
  · rename_i within
    by_contra exceeds
    exact within ⟨Nat.lt_of_not_le exceeds, above⟩

theorem expandedLength_le_of_clean {tree : StyleTree} (clean : hasErrors tree.check = false) :
    ∀ visit ∈ tree.walk, expandedLength visit.lineage ≤ maximumSelectors := by
  apply walk_induction
  · intro visit member isRoot
    apply expandedLength_le_of_step clean member
    rw [isRoot.lineage_eq, List.dropLast_concat]
    decide
  · intro parent _ visit member isChild above
    apply expandedLength_le_of_step clean member
    rw [Visit.IsAmong.lineage_eq isChild, List.dropLast_concat]
    exact above

end StyleTree

end Stylebook
