import Stylebook.Proofs.Pipeline.Run
import Stylebook.Proofs.Selector.Lineage
import Stylebook.Proofs.Sheet.Compile
import Stylebook.Proofs.Validation.Clean

/-!
What the check lets through to the compiler. A tree without errors has a style sheet unless
one of its nodes slips through: a node whose identifier holds commas and blanks only, a root
that refers to a parent behind a comma, or a node under a selector that falls apart into more
members than it was put together from.
-/

namespace Stylebook

open Selector

/-! ## Nodes that slip through -/

/-- The node has no selector although the check may find nothing wrong with it. -/
inductive Visit.Slips (visit : Visit) : Prop
  | separators (nothing : ∀ character ∈ visit.node.identifier.toList,
      Text.isBlank character = true ∨ character = ',')
  | reference (root : visit.isRoot = true) (member : String)
      (isMember : member ∈ split visit.node.identifier)
      (fused : isFused member.toList = true)
  | outgrown (unbalanced : ∃ identifier ∈ visit.lineage, ¬Balanced identifier.toList)
      (parent : String) (qualified : qualifyLineage visit.lineage.dropLast = .ok parent)
      (exceeds : maximumSelectors <
        (split parent).length * (split visit.node.identifier).length)

namespace StyleTree

variable {tree : StyleTree} {visit : Visit}

private theorem slips_of_root_unqualified (clean : hasErrors tree.check = false)
    (member : visit ∈ tree.walk) (isRoot : visit.IsRootOf tree)
    (unqualified : ¬∃ selector, qualifyLineage visit.lineage = .ok selector) : visit.Slips := by
  have lineage : visit.lineage = [visit.node.identifier] := isRoot.lineage_eq
  by_cases inhabited : members visit.node.identifier.toList = []
  · exact .separators ((members_eq_nil_iff _).mp inhabited)
  · by_cases unfused :
        ∀ member ∈ members visit.node.identifier.toList, isFused member = false
    · exfalso
      have small := expandedLength_le_of_clean clean visit member
      rw [lineage, prod_memberCount_le_iff, List.map_singleton, List.prod_singleton,
        memberCount_eq inhabited] at small
      apply unqualified
      rw [lineage]
      exact ⟨_, (qualifyLineage_singleton_eq_ok_iff _ _).mpr
        ⟨inhabited, unfused, small, String.toList_ofList⟩⟩
    · rcases not_forall₂.mp unfused with ⟨characters, isMember, fused⟩
      refine .reference ?_ (String.ofList characters) ?_ ?_
      · rw [Visit.isRoot, isRoot.depth_eq]
        rfl
      · rwa [mem_split, String.toList_ofList]
      · rw [String.toList_ofList]
        simpa using fused

private theorem slips_of_child_unqualified (clean : hasErrors tree.check = false)
    (member : visit ∈ tree.walk) {parent : Visit} (isChild : visit.IsChildOf parent)
    (parentNonempty : parent.lineage ≠ [])
    (unqualified : ¬∃ selector, qualifyLineage visit.lineage = .ok selector)
    {above : String} (qualified : qualifyLineage parent.lineage = .ok above) : visit.Slips := by
  have lineage : visit.lineage = parent.lineage ++ [visit.node.identifier] :=
    Visit.IsAmong.lineage_eq isChild
  by_cases inhabited : members visit.node.identifier.toList = []
  · exact .separators ((members_eq_nil_iff _).mp inhabited)
  · have exceeds : maximumSelectors <
        (members above.toList).length * (members visit.node.identifier.toList).length := by
      by_contra within
      apply unqualified
      rw [lineage]
      exact ⟨_, (qualifyLineage_concat_eq_ok_iff parentNonempty _ _).mpr
        ⟨above, qualified, inhabited, Nat.le_of_not_lt within, String.toList_ofList⟩⟩
    refine .outgrown ?_ above ?_ ?_
    · -- A balanced lineage has as many selectors as were counted, and these are few enough.
      by_contra noneUnbalanced
      have balanced : ∀ identifier ∈ parent.lineage, Balanced identifier.toList := by
        intro identifier isAbove
        by_contra unbalanced
        refine noneUnbalanced ⟨identifier, ?_, unbalanced⟩
        rw [lineage]
        exact List.mem_append_left _ isAbove
      rcases (qualifyLineage_eq_ok_iff parentNonempty balanced above).mp qualified with
        ⟨qualifies, text⟩
      have cut : members above.toList = lineageSelectors parent.lineage := by
        rw [text]
        exact members_joined_of_isSelector (isSelector_of_mem_lineageSelectors balanced)
      have small := expandedLength_le_of_clean clean visit member
      rw [lineage, prod_memberCount_le_iff, List.map_append, List.prod_append,
        List.map_singleton, List.prod_singleton, memberCount_eq inhabited,
        ← length_lineageSelectors parentNonempty qualifies.inhabited, ← cut] at small
      omega
    · rwa [lineage, List.dropLast_concat]
    · rwa [length_split, length_split]

/-- The first node without a selector on the way down to any such node slips through. -/
theorem exists_slips_of_unqualified (clean : hasErrors tree.check = false) :
    ∀ visit ∈ tree.walk, (¬∃ selector, qualifyLineage visit.lineage = .ok selector) →
      ∃ visit ∈ tree.walk, visit.Slips := by
  apply walk_induction
  · intro visit member isRoot unqualified
    exact ⟨visit, member, slips_of_root_unqualified clean member isRoot unqualified⟩
  · intro parent parentMember visit member isChild induction unqualified
    by_cases qualified : ∃ selector, qualifyLineage parent.lineage = .ok selector
    · rcases qualified with ⟨above, qualified⟩
      exact ⟨visit, member, slips_of_child_unqualified clean member isChild
        (lineage_ne_nil parentMember) unqualified qualified⟩
    · exact induction qualified

theorem unqualified_of_slips (member : visit ∈ tree.walk) (slips : visit.Slips) :
    ¬∃ selector, qualifyLineage visit.lineage = .ok selector := by
  intro holds
  rcases holds with ⟨selector, isOk⟩
  rcases isRootOf_or_isChildOf member with isRoot | ⟨parent, parentMember, isChild⟩
  · rw [isRoot.lineage_eq, List.nil_append, qualifyLineage_singleton_eq_ok_iff] at isOk
    rcases isOk with ⟨inhabited, unfused, _, _⟩
    cases slips with
    | separators nothing => exact inhabited ((members_eq_nil_iff _).mpr nothing)
    | reference _ member isMember fused =>
        rw [unfused member.toList (mem_split.mp isMember)] at fused
        cases fused
    | outgrown _ parent qualified _ =>
        rw [isRoot.lineage_eq, List.dropLast_concat, qualifyLineage_nil] at qualified
        cases qualified
  · have parentNonempty := lineage_ne_nil parentMember
    have lineage : visit.lineage = parent.lineage ++ [visit.node.identifier] :=
      Visit.IsAmong.lineage_eq isChild
    rw [lineage, qualifyLineage_concat_eq_ok_iff parentNonempty] at isOk
    rcases isOk with ⟨above, aboveOk, inhabited, small, _⟩
    cases slips with
    | separators nothing => exact inhabited ((members_eq_nil_iff _).mpr nothing)
    | reference root _ _ _ =>
        have below : visit.depth = parent.depth + 1 := Visit.IsAmong.depth_eq isChild
        have parentDepth := depth_eq_length_lineage parent parentMember
        have positive := List.length_pos_of_ne_nil parentNonempty
        rw [Visit.isRoot, beq_iff_eq] at root
        omega
    | outgrown _ parentSelector qualified exceeds =>
        rw [lineage, List.dropLast_concat, aboveOk, Except.ok.injEq] at qualified
        subst parentSelector
        rw [length_split, length_split] at exceeds
        omega

/-- A tree without errors has a style sheet exactly if none of its nodes slips through. -/
theorem compile_isOk_iff_of_clean (clean : hasErrors tree.check = false) :
    (∃ sheet, tree.compile = .ok sheet) ↔ ∀ visit ∈ tree.walk, ¬visit.Slips := by
  rw [compile_isOk_iff]
  constructor
  · intro qualified visit member slips
    exact unqualified_of_slips member slips (qualified visit member)
  · intro noSlips visit member
    by_contra unqualified
    rcases exists_slips_of_unqualified clean visit member unqualified with
      ⟨other, otherMember, slips⟩
    exact noSlips other otherMember slips

end StyleTree

/-! ## What passes -/

/-- A tree without errors is compiled, and a run on a tree succeeds, exactly if the tree has
errors or no node slips through. -/
theorem runs_unless_slips (tree : StyleTree) :
    (hasErrors tree.check = false →
      ((∃ sheet, tree.compile = .ok sheet) ↔ ∀ visit ∈ tree.walk, ¬visit.Slips)) ∧
    ∀ (pipeline : Pipeline) (cache : Cache Report),
      (∃ result, (pipeline.runTree tree cache).1 = .ok result) ↔
        hasErrors tree.check = true ∨ ∀ visit ∈ tree.walk, ¬visit.Slips := by
  refine ⟨StyleTree.compile_isOk_iff_of_clean, ?_⟩
  intro pipeline cache
  rw [Pipeline.runTree_isOk_iff]
  by_cases errors : hasErrors tree.check = true
  · simp [errors]
  · rw [StyleTree.compile_isOk_iff_of_clean (by simpa using errors)]

/-- A lone comma draws no more than a warning for its empty block, and yet it has no selector. -/
theorem lone_comma_slips :
    hasErrors (StyleTree.check ⟨[⟨",", [], []⟩], none⟩) = false ∧
      StyleTree.compile ⟨[⟨",", [], []⟩], none⟩ = .error ⟨.emptyIdentifier, ",", none⟩ ∧
      ∀ (pipeline : Pipeline) (cache : Cache Report),
        (pipeline.runTree ⟨[⟨",", [], []⟩], none⟩ cache).1 =
          .error (.compile ⟨.emptyIdentifier, ",", none⟩) := by
  have clean : hasErrors (StyleTree.check ⟨[⟨",", [], []⟩], none⟩) = false := by decide
  have fails : StyleTree.compile ⟨[⟨",", [], []⟩], none⟩ =
      .error ⟨.emptyIdentifier, ",", none⟩ := by decide
  refine ⟨clean, fails, ?_⟩
  intro pipeline cache
  rw [Pipeline.fst_runTree_of_clean pipeline cache clean, StyleTree.resultWith_of_error fails]

end Stylebook
