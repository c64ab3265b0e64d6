import Stylebook.Proofs.Selector.Scan
import Stylebook.Proofs.Selector.Steps
import Stylebook.Proofs.Tree.Paths
import Stylebook.Proofs.Validation.Findings

/-!
Where a tree is said to have too many selectors. On the way down to a node the number of selectors
does not fall, so it goes past the limit at one node at most; that node is named, and the nodes
below it are not.
-/

namespace Stylebook

open Selector

/-! ## The number of selectors -/

def selectorProduct (lineage : List String) : Nat :=
  (lineage.map fun identifier => max 1 (split identifier).length).prod

theorem selectorProduct_eq (lineage : List String) :
    selectorProduct lineage = (lineage.map memberCount).prod := by
  simp only [selectorProduct, length_split, Nat.max_comm 1]
  rfl

theorem expandedLength_eq_min_selectorProduct (lineage : List String) :
    expandedLength lineage = min maximumCount (selectorProduct lineage) := by
  rw [expandedLength_eq_min, selectorProduct_eq, Nat.min_comm]

theorem expandedLength_le_maximum_iff (lineage : List String) :
    expandedLength lineage ≤ maximumSelectors ↔ selectorProduct lineage ≤ maximumSelectors := by
  rw [expandedLength_le_iff (by decide), selectorProduct_eq]

theorem selectorProduct_le_concat (outer : List String) (identifier : String) :
    selectorProduct outer ≤ selectorProduct (outer ++ [identifier]) := by
  rw [selectorProduct_eq, selectorProduct_eq, List.map_append, List.prod_append,
    List.map_singleton, List.prod_singleton]
  exact Nat.le_mul_of_pos_right _ (memberCount_pos identifier)

/-! ## The nodes that are named -/

def Visit.isTooMany (visit : Visit) : Bool := (checkVisit visit).any Finding.isExpansionError

theorem filter_isExpansionError_checkNode (visit : Visit) :
    (checkNode visit).filter Finding.isExpansionError = checkExpansion visit := by
  have expansions : (checkExpansion visit).filter Finding.isExpansionError =
      checkExpansion visit := by
    rw [checkExpansion]
    split
    · simp [tooManySelectors, Finding.isExpansionError, Finding.opensWith, Finding.error]
    · rfl
  have declarations : (checkDeclarations visit.breadcrumb [] visit.node.declarations).filter
      Finding.isExpansionError = [] :=
    Finding.filter_opensWith_eq_nil (opens_of_mem_checkDeclarations _ _ _) (by decide) .error
  refine (filter_checkNode (by decide) .error visit).trans ?_
  rw [← Finding.isExpansionError, expansions, declarations, List.append_nil]

theorem filter_isExpansionError_checkSiblings (lineage : List String) (siblings : List StyleNode) :
    (checkSiblings lineage 1 siblings).filter Finding.isExpansionError = [] :=
  Finding.filter_opensWith_eq_nil (opens_of_mem_checkSiblings lineage 1 siblings) (by decide) .error

theorem checkExpansion_eq (visit : Visit) :
    checkExpansion visit =
      if maximumSelectors < selectorProduct visit.lineage ∧
          selectorProduct visit.lineage.dropLast ≤ maximumSelectors then
        [tooManySelectors visit]
      else [] := by
  rw [checkExpansion]
  simp only [gt_iff_lt, ← Nat.not_le, expandedLength_le_maximum_iff]

theorem filter_isExpansionError_checkVisit (visit : Visit) :
    (checkVisit visit).filter Finding.isExpansionError =
      if visit.depth ≤ maximumNesting ∧ maximumSelectors < selectorProduct visit.lineage ∧
          selectorProduct visit.lineage.dropLast ≤ maximumSelectors then
        [tooManySelectors visit]
      else [] := by
  refine (filter_checkVisit (by decide) .error visit).trans ?_
  rw [← Finding.isExpansionError, filter_isExpansionError_checkNode,
    filter_isExpansionError_checkSiblings, List.append_nil, checkExpansion_eq]
  by_cases near : visit.depth ≤ maximumNesting <;> simp [near]

theorem Visit.isTooMany_iff (visit : Visit) :
    visit.isTooMany = true ↔
      visit.depth ≤ maximumNesting ∧ maximumSelectors < selectorProduct visit.lineage ∧
        selectorProduct visit.lineage.dropLast ≤ maximumSelectors := by
  rw [isTooMany, ← Bool.not_eq_false, List.any_eq_false, ← List.filter_eq_nil_iff,
    filter_isExpansionError_checkVisit]
  split
  · next crosses => simp [crosses]
  · next within => simp [within]

theorem filter_isExpansionError_checkVisit_eq (visit : Visit) :
    (checkVisit visit).filter Finding.isExpansionError =
      if visit.isTooMany then [tooManySelectors visit] else [] := by
  rw [filter_isExpansionError_checkVisit]
  exact if_congr visit.isTooMany_iff.symm rfl rfl

namespace StyleTree

variable {tree : StyleTree}

/-- The errors of the check are those about the nodes, one for each node that is named. -/
theorem filter_isExpansionError_check (tree : StyleTree) :
    tree.check.filter Finding.isExpansionError =
      (tree.walk.filter Visit.isTooMany).map tooManySelectors := by
  refine (filter_check (by decide) .error tree).trans ?_
  rw [← Finding.isExpansionError, filter_isExpansionError_checkSiblings, List.nil_append]
  simp only [filter_isExpansionError_checkVisit_eq, ← flatMap_filter_eq]
  exact List.map_eq_flatMap.symm

/-! ## The way down to a node -/

def LeadsTo (tree : StyleTree) (above visit : Visit) : Prop :=
  above ∈ tree.walk ∧ above.path <+: visit.path

theorem leadsTo_iff_of_isRootOf {above visit : Visit} (isVisit : visit ∈ tree.walk)
    (isRoot : visit.IsRootOf tree) : tree.LeadsTo above visit ↔ above = visit := by
  constructor
  · rintro ⟨isAbove, onWay⟩
    have nonempty : above.path ≠ [] := ne_nil_of_node? (mem_walk_iff.mp isAbove).1
    refine eq_of_mem_walk_of_path isAbove isVisit ?_
    rcases isRoot with ⟨index, _, isPath, _⟩
    rw [isPath] at onWay ⊢
    rcases List.prefix_concat_iff.mp onWay with here | empty
    · exact here
    · exact absurd (List.prefix_nil.mp empty) nonempty
  · rintro rfl
    exact ⟨isVisit, List.prefix_rfl⟩

theorem leadsTo_iff_of_isChildOf {above visit parent : Visit} (isVisit : visit ∈ tree.walk)
    (isChild : visit.IsChildOf parent) :
    tree.LeadsTo above visit ↔ above = visit ∨ tree.LeadsTo above parent := by
  rcases isChild with ⟨index, _, isPath, _⟩
  constructor
  · rintro ⟨isAbove, onWay⟩
    rw [isPath] at onWay
    rcases List.prefix_concat_iff.mp onWay with here | further
    · exact .inl (eq_of_mem_walk_of_path isAbove isVisit (here.trans isPath.symm))
    · exact .inr ⟨isAbove, further⟩
  · rintro (rfl | ⟨isAbove, onWay⟩)
    · exact ⟨isVisit, List.prefix_rfl⟩
    · rw [LeadsTo, isPath]
      exact ⟨isAbove, onWay.trans (List.prefix_append _ _)⟩

/-- The node is the one that goes past the limit if it does and its parent does not. -/
private theorem named_of_step {visit : Visit} (near : visit.depth ≤ maximumNesting)
    (above : selectorProduct visit.lineage.dropLast ≤ maximumSelectors) :
    visit.isTooMany = true ↔ maximumSelectors < selectorProduct visit.lineage := by
  rw [visit.isTooMany_iff]
  exact ⟨fun named => named.2.1, fun exceeds => ⟨near, exceeds, above⟩⟩

private theorem not_named_of_above {visit : Visit}
    (above : maximumSelectors < selectorProduct visit.lineage.dropLast) :
    visit.isTooMany = false := by
  rw [← Bool.not_eq_true, visit.isTooMany_iff]
  rintro ⟨_, _, within⟩
  omega

/-- The number of nodes that are named on the way down to a node. -/
theorem named_on_way : ∀ visit ∈ tree.walk, visit.depth ≤ maximumNesting →
    (maximumSelectors < selectorProduct visit.lineage →
      ∃! above, tree.LeadsTo above visit ∧ above.isTooMany = true) ∧
    (selectorProduct visit.lineage ≤ maximumSelectors →
      ∀ above, tree.LeadsTo above visit → above.isTooMany = false) := by
  apply walk_induction
  · intro visit isVisit isRoot near
    have step := named_of_step near (by rw [isRoot.lineage_eq, List.dropLast_concat]; decide)
    simp only [leadsTo_iff_of_isRootOf isVisit isRoot]
    constructor
    · intro exceeds
      exact ⟨visit, ⟨rfl, step.mpr exceeds⟩, fun _ other => other.1⟩
    · rintro within above rfl
      rw [← Bool.not_eq_true, step]
      omega
  · intro parent isParent visit isVisit isChild onWay near
    have deeper : visit.depth = parent.depth + 1 := Visit.IsAmong.depth_eq isChild
    have lineage : visit.lineage.dropLast = parent.lineage := by
      rw [Visit.IsAmong.lineage_eq isChild, List.dropLast_concat]
    have grows : selectorProduct parent.lineage ≤ selectorProduct visit.lineage := by
      rw [Visit.IsAmong.lineage_eq isChild]
      exact selectorProduct_le_concat _ _
    rcases onWay (by omega) with ⟨once, never⟩
    simp only [leadsTo_iff_of_isChildOf isVisit isChild]
    by_cases above : maximumSelectors < selectorProduct parent.lineage
    · have unnamed : visit.isTooMany = false := not_named_of_above (by rwa [lineage])
      refine ⟨fun _ => ?_, fun within => by omega⟩
      rcases once above with ⟨named, ⟨leads, isNamed⟩, unique⟩
      refine ⟨named, ⟨.inr leads, isNamed⟩, ?_⟩
      rintro other ⟨rfl | leads, isNamed⟩
      · rw [unnamed] at isNamed
        cases isNamed
      · exact unique other ⟨leads, isNamed⟩
    · have step := named_of_step near (by rw [lineage]; omega)
      have noneAbove := never (by omega)
      constructor
      · intro exceeds
        refine ⟨visit, ⟨.inl rfl, step.mpr exceeds⟩, ?_⟩
        rintro other ⟨rfl | leads, isNamed⟩
        · rfl
        · rw [noneAbove other leads] at isNamed
          cases isNamed
      · rintro within other (rfl | leads)
        · rw [← Bool.not_eq_true, step]
          omega
        · exact noneAbove other leads

/-- The expansion of a lineage is exact as far as it can be counted, and a tree is said to have too
many selectors at the one node on the way down where the limit is crossed. -/
theorem expansion_reported_once (tree : StyleTree) :
    (∀ lineage, expandedLength lineage = min maximumCount (selectorProduct lineage)) ∧
      tree.check.filter Finding.isExpansionError =
        (tree.walk.filter Visit.isTooMany).map tooManySelectors ∧
      ∀ visit ∈ tree.walk, visit.depth ≤ maximumNesting →
        (maximumSelectors < selectorProduct visit.lineage →
          ∃! above, tree.LeadsTo above visit ∧ above.isTooMany = true) ∧
        (selectorProduct visit.lineage ≤ maximumSelectors →
          ∀ above, tree.LeadsTo above visit → above.isTooMany = false) :=
  ⟨expandedLength_eq_min_selectorProduct, tree.filter_isExpansionError_check, named_on_way⟩

def fourfold : Nat → StyleNode
  | 0 => ⟨".leaf", [⟨"color", "red"⟩], []⟩
  | levels + 1 => ⟨".a, .b, .c, .d", [], [fourfold levels]⟩

/-- Five of these nodes have 1024 selectors, and six have too many. -/
theorem expansion_reported_fourfold :
    ∃ visit ∈ walk ⟨[fourfold 6], none⟩, visit.depth ≤ maximumNesting ∧
      selectorProduct visit.lineage = 4096 ∧
      ∃! above, LeadsTo ⟨[fourfold 6], none⟩ above visit ∧ above.isTooMany = true := by
  have isVisit : ⟨fourfold 0, [0, 0, 0, 0, 0, 0, 0],
      List.replicate 6 ".a, .b, .c, .d" ++ [".leaf"]⟩ ∈ walk ⟨[fourfold 6], none⟩ :=
    mem_walk_iff.mpr ⟨rfl, rfl⟩
  have product : selectorProduct (List.replicate 6 ".a, .b, .c, .d" ++ [".leaf"]) = 4096 := by
    decide
  refine ⟨_, isVisit, by decide, product, ?_⟩
  refine ((expansion_reported_once _).2.2 _ isVisit (by decide)).1 ?_
  rw [product]
  decide

end StyleTree

end Stylebook
