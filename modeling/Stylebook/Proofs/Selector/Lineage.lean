import Stylebook.Proofs.Selector.Combine
import Stylebook.Proofs.Selector.Steps

/-!
Lineages of balanced identifiers. Their selector is cut into what each identifier makes of
each selector above it, in the order of the parents, and into nothing else. So the members of
the text are as many as were counted before it was put together.
-/

namespace Stylebook.Selector

/-! ## The selectors of a lineage -/

/-- Each member of the root, and under each of these each member of the next identifier, and
so on. -/
def lineageSelectors : List String → List (List Char)
  | [] => []
  | root :: rest =>
      rest.foldl (fun parents identifier => combinations parents (members identifier.toList))
        (members root.toList)

theorem lineageSelectors_singleton (root : String) :
    lineageSelectors [root] = members root.toList := rfl

theorem lineageSelectors_concat {outer : List String} (nonempty : outer ≠ [])
    (identifier : String) : lineageSelectors (outer ++ [identifier]) =
      combinations (lineageSelectors outer) (members identifier.toList) := by
  cases outer with
  | nil => exact absurd rfl nonempty
  | cons root rest =>
      rw [List.cons_append, lineageSelectors, List.foldl_append]
      rfl

theorem isSelector_of_mem_lineageSelectors {lineage : List String}
    (balanced : ∀ identifier ∈ lineage, Balanced identifier.toList) :
    ∀ part ∈ lineageSelectors lineage, IsSelector part := by
  induction lineage using List.reverseRecOn with
  | nil => simp [lineageSelectors]
  | append_singleton outer identifier induction =>
      have last : Balanced identifier.toList := balanced identifier (by simp)
      by_cases root : outer = []
      · subst outer
        intro part isPart
        exact isSelector_of_balanced last isPart
      · rw [lineageSelectors_concat root]
        intro part isPart
        have above := induction fun other member =>
          balanced other (List.mem_append_left _ member)
        exact isSelector_of_mem_combinations above last isPart

theorem length_combinations (parents inner : List (List Char)) :
    (combinations parents inner).length = parents.length * inner.length := by
  simp [combinations, List.length_flatMap]

theorem length_lineageSelectors {lineage : List String} (nonempty : lineage ≠ [])
    (inhabited : ∀ identifier ∈ lineage, members identifier.toList ≠ []) :
    (lineageSelectors lineage).length = (lineage.map memberCount).prod := by
  induction lineage using List.reverseRecOn with
  | nil => exact absurd rfl nonempty
  | append_singleton outer identifier induction =>
      have counted := memberCount_eq (inhabited identifier (by simp))
      by_cases root : outer = []
      · subst outer
        simp [lineageSelectors_singleton, counted]
      · have above := induction root fun other member =>
          inhabited other (List.mem_append_left _ member)
        rw [lineageSelectors_concat root, length_combinations, above, List.map_append,
          List.prod_append, List.map_singleton, List.prod_singleton, counted]

/-! ## Qualification -/

structure Qualifies (lineage : List String) : Prop where
  inhabited : ∀ identifier ∈ lineage, members identifier.toList ≠ []
  root : ∀ root ∈ lineage.head?, ∀ member ∈ members root.toList, isFused member = false
  small : expandedLength lineage ≤ maximumSelectors

theorem prod_memberCount_le_iff (lineage : List String) :
    expandedLength lineage ≤ maximumSelectors ↔
      (lineage.map memberCount).prod ≤ maximumSelectors :=
  expandedLength_le_iff (by decide) lineage

theorem qualifies_singleton_iff (root : String) :
    Qualifies [root] ↔
      members root.toList ≠ [] ∧ (∀ member ∈ members root.toList, isFused member = false) ∧
        (members root.toList).length ≤ maximumSelectors := by
  constructor
  · intro qualifies
    have inhabited := qualifies.inhabited root (by simp)
    have small := (prod_memberCount_le_iff [root]).mp qualifies.small
    rw [List.map_singleton, List.prod_singleton, memberCount_eq inhabited] at small
    exact ⟨inhabited, qualifies.root root rfl, small⟩
  · intro holds
    rcases holds with ⟨inhabited, unfused, small⟩
    refine ⟨by simpa using inhabited, by simpa using unfused, ?_⟩
    rw [prod_memberCount_le_iff, List.map_singleton, List.prod_singleton,
      memberCount_eq inhabited]
    exact small

theorem qualifies_concat_iff {outer : List String} (nonempty : outer ≠ [])
    (identifier : String) : Qualifies (outer ++ [identifier]) ↔
      Qualifies outer ∧ members identifier.toList ≠ [] ∧
        (lineageSelectors outer).length * (members identifier.toList).length ≤
          maximumSelectors := by
  have sameRoot : (outer ++ [identifier]).head? = outer.head? :=
    List.head?_append_of_ne_nil outer nonempty
  have exact : ∀ inhabited : ∀ other ∈ outer, members other.toList ≠ [],
      members identifier.toList ≠ [] →
      ((outer ++ [identifier]).map memberCount).prod =
        (lineageSelectors outer).length * (members identifier.toList).length := by
    intro inhabited last
    rw [List.map_append, List.prod_append, List.map_singleton, List.prod_singleton,
      memberCount_eq last, length_lineageSelectors nonempty inhabited]
  constructor
  · intro qualifies
    have inhabited : ∀ other ∈ outer, members other.toList ≠ [] :=
      fun other member => qualifies.inhabited other (List.mem_append_left _ member)
    have last := qualifies.inhabited identifier (by simp)
    refine ⟨⟨inhabited, sameRoot ▸ qualifies.root, ?_⟩, last, ?_⟩
    · exact Nat.le_trans (expandedLength_le_concat outer identifier) qualifies.small
    · rw [← exact inhabited last, ← prod_memberCount_le_iff]
      exact qualifies.small
  · intro holds
    rcases holds with ⟨above, last, small⟩
    refine ⟨?_, sameRoot ▸ above.root, ?_⟩
    · intro other member
      rcases List.mem_append.mp member with member | member
      · exact above.inhabited other member
      · rwa [List.mem_singleton.mp member]
    · rw [prod_memberCount_le_iff, exact above.inhabited last]
      exact small

/-- A balanced lineage that qualifies has exactly the selectors that it is meant to have. -/
theorem qualifyLineage_eq_ok_iff {lineage : List String} (nonempty : lineage ≠ [])
    (balanced : ∀ identifier ∈ lineage, Balanced identifier.toList) (selector : String) :
    qualifyLineage lineage = .ok selector ↔
      Qualifies lineage ∧ selector.toList = joined (lineageSelectors lineage) := by
  induction lineage using List.reverseRecOn generalizing selector with
  | nil => exact absurd rfl nonempty
  | append_singleton outer identifier induction =>
      by_cases root : outer = []
      · subst outer
        rw [List.nil_append, qualifyLineage_singleton_eq_ok_iff, qualifies_singleton_iff,
          lineageSelectors_singleton]
        simp only [and_assoc]
      · have outerBalanced : ∀ other ∈ outer, Balanced other.toList :=
          fun other member => balanced other (List.mem_append_left _ member)
        have cutAgain : members (joined (lineageSelectors outer)) = lineageSelectors outer :=
          members_joined_of_isSelector (isSelector_of_mem_lineageSelectors outerBalanced)
        have above := induction root outerBalanced
        rw [qualifyLineage_concat_eq_ok_iff root, qualifies_concat_iff root,
          lineageSelectors_concat root]
        constructor
        · intro holds
          rcases holds with ⟨parent, qualified, last, small, text⟩
          rcases (above parent).mp qualified with ⟨qualifies, parentText⟩
          rw [parentText, cutAgain] at small text
          exact ⟨⟨qualifies, last, small⟩, text⟩
        · intro holds
          rcases holds with ⟨⟨qualifies, last, small⟩, text⟩
          have parentText := String.toList_ofList (l := joined (lineageSelectors outer))
          refine ⟨_, (above _).mpr ⟨qualifies, parentText⟩, last, ?_, ?_⟩
          · rw [parentText, cutAgain]
            exact small
          · rw [parentText, cutAgain]
            exact text

/-! ## Cutting the selector -/

theorem split_eq_nil_iff (list : String) : split list = [] ↔ members list.toList = [] :=
  List.map_eq_nil_iff

private theorem qualifies_iff (lineage : List String) :
    Qualifies lineage ↔
      (∀ identifier ∈ lineage, split identifier ≠ []) ∧
        (∀ root ∈ lineage.head?, ∀ member ∈ split root, isFused member.toList = false) ∧
          expandedLength lineage ≤ maximumSelectors := by
  simp only [forall_mem_split_iff _ fun member => isFused member = false, ne_eq, split_eq_nil_iff]
  exact ⟨fun ⟨inhabited, root, small⟩ => ⟨inhabited, root, small⟩,
    fun ⟨inhabited, root, small⟩ => ⟨inhabited, root, small⟩⟩

private theorem split_eq_map_lineageSelectors {lineage : List String}
    (balanced : ∀ identifier ∈ lineage, Balanced identifier.toList) {selector : String}
    (text : selector.toList = joined (lineageSelectors lineage)) :
    split selector = (lineageSelectors lineage).map String.ofList := by
  rw [split, text, members_joined_of_isSelector (isSelector_of_mem_lineageSelectors balanced)]

private theorem map_ofList_combinations (parents inner : List (List Char)) :
    (combinations parents inner).map String.ofList =
      (parents.map String.ofList).flatMap fun parent =>
        (inner.map String.ofList).map fun member =>
          String.ofList (combine parent.toList member.toList) := by
  simp [combinations, List.map_flatMap, List.flatMap_map, Function.comp_def,
    String.toList_ofList]

/-- When balanced identifiers have a selector, and which members it has: each member of the
last identifier under each member of the selector above it, the parents first in the order. -/
theorem split_qualifyLineage {lineage : List String} (nonempty : lineage ≠ [])
    (balanced : ∀ identifier ∈ lineage, Balanced identifier.toList) :
    ((∃ selector, qualifyLineage lineage = .ok selector) ↔
      (∀ identifier ∈ lineage, split identifier ≠ []) ∧
        (∀ root ∈ lineage.head?, ∀ member ∈ split root, isFused member.toList = false) ∧
          expandedLength lineage ≤ maximumSelectors) ∧
    ∀ selector, qualifyLineage lineage = .ok selector →
      (split selector).length = expandedLength lineage ∧
      (∀ root, lineage = [root] → split selector = split root) ∧
      ∀ outer identifier, lineage = outer ++ [identifier] → outer ≠ [] →
        ∃ parent, qualifyLineage outer = .ok parent ∧
          split selector = (split parent).flatMap fun above =>
            (split identifier).map fun member =>
              String.ofList (combine above.toList member.toList) := by
  have qualified := qualifyLineage_eq_ok_iff nonempty balanced
  constructor
  · rw [← qualifies_iff]
    constructor
    · intro holds
      rcases holds with ⟨selector, isOk⟩
      exact ((qualified selector).mp isOk).1
    · intro qualifies
      exact ⟨_, (qualified _).mpr ⟨qualifies, String.toList_ofList⟩⟩
  · intro selector isOk
    rcases (qualified selector).mp isOk with ⟨qualifies, text⟩
    have cut := split_eq_map_lineageSelectors balanced text
    refine ⟨?_, ?_, ?_⟩
    · have small := (prod_memberCount_le_iff lineage).mp qualifies.small
      have countable : maximumSelectors ≤ maximumCount := by decide
      rw [cut, List.length_map, length_lineageSelectors nonempty qualifies.inhabited,
        expandedLength_eq_min, Nat.min_eq_left (Nat.le_trans small countable)]
    · intro root alone
      subst alone
      rw [cut, lineageSelectors_singleton, split]
    · intro outer identifier parts root
      subst parts
      have outerBalanced : ∀ other ∈ outer, Balanced other.toList :=
        fun other member => balanced other (List.mem_append_left _ member)
      rcases (qualifyLineage_concat_eq_ok_iff root identifier selector).mp isOk with
        ⟨parent, parentOk, _⟩
      have parentText := ((qualifyLineage_eq_ok_iff root outerBalanced parent).mp parentOk).2
      refine ⟨parent, parentOk, ?_⟩
      rw [cut, lineageSelectors_concat root, map_ofList_combinations,
        split_eq_map_lineageSelectors outerBalanced parentText, split]

/-- References within brackets take a selector that has brackets and a quoted comma itself. -/
theorem split_qualifyLineage_nested :
    (∀ identifier ∈ [".a[x=\",\"], b", "&:is(.c, &), > &"], Balanced identifier.toList) ∧
    ∃ selector, qualifyLineage [".a[x=\",\"], b", "&:is(.c, &), > &"] = .ok selector ∧
      split selector =
        [".a[x=\",\"]:is(.c, .a[x=\",\"])", ".a[x=\",\"] > &", "b:is(.c, b)", "b > &"] := by
  have balanced : ∀ identifier ∈ [".a[x=\",\"], b", "&:is(.c, &), > &"],
      Balanced identifier.toList := by decide
  have rootBalanced : ∀ identifier ∈ [".a[x=\",\"], b"], Balanced identifier.toList := by decide
  rcases split_qualifyLineage (by decide) balanced with ⟨succeeds, cuts⟩
  rcases succeeds.mpr (by decide) with ⟨selector, isOk⟩
  rcases (cuts selector isOk).2.2 [".a[x=\",\"], b"] _ rfl (by decide) with
    ⟨parent, parentOk, cut⟩
  have rootCut :=
    ((split_qualifyLineage (by decide) rootBalanced).2 parent parentOk).2.1 _ rfl
  refine ⟨balanced, selector, isOk, ?_⟩
  rw [cut, rootCut]
  decide

end Stylebook.Selector
