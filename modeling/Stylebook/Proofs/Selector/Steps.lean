import Mathlib.Algebra.BigOperators.Group.List.Basic
import Stylebook.Selector.Qualify

/-!
Qualification one identifier at a time: when it succeeds, and with which selector. Beside it
stands the expansion of a lineage, which is the product of the member counts as far as that
can be counted.
-/

namespace Stylebook.Selector

/-! ## One identifier -/

theorem qualifyRoot_eq_ok_iff (identifier selector : List Char) :
    qualifyRoot identifier = .ok selector ↔
      members identifier ≠ [] ∧ (∀ member ∈ members identifier, isFused member = false) ∧
        (members identifier).length ≤ maximumSelectors ∧
          selector = joined (members identifier) := by
  rw [qualifyRoot]
  by_cases empty : members identifier = []
  · simp [empty]
  · by_cases fused : (members identifier).any isFused = true
    · have someFused : ¬∀ member ∈ members identifier, isFused member = false := by
        simpa using fused
      simp [empty, fused, someFused]
    · have noneFused : ∀ member ∈ members identifier, isFused member = false := by
        simpa using fused
      by_cases large : (members identifier).length > maximumSelectors
      · have notSmall : ¬(members identifier).length ≤ maximumSelectors := by omega
        simp [empty, fused, large, notSmall]
      · have small : (members identifier).length ≤ maximumSelectors := by omega
        simp only [List.isEmpty_iff, empty, fused, large, if_false, Bool.false_eq_true,
          Except.ok.injEq]
        exact ⟨fun equal => ⟨empty, noneFused, small, equal.symm⟩,
          fun conditions => conditions.2.2.2.symm⟩

theorem qualifyUnder_eq_ok_iff (parent identifier selector : List Char) :
    qualifyUnder parent identifier = .ok selector ↔
      members identifier ≠ [] ∧
        (members parent).length * (members identifier).length ≤ maximumSelectors ∧
          selector = joined (combinations (members parent) (members identifier)) := by
  rw [qualifyUnder]
  by_cases empty : members identifier = []
  · simp [empty]
  · by_cases large :
        (members parent).length * (members identifier).length > maximumSelectors
    · have notSmall :
          ¬(members parent).length * (members identifier).length ≤ maximumSelectors := by omega
      simp [empty, large, notSmall]
    · have small :
          (members parent).length * (members identifier).length ≤ maximumSelectors := by omega
      simp only [List.isEmpty_iff, empty, large, if_false, Except.ok.injEq]
      exact ⟨fun equal => ⟨empty, small, equal.symm⟩, fun conditions => conditions.2.2.symm⟩

/-! ## Lineages -/

private theorem qualifyAll_concat (parent? : Option (List Char)) (outer : List (List Char))
    (identifier : List Char) : qualifyAll parent? (outer ++ [identifier]) =
      (qualifyAll parent? outer).bind fun parent? =>
        (qualifyCharacters parent? identifier).map some := by
  induction outer generalizing parent? with
  | nil =>
      simp only [List.nil_append, qualifyAll, Except.bind]
      cases qualifyCharacters parent? identifier <;> rfl
  | cons head tail induction =>
      simp only [List.cons_append, qualifyAll]
      cases qualifyCharacters parent? head with
      | error reason => rfl
      | ok selector => exact induction (some selector)

private theorem qualifyAll_cons_ne_none (parent? : Option (List Char)) (head : List Char)
    (tail : List (List Char)) : qualifyAll parent? (head :: tail) ≠ .ok none := by
  induction tail generalizing parent? head with
  | nil =>
      simp only [qualifyAll]
      cases qualifyCharacters parent? head <;> simp [bind, Except.bind]
  | cons next rest induction =>
      rw [qualifyAll]
      cases qualifyCharacters parent? head with
      | error reason => simp [bind, Except.bind]
      | ok selector => exact induction (some selector) next

theorem qualifyLineage_nil : qualifyLineage [] = .error .emptyIdentifier := rfl

theorem qualifyLineage_singleton (root : String) :
    qualifyLineage [root] = (qualifyRoot root.toList).map String.ofList := by
  simp only [qualifyLineage, List.map_cons, List.map_nil, qualifyAll, qualifyCharacters]
  cases qualifyRoot root.toList <;> rfl

/-- A node below others is qualified under the selector of the node above it. -/
theorem qualifyLineage_concat {outer : List String} (nonempty : outer ≠ [])
    (identifier : String) : qualifyLineage (outer ++ [identifier]) =
      (qualifyLineage outer).bind fun selector =>
        (qualifyUnder selector.toList identifier.toList).map String.ofList := by
  rw [qualifyLineage, qualifyLineage, List.map_append, List.map_singleton, qualifyAll_concat]
  cases outer with
  | nil => exact absurd rfl nonempty
  | cons head tail =>
      cases above : qualifyAll none ((head :: tail).map String.toList) with
      | error reason => rfl
      | ok parent? =>
          cases parent? with
          | none => exact absurd above (qualifyAll_cons_ne_none none _ _)
          | some parent =>
              simp only [Except.bind, qualifyCharacters, bind, pure, Except.pure,
                String.toList_ofList]
              cases qualifyUnder parent identifier.toList <;> rfl

theorem qualifyLineage_singleton_eq_ok_iff (root selector : String) :
    qualifyLineage [root] = .ok selector ↔
      members root.toList ≠ [] ∧ (∀ member ∈ members root.toList, isFused member = false) ∧
        (members root.toList).length ≤ maximumSelectors ∧
          selector.toList = joined (members root.toList) := by
  rw [qualifyLineage_singleton, ← qualifyRoot_eq_ok_iff]
  cases qualifyRoot root.toList with
  | error reason => simp [Except.map]
  | ok characters =>
      simp only [Except.map, Except.ok.injEq]
      rw [← String.toList_inj, String.toList_ofList, eq_comm]

theorem qualifyLineage_concat_eq_ok_iff {outer : List String} (nonempty : outer ≠ [])
    (identifier selector : String) : qualifyLineage (outer ++ [identifier]) = .ok selector ↔
      ∃ parent, qualifyLineage outer = .ok parent ∧ members identifier.toList ≠ [] ∧
        (members parent.toList).length * (members identifier.toList).length ≤
            maximumSelectors ∧
          selector.toList =
            joined (combinations (members parent.toList) (members identifier.toList)) := by
  rw [qualifyLineage_concat nonempty]
  cases qualifyLineage outer with
  | error reason => simp [Except.bind]
  | ok parent =>
      simp only [Except.bind, Except.ok.injEq, exists_eq_left']
      rw [← qualifyUnder_eq_ok_iff]
      cases qualifyUnder parent.toList identifier.toList with
      | error reason => simp [Except.map]
      | ok characters =>
          simp only [Except.map, Except.ok.injEq]
          rw [← String.toList_inj, String.toList_ofList, eq_comm]

/-! ## Expansion -/

def memberCount (identifier : String) : Nat := max (members identifier.toList).length 1

theorem memberCount_pos (identifier : String) : 0 < memberCount identifier := by
  rw [memberCount]
  omega

theorem memberCount_eq {identifier : String} (nonempty : members identifier.toList ≠ []) :
    memberCount identifier = (members identifier.toList).length := by
  have positive := List.length_pos_of_ne_nil nonempty
  rw [memberCount]
  omega

theorem prod_memberCount_pos (lineage : List String) : 0 < (lineage.map memberCount).prod := by
  induction lineage with
  | nil => simp
  | cons head tail induction =>
      rw [List.map_cons, List.prod_cons]
      exact Nat.mul_pos (memberCount_pos head) induction

private theorem foldl_saturatingProduct (lineage : List String) (count : Nat)
    (small : count ≤ maximumCount) :
    lineage.foldl (fun count identifier => saturatingProduct count (memberCount identifier))
        count = min (count * (lineage.map memberCount).prod) maximumCount := by
  induction lineage generalizing count with
  | nil => simp [small]
  | cons head tail induction =>
      have bounded : saturatingProduct count (memberCount head) ≤ maximumCount :=
        Nat.min_le_right _ _
      rw [List.foldl_cons, induction _ bounded, List.map_cons, List.prod_cons,
        ← Nat.mul_assoc, saturatingProduct]
      by_cases fits : count * memberCount head ≤ maximumCount
      · rw [Nat.min_eq_left fits]
      · have exceeds : maximumCount ≤ count * memberCount head := by omega
        have positive := prod_memberCount_pos tail
        rw [Nat.min_eq_right exceeds,
          Nat.min_eq_right (Nat.le_mul_of_pos_right maximumCount positive),
          Nat.min_eq_right (Nat.le_trans exceeds (Nat.le_mul_of_pos_right _ positive))]

/-- The expansion of a lineage is the product of the counts, or the greatest count. -/
theorem expandedLength_eq_min (lineage : List String) :
    expandedLength lineage = min (lineage.map memberCount).prod maximumCount := by
  have counted := foldl_saturatingProduct lineage 1 (by decide)
  rw [Nat.one_mul] at counted
  exact counted

theorem expandedLength_le_iff {limit : Nat} (small : limit < maximumCount)
    (lineage : List String) :
    expandedLength lineage ≤ limit ↔ (lineage.map memberCount).prod ≤ limit := by
  rw [expandedLength_eq_min]
  omega

theorem expandedLength_le_concat (outer : List String) (identifier : String) :
    expandedLength outer ≤ expandedLength (outer ++ [identifier]) := by
  have grows := Nat.le_mul_of_pos_right (outer.map memberCount).prod (memberCount_pos identifier)
  rw [expandedLength_eq_min, expandedLength_eq_min, List.map_append, List.prod_append,
    List.map_singleton, List.prod_singleton]
  omega

end Stylebook.Selector
