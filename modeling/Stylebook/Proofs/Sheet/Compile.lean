import Stylebook.Sheet.Compile

/-!
When a tree has a style sheet: every visited node must have a selector, also the nodes that
declare nothing. The file that a tree was read from shows in errors only.
-/

namespace Stylebook

open Selector

theorem Visit.selector_eq_ok_iff (source : Option String) (visit : Visit) (selector : String) :
    visit.selector source = .ok selector ↔ qualifyLineage visit.lineage = .ok selector := by
  rw [Visit.selector]
  cases qualifyLineage visit.lineage <;> simp

theorem rulesOfVisits_cons_eq_ok_iff (source : Option String) (visit : Visit)
    (rest : List Visit) (rules : List Rule) :
    rulesOfVisits source (visit :: rest) = .ok rules ↔
      ∃ selector later, qualifyLineage visit.lineage = .ok selector ∧
        rulesOfVisits source rest = .ok later ∧
          rules = if visit.node.declarations.isEmpty then later
            else ⟨selector, visit.node.declarations, visit.path⟩ :: later := by
  simp only [← visit.selector_eq_ok_iff source]
  rw [rulesOfVisits]
  cases visit.selector source with
  | error reason => simp [bind, Except.bind]
  | ok selector =>
      cases rulesOfVisits source rest with
      | error reason => simp [bind, Except.bind]
      | ok later =>
          by_cases silent : visit.node.declarations.isEmpty = true
          · simp [bind, Except.bind, pure, Except.pure, silent, eq_comm]
          · simp [bind, Except.bind, pure, Except.pure, silent, eq_comm]

theorem rulesOfVisits_isOk_iff (source : Option String) (visits : List Visit) :
    (∃ rules, rulesOfVisits source visits = .ok rules) ↔
      ∀ visit ∈ visits, ∃ selector, qualifyLineage visit.lineage = .ok selector := by
  induction visits with
  | nil => simp [rulesOfVisits]
  | cons visit rest induction =>
      simp only [rulesOfVisits_cons_eq_ok_iff, List.forall_mem_cons, ← induction]
      constructor
      · intro holds
        rcases holds with ⟨_, selector, later, qualified, laterOk, _⟩
        exact ⟨⟨selector, qualified⟩, later, laterOk⟩
      · intro holds
        rcases holds with ⟨⟨selector, qualified⟩, later, laterOk⟩
        exact ⟨_, selector, later, qualified, laterOk, rfl⟩

theorem rulesOfVisits_eq_ok_of_source {first : Option String} {visits : List Visit}
    {rules : List Rule} (isOk : rulesOfVisits first visits = .ok rules) (second : Option String) :
    rulesOfVisits second visits = .ok rules := by
  induction visits generalizing rules with
  | nil => exact isOk
  | cons visit rest induction =>
      rw [rulesOfVisits_cons_eq_ok_iff] at isOk ⊢
      rcases isOk with ⟨selector, later, qualified, laterOk, equal⟩
      exact ⟨selector, later, qualified, induction laterOk, equal⟩

namespace StyleTree

theorem compile_eq_ok_iff (tree : StyleTree) (sheet : Sheet) :
    tree.compile = .ok sheet ↔ rulesOfVisits tree.source tree.walk = .ok sheet.rules := by
  rw [compile]
  cases rulesOfVisits tree.source tree.walk with
  | error reason => simp [bind, Except.bind]
  | ok rules =>
      rcases sheet with ⟨others⟩
      simp [bind, Except.bind, pure, Except.pure]

theorem compile_isOk_iff (tree : StyleTree) :
    (∃ sheet, tree.compile = .ok sheet) ↔
      ∀ visit ∈ tree.walk, ∃ selector, qualifyLineage visit.lineage = .ok selector := by
  rw [← rulesOfVisits_isOk_iff tree.source]
  constructor
  · intro holds
    rcases holds with ⟨sheet, isOk⟩
    exact ⟨sheet.rules, (tree.compile_eq_ok_iff sheet).mp isOk⟩
  · intro holds
    rcases holds with ⟨rules, isOk⟩
    exact ⟨⟨rules⟩, (tree.compile_eq_ok_iff ⟨rules⟩).mpr isOk⟩

/-- Trees of the same content have the same style sheet, wherever they were read from. -/
theorem compile_eq_ok_of_roots {first second : StyleTree} (roots : first.roots = second.roots)
    {sheet : Sheet} (isOk : first.compile = .ok sheet) : second.compile = .ok sheet := by
  have walks : first.walk = second.walk := by rw [walk, walk, roots]
  rw [compile_eq_ok_iff] at isOk ⊢
  rw [← walks]
  exact rulesOfVisits_eq_ok_of_source isOk second.source

end StyleTree

end Stylebook
