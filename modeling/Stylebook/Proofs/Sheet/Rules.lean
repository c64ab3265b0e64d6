import Mathlib.Data.List.Nodup
import Stylebook.Proofs.Sheet.Compile
import Stylebook.Proofs.Tree.Paths

/-!
The rules of a style sheet by the nodes that they come from. A tree is compiled up to the first
node that has no selector; if there is none, each node that declares something has one rule, and
the rules are in the order of the nodes.
-/

namespace Stylebook

open Selector

/-! ## Rules of visits -/

structure Rule.ComesFrom (rule : Rule) (visit : Visit) : Prop where
  qualified : qualifyLineage visit.lineage = .ok rule.selector
  declarations : rule.declarations = visit.node.declarations
  source : rule.source = visit.path

section

variable {source : Option String} {visits : List Visit} {rules : List Rule}

theorem sources_rulesOfVisits (isOk : rulesOfVisits source visits = .ok rules) :
    rules.map Rule.source = (declaring visits).map Visit.path := by
  induction visits generalizing rules with
  | nil =>
      cases isOk
      rfl
  | cons visit rest induction =>
      rcases (rulesOfVisits_cons_eq_ok_iff source visit rest rules).mp isOk with
        ⟨selector, later, _, laterOk, isRules⟩
      by_cases silent : visit.node.declarations.isEmpty = true
      · rw [if_pos silent] at isRules
        rw [isRules, induction laterOk, declaring, declaring,
          List.filter_cons_of_neg (by simp [silent])]
      · rw [if_neg silent] at isRules
        rw [isRules, List.map_cons, induction laterOk, declaring, declaring,
          List.filter_cons_of_pos (by simp [silent]), List.map_cons]

theorem mem_rulesOfVisits_iff (isOk : rulesOfVisits source visits = .ok rules) {rule : Rule} :
    rule ∈ rules ↔ ∃ visit ∈ declaring visits, rule.ComesFrom visit := by
  induction visits generalizing rules with
  | nil =>
      cases isOk
      simp [declaring]
  | cons visit rest induction =>
      rcases (rulesOfVisits_cons_eq_ok_iff source visit rest rules).mp isOk with
        ⟨selector, later, qualified, laterOk, isRules⟩
      by_cases silent : visit.node.declarations.isEmpty = true
      · rw [if_pos silent] at isRules
        rw [isRules, induction laterOk, declaring, declaring,
          List.filter_cons_of_neg (by simp [silent])]
      · rw [if_neg silent] at isRules
        have here : rule = ⟨selector, visit.node.declarations, visit.path⟩ ↔
            rule.ComesFrom visit := by
          constructor
          · intro isRule
            subst rule
            exact ⟨qualified, rfl, rfl⟩
          · intro comesFrom
            rcases rule with ⟨ruleSelector, declarations, path⟩
            cases qualified.symm.trans comesFrom.qualified
            cases comesFrom.declarations
            cases comesFrom.source
            rfl
        rw [isRules, List.mem_cons, here, induction laterOk, declaring, declaring,
          List.filter_cons_of_pos (by simp [silent]), List.exists_mem_cons_iff]

end

/-! ## Errors -/

theorem Visit.selector_eq_error_iff (source : Option String) (visit : Visit)
    (error : CompileError) :
    visit.selector source = .error error ↔
      ∃ reason, qualifyLineage visit.lineage = .error reason ∧
        error = ⟨reason, visit.breadcrumb, source.map fun file => { file := some file }⟩ := by
  rw [Visit.selector]
  cases qualifyLineage visit.lineage <;> simp [eq_comm]

theorem rulesOfVisits_cons_eq_error_iff (source : Option String) (visit : Visit)
    (rest : List Visit) (error : CompileError) :
    rulesOfVisits source (visit :: rest) = .error error ↔
      visit.selector source = .error error ∨
        (∃ selector, qualifyLineage visit.lineage = .ok selector) ∧
          rulesOfVisits source rest = .error error := by
  simp only [← visit.selector_eq_ok_iff source]
  rw [rulesOfVisits]
  cases visit.selector source with
  | error reason => simp [bind, Except.bind]
  | ok selector =>
      cases rulesOfVisits source rest with
      | error reason => simp [bind, Except.bind]
      | ok rules =>
          by_cases silent : visit.node.declarations.isEmpty = true <;>
            simp [bind, Except.bind, pure, Except.pure, silent]

theorem rulesOfVisits_eq_error_iff (source : Option String) (visits : List Visit)
    (error : CompileError) :
    rulesOfVisits source visits = .error error ↔
      ∃ before visit after, visits = before ++ visit :: after ∧
        (∀ earlier ∈ before, ∃ selector, qualifyLineage earlier.lineage = .ok selector) ∧
          visit.selector source = .error error := by
  induction visits with
  | nil => simp [rulesOfVisits]
  | cons head rest induction =>
      rw [rulesOfVisits_cons_eq_error_iff, induction]
      constructor
      · intro holds
        rcases holds with isError | ⟨qualified, before, visit, after, rfl, earlier, isError⟩
        · exact ⟨[], head, rest, rfl, by simp, isError⟩
        · exact ⟨head :: before, visit, after, rfl,
            List.forall_mem_cons.mpr ⟨qualified, earlier⟩, isError⟩
      · intro holds
        rcases holds with ⟨before, visit, after, parts, earlier, isError⟩
        cases before with
        | nil =>
            cases parts
            exact .inl isError
        | cons first before =>
            cases parts
            rw [List.forall_mem_cons] at earlier
            exact .inr ⟨earlier.1, before, visit, after, rfl, earlier.2, isError⟩

namespace StyleTree

variable {tree : StyleTree} {sheet : Sheet}

theorem compile_eq_error_iff_rules (tree : StyleTree) (error : CompileError) :
    tree.compile = .error error ↔ rulesOfVisits tree.source tree.walk = .error error := by
  rw [compile]
  cases rulesOfVisits tree.source tree.walk <;> simp [bind, Except.bind, pure, Except.pure]

/-- The tree is compiled up to the first node without a selector. -/
theorem compile_eq_error_iff (tree : StyleTree) (error : CompileError) :
    tree.compile = .error error ↔
      ∃ path node reason, tree.node? path = some node ∧
        qualifyLineage (tree.lineage path) = .error reason ∧
        (∀ earlier < path, ∀ other, tree.node? earlier = some other →
          ∃ selector, qualifyLineage (tree.lineage earlier) = .ok selector) ∧
        error = ⟨reason, " > ".intercalate (tree.lineage path),
          tree.source.map fun file => { file := some file }⟩ := by
  have ordered := tree.pairwise_walk
  rw [compile_eq_error_iff_rules, rulesOfVisits_eq_error_iff]
  constructor
  · intro holds
    rcases holds with ⟨before, visit, after, parts, qualified, isError⟩
    rcases (visit.selector_eq_error_iff tree.source error).mp isError with
      ⟨reason, fails, isReason⟩
    have isVisit : visit ∈ tree.walk := by simp [parts]
    rcases mem_walk_iff.mp isVisit with ⟨found, isLineage⟩
    rw [isLineage] at fails
    rw [Visit.breadcrumb, isLineage] at isReason
    refine ⟨visit.path, visit.node, reason, found, fails, ?_, isReason⟩
    intro earlier less other otherFound
    have member : ⟨other, earlier, tree.lineage earlier⟩ ∈ tree.walk :=
      mem_walk_iff.mpr ⟨otherFound, rfl⟩
    rw [parts, List.mem_append, List.mem_cons] at member
    rw [parts, List.pairwise_append, List.pairwise_cons] at ordered
    rcases member with inBefore | same | inAfter
    · exact qualified _ inBefore
    · rw [← congrArg Visit.path same] at less
      exact absurd less (List.lt_irrefl earlier)
    · exact absurd less (List.lt_asymm (ordered.2.1.1 _ inAfter))
  · intro holds
    rcases holds with ⟨path, node, reason, found, fails, earlierQualified, isError⟩
    have isVisit : ⟨node, path, tree.lineage path⟩ ∈ tree.walk := mem_walk_iff.mpr ⟨found, rfl⟩
    rcases List.append_of_mem isVisit with ⟨before, after, parts⟩
    refine ⟨before, _, after, parts, ?_,
      (Visit.selector_eq_error_iff _ _ _).mpr ⟨reason, fails, isError⟩⟩
    intro earlier inBefore
    rw [parts, List.pairwise_append] at ordered
    have less := ordered.2.2 earlier inBefore _ List.mem_cons_self
    have isEarlier : earlier ∈ tree.walk := by simp [parts, inBefore]
    rcases mem_walk_iff.mp isEarlier with ⟨otherFound, isLineage⟩
    rw [isLineage]
    exact earlierQualified earlier.path less earlier.node otherFound

/-! ## Rules of nodes -/

theorem compile_isOk_iff_paths (tree : StyleTree) :
    (∃ sheet, tree.compile = .ok sheet) ↔
      ∀ path node, tree.node? path = some node →
        ∃ selector, qualifyLineage (tree.lineage path) = .ok selector := by
  rw [compile_isOk_iff]
  constructor
  · intro qualified path node found
    exact qualified ⟨node, path, tree.lineage path⟩ (mem_walk_iff.mpr ⟨found, rfl⟩)
  · intro qualified visit isVisit
    rcases mem_walk_iff.mp isVisit with ⟨found, isLineage⟩
    rw [isLineage]
    exact qualified visit.path visit.node found

theorem mem_rules_iff (isOk : tree.compile = .ok sheet) {rule : Rule} :
    rule ∈ sheet.rules ↔
      ∃ visit ∈ tree.walk, visit.node.declarations ≠ [] ∧ rule.ComesFrom visit := by
  rw [mem_rulesOfVisits_iff ((tree.compile_eq_ok_iff sheet).mp isOk)]
  simp only [mem_declaring, and_assoc]

theorem sources_eq (isOk : tree.compile = .ok sheet) :
    sheet.rules.map Rule.source = (declaring tree.walk).map Visit.path :=
  sources_rulesOfVisits ((tree.compile_eq_ok_iff sheet).mp isOk)

theorem sources_increasing (isOk : tree.compile = .ok sheet) :
    (sheet.rules.map Rule.source).Pairwise (· < ·) := by
  rw [sources_eq isOk, List.pairwise_map]
  exact tree.pairwise_walk.filter _

theorem nodup_sources (isOk : tree.compile = .ok sheet) :
    (sheet.rules.map Rule.source).Nodup := by
  refine (sources_increasing isOk).imp ?_
  intro first second less same
  rw [same] at less
  exact List.lt_irrefl second less

theorem mem_of_ruleOf? {path : NodePath} {rule : Rule} (found : sheet.ruleOf? path = some rule) :
    rule ∈ sheet.rules ∧ rule.source = path := by
  rw [Sheet.ruleOf?] at found
  have isSource := List.find?_some found
  exact ⟨List.mem_of_find?_eq_some found, by simpa using isSource⟩

theorem ruleOf?_eq_some_iff (isOk : tree.compile = .ok sheet) {path : NodePath} {rule : Rule} :
    sheet.ruleOf? path = some rule ↔ rule ∈ sheet.rules ∧ rule.source = path := by
  constructor
  · exact mem_of_ruleOf?
  · intro holds
    rcases holds with ⟨member, isSource⟩
    cases found : sheet.ruleOf? path with
    | none =>
        have noRule := List.find?_eq_none.mp found rule member
        simp [isSource] at noRule
    | some other =>
        rcases mem_of_ruleOf? found with ⟨otherMember, otherSource⟩
        rw [List.inj_on_of_nodup_map (nodup_sources isOk) otherMember member
          (otherSource.trans isSource.symm)]

theorem exists_ruleOf?_of_mem_walk (isOk : tree.compile = .ok sheet) {visit : Visit}
    (isVisit : visit ∈ tree.walk) (declares : visit.node.declarations ≠ []) :
    ∃ rule, sheet.ruleOf? visit.path = some rule ∧ rule.ComesFrom visit := by
  rcases (tree.compile_isOk_iff).mp ⟨sheet, isOk⟩ visit isVisit with ⟨selector, qualified⟩
  have comesFrom : Rule.ComesFrom ⟨selector, visit.node.declarations, visit.path⟩ visit :=
    ⟨qualified, rfl, rfl⟩
  exact ⟨_, (ruleOf?_eq_some_iff isOk).mpr
    ⟨(mem_rules_iff isOk).mpr ⟨visit, isVisit, declares, comesFrom⟩, rfl⟩, comesFrom⟩

theorem exists_node_of_mem_rules (isOk : tree.compile = .ok sheet) {rule : Rule}
    (member : rule ∈ sheet.rules) :
    ∃ node, tree.node? rule.source = some node ∧ node.declarations ≠ [] ∧
      rule.declarations = node.declarations ∧
      qualifyLineage (tree.lineage rule.source) = .ok rule.selector := by
  rcases (mem_rules_iff isOk).mp member with ⟨visit, isVisit, declares, comesFrom⟩
  rcases mem_walk_iff.mp isVisit with ⟨found, isLineage⟩
  rw [comesFrom.source, ← isLineage]
  exact ⟨visit.node, found, declares, comesFrom.declarations, comesFrom.qualified⟩

/-- The nodes that declare something have rules, and no others. -/
theorem exists_ruleOf?_iff (isOk : tree.compile = .ok sheet) (path : NodePath) :
    (∃ rule, sheet.ruleOf? path = some rule) ↔
      ∃ node, tree.node? path = some node ∧ node.declarations ≠ [] := by
  constructor
  · intro holds
    rcases holds with ⟨rule, found⟩
    rcases mem_of_ruleOf? found with ⟨member, rfl⟩
    rcases exists_node_of_mem_rules isOk member with ⟨node, isNode, declares, -, -⟩
    exact ⟨node, isNode, declares⟩
  · intro holds
    rcases holds with ⟨node, found, declares⟩
    have isVisit : ⟨node, path, tree.lineage path⟩ ∈ tree.walk := mem_walk_iff.mpr ⟨found, rfl⟩
    rcases exists_ruleOf?_of_mem_walk isOk isVisit declares with ⟨rule, isRule, -⟩
    exact ⟨rule, isRule⟩

end StyleTree

end Stylebook
