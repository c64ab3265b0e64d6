import Stylebook.Proofs.Analysis.Canonical
import Stylebook.Proofs.Analysis.Patterns
import Stylebook.Proofs.Sheet.Compile
import Stylebook.Proofs.Tree.Reordering
import Stylebook.Proofs.Validation.Clean

/-!
The order of declarations in a node does not matter to an analysis: each pass reads them as a
set, counts them, or looks for one that is wrong. Only warnings are listed in their order.
-/

namespace Stylebook

theorem map_eq_map_of_forall₂ {α β : Type} {Related : α → α → Prop} {items others : List α}
    {transform : α → β} (related : List.Forall₂ Related items others)
    (same : ∀ item other, Related item other → transform item = transform other) :
    items.map transform = others.map transform := by
  induction related with
  | nil => rfl
  | cons first _ induction => rw [List.map_cons, List.map_cons, same _ _ first, induction]

/-! ## Findings -/

theorem hasErrors_checkDeclaration (path : String) (seen : List String)
    (declaration : Declaration) : hasErrors (checkDeclaration path seen declaration) =
      ((Text.trimmed declaration.property).isEmpty || Text.isAllBlank declaration.value) := by
  have noErrors : ∀ warning : Finding, warning.severity = .warning →
      ∀ holds : Bool, hasErrors (if holds then [warning] else []) = false := by
    intro warning isWarning holds
    cases holds
    · rfl
    · simp [hasErrors, Finding.isError, isWarning]
  rw [checkDeclaration]
  by_cases unnamed : (Text.trimmed declaration.property).isEmpty = true
  · rw [if_pos unnamed, unnamed]
    rfl
  · rw [if_neg unnamed, hasErrors_append, noErrors _ rfl, Bool.or_false,
      Bool.eq_false_iff.mpr unnamed, Bool.false_or]
    by_cases blank : Text.isAllBlank declaration.value = true
    · rw [if_pos blank, blank]
      rfl
    · rw [if_neg blank, Bool.eq_false_iff.mpr blank]
      cases ValueProblem.ofValue? declaration.value <;> rfl

theorem hasErrors_checkDeclarations (path : String) (seen : List String)
    (declarations : List Declaration) : hasErrors (checkDeclarations path seen declarations) =
      declarations.any fun declaration =>
        (Text.trimmed declaration.property).isEmpty || Text.isAllBlank declaration.value := by
  induction declarations generalizing seen with
  | nil => rfl
  | cons declaration rest induction =>
      rw [checkDeclarations, hasErrors_append, hasErrors_checkDeclaration, induction, List.any_cons]

theorem SiblingsReorder.laterDuplicates_eq {siblings others : List StyleNode}
    (reorder : SiblingsReorder siblings others) (lineage : List String) (identifier : String)
    (first second : Nat) : laterDuplicates lineage identifier first second siblings =
      laterDuplicates lineage identifier first second others := by
  induction siblings generalizing others second with
  | nil =>
      cases reorder
      rfl
  | cons sibling rest induction =>
      cases reorder with
      | cons node later =>
          rw [laterDuplicates, laterDuplicates, node.identifier, induction later]

theorem SiblingsReorder.checkSiblings_eq {siblings others : List StyleNode}
    (reorder : SiblingsReorder siblings others) (lineage : List String) (number : Nat) :
    checkSiblings lineage number siblings = checkSiblings lineage number others := by
  induction siblings generalizing others number with
  | nil =>
      cases reorder
      rfl
  | cons sibling rest induction =>
      cases reorder with
      | cons node later =>
          rw [checkSiblings, checkSiblings, node.identifier, induction later,
            later.laterDuplicates_eq]

namespace Visit.Reorders

variable {visit other : Visit} (reorders : visit.Reorders other)

include reorders

theorem depth_eq : visit.depth = other.depth := congrArg NodePath.depth reorders.path

theorem isRoot_eq : visit.isRoot = other.isRoot := congrArg (· == 1) reorders.depth_eq

theorem breadcrumb_eq : visit.breadcrumb = other.breadcrumb :=
  congrArg (String.intercalate " > ") reorders.lineage

theorem isEmpty_declarations_eq :
    visit.node.declarations.isEmpty = other.node.declarations.isEmpty :=
  reorders.node.declarations.isEmpty_eq

theorem hasErrors_checkNode_eq : hasErrors (checkNode visit) = hasErrors (checkNode other) := by
  have identifiers : checkIdentifier visit = checkIdentifier other := by
    rw [checkIdentifier, checkIdentifier, reorders.node.identifier, reorders.breadcrumb_eq,
      reorders.isRoot_eq]
  have expansions : checkExpansion visit = checkExpansion other := by
    simp only [checkExpansion, tooManySelectors, reorders.lineage, reorders.breadcrumb_eq,
      reorders.node.identifier]
  have uses : ∀ visited : Visit, hasErrors (checkUse visited) = false := by
    intro visited
    rw [checkUse]
    split <;> rfl
  simp only [checkNode, hasErrors_append, uses, hasErrors_checkDeclarations]
  rw [identifiers, expansions, reorders.node.declarations.any_eq]

theorem hasErrors_checkVisit_eq : hasErrors (checkVisit visit) = hasErrors (checkVisit other) := by
  rw [checkVisit, checkVisit, reorders.depth_eq]
  split
  · rfl
  · rw [hasErrors_append, hasErrors_append, reorders.hasErrors_checkNode_eq, reorders.lineage,
      reorders.node.children.checkSiblings_eq]

end Visit.Reorders

theorem StyleTree.Reorders.hasErrors_check_eq {tree other : StyleTree}
    (reorders : tree.Reorders other) : hasErrors tree.check = hasErrors other.check := by
  have visits : ∀ {visits others : List Visit}, List.Forall₂ Visit.Reorders visits others →
      hasErrors (visits.flatMap checkVisit) = hasErrors (others.flatMap checkVisit) := by
    intro visits others related
    induction related with
    | nil => rfl
    | cons first _ induction =>
        rw [List.flatMap_cons, List.flatMap_cons, hasErrors_append, hasErrors_append,
          first.hasErrors_checkVisit_eq, induction]
  rw [check, check, hasErrors_append, hasErrors_append, visits (reorders.walkWithin _),
    SiblingsReorder.checkSiblings_eq reorders [] 1]

/-! ## Patterns -/

theorem Visit.Reorders.sighting_eq {visit other : Visit} (reorders : visit.Reorders other)
    (within : NodePath → Option NodePath) :
    Sighting.ofVisit (fun visit => within visit.path) visit =
      Sighting.ofVisit (fun visit => within visit.path) other := by
  rw [Sighting.ofVisit, Sighting.ofVisit, canonical_eq_of_perm reorders.node.declarations,
    reorders.path, reorders.lineage, reorders.breadcrumb_eq]

theorem search_eq_of_reorders {visits others : List Visit}
    (related : List.Forall₂ Visit.Reorders visits others) (within : NodePath → Option NodePath)
    (options : Options) : search (fun visit => within visit.path) options visits =
      search (fun visit => within visit.path) options others := by
  have same : sightings (fun visit => within visit.path) visits =
      sightings (fun visit => within visit.path) others := by
    rw [sightings, sightings]
    induction related with
    | nil => rfl
    | cons first _ induction =>
        rw [List.filter_cons, List.filter_cons, first.isEmpty_declarations_eq]
        split
        · rw [List.map_cons, List.map_cons, first.sighting_eq within, induction]
        · exact induction
  rw [search, search, same]

theorem StyleTree.Reorders.patterns_eq {tree other : StyleTree} (reorders : tree.Reorders other)
    (options : Options) : tree.patterns options = other.patterns options := by
  have general : tree.generalPatterns options = other.generalPatterns options :=
    search_eq_of_reorders reorders.walk (fun _ => none) options
  have among : tree.siblingPatterns options = other.siblingPatterns options :=
    search_eq_of_reorders (reorders.walkWithin _) NodePath.parent? options
  rw [patterns, patterns, general, among]

/-! ## Class names -/

mutual

theorem StyleNode.Reorders.nodeViolations_eq (above : List String) (parentClass : Option String)
    {node other : StyleNode} : node.Reorders other →
      Naming.nodeViolations above parentClass node = Naming.nodeViolations above parentClass other
  | .node _ siblings => by
      rw [Naming.nodeViolations, Naming.nodeViolations]
      simp only [siblings.siblingViolations_eq]

theorem SiblingsReorder.siblingViolations_eq (above : List String) (parentClass : Option String)
    {siblings others : List StyleNode} : SiblingsReorder siblings others →
      Naming.siblingViolations above parentClass siblings =
        Naming.siblingViolations above parentClass others
  | .nil => rfl
  | .cons first later => by
      rw [Naming.siblingViolations, Naming.siblingViolations, first.nodeViolations_eq,
        later.siblingViolations_eq]

end

/-! ## Style sheets -/

structure Rule.Reorders (rule other : Rule) : Prop where
  selector : rule.selector = other.selector
  declarations : rule.declarations.Perm other.declarations
  source : rule.source = other.source

theorem exists_rulesOfVisits_of_reorders {visits others : List Visit}
    (related : List.Forall₂ Visit.Reorders visits others) {source : Option String}
    {rules : List Rule} (isOk : rulesOfVisits source visits = .ok rules)
    (otherSource : Option String) : ∃ otherRules,
      rulesOfVisits otherSource others = .ok otherRules ∧
        List.Forall₂ Rule.Reorders rules otherRules := by
  induction related generalizing rules with
  | nil =>
      cases isOk
      exact ⟨[], rfl, .nil⟩
  | cons first _ induction =>
      rcases (rulesOfVisits_cons_eq_ok_iff _ _ _ _).mp isOk with
        ⟨selector, later, qualified, laterOk, rfl⟩
      rcases induction laterOk with ⟨otherLater, otherOk, related⟩
      rw [first.lineage] at qualified
      refine ⟨_, (rulesOfVisits_cons_eq_ok_iff _ _ _ _).mpr
        ⟨selector, otherLater, qualified, otherOk, rfl⟩, ?_⟩
      rw [first.isEmpty_declarations_eq]
      split
      · exact related
      · exact .cons ⟨rfl, first.node.declarations, first.path⟩ related

section

variable {rules others : List Rule} (related : List.Forall₂ Rule.Reorders rules others)

include related

theorem declarationCount_eq_of_reorders :
    (Sheet.mk rules).declarationCount = (Sheet.mk others).declarationCount := by
  rw [Sheet.declarationCount, Sheet.declarationCount]
  induction related with
  | nil => rfl
  | cons first _ induction =>
      rw [List.foldr_cons, List.foldr_cons, first.declarations.length_eq, induction]

theorem forall₂_filter_source (isWanted : NodePath → Bool) :
    List.Forall₂ Rule.Reorders (rules.filter fun rule => isWanted rule.source)
      (others.filter fun rule => isWanted rule.source) := by
  refine List.rel_filter ?_ related
  intro rule other reorders
  simp only [reorders.source]

theorem Metrics.ofSheet_eq_of_reorders (found : List Cluster) :
    Metrics.ofSheet ⟨rules⟩ found = Metrics.ofSheet ⟨others⟩ found := by
  have sources : rules.map Rule.source = others.map Rule.source :=
    map_eq_map_of_forall₂ related fun _ _ reorders => reorders.source
  have weights : rules.map Rule.weight = others.map Rule.weight := by
    refine map_eq_map_of_forall₂ related fun rule other reorders => ?_
    rw [Rule.weight, Rule.weight, reorders.selector]
  have isEmpty : (Sheet.mk rules).isEmpty = (Sheet.mk others).isEmpty := by
    cases related <;> rfl
  have covered := declarationCount_eq_of_reorders (forall₂_filter_source related fun source =>
    ((found.flatMap Cluster.occurrences).map Occurrence.path).contains source)
  rw [ofSheet, ofSheet, isEmpty]
  simp only [Sheet.size, sources, weights, declarationCount_eq_of_reorders related, covered,
    related.length_eq]

theorem Performance.ofSheet_eq_of_reorders :
    Performance.ofSheet ⟨rules⟩ = Performance.ofSheet ⟨others⟩ := by
  rw [ofSheet, ofSheet]
  generalize ({} : Performance) = start
  induction related generalizing start with
  | nil => rfl
  | cons first _ induction =>
      rw [List.foldl_cons, List.foldl_cons, first.selector, first.declarations.length_eq, induction]

end

/-! ## Reports -/

theorem StyleTree.Reorders.exists_analyze_eq_ok {tree other : StyleTree}
    (reorders : tree.Reorders other) {options : Options} {report : Report}
    (isOk : tree.analyze options = .ok report) :
    ∃ warnings, other.analyze options = .ok { report with warnings } := by
  rcases analyze_eq_ok_iff.mp isOk with ⟨clean, sheet, compiled, rfl⟩
  rw [compile_eq_ok_iff] at compiled
  rcases exists_rulesOfVisits_of_reorders reorders.walk compiled other.source with
    ⟨otherRules, otherCompiled, related⟩
  rw [reorders.hasErrors_check_eq] at clean
  refine ⟨(other.reportOn options ⟨otherRules⟩).warnings, analyze_eq_ok_iff.mpr
    ⟨clean, ⟨otherRules⟩, (other.compile_eq_ok_iff _).mpr otherCompiled, ?_⟩⟩
  have patterns := reorders.patterns_eq options
  have violations : Naming.violations tree = Naming.violations other :=
    SiblingsReorder.siblingViolations_eq [] none reorders
  simp only [reportOn, patterns, violations, Metrics.ofSheet_eq_of_reorders related,
    Performance.ofSheet_eq_of_reorders related]

/-- If trees differ only in the order of declarations in their nodes, then both have a report or
neither has, and the reports differ in their warnings at most. -/
theorem analyze_of_reorders {tree other : StyleTree} (reorders : tree.Reorders other)
    (options : Options) :
    ((∃ report, tree.analyze options = .ok report) ↔
        ∃ report, other.analyze options = .ok report) ∧
      ∀ report otherReport, tree.analyze options = .ok report →
        other.analyze options = .ok otherReport →
        otherReport = { report with warnings := otherReport.warnings } := by
  refine ⟨⟨?_, ?_⟩, ?_⟩
  · rintro ⟨report, isOk⟩
    rcases reorders.exists_analyze_eq_ok isOk with ⟨warnings, otherIsOk⟩
    exact ⟨_, otherIsOk⟩
  · rintro ⟨report, isOk⟩
    rcases reorders.symm.exists_analyze_eq_ok isOk with ⟨warnings, otherIsOk⟩
    exact ⟨_, otherIsOk⟩
  · intro report otherReport isOk otherIsOk
    rcases reorders.exists_analyze_eq_ok isOk with ⟨warnings, same⟩
    rw [otherIsOk, Except.ok.injEq] at same
    rw [same]

def colorTwiceFirst : StyleTree :=
  ⟨[⟨".card", [⟨"color", "red"⟩, ⟨"color", "red"⟩, ⟨"margin", "0"⟩, ⟨"margin", "0"⟩], []⟩], none⟩

def marginTwiceFirst : StyleTree :=
  ⟨[⟨".card", [⟨"margin", "0"⟩, ⟨"margin", "0"⟩, ⟨"color", "red"⟩, ⟨"color", "red"⟩], []⟩], none⟩

theorem analyze_of_colorTwiceFirst :
    colorTwiceFirst.Reorders marginTwiceFirst ∧
      ∃ report otherReport, colorTwiceFirst.analyze {} = .ok report ∧
        marginTwiceFirst.analyze {} = .ok otherReport ∧
        otherReport = { report with warnings := otherReport.warnings } ∧
        otherReport.warnings ≠ report.warnings := by
  have reorders : colorTwiceFirst.Reorders marginTwiceFirst := .cons (.node (by decide) .nil) .nil
  have compiled : colorTwiceFirst.compile = .ok _ := rfl
  have otherCompiled : marginTwiceFirst.compile = .ok _ := rfl
  have isOk := StyleTree.analyze_eq_ok_iff.mpr
    ⟨by decide +kernel, _, compiled, Eq.refl (colorTwiceFirst.reportOn {} _)⟩
  have otherIsOk := StyleTree.analyze_eq_ok_iff.mpr
    ⟨by decide +kernel, _, otherCompiled, Eq.refl (marginTwiceFirst.reportOn {} _)⟩
  refine ⟨reorders, _, _, isOk, otherIsOk, (analyze_of_reorders reorders {}).2 _ _ isOk otherIsOk,
    ?_⟩
  decide +kernel

end Stylebook
