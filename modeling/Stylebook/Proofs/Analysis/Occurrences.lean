import Stylebook.Proofs.Analysis.Searches
import Stylebook.Proofs.Analysis.Signatures
import Stylebook.Proofs.Sheet.Rules

/-!
Occurrences and rules. Once a tree has a style sheet, every node at which a pattern occurs has a
rule, under the selector that the occurrence names and with the declarations of the pattern.
-/

namespace Stylebook

open Selector

variable {tree : StyleTree} {sheet : Sheet}

/-- A node with a rule is never named by its breadcrumb. -/
theorem Rule.ComesFrom.occurrence_eq {rule : Rule} {visit : Visit}
    (comesFrom : rule.ComesFrom visit)
    (scope : Visit → Option NodePath) :
    (Sighting.ofVisit scope visit).occurrence = ⟨visit.path, rule.selector⟩ := by
  simp only [Sighting.ofVisit, comesFrom.qualified]

theorem exists_rule_of_mem_search (isOk : tree.compile = .ok sheet) (sized : tree.Sized)
    (collisionFree : tree.CollisionFree) {scope : Visit → Option NodePath} {options : Options}
    {visits : List Visit} (visited : ∀ visit ∈ visits, visit ∈ tree.walk) {pattern : Pattern}
    (found : pattern ∈ search scope options visits) :
    ∀ occurrence ∈ pattern.occurrences, ∃ rule, sheet.ruleOf? occurrence.path = some rule ∧
      rule.selector = occurrence.selector ∧ canonical rule.declarations = pattern.declarations := by
  intro occurrence member
  rcases (mem_search found).1 with ⟨key, standsFor⟩
  rcases standsFor.exists_visit member with ⟨visit, isVisit, isOccurrence, signature⟩
  rcases standsFor.exists_visit_of_declarations with
    ⟨first, isFirst, declarations, firstSignature⟩
  rcases mem_declaring.mp isVisit with ⟨visitMember, declares⟩
  have visitInWalk := visited visit visitMember
  have firstInWalk := visited first (mem_declaring.mp isFirst).1
  rcases StyleTree.exists_ruleOf?_of_mem_walk isOk visitInWalk declares with
    ⟨rule, isRule, comesFrom⟩
  rw [comesFrom.occurrence_eq scope] at isOccurrence
  subst occurrence
  refine ⟨rule, isRule, rfl, ?_⟩
  rw [comesFrom.declarations, ← declarations]
  exact collisionFree.canonical_eq sized visitInWalk firstInWalk
    (signature.trans firstSignature.symm)

/-- A tree has a style sheet exactly if each of its nodes has a selector, and the error is that
of the first node without one. The style sheet has one rule for each node that declares
something, in the order of the nodes, and so it has one wherever a search finds a pattern. -/
theorem sheet_follows_tree (tree : StyleTree) :
    ((∃ sheet, tree.compile = .ok sheet) ↔
      ∀ path node, tree.node? path = some node →
        ∃ selector, qualifyLineage (tree.lineage path) = .ok selector) ∧
    (∀ error, tree.compile = .error error ↔
      ∃ path node reason, tree.node? path = some node ∧
        qualifyLineage (tree.lineage path) = .error reason ∧
        (∀ earlier < path, ∀ other, tree.node? earlier = some other →
          ∃ selector, qualifyLineage (tree.lineage earlier) = .ok selector) ∧
        error = ⟨reason, " > ".intercalate (tree.lineage path),
          tree.source.map fun file => { file := some file }⟩) ∧
    ∀ sheet, tree.compile = .ok sheet →
      (∀ path, (∃ rule, sheet.ruleOf? path = some rule) ↔
        ∃ node, tree.node? path = some node ∧ node.declarations ≠ []) ∧
      (∀ path rule, sheet.ruleOf? path = some rule ↔ rule ∈ sheet.rules ∧ rule.source = path) ∧
      (sheet.rules.map Rule.source).Pairwise (· < ·) ∧
      (∀ rule ∈ sheet.rules, ∃ node, tree.node? rule.source = some node ∧
        node.declarations ≠ [] ∧ rule.declarations = node.declarations ∧
        qualifyLineage (tree.lineage rule.source) = .ok rule.selector) ∧
      (tree.Sized → tree.CollisionFree → ∀ options,
        ∀ pattern ∈ tree.generalPatterns options ++ tree.siblingPatterns options,
          ∀ occurrence ∈ pattern.occurrences, ∃ rule,
            sheet.ruleOf? occurrence.path = some rule ∧ rule.selector = occurrence.selector ∧
              canonical rule.declarations = pattern.declarations) := by
  refine ⟨tree.compile_isOk_iff_paths, tree.compile_eq_error_iff, ?_⟩
  intro sheet isOk
  refine ⟨StyleTree.exists_ruleOf?_iff isOk, ?_, StyleTree.sources_increasing isOk, ?_, ?_⟩
  · exact fun path rule => StyleTree.ruleOf?_eq_some_iff isOk
  · exact fun rule member => StyleTree.exists_node_of_mem_rules isOk member
  · intro sized collisionFree options pattern member
    rcases List.mem_append.mp member with general | among
    · exact exists_rule_of_mem_search isOk sized collisionFree (fun _ => id) general
    · exact exists_rule_of_mem_search isOk sized collisionFree
        (fun _ isVisit => (StyleTree.mem_walkWithin.mp isVisit).1) among

def hoveredPair : StyleTree :=
  ⟨[⟨".a, .b", [⟨"color", "red"⟩], [⟨"&:hover", [⟨"color", "red"⟩], []⟩]⟩,
    ⟨".c", [⟨"color", "blue"⟩], []⟩], none⟩

/-- The pattern occurs in the nested block under both selectors, and there is its rule. -/
theorem sheet_follows_hoveredPair :
    hoveredPair.Sized ∧ hoveredPair.CollisionFree ∧
      ∃ sheet, hoveredPair.compile = .ok sheet ∧
        ∃ pattern ∈ hoveredPair.generalPatterns {},
          pattern.occurrences = [⟨[0], ".a, .b"⟩, ⟨[0, 0], ".a:hover, .b:hover"⟩] ∧
          ∃ rule, sheet.ruleOf? [0, 0] = some rule ∧ rule.selector = ".a:hover, .b:hover" ∧
            canonical rule.declarations = pattern.declarations := by
  have sized : hoveredPair.Sized := by decide +kernel
  have collisionFree : hoveredPair.CollisionFree := by decide +kernel
  have found : ∃ pattern ∈ hoveredPair.generalPatterns {},
      pattern.occurrences = [⟨[0], ".a, .b"⟩, ⟨[0, 0], ".a:hover, .b:hover"⟩] := by
    decide +kernel
  rcases found with ⟨pattern, member, occurrences⟩
  have isOk : hoveredPair.compile = .ok _ := rfl
  have rules := ((sheet_follows_tree hoveredPair).2.2 _ isOk).2.2.2.2 sized collisionFree {}
  refine ⟨sized, collisionFree, _, isOk, pattern, member, occurrences, ?_⟩
  exact rules pattern (List.mem_append_left _ member) ⟨[0, 0], ".a:hover, .b:hover"⟩
    (by simp [occurrences])

end Stylebook
