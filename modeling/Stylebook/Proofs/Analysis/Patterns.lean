import Stylebook.Analysis.Report
import Stylebook.Proofs.Analysis.Searches
import Stylebook.Proofs.Analysis.Similarity

/-!
The patterns of a tree, from both searches. No two of them have one signature, each is frequent
enough, and each occurs only at nodes whose declaration sets have its signature. So no node has
two patterns.
-/

namespace Stylebook

/-! ## Nodes of patterns -/

/-- The pattern occurs, and only at nodes of the tree whose declaration sets have its
signature. -/
structure Pattern.OccursIn (pattern : Pattern) (tree : StyleTree) : Prop where
  occurs : pattern.occurrences ≠ []
  node : ∀ occurrence ∈ pattern.occurrences, ∃ visit ∈ declaring tree.walk,
    visit.path = occurrence.path ∧
      Signature.ofDeclarations visit.node.declarations = pattern.signature

variable {tree : StyleTree}

/-- A node has one declaration set, so patterns that occur at one node have one signature. -/
theorem Pattern.OccursIn.signature_eq {first second : Pattern} (firstOccurs : first.OccursIn tree)
    (secondOccurs : second.OccursIn tree) {occurrence other : Occurrence}
    (inFirst : occurrence ∈ first.occurrences) (inSecond : other ∈ second.occurrences)
    (same : occurrence.path = other.path) : first.signature = second.signature := by
  rcases firstOccurs.node occurrence inFirst with ⟨visit, isVisit, isPath, isSignature⟩
  rcases secondOccurs.node other inSecond with ⟨otherVisit, otherIsVisit, otherPath, otherSignature⟩
  have sameVisit : visit = otherVisit :=
    StyleTree.eq_of_mem_walk_of_path (mem_declaring.mp isVisit).1 (mem_declaring.mp otherIsVisit).1
      (isPath.trans (same.trans otherPath.symm))
  rw [← isSignature, ← otherSignature, sameVisit]

theorem occursIn_of_mem_search {scope : Visit → Option NodePath} {options : Options}
    {visits : List Visit} (visited : ∀ visit ∈ visits, visit ∈ tree.walk) {pattern : Pattern}
    (found : pattern ∈ search scope options visits) : pattern.OccursIn tree := by
  rcases (mem_search found).1 with ⟨key, standsFor⟩
  refine ⟨standsFor.occurrences_ne_nil, ?_⟩
  intro occurrence member
  rcases standsFor.exists_visit member with ⟨visit, isVisit, isOccurrence, isSignature⟩
  rcases mem_declaring.mp isVisit with ⟨visitMember, declares⟩
  exact ⟨visit, mem_declaring.mpr ⟨visited visit visitMember, declares⟩,
    congrArg Occurrence.path isOccurrence, isSignature⟩

/-! ## Merging -/

theorem mem_addOccurrences {occurrences more : List Occurrence} {occurrence : Occurrence}
    (member : occurrence ∈ addOccurrences occurrences more) :
    occurrence ∈ occurrences ∨ occurrence ∈ more := by
  induction more generalizing occurrences with
  | nil => exact .inl member
  | cons head rest induction =>
      rw [addOccurrences] at member
      split at member
      · exact (induction member).imp_right (List.mem_cons_of_mem head)
      · rcases induction member with earlier | later
        · rcases List.mem_append.mp earlier with known | new
          · exact .inl known
          · exact .inr (List.mem_cons.mpr (.inl (List.mem_singleton.mp new)))
        · exact .inr (List.mem_cons_of_mem head later)

theorem subset_addOccurrences (occurrences more : List Occurrence) :
    occurrences ⊆ addOccurrences occurrences more := by
  induction more generalizing occurrences with
  | nil => exact fun _ member => member
  | cons head rest induction =>
      rw [addOccurrences]
      split
      · exact induction occurrences
      · exact List.Subset.trans (List.subset_append_left _ _) (induction (occurrences ++ [head]))

theorem Pattern.OccursIn.absorb {first second : Pattern} (firstOccurs : first.OccursIn tree)
    (secondOccurs : second.OccursIn tree) (same : second.signature = first.signature) :
    (first.absorb second).OccursIn tree where
  occurs := by
    rcases List.exists_mem_of_ne_nil _ firstOccurs.occurs with ⟨occurrence, member⟩
    exact List.ne_nil_of_mem (subset_addOccurrences first.occurrences second.occurrences member)
  node occurrence member := by
    rcases mem_addOccurrences member with inFirst | inSecond
    · exact firstOccurs.node occurrence inFirst
    · replace same : second.signature = (first.absorb second).signature := same
      rw [← same]
      exact secondOccurs.node occurrence inSecond

theorem occursIn_foldl_absorb {signature : Signature} {first : Pattern} {rest : List Pattern}
    (occur : ∀ pattern ∈ first :: rest, pattern.signature = signature ∧ pattern.OccursIn tree) :
    (rest.foldl Pattern.absorb first).signature = signature ∧
      (rest.foldl Pattern.absorb first).OccursIn tree := by
  induction rest generalizing first with
  | nil => exact occur first List.mem_cons_self
  | cons second rest induction =>
      simp only [List.forall_mem_cons] at occur
      rcases occur with ⟨⟨firstSignature, firstOccurs⟩, ⟨secondSignature, secondOccurs⟩, later⟩
      have absorbed := firstOccurs.absorb secondOccurs (secondSignature.trans firstSignature.symm)
      exact induction (List.forall_mem_cons.mpr ⟨⟨firstSignature, absorbed⟩, later⟩)

theorem mergedPattern_eq_some {patterns : List Pattern} {signature : Signature} {merged : Pattern}
    (isMerged : mergedPattern patterns signature = some merged)
    (occur : ∀ pattern ∈ patterns, pattern.OccursIn tree) :
    merged.signature = signature ∧ merged.OccursIn tree := by
  rw [mergedPattern] at isMerged
  cases matching : patterns.filter fun pattern => pattern.signature == signature with
  | nil =>
      rw [matching] at isMerged
      cases isMerged
  | cons first rest =>
      rw [matching] at isMerged
      cases isMerged
      apply occursIn_foldl_absorb
      intro pattern member
      rw [← matching, List.mem_filter, beq_iff_eq] at member
      exact ⟨member.2, occur pattern member.1⟩

section

variable {options : Options} {lists : List (List Pattern)}
  (occur : ∀ pattern ∈ lists.flatten, pattern.OccursIn tree)

include occur

theorem mem_mergePatterns {pattern : Pattern} (member : pattern ∈ mergePatterns options lists) :
    pattern.OccursIn tree ∧ options.minimumFrequency ≤ pattern.frequency := by
  simp only [mergePatterns, Pattern.sorted, List.mem_mergeSort, List.mem_filter,
    List.mem_filterMap, decide_eq_true_iff] at member
  rcases member with ⟨⟨signature, -, isMerged⟩, frequent⟩
  exact ⟨(mergedPattern_eq_some isMerged occur).2, frequent⟩

theorem pairwise_mergePatterns :
    (mergePatterns options lists).Pairwise fun first second =>
      first.signature ≠ second.signature := by
  simp only [mergePatterns, Pattern.sorted]
  rw [(List.mergeSort_perm _ Pattern.le).pairwise_iff fun different => different.symm]
  refine .filter _ ?_
  rw [List.pairwise_filterMap]
  refine (Similarity.nodup_eraseDups _).imp ?_
  intro first second different merged isMerged other otherIsMerged
  rwa [(mergedPattern_eq_some isMerged occur).1, (mergedPattern_eq_some otherIsMerged occur).1]

end

/-! ## The patterns of a tree -/

namespace StyleTree

private theorem occursIn_of_mem_searches (options : Options) : ∀ pattern ∈
    [tree.generalPatterns options, tree.siblingPatterns options].flatten,
      pattern.OccursIn tree := by
  intro pattern member
  simp only [List.flatten_cons, List.flatten_nil, List.append_nil, List.mem_append] at member
  rcases member with general | among
  · exact occursIn_of_mem_search (fun _ => id) general
  · exact occursIn_of_mem_search (fun _ isVisit => (mem_walkWithin.mp isVisit).1) among

theorem mem_patterns {options : Options} {pattern : Pattern}
    (member : pattern ∈ tree.patterns options) :
    pattern.OccursIn tree ∧ options.minimumFrequency ≤ pattern.frequency :=
  mem_mergePatterns (occursIn_of_mem_searches options) member

theorem pairwise_patterns (tree : StyleTree) (options : Options) :
    (tree.patterns options).Pairwise fun first second => first.signature ≠ second.signature :=
  pairwise_mergePatterns (occursIn_of_mem_searches options)

/-! ## Reports -/

def reportOn (tree : StyleTree) (options : Options) (sheet : Sheet) : Report :=
  let patterns := tree.patterns options
  let clusters := clusters options patterns
  { warnings := tree.check.filter fun finding => finding.severity == .warning
    patterns
    clusters
    violations := Naming.violations tree
    metrics := .ofSheet sheet clusters
    performance := .ofSheet sheet }

theorem analyze_eq_ok_iff {options : Options} {report : Report} :
    tree.analyze options = .ok report ↔ hasErrors tree.check = false ∧
      ∃ sheet, tree.compile = .ok sheet ∧ report = tree.reportOn options sheet := by
  rw [analyze]
  by_cases errors : hasErrors tree.check = true
  · simp [errors]
  · rw [if_neg errors, analyzeChecked]
    cases tree.compile with
    | error error => simp
    | ok sheet => simp [errors, reportOn, eq_comm]

end StyleTree

end Stylebook
