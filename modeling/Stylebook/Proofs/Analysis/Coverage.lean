import Mathlib.Algebra.Order.BigOperators.Group.List
import Stylebook.Proofs.Analysis.Clusters
import Stylebook.Proofs.Analysis.Patterns
import Stylebook.Proofs.Sheet.Rules

/-!
What a report counts. Its clusters hold each of its patterns once, and no node is counted for
two of them, so nothing is cut off where a metric is the difference of two counts.
-/

namespace Stylebook

/-! ## Members of clusters -/

section

variable {options : Options} {patterns : List Pattern}

/-- A pattern that is frequent enough is reported, be it alone or not. -/
theorem isReportedGroup_of_frequent
    (frequent : ∀ pattern ∈ patterns, options.minimumFrequency ≤ pattern.frequency)
    {group : List Nat} (bounded : ∀ position ∈ group, position < patterns.length) :
    isReportedGroup options patterns group = true := by
  match group with
  | [] => rfl
  | [position] =>
      have isPosition := bounded position List.mem_cons_self
      rw [isReportedGroup, List.getElem?_eq_getElem isPosition, Option.any_some, decide_eq_true_iff]
      exact frequent _ (List.getElem_mem isPosition)
  | position :: other :: rest => rfl

theorem map_some_members {groups : List (List Nat)} {found : List Cluster}
    (pairs : List.Forall₂ (ClusterOf patterns) groups found) :
    (found.flatMap Cluster.members).map some =
      groups.flatten.map fun position => patterns[position]? := by
  induction pairs with
  | nil => rfl
  | cons isCluster _ induction =>
      rw [List.flatMap_cons, List.map_append, isCluster.members, induction, List.flatten_cons,
        List.map_append]

/-- Clusters of patterns that are all frequent enough hold each of these once. -/
theorem members_perm (valid : options.Valid)
    (frequent : ∀ pattern ∈ patterns, options.minimumFrequency ≤ pattern.frequency) :
    ((clusters options patterns).flatMap Cluster.members).Perm patterns := by
  have grouping := grouping_finalGroups options patterns
  have allReported : (finalGroups options patterns).filter (isReportedGroup options patterns) =
      finalGroups options patterns := by
    apply List.filter_eq_self.mpr
    intro group member
    exact isReportedGroup_of_frequent frequent (grouping.lt member)
  have inOrder : (List.range patterns.length).map (fun position => patterns[position]?) =
      patterns.map some := by
    apply List.ext_getElem <;> simp
  rcases exists_reportedGroups valid patterns with ⟨reported, perm, pairs⟩
  rw [allReported] at perm
  have held : (((clusters options patterns).flatMap Cluster.members).map some).Perm
      (patterns.map some) := by
    rw [map_some_members pairs, ← inOrder]
    exact (perm.flatten.trans grouping.partition).map _
  simpa using held.filterMap id

end

/-! ## Paths of clusters -/

namespace Cluster

def paths (cluster : Cluster) : List NodePath := (cluster.members.flatMap Pattern.paths).dedup

theorem mem_paths {cluster : Cluster} {path : NodePath} :
    path ∈ cluster.paths ↔ ∃ pattern ∈ cluster.members, path ∈ pattern.paths := by
  rw [paths, List.mem_dedup, List.mem_flatMap]

private theorem mem_map_distinctPaths {seen : List NodePath} {all : List Occurrence}
    {path : NodePath} : path ∈ (distinctPaths seen all).map Occurrence.path ↔
      path ∈ all.map Occurrence.path ∧ path ∉ seen := by
  induction all generalizing seen with
  | nil => simp [distinctPaths]
  | cons head rest induction =>
      rw [distinctPaths]
      by_cases known : seen.contains head.path = true
      · have isSeen : head.path ∈ seen := by simpa using known
        rw [if_pos known, induction, List.map_cons, List.mem_cons]
        constructor
        · exact fun holds => ⟨.inr holds.1, holds.2⟩
        · intro holds
          rcases holds with ⟨rfl | later, unseen⟩
          · exact absurd isSeen unseen
          · exact ⟨later, unseen⟩
      · have isNew : head.path ∉ seen := by simpa using known
        rw [if_neg known, List.map_cons, List.mem_cons, induction, List.map_cons, List.mem_cons,
          List.mem_cons, not_or]
        constructor
        · intro holds
          rcases holds with rfl | ⟨later, -, unseen⟩
          · exact ⟨.inl rfl, isNew⟩
          · exact ⟨.inr later, unseen⟩
        · intro holds
          by_cases here : path = head.path
          · exact .inl here
          · exact .inr ⟨holds.1.resolve_left here, here, holds.2⟩

private theorem nodup_map_distinctPaths (seen : List NodePath) (all : List Occurrence) :
    ((distinctPaths seen all).map Occurrence.path).Nodup := by
  induction all generalizing seen with
  | nil => exact .nil
  | cons head rest induction =>
      rw [distinctPaths]
      split
      · exact induction seen
      · rw [List.map_cons, List.nodup_cons, mem_map_distinctPaths]
        exact ⟨fun holds => holds.2 List.mem_cons_self, induction _⟩

theorem map_path_occurrences_perm (cluster : Cluster) :
    (cluster.occurrences.map Occurrence.path).Perm cluster.paths := by
  have distinct : (cluster.occurrences.map Occurrence.path).Nodup := nodup_map_distinctPaths _ _
  refine (List.perm_ext_iff_of_nodup distinct (List.nodup_dedup _)).mpr ?_
  intro path
  rw [occurrences, mem_map_distinctPaths, List.map_flatMap]
  simp [Pattern.paths]

end Cluster

/-! ## Metrics of a style sheet -/

namespace Metrics

variable (sheet : Sheet) (found : List Cluster)

theorem selectorCount_ofSheet : (ofSheet sheet found).selectorCount = sheet.rules.length := by
  rw [ofSheet]
  split
  next empty => simp [List.isEmpty_iff.mp empty]
  next => rfl

theorem estimatedSelectorCount_ofSheet : (ofSheet sheet found).estimatedSelectorCount =
    sheet.rules.length - (found.map (savedRules (sheet.rules.map Rule.source))).sum := by
  rw [ofSheet]
  split
  next empty => simp [List.isEmpty_iff.mp empty]
  next => rw [List.sum_eq_foldr, List.foldr_map]; rfl

theorem totalDeclarations_ofSheet : (ofSheet sheet found).totalDeclarations =
    (sheet.rules.map fun rule => rule.declarations.length).sum := by
  rw [ofSheet]
  split
  next empty => simp [List.isEmpty_iff.mp empty]
  next => rw [List.sum_eq_foldr, List.foldr_map]; rfl

theorem coveredDeclarations_ofSheet : (ofSheet sheet found).coveredDeclarations =
    ((sheet.rules.filter fun rule =>
      ((found.flatMap Cluster.occurrences).map Occurrence.path).contains rule.source).map
        fun rule => rule.declarations.length).sum := by
  rw [ofSheet]
  split
  next empty => simp [List.isEmpty_iff.mp empty]
  next => rw [List.sum_eq_foldr, List.foldr_map]; rfl

end Metrics

theorem savedRules_eq {sources : List NodePath} {cluster : Cluster}
    (compiled : ∀ path ∈ cluster.paths, path ∈ sources) :
    savedRules sources cluster = cluster.paths.length - 1 := by
  have perm := cluster.map_path_occurrences_perm
  have allCompiled : cluster.occurrences.filter
      (fun occurrence => sources.contains occurrence.path) = cluster.occurrences := by
    apply List.filter_eq_self.mpr
    intro occurrence member
    rw [List.contains_iff_mem]
    exact compiled _ (perm.mem_iff.mp (List.mem_map_of_mem member))
  rw [savedRules, allCompiled, ← perm.length_eq, List.length_map]

/-! ## Reports -/

def StyleTree.declarationCount (tree : StyleTree) (path : NodePath) : Nat :=
  ((tree.node? path).map fun node => node.declarations.length).getD 0

/-- What a report on a tree with a style sheet counts: its clusters hold its patterns once each,
occur at different nodes, and these have rules. -/
structure Report.Accounts (report : Report) (tree : StyleTree) (sheet : Sheet) : Prop where
  members : (report.clusters.flatMap Cluster.members).Perm report.patterns
  distinct : (report.patterns.map Pattern.signature).Nodup
  apart : report.clusters.Pairwise fun first second => first.paths.Disjoint second.paths
  compiled : ∀ cluster ∈ report.clusters, ∀ path ∈ cluster.paths,
    ∃ rule, sheet.ruleOf? path = some rule
  occurs : ∀ cluster ∈ report.clusters, 0 < cluster.paths.length
  rules : report.metrics.selectorCount = sheet.rules.length
  saved : report.metrics.selectorCount = report.metrics.estimatedSelectorCount +
    (report.clusters.map fun cluster => cluster.paths.length - 1).sum
  estimated : report.clusters.length ≤ report.metrics.estimatedSelectorCount
  covered : report.metrics.coveredDeclarations =
    ((report.patterns.flatMap Pattern.paths).dedup.map tree.declarationCount).sum
  covered_le : report.metrics.coveredDeclarations ≤ report.metrics.totalDeclarations

/-- A node at which a pattern occurs declares something, so it has a rule. -/
theorem Pattern.OccursIn.exists_rule {pattern : Pattern} {tree : StyleTree}
    (occursIn : pattern.OccursIn tree) {sheet : Sheet} (isOk : tree.compile = .ok sheet)
    {path : NodePath} (onPath : path ∈ pattern.paths) :
    ∃ rule, sheet.ruleOf? path = some rule := by
  rcases List.mem_map.mp onPath with ⟨occurrence, occurs, rfl⟩
  rcases occursIn.node occurrence occurs with ⟨visit, isVisit, isPath, -⟩
  rcases mem_declaring.mp isVisit with ⟨visitMember, declares⟩
  rcases StyleTree.exists_ruleOf?_of_mem_walk isOk visitMember declares with ⟨rule, isRule, -⟩
  exact ⟨rule, isPath ▸ isRule⟩

theorem StyleTree.declarationCount_source {tree : StyleTree} {sheet : Sheet}
    (isOk : tree.compile = .ok sheet) {rule : Rule} (member : rule ∈ sheet.rules) :
    tree.declarationCount rule.source = rule.declarations.length := by
  rcases exists_node_of_mem_rules isOk member with ⟨node, isNode, -, isRule, -⟩
  rw [declarationCount, isNode, isRule]
  rfl

/-- The nodes that clusters occur at are those that their members occur at. -/
theorem mem_map_path_occurrences {found : List Cluster} {patterns : List Pattern}
    (perm : (found.flatMap Cluster.members).Perm patterns) {path : NodePath} :
    path ∈ (found.flatMap Cluster.occurrences).map Occurrence.path ↔
      path ∈ patterns.flatMap Pattern.paths := by
  rw [← (perm.flatMap_right Pattern.paths).mem_iff, List.map_flatMap, List.flatMap_assoc,
    List.mem_flatMap, List.mem_flatMap]
  simp only [fun cluster : Cluster => cluster.map_path_occurrences_perm.mem_iff (a := path),
    Cluster.mem_paths, List.mem_flatMap]

section

variable {tree : StyleTree} {sheet : Sheet} {found : List Cluster} {patterns : List Pattern}
  (perm : (found.flatMap Cluster.members).Perm patterns)
  (occur : ∀ pattern ∈ patterns, pattern.OccursIn tree)

include perm occur

theorem occursIn_of_mem_members {cluster : Cluster} (isCluster : cluster ∈ found)
    {pattern : Pattern} (member : pattern ∈ cluster.members) : pattern.OccursIn tree :=
  occur pattern (perm.mem_iff.mp (List.mem_flatMap.mpr ⟨cluster, isCluster, member⟩))

/-- Different clusters hold patterns of different signatures, which no node has both. -/
theorem pairwise_disjoint_paths
    (different : patterns.Pairwise fun first second => first.signature ≠ second.signature) :
    found.Pairwise fun first second => first.paths.Disjoint second.paths := by
  rw [← perm.pairwise_iff fun different => different.symm, List.pairwise_flatMap] at different
  refine different.2.imp_of_mem ?_
  intro first second isFirst isSecond apart path inFirst inSecond
  rcases Cluster.mem_paths.mp inFirst with ⟨pattern, member, onPath⟩
  rcases Cluster.mem_paths.mp inSecond with ⟨other, otherMember, otherOnPath⟩
  rcases List.mem_map.mp onPath with ⟨occurrence, occurs, isPath⟩
  rcases List.mem_map.mp otherOnPath with ⟨otherOccurrence, otherOccurs, otherIsPath⟩
  exact apart pattern member other otherMember
    ((occursIn_of_mem_members perm occur isFirst member).signature_eq
      (occursIn_of_mem_members perm occur isSecond otherMember) occurs otherOccurs
      (isPath.trans otherIsPath.symm))

theorem exists_rule_of_mem_paths (isOk : tree.compile = .ok sheet) {cluster : Cluster}
    (isCluster : cluster ∈ found) {path : NodePath} (onPath : path ∈ cluster.paths) :
    ∃ rule, sheet.ruleOf? path = some rule := by
  rcases Cluster.mem_paths.mp onPath with ⟨pattern, member, patternOnPath⟩
  exact (occursIn_of_mem_members perm occur isCluster member).exists_rule isOk patternOnPath

theorem mem_sources_of_mem_paths (isOk : tree.compile = .ok sheet) {cluster : Cluster}
    (isCluster : cluster ∈ found) : ∀ path ∈ cluster.paths, path ∈ sheet.rules.map Rule.source := by
  intro path onPath
  rcases exists_rule_of_mem_paths perm occur isOk isCluster onPath with ⟨rule, isRule⟩
  rcases StyleTree.mem_of_ruleOf? isRule with ⟨member, rfl⟩
  exact List.mem_map_of_mem member

/-- There are no fewer rules than nodes that belong to clusters. -/
theorem sum_length_paths_le (isOk : tree.compile = .ok sheet)
    (different : patterns.Pairwise fun first second => first.signature ≠ second.signature) :
    (found.map fun cluster => cluster.paths.length).sum ≤ sheet.rules.length := by
  have distinct : (found.flatMap Cluster.paths).Nodup :=
    List.nodup_flatMap.mpr
      ⟨fun _ _ => List.nodup_dedup _, pairwise_disjoint_paths perm occur different⟩
  have compiled : found.flatMap Cluster.paths ⊆ sheet.rules.map Rule.source := by
    intro path member
    rcases List.mem_flatMap.mp member with ⟨cluster, isCluster, onPath⟩
    exact mem_sources_of_mem_paths perm occur isOk isCluster path onPath
  have counted := distinct.length_le_of_subset compiled
  rwa [List.length_flatMap, List.length_map] at counted

theorem sources_of_clustered_perm (isOk : tree.compile = .ok sheet) :
    ((sheet.rules.filter fun rule =>
      ((found.flatMap Cluster.occurrences).map Occurrence.path).contains rule.source).map
        Rule.source).Perm (patterns.flatMap Pattern.paths).dedup := by
  have distinct : (sheet.rules.map Rule.source).Nodup := StyleTree.nodup_sources isOk
  refine (List.perm_ext_iff_of_nodup (distinct.sublist (List.filter_sublist.map _))
    (List.nodup_dedup _)).mpr ?_
  intro path
  rw [List.mem_dedup, ← mem_map_path_occurrences perm, List.mem_map]
  constructor
  · intro holds
    rcases holds with ⟨rule, member, rfl⟩
    exact List.contains_iff_mem.mp (List.mem_filter.mp member).2
  · intro clustered
    rcases List.mem_flatMap.mp ((mem_map_path_occurrences perm).mp clustered) with
      ⟨pattern, member, onPath⟩
    rcases (occur pattern member).exists_rule isOk onPath with ⟨rule, isRule⟩
    rcases StyleTree.mem_of_ruleOf? isRule with ⟨isMember, rfl⟩
    exact ⟨rule, List.mem_filter.mpr ⟨isMember, List.contains_iff_mem.mpr clustered⟩, rfl⟩

/-- The declarations that are covered are those of the nodes at which patterns occur. -/
theorem coveredDeclarations_eq (isOk : tree.compile = .ok sheet) :
    (Metrics.ofSheet sheet found).coveredDeclarations =
      ((patterns.flatMap Pattern.paths).dedup.map tree.declarationCount).sum := by
  rw [Metrics.coveredDeclarations_ofSheet,
    ← ((sources_of_clustered_perm perm occur isOk).map tree.declarationCount).sum_eq, List.map_map]
  refine congrArg List.sum (List.map_congr_left fun rule member => ?_)
  exact (StyleTree.declarationCount_source isOk (List.mem_of_mem_filter member)).symm

end

theorem sum_sub_one_add_length {counts : List Nat} (positive : ∀ count ∈ counts, 0 < count) :
    (counts.map (· - 1)).sum + counts.length = counts.sum := by
  induction counts with
  | nil => rfl
  | cons count rest induction =>
      rw [List.forall_mem_cons] at positive
      have later := induction positive.2
      rw [List.map_cons, List.sum_cons, List.sum_cons, List.length_cons]
      omega

theorem members_ne_nil {options : Options} {patterns : List Pattern} {cluster : Cluster}
    (isCluster : cluster ∈ clusters options patterns) : cluster.members ≠ [] := by
  rw [clusters_eq, List.mem_mergeSort, List.mem_filter, List.mem_filterMap] at isCluster
  rcases isCluster with ⟨⟨group, -, isResult⟩, -⟩
  rcases Option.map_eq_some_iff.mp isResult with ⟨representative, isRepresentative, rfl⟩
  intro empty
  replace empty : (group.filterMap fun position => patterns[position]?) = [] := empty
  rw [empty] at isRepresentative
  cases isRepresentative

theorem length_paths_pos {cluster : Cluster} {tree : StyleTree} (inhabited : cluster.members ≠ [])
    (occur : ∀ pattern ∈ cluster.members, pattern.OccursIn tree) : 0 < cluster.paths.length := by
  rcases List.exists_mem_of_ne_nil _ inhabited with ⟨pattern, member⟩
  rcases List.exists_mem_of_ne_nil _ (occur pattern member).occurs with ⟨occurrence, occurs⟩
  exact List.length_pos_of_mem
    (Cluster.mem_paths.mpr ⟨pattern, member, List.mem_map_of_mem occurs⟩)

theorem StyleTree.analyze_eq_ok {tree : StyleTree} {options : Options} {report : Report}
    (isOk : tree.analyze options = .ok report) :
    ∃ sheet, tree.compile = .ok sheet ∧ report.patterns = tree.patterns options ∧
      report.clusters = clusters options report.patterns ∧
      report.metrics = .ofSheet sheet report.clusters := by
  rcases analyze_eq_ok_iff.mp isOk with ⟨-, sheet, compiled, rfl⟩
  exact ⟨sheet, compiled, rfl, rfl, rfl⟩

theorem StyleTree.exists_analyze_eq_ok {tree : StyleTree} {sheet : Sheet}
    (clean : hasErrors tree.check = false) (compiled : tree.compile = .ok sheet)
    (options : Options) : ∃ report, tree.analyze options = .ok report :=
  ⟨tree.reportOn options sheet, analyze_eq_ok_iff.mpr ⟨clean, sheet, compiled, rfl⟩⟩

/-- Every report accounts for its patterns and for the nodes that have them. -/
theorem accounts_of_analyze {tree : StyleTree} {options : Options} (valid : options.Valid)
    {report : Report} (isOk : tree.analyze options = .ok report) :
    ∃ sheet, tree.compile = .ok sheet ∧ report.Accounts tree sheet := by
  rcases StyleTree.analyze_eq_ok isOk with ⟨sheet, compiled, patterns, found, metrics⟩
  have occur : ∀ pattern ∈ report.patterns, pattern.OccursIn tree := by
    rw [patterns]
    exact fun pattern member => (StyleTree.mem_patterns member).1
  have frequent : ∀ pattern ∈ report.patterns, options.minimumFrequency ≤ pattern.frequency := by
    rw [patterns]
    exact fun pattern member => (StyleTree.mem_patterns member).2
  have different :
      report.patterns.Pairwise fun first second => first.signature ≠ second.signature := by
    rw [patterns]
    exact tree.pairwise_patterns options
  have perm : (report.clusters.flatMap Cluster.members).Perm report.patterns := by
    rw [found]
    exact members_perm valid frequent
  have occurs : ∀ cluster ∈ report.clusters, 0 < cluster.paths.length := by
    intro cluster isCluster
    refine length_paths_pos ?_ fun pattern member =>
      occursIn_of_mem_members perm occur isCluster member
    rw [found] at isCluster
    exact members_ne_nil isCluster
  have saved : report.clusters.map (savedRules (sheet.rules.map Rule.source)) =
      report.clusters.map fun cluster => cluster.paths.length - 1 :=
    List.map_congr_left fun cluster isCluster =>
      savedRules_eq (mem_sources_of_mem_paths perm occur compiled isCluster)
  have fewer := sum_length_paths_le perm occur compiled different
  have counted := sum_sub_one_add_length (List.forall_mem_map.mpr occurs)
  rw [List.map_map, List.length_map] at counted
  have subtracted : (report.clusters.map ((· - 1) ∘ fun cluster => cluster.paths.length)).sum =
      (report.clusters.map fun cluster => cluster.paths.length - 1).sum := rfl
  refine ⟨sheet, compiled, perm, List.pairwise_map.mpr different,
    pairwise_disjoint_paths perm occur different,
    fun cluster isCluster path onPath =>
      exists_rule_of_mem_paths perm occur compiled isCluster onPath,
    occurs, ?_, ?_, ?_, ?_, ?_⟩
  · rw [metrics, Metrics.selectorCount_ofSheet]
  · rw [metrics, Metrics.selectorCount_ofSheet, Metrics.estimatedSelectorCount_ofSheet, saved]
    omega
  · rw [metrics, Metrics.estimatedSelectorCount_ofSheet, saved]
    omega
  · rw [metrics]
    exact coveredDeclarations_eq perm occur compiled
  · rw [metrics, Metrics.coveredDeclarations_ofSheet, Metrics.totalDeclarations_ofSheet]
    exact (List.filter_sublist.map _).sum_le_sum fun _ _ => Nat.zero_le _

/-- Items of a list that declare the same, and a nested block that does so too. -/
def repeatedItems : StyleTree :=
  ⟨[⟨".list", [⟨"margin", "0"⟩],
    [⟨".first", [⟨"color", "red"⟩], [⟨"&:hover", [⟨"color", "red"⟩], []⟩]⟩,
      ⟨".last", [⟨"color", "red"⟩], []⟩]⟩], none⟩

/-- Of the four declarations three are covered, each of them once although two of the nodes are
found by both searches. -/
theorem accounts_of_repeatedItems :
    ({} : Options).Valid ∧ ∃ report, repeatedItems.analyze {} = .ok report ∧
      report.metrics.selectorCount = 4 ∧ report.metrics.coveredDeclarations = 3 ∧
      (report.clusters.flatMap Cluster.members).length = 1 := by
  have clean : hasErrors repeatedItems.check = false := by decide +kernel
  have compiled : repeatedItems.compile = .ok _ := rfl
  rcases StyleTree.exists_analyze_eq_ok clean compiled {} with ⟨report, analyzed⟩
  rcases StyleTree.analyze_eq_ok analyzed with ⟨-, -, patterns, -, -⟩
  rcases accounts_of_analyze Options.valid_default analyzed with ⟨sheet, isSheet, accounts⟩
  refine ⟨Options.valid_default, report, analyzed, ?_, ?_, ?_⟩
  · rw [accounts.rules, ← Except.ok.inj (compiled.symm.trans isSheet)]
    rfl
  · rw [accounts.covered, patterns]
    decide +kernel
  · rw [accounts.members.length_eq, patterns]
    decide +kernel

end Stylebook
