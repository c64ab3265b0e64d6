import Mathlib.Algebra.BigOperators.Group.List.Basic
import Stylebook.Analysis.Report
import Stylebook.Proofs.Analysis.Ranking

/-!
Both searches as one. What the search among siblings finds is found among all nodes as well, and
at no fewer of them. So to merge the two adds no pattern and no occurrence: each pattern is only
counted again for every group of siblings that has it.
-/

namespace Stylebook

/-! ## Merging -/

theorem addOccurrences_of_known {occurrences more : List Occurrence}
    (known : ∀ occurrence ∈ more, occurrence.path ∈ occurrences.map Occurrence.path) :
    addOccurrences occurrences more = occurrences := by
  induction more with
  | nil => rfl
  | cons occurrence rest induction =>
      rw [List.forall_mem_cons] at known
      rcases List.mem_map.mp known.1 with ⟨same, member, samePath⟩
      have isKnown : (occurrences.any fun known => known.path == occurrence.path) = true :=
        List.any_eq_true.mpr ⟨same, member, beq_iff_eq.mpr samePath⟩
      rw [addOccurrences, if_pos isKnown]
      exact induction known.2

namespace Pattern

theorem foldl_absorb {pattern : Pattern} {others : List Pattern}
    (known : ∀ other ∈ others, other.paths ⊆ pattern.paths) :
    others.foldl absorb pattern =
      { pattern with frequency := pattern.frequency + (others.map Pattern.frequency).sum } := by
  induction others generalizing pattern with
  | nil => rfl
  | cons other rest induction =>
      rw [List.forall_mem_cons] at known
      have noMore : (pattern.absorb other).occurrences = pattern.occurrences :=
        addOccurrences_of_known fun occurrence member => known.1 (List.mem_map_of_mem member)
      have alsoKnown : ∀ later ∈ rest, later.paths ⊆ (pattern.absorb other).paths := by
        rw [paths, noMore]
        exact known.2
      rw [List.foldl_cons, induction alsoKnown, noMore, List.map_cons, List.sum_cons,
        ← Nat.add_assoc]
      rfl

def countedWith (others : List Pattern) (pattern : Pattern) : Pattern :=
  { pattern with
    frequency := pattern.frequency + ((others.filter fun other =>
      other.signature == pattern.signature).map Pattern.frequency).sum }

theorem filter_signature_eq_singleton {patterns : List Pattern}
    (distinct : (patterns.map Pattern.signature).Nodup) {pattern : Pattern}
    (member : pattern ∈ patterns) :
    (patterns.filter fun other => other.signature == pattern.signature) = [pattern] := by
  induction patterns with
  | nil => cases member
  | cons head rest induction =>
      rw [List.map_cons, List.nodup_cons] at distinct
      rcases List.mem_cons.mp member with rfl | later
      · rw [List.filter_cons_of_pos (by simp), List.filter_eq_nil_iff.mpr]
        intro other isOther same
        exact distinct.1 (List.mem_map.mpr ⟨other, isOther, beq_iff_eq.mp same⟩)
      · rw [List.filter_cons_of_neg, induction distinct.2 later]
        intro same
        exact distinct.1 (List.mem_map.mpr ⟨pattern, later, (beq_iff_eq.mp same).symm⟩)

end Pattern

def Covers (patterns others : List Pattern) : Prop :=
  ∀ other ∈ others, ∃ pattern ∈ patterns, pattern.signature = other.signature ∧
    other.paths ⊆ pattern.paths

section

variable {patterns others : List Pattern}
  (distinct : (patterns.map Pattern.signature).Nodup) (covers : Covers patterns others)

include distinct covers

theorem paths_subset_of_covers {pattern other : Pattern} (member : pattern ∈ patterns)
    (isOther : other ∈ others.filter fun other => other.signature == pattern.signature) :
    other.paths ⊆ pattern.paths := by
  rw [List.mem_filter, beq_iff_eq] at isOther
  rcases covers other isOther.1 with ⟨covering, isCovering, sameSignature, subset⟩
  have same : covering = pattern :=
    List.inj_on_of_nodup_map distinct isCovering member (sameSignature.trans isOther.2)
  rwa [← same]

theorem mergedPattern_of_covers {pattern : Pattern} (member : pattern ∈ patterns) :
    mergedPattern (patterns ++ others) pattern.signature = some (pattern.countedWith others) := by
  rw [mergedPattern, List.filter_append, Pattern.filter_signature_eq_singleton distinct member,
    List.singleton_append]
  exact congrArg some
    (Pattern.foldl_absorb fun other => paths_subset_of_covers distinct covers member)

/-- Nothing is added to the patterns, and nothing is left out. -/
theorem mergePatterns_of_covers {options : Options}
    (frequent : ∀ pattern ∈ patterns, options.minimumFrequency ≤ pattern.frequency) :
    mergePatterns options [patterns, others] =
      Pattern.sorted (patterns.map (Pattern.countedWith others)) := by
  have signatures : ((patterns ++ others).map Pattern.signature).eraseDups =
      patterns.map Pattern.signature := by
    have nothing : (others.map Pattern.signature).removeAll (patterns.map Pattern.signature) =
        [] := by
      rw [List.removeAll, List.filter_eq_nil_iff, List.forall_mem_map]
      intro other isOther
      rcases covers other isOther with ⟨pattern, isPattern, sameSignature, -⟩
      simpa using ⟨pattern, isPattern, sameSignature⟩
    rw [List.map_append, List.eraseDups_append, nothing, List.eraseDups_nil, List.append_nil,
      Similarity.eraseDups_eq_self distinct]
  have merged : (patterns.map Pattern.signature).filterMap (mergedPattern (patterns ++ others)) =
      patterns.map (Pattern.countedWith others) := by
    rw [List.filterMap_map, ← List.filterMap_eq_map]
    exact List.filterMap_congr fun pattern member => mergedPattern_of_covers distinct covers member
  have kept : ∀ pattern ∈ patterns.map (Pattern.countedWith others),
      decide (options.minimumFrequency ≤ pattern.frequency) = true := by
    rw [List.forall_mem_map]
    intro pattern member
    exact decide_eq_true (Nat.le_trans (frequent pattern member) (Nat.le_add_right _ _))
  rw [mergePatterns, List.flatten_cons, List.flatten_singleton]
  simp only [signatures, merged]
  rw [List.filter_eq_self.mpr kept]

end

/-! ## The two searches -/

/-- Nodes that are counted together among siblings are counted together among all nodes. -/
theorem visitsWith_walkWithin_sublist (tree : StyleTree) (scope : Visit → Option NodePath)
    (ceiling : Nat) (key : Option NodePath × Signature) :
    (visitsWith scope (tree.walkWithin ceiling) key).Sublist
      (visitsWith (fun _ => none) tree.walk (none, key.2)) := by
  rw [visitsWith, visitsWith, declaring, declaring, tree.walkWithin_eq_filter, List.filter_filter,
    List.filter_filter, List.filter_filter]
  refine List.monotone_filter_right _ ?_
  intro visit holds
  simp only [Bool.and_eq_true, beq_iff_eq] at holds ⊢
  rcases holds with ⟨⟨isKey, declares⟩, -⟩
  exact ⟨congrArg (fun key : Option NodePath × Signature => (none, key.2)) isKey, declares⟩

section

variable {scope : Visit → Option NodePath} {options : Options} {visits : List Visit}
  {pattern : Pattern} (member : pattern ∈ search scope options visits)

include member

theorem frequency_eq_of_mem_search : pattern.frequency = pattern.paths.length := by
  rcases (mem_search member).1 with ⟨key, standsFor⟩
  rw [standsFor.frequency, Pattern.paths, List.length_map]

theorem nodup_paths_of_mem_search (distinct : (visits.map Visit.path).Nodup) :
    pattern.paths.Nodup := by
  rcases (mem_search member).1 with ⟨key, standsFor⟩
  rw [standsFor.paths_eq]
  exact distinct.sublist ((List.filter_sublist.trans List.filter_sublist).map _)

end

namespace StyleTree

variable (tree : StyleTree) (options : Options)

theorem standsFor_of_mem_generalPatterns {pattern : Pattern}
    (member : pattern ∈ tree.generalPatterns options) :
    pattern.StandsFor (sightings (fun _ => none) tree.walk) (none, pattern.signature) := by
  rcases (mem_search member).1 with ⟨key, standsFor⟩
  rcases standsFor.declarations with ⟨sighting, isSighting, isKey, -⟩
  rcases mem_sightings.mp isSighting with ⟨visit, -, rfl⟩
  have isEverywhere : key = (none, pattern.signature) := by
    rw [standsFor.signature, ← isKey]
    rfl
  rwa [← isEverywhere]

theorem nodup_signature_generalPatterns :
    ((tree.generalPatterns options).map Pattern.signature).Nodup := by
  have apart : (tree.generalPatterns options).Pairwise fun first second =>
      first.paths.Disjoint second.paths := pairwise_disjoint_search tree.nodup_map_path_walk
  refine List.pairwise_map.mpr (apart.imp_of_mem ?_)
  intro first second isFirst isSecond disjoint same
  have occurs := occurrences_ne_nil_of_mem_search isFirst
  rcases List.exists_mem_of_ne_nil _ occurs with ⟨occurrence, isOccurrence⟩
  have onPath : occurrence.path ∈ first.paths := List.mem_map_of_mem isOccurrence
  refine disjoint onPath ?_
  rw [(tree.standsFor_of_mem_generalPatterns options isFirst).paths_eq, same] at onPath
  rwa [(tree.standsFor_of_mem_generalPatterns options isSecond).paths_eq]

theorem covers_searches :
    Covers (tree.generalPatterns options) (tree.siblingPatterns options) := by
  intro other member
  rcases mem_search member with ⟨⟨key, standsFor⟩, frequent⟩
  rcases standsFor.declarations with ⟨sighting, isSighting, isKey, -⟩
  rcases mem_sightings.mp isSighting with ⟨visit, isVisit, rfl⟩
  have sublist := visitsWith_walkWithin_sublist tree (fun visit => visit.path.parent?)
    options.maximumDepth key
  have isGeneralKey : visit.key (fun _ => none) = (none, key.2) := by
    rw [← isKey]
    rfl
  have declares : visit ∈ declaring tree.walk := by
    rcases mem_declaring.mp isVisit with ⟨isWithin, declares⟩
    exact mem_declaring.mpr ⟨(mem_walkWithin.mp isWithin).1, declares⟩
  rw [standsFor.frequency_eq] at frequent
  have frequentInTree := Nat.le_trans frequent sublist.length_le
  rw [← isGeneralKey] at frequentInTree
  rcases exists_mem_search declares frequentInTree with ⟨pattern, isPattern, general⟩
  rw [isGeneralKey] at general
  refine ⟨pattern, isPattern, general.signature.trans standsFor.signature.symm, ?_⟩
  rw [general.paths_eq, standsFor.paths_eq]
  exact (sublist.map _).subset

/-- The nodes that siblings have a set in common with are different for different siblings, so
they are counted once more at most. -/
theorem sum_frequency_siblingPatterns_le {pattern : Pattern}
    (member : pattern ∈ tree.generalPatterns options) :
    (((tree.siblingPatterns options).filter fun other =>
      other.signature == pattern.signature).map Pattern.frequency).sum ≤ pattern.frequency := by
  have distinctPaths := tree.nodup_map_path_walkWithin options.maximumDepth
  have found : ∀ other ∈ (tree.siblingPatterns options).filter fun other =>
      other.signature == pattern.signature, other ∈ tree.siblingPatterns options :=
    fun other => List.mem_of_mem_filter
  have apart : (tree.siblingPatterns options).Pairwise fun first second =>
      first.paths.Disjoint second.paths := pairwise_disjoint_search distinctPaths
  have distinct : (((tree.siblingPatterns options).filter fun other =>
      other.signature == pattern.signature).flatMap Pattern.paths).Nodup :=
    List.nodup_flatMap.mpr ⟨fun other isOther =>
      nodup_paths_of_mem_search (found other isOther) distinctPaths, apart.filter _⟩
  have subset : ((tree.siblingPatterns options).filter fun other =>
      other.signature == pattern.signature).flatMap Pattern.paths ⊆ pattern.paths := by
    intro path isPath
    rcases List.mem_flatMap.mp isPath with ⟨other, isOther, onPath⟩
    exact paths_subset_of_covers (tree.nodup_signature_generalPatterns options)
      (tree.covers_searches options) member isOther onPath
  have counted := distinct.length_le_of_subset subset
  rw [List.length_flatMap, ← frequency_eq_of_mem_search member] at counted
  refine Nat.le_trans (Nat.le_of_eq (congrArg List.sum ?_)) counted
  exact List.map_congr_left fun other isOther => frequency_eq_of_mem_search (found other isOther)

end StyleTree

/-- Merging the two searches keeps the patterns that are found among all nodes, each with its
declarations and occurrences. A pattern is counted again as often as siblings have it, which at
most doubles its frequency. -/
theorem patterns_of_searches (tree : StyleTree) (options : Options) :
    ((tree.generalPatterns options).map Pattern.signature).Nodup ∧
      (tree.patterns options).Perm ((tree.generalPatterns options).map
        (Pattern.countedWith (tree.siblingPatterns options))) ∧
      (∀ pattern ∈ tree.generalPatterns options,
        pattern.frequency ≤ (pattern.countedWith (tree.siblingPatterns options)).frequency ∧
        (pattern.countedWith (tree.siblingPatterns options)).frequency ≤ 2 * pattern.frequency) ∧
      Ranked (tree.patterns options) := by
  have distinct := tree.nodup_signature_generalPatterns options
  have merged : tree.patterns options = Pattern.sorted ((tree.generalPatterns options).map
      (Pattern.countedWith (tree.siblingPatterns options))) :=
    mergePatterns_of_covers distinct (tree.covers_searches options)
      fun pattern member => (mem_search member).2
  have occur : ∀ pattern ∈ tree.generalPatterns options, pattern.occurrences ≠ [] :=
    fun pattern member => occurrences_ne_nil_of_mem_search member
  have apart : (tree.generalPatterns options).Pairwise fun first second =>
      first.paths.Disjoint second.paths := pairwise_disjoint_search tree.nodup_map_path_walk
  refine ⟨distinct, ?_, ?_, ?_⟩
  · rw [merged]
    exact List.mergeSort_perm _ _
  · intro pattern member
    have atMost := tree.sum_frequency_siblingPatterns_le options member
    refine ⟨Nat.le_add_right _ _, ?_⟩
    rw [Nat.two_mul]
    exact Nat.add_le_add_left atMost _
  · rw [merged]
    exact ranked_sorted (List.forall_mem_map.mpr occur) (List.pairwise_map.mpr apart)

end Stylebook
