import Mathlib.Data.List.Forall2
import Mathlib.Data.List.Pairwise
import Stylebook.Proofs.Analysis.Grouping
import Stylebook.Proofs.Analysis.Similarity
import Stylebook.Proofs.Comparison

/-!
What is reported for patterns: the clusters of the groups that merging ends with, in their order.
-/

namespace Stylebook

/-! ## Orders -/

theorem Signature.comparison : Comparison Signature.le := by
  have le_iff (first second : Signature) :
      first.le second = true ↔ first.bytes ≤ second.bytes := by
    rw [Signature.le, Bool.not_eq_true', ← Bool.not_eq_true, List.lex_eq_true_iff_lt, List.not_lt]
  constructor
  · intro first second
    rw [le_iff, le_iff]
    exact List.le_total _ _
  · intro first second third
    rw [le_iff, le_iff, le_iff]
    exact List.le_trans

theorem comparison_precedes : Comparison precedes :=
  (Signature.comparison.on Pattern.signature).falling

theorem Cluster.totalFrequency_eq_sum (cluster : Cluster) :
    cluster.totalFrequency = (cluster.members.map Pattern.frequency).sum := by
  rw [totalFrequency, List.sum, List.foldr_map]

theorem Cluster.comparison : Comparison Cluster.le :=
  (Signature.comparison.on Cluster.representative).falling.falling

theorem precedes_eq_true_iff {first second : Pattern} :
    precedes first second = true ↔ second.frequency < first.frequency ∨
      first.frequency = second.frequency ∧ first.signature.le second.signature = true := by
  simp [precedes]

theorem Cluster.le_eq_true_iff {first second : Cluster} :
    first.le second = true ↔ second.cohesion < first.cohesion ∨
      first.cohesion = second.cohesion ∧ (second.totalFrequency < first.totalFrequency ∨
        first.totalFrequency = second.totalFrequency ∧
          first.representative.le second.representative = true) := by
  simp [Cluster.le]

/-! ## Representatives -/

theorem exists_representative {members : List Pattern} (nonempty : members ≠ []) :
    ∃ member ∈ members, representative? members = some member.signature ∧
      ∀ other ∈ members, precedes member other = true := by
  cases members with
  | nil => exact (nonempty rfl).elim
  | cons first rest =>
      rcases comparison_precedes.foldl_best first rest with ⟨member, best⟩
      exact ⟨_, member, rfl, best⟩

/-! ## Cohesion -/

section

variable {similarity : Nat → Nat → Similarity} {bound : Similarity} {group : List Nat}

theorem le_cohesionOf_iff :
    bound ≤ cohesionOf similarity group ↔
      bound ≤ Similarity.one ∧ group.Pairwise fun position other =>
        bound ≤ similarity position other := by
  induction group with
  | nil => simp [cohesionOf]
  | cons position rest induction =>
      rw [cohesionOf, le_foldl_min_iff, induction, List.pairwise_cons, List.forall_mem_map,
        and_assoc, and_comm (a := rest.Pairwise _)]

theorem cohesionOf_mem (similarity : Nat → Nat → Similarity) (group : List Nat) :
    cohesionOf similarity group = Similarity.one ∨
      ∃ position other, [position, other].Sublist group ∧
        similarity position other = cohesionOf similarity group := by
  induction group with
  | nil => exact .inl rfl
  | cons position rest induction =>
      rw [cohesionOf]
      rcases foldl_min_mem (cohesionOf similarity rest) (rest.map (similarity position)) with
        same | member
      · rw [same]
        rcases induction with alone | ⟨first, second, sublist, least⟩
        · exact .inl alone
        · exact .inr ⟨first, second, sublist.cons position, least⟩
      · rcases List.mem_map.mp member with ⟨other, isOther, least⟩
        exact .inr ⟨position, other, (List.singleton_sublist.mpr isOther).cons_cons position, least⟩

end

/-! ## Clusters of groups -/

/-- The cluster of a group of positions. Its cohesion is the least similarity of two members, and
its representative the smallest signature of the most frequent ones. -/
structure ClusterOf (patterns : List Pattern) (group : List Nat) (cluster : Cluster) : Prop where
  members : cluster.members.map some = group.map fun position => patterns[position]?
  cohesion_le : ∀ position ∈ group, ∀ other ∈ group, position ≠ other →
    cluster.cohesion ≤ similarityOf patterns position other
  cohesion_mem : 1 < group.length → ∃ position ∈ group, ∃ other ∈ group, position ≠ other ∧
    similarityOf patterns position other = cluster.cohesion
  cohesion_alone : group.length = 1 → cluster.cohesion = Similarity.one
  representative : ∃ member ∈ cluster.members, member.signature = cluster.representative ∧
    ∀ other ∈ cluster.members, other.frequency < member.frequency ∨
      member.frequency = other.frequency ∧ member.signature.le other.signature = true

/-- Whether the cluster of a group is reported: a pattern alone has to be frequent enough. -/
def isReportedGroup (options : Options) (patterns : List Pattern) : List Nat → Bool
  | [position] => patterns[position]?.any fun pattern =>
      decide (options.minimumFrequency ≤ pattern.frequency)
  | _ => true

section

variable {options : Options} {patterns : List Pattern} {group : List Nat}

theorem cohesionOf_le {position other : Nat} (isPosition : position ∈ group)
    (isOther : other ∈ group) (different : position ≠ other) :
    cohesionOf (similarityOf patterns) group ≤ similarityOf patterns position other := by
  have symmetric : Std.Symm fun position other =>
      cohesionOf (similarityOf patterns) group ≤ similarityOf patterns position other := by
    constructor
    intro position other
    rw [similarityOf_comm]
    exact id
  exact (le_cohesionOf_iff.mp (Nat.le_refl _)).2.forall isPosition isOther different

theorem exists_cohesionOf_eq (several : 1 < group.length) :
    ∃ position other, [position, other].Sublist group ∧
      similarityOf patterns position other = cohesionOf (similarityOf patterns) group := by
  rcases cohesionOf_mem (similarityOf patterns) group with one | least
  · match group, several with
    | position :: other :: rest, _ =>
        -- No similarity is above that of a pattern alone, so any two members will do.
        have atLeast := (le_cohesionOf_iff.mp (Nat.le_of_eq one.symm)).2
        have similar := (List.pairwise_cons.mp atLeast).1 other List.mem_cons_self
        refine ⟨position, other, by simp, ?_⟩
        rw [one]
        exact Nat.le_antisymm (similarityOf_le_one patterns position other) similar
  · exact least

theorem exists_clusterOf (nonempty : group ≠ []) (ascending : group.Pairwise (· < ·))
    (bounded : ∀ position ∈ group, position < patterns.length) :
    ∃ cluster, clusterOf? (similarityOf patterns) patterns group = some cluster ∧
      cluster.cohesion = cohesionOf (similarityOf patterns) group ∧
      ClusterOf patterns group cluster := by
  have allMembers : (group.filterMap fun position => patterns[position]?).map some =
      group.map fun position => patterns[position]? := by
    rw [List.map_filterMap_some_eq_filter_map_isSome, List.filter_eq_self, List.forall_mem_map]
    intro position member
    rw [List.getElem?_eq_getElem (bounded position member)]
    rfl
  have someMember : (group.filterMap fun position => patterns[position]?) ≠ [] := by
    intro none
    rw [none, List.map_nil, eq_comm, List.map_eq_nil_iff] at allMembers
    exact nonempty allMembers
  rcases exists_representative someMember with ⟨member, isMember, isBest, best⟩
  refine ⟨_, by rw [clusterOf?, isBest]; rfl, rfl, allMembers, ?_, ?_, ?_,
    member, isMember, rfl, ?_⟩
  · exact fun position isPosition other isOther different =>
      cohesionOf_le isPosition isOther different
  · intro several
    rcases exists_cohesionOf_eq several with ⟨position, other, sublist, least⟩
    have different := (List.pairwise_cons.mp (ascending.sublist sublist)).1 other (by simp)
    exact ⟨position, sublist.subset (by simp), other, sublist.subset (by simp),
      Nat.ne_of_lt different, least⟩
  · intro alone
    rcases List.length_eq_one_iff.mp alone with ⟨position, rfl⟩
    rfl
  · intro other isOther
    exact precedes_eq_true_iff.mp (best other isOther)

theorem ClusterOf.isReported_eq {cluster : Cluster} (isCluster : ClusterOf patterns group cluster)
    (nonempty : group ≠ []) (cohesive : options.minimum ≤ cluster.cohesion) :
    cluster.isReported options = isReportedGroup options patterns group := by
  have cohesive : decide (Similarity.ofFloat options.minimumCohesion ≤ cluster.cohesion) = true :=
    decide_eq_true cohesive
  have members := isCluster.members
  rw [Cluster.isReported, cohesive, Bool.true_and]
  match group with
  | [] => exact (nonempty rfl).elim
  | [position] =>
      rcases List.map_eq_singleton_iff.mp members with ⟨member, alone, isMember⟩
      simp [isReportedGroup, Cluster.totalFrequency_eq_sum, alone, ← isMember]
  | position :: other :: rest =>
      have several : 1 < cluster.members.length := by
        rw [← List.length_map (f := some), members, List.length_map, List.length_cons,
          List.length_cons]
        omega
      simp [isReportedGroup, several]

end

/-- Those results that are kept are the results of the items that are kept. -/
theorem forall₂_filter_filterMap {α β : Type} {Related : α → β → Prop} {result : α → Option β}
    {keptItem : α → Bool} {kept : β → Bool} {items : List α}
    (related : ∀ item ∈ items, ∃ value, result item = some value ∧ Related item value ∧
      kept value = keptItem item) :
    List.Forall₂ Related (items.filter keptItem) ((items.filterMap result).filter kept) := by
  induction items with
  | nil => exact .nil
  | cons item rest induction =>
      rw [List.forall_mem_cons] at related
      rcases related with ⟨⟨value, isResult, isRelated, same⟩, related⟩
      rw [List.filterMap_cons_some isResult, List.filter_cons, List.filter_cons, same]
      split
      · exact .cons isRelated (induction related)
      · exact induction related

/-! ## The reported clusters -/

def finalGroups (options : Options) (patterns : List Pattern) : List (List Nat) :=
  groupsOf (similarityOf patterns) options.minimum patterns.length

/-- The groups whose clusters are reported, in the order of the clusters. -/
structure ReportedGroups (options : Options) (patterns : List Pattern)
    (reported : List (List Nat)) : Prop where
  perm : reported.Perm
    ((finalGroups options patterns).filter (isReportedGroup options patterns))
  clusters : List.Forall₂ (ClusterOf patterns) reported (clusters options patterns)

structure Clustering (options : Options) (patterns : List Pattern) : Prop where
  grouping : Grouping (similarityOf patterns) options.minimum patterns.length
    (finalGroups options patterns)
  apart : ∀ first ∈ finalGroups options patterns, ∀ second ∈ finalGroups options patterns,
    first ≠ second → ∃ left ∈ first, ∃ right ∈ second,
      similarityOf patterns left right < options.minimum
  reported : ∃ reported, ReportedGroups options patterns reported
  ordered : (clusters options patterns).Pairwise fun first second =>
    second.cohesion < first.cohesion ∨
      first.cohesion = second.cohesion ∧ (second.totalFrequency < first.totalFrequency ∨
        first.totalFrequency = second.totalFrequency ∧
          first.representative.le second.representative = true)

theorem exists_transitions_finalGroups (options : Options) (patterns : List Pattern) :
    ∃ merges, Transitions (Merge (similarityOf patterns) options.minimum)
        (Grouping.singles patterns.length) merges (finalGroups options patterns) ∧
      merges.length ≤ patterns.length - 1 ∧
      Finished (similarityOf patterns) options.minimum (finalGroups options patterns) := by
  have length : (Grouping.singles patterns.length).length = patterns.length := by
    simp [Grouping.singles]
  rcases exists_transitions_agglomerate (similarityOf patterns) options.minimum
    (Grouping.singles patterns.length) patterns.length with ⟨merges, transitions, finished⟩
  have fewMerges := length_merges_le transitions
  rw [length] at fewMerges
  exact ⟨merges, transitions, fewMerges, finished (Nat.le_of_eq length)⟩

theorem grouping_finalGroups (options : Options) (patterns : List Pattern) :
    Grouping (similarityOf patterns) options.minimum patterns.length
      (finalGroups options patterns) := by
  rcases exists_transitions_finalGroups options patterns with ⟨merges, transitions, -⟩
  exact (Grouping.ofSingles _ _ _).of_transitions (similarityOf_comm patterns) transitions

theorem clusters_eq (options : Options) (patterns : List Pattern) :
    clusters options patterns =
      (((finalGroups options patterns).filterMap
        (clusterOf? (similarityOf patterns) patterns)).filter
          (Cluster.isReported options)).mergeSort Cluster.le :=
  rfl

section

variable {options : Options} (valid : options.Valid) (patterns : List Pattern)

include valid

theorem apart_finalGroups {first second : List Nat}
    (isFirst : first ∈ finalGroups options patterns)
    (isSecond : second ∈ finalGroups options patterns) (different : first ≠ second) :
    ∃ left ∈ first, ∃ right ∈ second, similarityOf patterns left right < options.minimum := by
  rcases exists_transitions_finalGroups options patterns with ⟨merges, -, -, finished⟩
  have symmetric : Std.Symm fun first second : List Nat =>
      ∃ left ∈ first, ∃ right ∈ second, similarityOf patterns left right < options.minimum := by
    constructor
    intro first second holds
    rcases holds with ⟨left, isLeft, right, isRight, weak⟩
    exact ⟨right, isRight, left, isLeft, by rwa [similarityOf_comm]⟩
  have bounded : options.minimum ≤ Similarity.infinite :=
    Nat.le_trans valid.minimum_le_one (by decide)
  exact (finished.apart bounded).forall isFirst isSecond different

theorem exists_clusterOf_finalGroups {group : List Nat}
    (member : group ∈ finalGroups options patterns) :
    ∃ cluster, clusterOf? (similarityOf patterns) patterns group = some cluster ∧
      ClusterOf patterns group cluster ∧
      cluster.isReported options = isReportedGroup options patterns group := by
  have grouping := grouping_finalGroups options patterns
  have nonempty := grouping.nonempty group member
  rcases exists_clusterOf nonempty (grouping.ascending group member) (grouping.lt member) with
    ⟨cluster, isResult, cohesion, isCluster⟩
  refine ⟨cluster, isResult, isCluster, isCluster.isReported_eq nonempty ?_⟩
  rw [cohesion, le_cohesionOf_iff]
  refine ⟨valid.minimum_le_one, (grouping.ascending group member).imp_of_mem ?_⟩
  intro position other isPosition isOther less
  exact grouping.cohesive group member position isPosition other isOther (Nat.ne_of_lt less)

theorem exists_reportedGroups : ∃ reported, ReportedGroups options patterns reported := by
  have related := forall₂_filter_filterMap
    fun _ member => exists_clusterOf_finalGroups valid patterns member
  have sorted : Relation.Comp (List.Forall₂ (ClusterOf patterns)) List.Perm
      ((finalGroups options patterns).filter (isReportedGroup options patterns))
      (clusters options patterns) := by
    rw [clusters_eq]
    exact ⟨_, related, (List.mergeSort_perm _ Cluster.le).symm⟩
  -- The groups are put into the order of their clusters.
  rw [List.forall₂_comp_perm_eq_perm_comp_forall₂] at sorted
  rcases sorted with ⟨reported, perm, pairs⟩
  exact ⟨reported, perm.symm, pairs⟩

/-- Merging ends after fewer merges than there are patterns, because no two groups are similar
enough any more, and the clusters are those of the groups that it ends with. -/
theorem clustering_of_valid :
    ∃ merges, Transitions (Merge (similarityOf patterns) options.minimum)
        (Grouping.singles patterns.length) merges (finalGroups options patterns) ∧
      merges.length ≤ patterns.length - 1 ∧
      Finished (similarityOf patterns) options.minimum (finalGroups options patterns) ∧
      Clustering options patterns := by
  rcases exists_transitions_finalGroups options patterns with
    ⟨merges, transitions, fewMerges, finished⟩
  refine ⟨merges, transitions, fewMerges, finished, ?_, ?_, ?_, ?_⟩
  · exact grouping_finalGroups options patterns
  · intro first isFirst second isSecond different
    exact apart_finalGroups valid patterns isFirst isSecond different
  · exact exists_reportedGroups valid patterns
  · refine (Cluster.comparison.pairwise_mergeSort _).imp ?_
    intro first second inOrder
    exact Cluster.le_eq_true_iff.mp inOrder

end

/-! ## An example -/

def threePatterns : List Pattern :=
  let color : Declaration := ⟨"color", "red"⟩
  let margin : Declaration := ⟨"margin", "0"⟩
  let top : Declaration := ⟨"top", "0"⟩
  [⟨⟨[1]⟩, [color, margin], [], 2⟩, ⟨⟨[2]⟩, [top], [], 1⟩, ⟨⟨[3]⟩, [color, margin, top], [], 3⟩]

theorem finalGroups_threePatterns : finalGroups {} threePatterns = [[0, 2], [1]] := by
  have joined : joinGroups [0] [2] = [0, 2] := List.mergeSort_of_pairwise (by decide)
  have merge : Merge (similarityOf threePatterns) ({} : Options).minimum (Grouping.singles 3)
      ⟨0, 2, nearestBits 2 3⟩ [[0, 2], [1]] :=
    ⟨by decide +kernel, congrArg (fun group => [group, [1]]) joined.symm⟩
  have finished :
      Finished (similarityOf threePatterns) ({} : Options).minimum [[0, 2], [1]] := by
    intro link next merge
    have none : some link = none := merge.strongest.symm.trans (by decide +kernel)
    cases none
  exact (agglomerate_of_merge merge 2).trans (agglomerate_of_finished finished 2)

/-- The pattern that is not similar to the others is too rare to be reported alone. -/
theorem clustering_of_threePatterns :
    ({} : Options).Valid ∧ ∃ cluster,
      clusters {} threePatterns = [cluster] ∧ ClusterOf threePatterns [0, 2] cluster := by
  rcases clustering_of_valid Options.valid_default threePatterns with ⟨-, -, -, -, clustering⟩
  rcases clustering.reported with ⟨reported, perm, pairs⟩
  rw [finalGroups_threePatterns] at perm
  have onlyReported : reported = [[0, 2]] := List.perm_singleton.mp (perm.trans (by decide))
  rw [onlyReported, List.forall₂_cons_left_iff] at pairs
  rcases pairs with ⟨cluster, rest, isCluster, noMore, found⟩
  cases noMore
  exact ⟨Options.valid_default, cluster, found, isCluster⟩

end Stylebook
