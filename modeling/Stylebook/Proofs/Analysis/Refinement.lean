import Stylebook.Proofs.Analysis.Clusters

/-!
Options that ask for more similarity lead to finer groups. The pair that is merged is chosen
without regard to the options, so stricter options make the same merges, but stop earlier. What
is merged after that puts whole groups together.
-/

namespace Stylebook

/-! ## Coarser groups -/

def Coarsens (groups coarser : List (List Nat)) : Prop :=
  ∀ group ∈ groups, ∃ coarse ∈ coarser, group ⊆ coarse

variable {similarity : Nat → Nat → Similarity} {minimum lower : Similarity}
  {groups next final coarser : List (List Nat)}

namespace Coarsens

theorem refl (groups : List (List Nat)) : Coarsens groups groups :=
  fun group member => ⟨group, member, List.Subset.refl group⟩

theorem trans (first : Coarsens groups next) (second : Coarsens next coarser) :
    Coarsens groups coarser := by
  intro group member
  rcases first group member with ⟨middle, isMiddle, inMiddle⟩
  rcases second middle isMiddle with ⟨coarse, isCoarse, inCoarse⟩
  exact ⟨coarse, isCoarse, List.Subset.trans inMiddle inCoarse⟩

end Coarsens

theorem Merge.coarsens {link : Link} (merge : Merge similarity minimum groups link next) :
    Coarsens groups next := by
  rcases merge.exists_perm with ⟨first, second, rest, before, after, -⟩
  intro group member
  rw [before.mem_iff, List.mem_cons, List.mem_cons] at member
  rcases member with rfl | rfl | isRest
  · refine ⟨joinGroups group second, after.mem_iff.mpr List.mem_cons_self, ?_⟩
    exact fun position isPosition => mem_joinGroups.mpr (.inl isPosition)
  · refine ⟨joinGroups first group, after.mem_iff.mpr List.mem_cons_self, ?_⟩
    exact fun position isPosition => mem_joinGroups.mpr (.inr isPosition)
  · exact ⟨group, after.mem_iff.mpr (List.mem_cons_of_mem _ isRest), List.Subset.refl group⟩

theorem coarsens_of_transitions {merges : List Link}
    (transitions : Transitions (Merge similarity minimum) groups merges final) :
    Coarsens groups final := by
  induction transitions with
  | nil => exact .refl _
  | cons merge _ induction => exact merge.coarsens.trans induction

/-! ## Runs for less similarity -/

theorem transitions_of_le {merges : List Link} (below : lower ≤ minimum)
    (transitions : Transitions (Merge similarity minimum) groups merges final) :
    Transitions (Merge similarity lower) groups merges final := by
  induction transitions with
  | nil => exact .nil _
  | cons merge _ induction => exact .cons (merge.of_le below) induction

theorem coarsens_finalGroups {loose strict : Options} (below : loose.minimum ≤ strict.minimum)
    (patterns : List Pattern) :
    Coarsens (finalGroups strict patterns) (finalGroups loose patterns) := by
  rcases exists_transitions_finalGroups strict patterns with ⟨merges, transitions, fewMerges, -⟩
  -- The merges for the strict options are the first ones for the loose options.
  have enough : merges.length + (patterns.length - merges.length) = patterns.length := by omega
  have resumed := agglomerate_of_transitions (transitions_of_le below transitions)
    (patterns.length - merges.length)
  rw [enough] at resumed
  have further : finalGroups loose patterns = agglomerate (similarityOf patterns) loose.minimum
      (finalGroups strict patterns) (patterns.length - merges.length) := resumed
  rcases exists_transitions_agglomerate (similarityOf patterns) loose.minimum
    (finalGroups strict patterns) (patterns.length - merges.length) with ⟨later, laterMerges, -⟩
  rw [further]
  exact coarsens_of_transitions laterMerges

/-! ## Clusters for less similarity -/

theorem isReportedGroup_of_length (options : Options) (patterns : List Pattern)
    {group : List Nat} (several : 1 < group.length) :
    isReportedGroup options patterns group = true := by
  match group, several with
  | position :: other :: rest, _ => rfl

/-- Patterns that are together in a group for strict options are so for loose ones. The cluster
of a group of several patterns is in a reported one. -/
theorem coarsens_of_le {loose strict : Options} (looseValid : loose.Valid)
    (strictValid : strict.Valid) (below : loose.minimumCohesion ≤ strict.minimumCohesion)
    (patterns : List Pattern) :
    Coarsens (finalGroups strict patterns) (finalGroups loose patterns) ∧
      ∃ fine coarse, ReportedGroups strict patterns fine ∧ ReportedGroups loose patterns coarse ∧
        ∀ group ∈ fine, 1 < group.length → ∃ larger ∈ coarse, group ⊆ larger := by
  have coarsens := coarsens_finalGroups (Similarity.ofFloat_le below) patterns
  refine ⟨coarsens, ?_⟩
  rcases exists_reportedGroups strictValid patterns with ⟨fine, isFine⟩
  rcases exists_reportedGroups looseValid patterns with ⟨coarse, isCoarse⟩
  refine ⟨fine, coarse, isFine, isCoarse, ?_⟩
  intro group member several
  have isGroup := (List.mem_filter.mp (isFine.perm.mem_iff.mp member)).1
  rcases coarsens group isGroup with ⟨larger, isLarger, contained⟩
  have distinct : group.Nodup :=
    ((grouping_finalGroups strict patterns).ascending group isGroup).imp Nat.ne_of_lt
  have severalLarger : 1 < larger.length :=
    Nat.lt_of_lt_of_le several (List.subperm_of_subset distinct contained).length_le
  have isReported := isReportedGroup_of_length loose patterns severalLarger
  exact ⟨larger, isCoarse.perm.mem_iff.mpr (List.mem_filter.mpr ⟨isLarger, isReported⟩), contained⟩

theorem coarsens_threePatterns :
    let loose : Options := { minimumCohesion := 0.0 }
    loose.Valid ∧ ({} : Options).Valid ∧
      loose.minimumCohesion ≤ ({} : Options).minimumCohesion ∧
      ∃ reported, ReportedGroups loose threePatterns reported ∧
        ∃ larger ∈ reported, [0, 2] ⊆ larger := by
  intro loose
  have valid : loose.Valid := ⟨by decide, by decide, by decide, by decide⟩
  have below : loose.minimumCohesion ≤ ({} : Options).minimumCohesion := by decide
  rcases (coarsens_of_le valid Options.valid_default below threePatterns).2 with
    ⟨fine, coarse, isFine, isCoarse, contained⟩
  have member : [0, 2] ∈ fine := by
    rw [isFine.perm.mem_iff, finalGroups_threePatterns]
    decide
  exact ⟨valid, Options.valid_default, below, coarse, isCoarse, contained _ member (by decide)⟩

end Stylebook
