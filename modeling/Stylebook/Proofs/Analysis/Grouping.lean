import Stylebook.Proofs.Analysis.Merging

/-!
What merging keeps: the groups hold every position once and in ascending order, and the positions
of a group are similar to each other. When no merge is left, every two groups hold positions that
are not similar enough.
-/

namespace Stylebook

variable {similarity : Nat → Nat → Similarity} {minimum : Similarity} {count : Nat}
  {groups next final : List (List Nat)} {first second : List Nat}

/-! ## Joined groups -/

theorem joinGroups_perm (first second : List Nat) :
    (joinGroups first second).Perm (first ++ second) :=
  List.mergeSort_perm _ _

theorem mem_joinGroups {position : Nat} :
    position ∈ joinGroups first second ↔ position ∈ first ∨ position ∈ second := by
  rw [(joinGroups_perm first second).mem_iff, List.mem_append]

theorem joinGroups_ascending (distinct : (first ++ second).Nodup) :
    (joinGroups first second).Pairwise (· < ·) := by
  have sorted : (joinGroups first second).Pairwise (decide <| · ≤ ·) :=
    List.pairwise_mergeSort (by simp; omega) (by simp; omega) _
  have nodup : (joinGroups first second).Nodup :=
    (joinGroups_perm first second).nodup_iff.mpr distinct
  refine (sorted.and nodup).imp ?_
  intro position other holds
  exact Nat.lt_of_le_of_ne (of_decide_eq_true holds.1) holds.2

/-! ## The invariant -/

/-- Groups that hold every position below a count once. Two positions of a group are similar
enough. -/
structure Grouping (similarity : Nat → Nat → Similarity) (minimum : Similarity) (count : Nat)
    (groups : List (List Nat)) : Prop where
  partition : groups.flatten.Perm (List.range count)
  nonempty : ∀ group ∈ groups, group ≠ []
  ascending : ∀ group ∈ groups, group.Pairwise (· < ·)
  cohesive : ∀ group ∈ groups, ∀ position ∈ group, ∀ other ∈ group,
    position ≠ other → minimum ≤ similarity position other

namespace Grouping

def singles (count : Nat) : List (List Nat) :=
  (List.range count).map fun position => [position]

theorem ofSingles (similarity : Nat → Nat → Similarity) (minimum : Similarity) (count : Nat) :
    Grouping similarity minimum count (singles count) := by
  refine ⟨?_, ?_, ?_, ?_⟩
  · rw [singles, ← List.flatMap_def, List.flatMap_singleton']
  all_goals
    intro group member
    rcases List.mem_map.mp member with ⟨position, -, rfl⟩
    simp

theorem distinct (grouping : Grouping similarity minimum count groups) : groups.flatten.Nodup :=
  grouping.partition.nodup_iff.mpr List.nodup_range

theorem lt (grouping : Grouping similarity minimum count groups) {group : List Nat}
    (member : group ∈ groups) : ∀ position ∈ group, position < count := by
  intro position isPosition
  rw [← List.mem_range, ← grouping.partition.mem_iff]
  exact List.mem_flatten_of_mem member isPosition

/-- The order of the groups is of no importance. -/
theorem of_perm (grouping : Grouping similarity minimum count groups) (perm : groups.Perm next) :
    Grouping similarity minimum count next where
  partition := perm.symm.flatten.trans grouping.partition
  nonempty group member := grouping.nonempty group (perm.mem_iff.mpr member)
  ascending group member := grouping.ascending group (perm.mem_iff.mpr member)
  cohesive group member := grouping.cohesive group (perm.mem_iff.mpr member)

variable (symmetric : ∀ position other, similarity position other = similarity other position)

include symmetric

theorem join {rest : List (List Nat)}
    (grouping : Grouping similarity minimum count (first :: second :: rest))
    (strong : minimum ≤ linkage similarity first second) :
    Grouping similarity minimum count (joinGroups first second :: rest) where
  partition := by
    refine List.Perm.trans ?_ grouping.partition
    rw [List.flatten_cons, List.flatten_cons, List.flatten_cons, ← List.append_assoc]
    exact (joinGroups_perm first second).append_right _
  nonempty := by
    rw [List.forall_mem_cons]
    refine ⟨?_, fun group member => grouping.nonempty group (by simp [member])⟩
    intro empty
    have noneJoined := (joinGroups_perm first second).symm
    rw [empty, List.perm_nil, List.append_eq_nil_iff] at noneJoined
    exact grouping.nonempty first List.mem_cons_self noneJoined.1
  ascending := by
    rw [List.forall_mem_cons]
    refine ⟨joinGroups_ascending ?_,
      fun group member => grouping.ascending group (by simp [member])⟩
    have distinct := grouping.distinct
    rw [List.flatten_cons, List.flatten_cons, ← List.append_assoc] at distinct
    exact (List.nodup_append.mp distinct).1
  cohesive := by
    rw [List.forall_mem_cons]
    refine ⟨?_, fun group member => grouping.cohesive group (by simp [member])⟩
    have across := (le_linkage_iff.mp strong).2
    have inFirst := grouping.cohesive first List.mem_cons_self
    have inSecond := grouping.cohesive second (by simp)
    intro position member other isOther different
    rcases mem_joinGroups.mp member with left | right
    · rcases mem_joinGroups.mp isOther with otherLeft | otherRight
      · exact inFirst position left other otherLeft different
      · exact across position left other otherRight
    · rcases mem_joinGroups.mp isOther with otherLeft | otherRight
      · rw [symmetric]
        exact across other otherLeft position right
      · exact inSecond position right other otherRight different

theorem merge {link : Link} (grouping : Grouping similarity minimum count groups)
    (merge : Merge similarity minimum groups link next) :
    Grouping similarity minimum count next := by
  rcases merge.exists_perm with ⟨first, second, rest, before, after, strong⟩
  exact ((grouping.of_perm before).join symmetric strong).of_perm after.symm

theorem of_transitions {merges : List Link}
    (grouping : Grouping similarity minimum count groups)
    (transitions : Transitions (Merge similarity minimum) groups merges final) :
    Grouping similarity minimum count final :=
  transitions.invariant (fun _ _ _ grouping merge => grouping.merge symmetric merge) grouping

end Grouping

/-! ## Finished groups -/

theorem pairwise_of_forall_split {α : Type} {Related : α → α → Prop} {items : List α}
    (related : ∀ before first between second after,
      items = before ++ first :: (between ++ second :: after) → Related first second) :
    items.Pairwise Related := by
  induction items with
  | nil => exact .nil
  | cons head rest induction =>
      refine .cons ?_ (induction ?_)
      · intro item member
        rcases List.append_of_mem member with ⟨between, after, rfl⟩
        exact related [] head between item after rfl
      · intro before first between second after split
        exact related (head :: before) first between second after (by rw [split, List.cons_append])

theorem Finished.apart (finished : Finished similarity minimum groups)
    (bounded : minimum ≤ Similarity.infinite) :
    groups.Pairwise fun first second =>
      ∃ left ∈ first, ∃ right ∈ second, similarity left right < minimum := by
  refine pairwise_of_forall_split ?_
  intro before first between second after split
  have weak := finished.lt _ (mem_links.mpr ⟨before, first, between, second, after, split, rfl⟩)
  by_contra similar
  apply Nat.not_le_of_lt weak
  refine le_linkage_iff.mpr ⟨bounded, fun left isLeft right isRight => ?_⟩
  exact Nat.le_of_not_lt fun below => similar ⟨left, isLeft, right, isRight, below⟩

end Stylebook
