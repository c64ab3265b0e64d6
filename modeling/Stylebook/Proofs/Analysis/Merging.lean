import Mathlib.Data.List.Perm.Basic
import Stylebook.Analysis.Cluster
import Stylebook.Proofs.Transitions

/-!
Merging groups one pair after the other. The pair that is merged is the first of all pairs with
the strongest link, and it is merged if the link is strong enough; how strong that is has no
part in the choice of the pair. A merge joins two groups and leaves the others as they are.
-/

namespace Stylebook

variable {similarity : Nat → Nat → Similarity} {minimum : Similarity}

/-! ## Least values -/

theorem le_foldl_min_iff {bound start : Nat} {values : List Nat} :
    bound ≤ values.foldl Nat.min start ↔ bound ≤ start ∧ ∀ value ∈ values, bound ≤ value := by
  induction values generalizing start with
  | nil => simp
  | cons value values induction =>
      rw [List.foldl_cons, induction, List.forall_mem_cons, ← and_assoc]
      exact and_congr_left' Nat.le_min

theorem foldl_min_mem (start : Nat) (values : List Nat) :
    values.foldl Nat.min start = start ∨ values.foldl Nat.min start ∈ values := by
  induction values generalizing start with
  | nil => exact .inl rfl
  | cons value values induction =>
      rw [List.foldl_cons, List.mem_cons]
      rcases induction (Nat.min start value) with same | member
      · rw [same]
        rcases Nat.le_total start value with below | above
        · exact .inl (Nat.min_eq_left below)
        · exact .inr (.inl (Nat.min_eq_right above))
      · exact .inr (.inr member)

theorem le_linkage_iff {first second : List Nat} :
    minimum ≤ linkage similarity first second ↔ minimum ≤ Similarity.infinite ∧
      ∀ left ∈ first, ∀ right ∈ second, minimum ≤ similarity left right := by
  rw [linkage, le_foldl_min_iff, List.forall_mem_flatMap]
  refine and_congr_right' (forall₂_congr fun left _ => ?_)
  rw [List.forall_mem_map]

/-! ## Links -/

theorem mem_linksOf {link : Link} {place otherPlace : Nat} {group : List Nat}
    {others : List (List Nat)} :
    link ∈ linksOf similarity place group otherPlace others ↔
      ∃ between other after, others = between ++ other :: after ∧
        link = ⟨place, otherPlace + between.length, linkage similarity group other⟩ := by
  induction others generalizing otherPlace with
  | nil => simp [linksOf]
  | cons head rest induction =>
      rw [linksOf, List.mem_cons, induction]
      constructor
      · intro holds
        rcases holds with rfl | ⟨between, other, after, rfl, rfl⟩
        · exact ⟨[], head, rest, rfl, rfl⟩
        · exact ⟨head :: between, other, after, rfl, by
            rw [List.length_cons, Nat.add_assoc, Nat.add_comm 1]⟩
      · intro holds
        rcases holds with ⟨between, other, after, split, rfl⟩
        cases between with
        | nil =>
            cases split
            exact .inl rfl
        | cons first between =>
            cases split
            exact .inr ⟨between, other, after, rfl, by
              rw [List.length_cons, Nat.add_assoc, Nat.add_comm 1]⟩

/-- Every two groups have a link, and nothing else has. -/
theorem mem_links {link : Link} {place : Nat} {groups : List (List Nat)} :
    link ∈ links similarity place groups ↔
      ∃ before first between second after,
        groups = before ++ first :: (between ++ second :: after) ∧
        link = ⟨place + before.length, place + before.length + 1 + between.length,
          linkage similarity first second⟩ := by
  induction groups generalizing place with
  | nil => simp [links]
  | cons head rest induction =>
      rw [links, List.mem_append, mem_linksOf, induction]
      constructor
      · intro holds
        rcases holds with ⟨between, second, after, rfl, rfl⟩ |
          ⟨before, first, between, second, after, rfl, rfl⟩
        · exact ⟨[], head, between, second, after, rfl, rfl⟩
        · have shifted : place + 1 + before.length = place + (before.length + 1) := by omega
          exact ⟨head :: before, first, between, second, after, rfl, by
            rw [shifted, List.length_cons]⟩
      · intro holds
        rcases holds with ⟨before, first, between, second, after, split, rfl⟩
        cases before with
        | nil =>
            cases split
            exact .inl ⟨between, second, after, rfl, rfl⟩
        | cons leading before =>
            cases split
            have shifted : place + 1 + before.length = place + (before.length + 1) := by omega
            exact .inr ⟨before, first, between, second, after, rfl, by
              rw [shifted, List.length_cons]⟩

/-! ## The strongest link -/

theorem strongest?_eq_none_iff {candidates : List Link} :
    strongest? candidates = none ↔ candidates = [] := by
  cases candidates with
  | nil => simp [strongest?]
  | cons link rest =>
      rw [strongest?]
      split
      · simp
      · split <;> simp

theorem strongest?_spec {candidates : List Link} {link : Link}
    (found : strongest? candidates = some link) :
    link ∈ candidates ∧ ∀ other ∈ candidates, other.linkage ≤ link.linkage := by
  induction candidates generalizing link with
  | nil => cases found
  | cons head rest induction =>
      rw [strongest?] at found
      cases later : strongest? rest with
      | none =>
          rw [later, Option.some.injEq] at found
          rw [strongest?_eq_none_iff.mp later, ← found]
          simp
      | some strongest =>
          rcases induction later with ⟨member, bound⟩
          simp only [later] at found
          rw [List.forall_mem_cons]
          split at found
          · next weaker =>
              cases found
              exact ⟨List.mem_cons_of_mem _ member, Nat.le_of_lt weaker, bound⟩
          · next notWeaker =>
              cases found
              exact ⟨List.mem_cons_self, Nat.le_refl _, fun other isOther =>
                Nat.le_trans (bound other isOther) (Nat.le_of_not_lt notWeaker)⟩

/-- The strongest of all links is the strongest of those that are strong enough, if it is strong
enough itself. -/
theorem strongest?_filter_of_le {candidates : List Link} {link : Link}
    (found : strongest? candidates = some link) (strong : minimum ≤ link.linkage) :
    strongest? (candidates.filter fun other => decide (minimum ≤ other.linkage)) = some link := by
  induction candidates generalizing link with
  | nil => cases found
  | cons head rest induction =>
      rw [strongest?] at found
      cases later : strongest? rest with
      | none =>
          rw [later, Option.some.injEq] at found
          cases strongest?_eq_none_iff.mp later
          rw [← found] at strong ⊢
          simp [strong, strongest?]
      | some strongest =>
          simp only [later] at found
          split at found
          · next weaker =>
              cases found
              have induction := induction later strong
              by_cases headStrong : minimum ≤ head.linkage
              · simp only [List.filter_cons, headStrong, decide_true, if_true, strongest?,
                  induction, if_pos weaker]
              · simpa [headStrong] using induction
          · next notWeaker =>
              cases found
              simp only [List.filter_cons, strong, decide_true, if_true, strongest?]
              cases remaining : strongest? (rest.filter fun other =>
                  decide (minimum ≤ other.linkage)) with
              | none => rfl
              | some other =>
                  -- What is left out is weaker, so the strongest of the rest is no stronger now.
                  have member := (List.mem_filter.mp (strongest?_spec remaining).1).1
                  have below := (strongest?_spec later).2 other member
                  exact if_neg fun weaker => notWeaker (Nat.lt_of_lt_of_le weaker below)

theorem strongest?_filter_of_lt {candidates : List Link} {link : Link}
    (found : strongest? candidates = some link) (weak : link.linkage < minimum) :
    strongest? (candidates.filter fun other => decide (minimum ≤ other.linkage)) = none := by
  rw [strongest?_eq_none_iff, List.filter_eq_nil_iff]
  intro other member
  have below := (strongest?_spec found).2 other member
  simpa using Nat.lt_of_le_of_lt below weak

/-! ## Merges -/

theorem mergeLink_cons (head : List Nat) (rest : List (List Nat)) (first second : Nat)
    (strength : Similarity) :
    mergeLink ⟨first + 1, second + 1, strength⟩ (head :: rest) =
      head :: mergeLink ⟨first, second, strength⟩ rest := by
  simp [mergeLink]

/-- A merge puts the joined groups in the place of the first. -/
theorem mergeLink_split (before between after : List (List Nat)) (first second : List Nat)
    (strength : Similarity) :
    mergeLink ⟨before.length, before.length + 1 + between.length, strength⟩
        (before ++ first :: (between ++ second :: after)) =
      before ++ joinGroups first second :: (between ++ after) := by
  induction before with
  | nil =>
      have place : 0 + 1 + between.length = between.length + 1 := by omega
      simp [mergeLink, place, List.eraseIdx_append_of_length_le]
  | cons head before induction =>
      have place : before.length + 1 + 1 + between.length =
          before.length + 1 + between.length + 1 := by omega
      rw [List.length_cons, place, List.cons_append, mergeLink_cons, induction, List.cons_append]

/-- One turn of the merging: the first of the strongest links among those that are strong enough
is merged. -/
structure Merge (similarity : Nat → Nat → Similarity) (minimum : Similarity)
    (groups : List (List Nat)) (link : Link) (next : List (List Nat)) : Prop where
  strongest : strongest?
    ((links similarity 0 groups).filter fun link => decide (minimum ≤ link.linkage)) = some link
  result : next = mergeLink link groups

def Finished (similarity : Nat → Nat → Similarity) (minimum : Similarity)
    (groups : List (List Nat)) : Prop :=
  ∀ link next, ¬ Merge similarity minimum groups link next

variable {groups next : List (List Nat)} {link : Link}

/-- The choice is made among all links, and only then it is asked whether the link is strong
enough. -/
theorem merge_iff :
    Merge similarity minimum groups link next ↔
      strongest? (links similarity 0 groups) = some link ∧ minimum ≤ link.linkage ∧
        next = mergeLink link groups := by
  constructor
  · intro merge
    cases found : strongest? (links similarity 0 groups) with
    | none =>
        have strongest := merge.strongest
        rw [strongest?_eq_none_iff.mp found] at strongest
        cases strongest
    | some other =>
        rcases Nat.lt_or_ge other.linkage minimum with weak | strong
        · have strongest := merge.strongest
          rw [strongest?_filter_of_lt found weak] at strongest
          cases strongest
        · have same := merge.strongest
          rw [strongest?_filter_of_le found strong, Option.some.injEq] at same
          exact ⟨congrArg some same, same ▸ strong, merge.result⟩
  · intro holds
    rcases holds with ⟨found, strong, result⟩
    exact ⟨strongest?_filter_of_le found strong, result⟩

namespace Merge

theorem of_le {other : Similarity} (below : other ≤ minimum)
    (merge : Merge similarity minimum groups link next) :
    Merge similarity other groups link next := by
  rcases merge_iff.mp merge with ⟨found, strong, result⟩
  exact merge_iff.mpr ⟨found, Nat.le_trans below strong, result⟩

theorem exists_perm (merge : Merge similarity minimum groups link next) :
    ∃ first second rest, groups.Perm (first :: second :: rest) ∧
      next.Perm (joinGroups first second :: rest) ∧
      minimum ≤ linkage similarity first second := by
  rcases merge_iff.mp merge with ⟨found, strong, rfl⟩
  rcases mem_links.mp (strongest?_spec found).1 with
    ⟨before, first, between, second, after, rfl, rfl⟩
  refine ⟨first, second, before ++ (between ++ after), ?_, ?_, strong⟩
  · refine List.perm_middle.trans (.cons first ?_)
    rw [← List.append_assoc, ← List.append_assoc]
    exact List.perm_middle
  · rw [Nat.zero_add, mergeLink_split]
    exact List.perm_middle

theorem length (merge : Merge similarity minimum groups link next) :
    groups.length = next.length + 1 := by
  rcases merge.exists_perm with ⟨first, second, rest, before, after, -⟩
  rw [before.length_eq, after.length_eq, List.length_cons, List.length_cons, List.length_cons]

theorem length_pos (merge : Merge similarity minimum groups link next) : 0 < next.length := by
  rcases merge.exists_perm with ⟨first, second, rest, -, after, -⟩
  rw [after.length_eq]
  exact Nat.zero_lt_succ _

end Merge

theorem Finished.lt (finished : Finished similarity minimum groups) :
    ∀ link ∈ links similarity 0 groups, link.linkage < minimum := by
  intro link member
  cases found : strongest? (links similarity 0 groups) with
  | none =>
      rw [strongest?_eq_none_iff.mp found] at member
      cases member
  | some strongest =>
      have weak : strongest.linkage < minimum := by
        rw [← Nat.not_le]
        intro strong
        exact finished strongest _ (merge_iff.mpr ⟨found, strong, rfl⟩)
      exact Nat.lt_of_le_of_lt ((strongest?_spec found).2 link member) weak

/-! ## Runs of merges -/

theorem agglomerate_of_merge (merge : Merge similarity minimum groups link next) (steps : Nat) :
    agglomerate similarity minimum groups (steps + 1) =
      agglomerate similarity minimum next steps := by
  rw [agglomerate, merge.strongest, merge.result]

theorem agglomerate_of_finished (finished : Finished similarity minimum groups) (steps : Nat) :
    agglomerate similarity minimum groups steps = groups := by
  cases steps with
  | zero => rfl
  | succ steps =>
      rw [agglomerate]
      split
      · rfl
      · next link found => exact (finished link _ ⟨found, rfl⟩).elim

variable {merges : List Link} {final : List (List Nat)}

/-- Groups that merges have led to are merged on as if they had been there from the start. -/
theorem agglomerate_of_transitions
    (transitions : Transitions (Merge similarity minimum) groups merges final) (steps : Nat) :
    agglomerate similarity minimum groups (merges.length + steps) =
      agglomerate similarity minimum final steps := by
  induction transitions with
  | nil => rw [List.length_nil, Nat.zero_add]
  | cons merge _ induction =>
      rw [List.length_cons, Nat.add_right_comm, agglomerate_of_merge merge, induction]

theorem length_merges_le
    (transitions : Transitions (Merge similarity minimum) groups merges final) :
    merges.length ≤ groups.length - 1 := by
  induction transitions with
  | nil => exact Nat.zero_le _
  | cons merge _ induction =>
      have fewer := merge.length
      have remaining := merge.length_pos
      rw [List.length_cons]
      omega

/-- Merging is a run of merges. With as many steps as there are groups it goes on until no merge
is left. -/
theorem exists_transitions_agglomerate (similarity : Nat → Nat → Similarity)
    (minimum : Similarity) (groups : List (List Nat)) (steps : Nat) :
    ∃ merges, Transitions (Merge similarity minimum) groups merges
        (agglomerate similarity minimum groups steps) ∧
      (groups.length ≤ steps →
        Finished similarity minimum (agglomerate similarity minimum groups steps)) := by
  induction steps generalizing groups with
  | zero =>
      refine ⟨[], .nil _, ?_⟩
      intro none link next merge
      have fewer := merge.length
      rw [agglomerate] at fewer
      omega
  | succ steps induction =>
      by_cases merged : ∃ link next, Merge similarity minimum groups link next
      · rcases merged with ⟨link, next, merge⟩
        rcases induction next with ⟨merges, transitions, finished⟩
        rw [agglomerate_of_merge merge]
        refine ⟨link :: merges, .cons merge transitions, fun enough => finished ?_⟩
        rw [merge.length] at enough
        exact Nat.le_of_succ_le_succ enough
      · have finished : Finished similarity minimum groups :=
          fun link next merge => merged ⟨link, next, merge⟩
        rw [agglomerate_of_finished finished]
        exact ⟨[], .nil _, fun _ => finished⟩

end Stylebook
