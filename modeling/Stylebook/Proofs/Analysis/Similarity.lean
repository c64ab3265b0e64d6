import Mathlib.Data.List.Nodup
import Stylebook.Analysis.Cluster
import Stylebook.Proofs.Decimal.Nearest
import Stylebook.Proofs.Decimal.Order

/-!
The similarity of two patterns does not depend on which comes first, and it is not greater than
that of equal patterns. The least similarity that options ask for is not greater either, so it is
met by a pattern alone.
-/

namespace Stylebook

/-! ## Sets -/

namespace Similarity

variable {α : Type} [BEq α] [LawfulBEq α] {first second : List α}

theorem nodup_eraseDups : (items : List α) → items.eraseDups.Nodup
  | [] => List.nodup_nil
  | head :: rest => by
      rw [List.eraseDups_cons, List.nodup_cons]
      refine ⟨?_, nodup_eraseDups _⟩
      intro member
      simpa using (List.mem_filter.mp (List.mem_eraseDups.mp member)).2
termination_by items => items.length
decreasing_by exact Nat.lt_succ_of_le (List.length_filter_le _ _)

theorem eraseDups_eq_self {items : List α} (distinct : items.Nodup) : items.eraseDups = items := by
  induction items with
  | nil => rfl
  | cons head rest induction =>
      rw [List.nodup_cons] at distinct
      have others : rest.filter (fun item => !item == head) = rest := by
        rw [List.filter_eq_self]
        intro item member
        rw [Bool.not_eq_true', beq_eq_false_iff_ne]
        exact fun same => distinct.1 (same ▸ member)
      rw [List.eraseDups_cons, others, induction distinct.2]

theorem countP_contains_comm (distinct : first.Nodup) (otherDistinct : second.Nodup) :
    first.countP (second.contains ·) = second.countP (first.contains ·) := by
  have shared : (first.filter (second.contains ·)).Perm (second.filter (first.contains ·)) := by
    refine (List.perm_ext_iff_of_nodup (distinct.filter _) (otherDistinct.filter _)).mpr ?_
    intro item
    rw [List.mem_filter, List.mem_filter, List.contains_iff_mem, List.contains_iff_mem, and_comm]
  rw [List.countP_eq_length_filter, List.countP_eq_length_filter, shared.length_eq]

theorem jaccard_comm (distinct : first.Nodup) (otherDistinct : second.Nodup) :
    jaccard first second = jaccard second first := by
  rw [jaccard, jaccard, countP_contains_comm distinct otherDistinct, Nat.add_comm first.length]

theorem jaccard_le_one (distinct : first.Nodup) (otherDistinct : second.Nodup) :
    jaccard first second ≤ one := by
  have inFirst : first.countP (second.contains ·) ≤ first.length := List.countP_le_length
  have inSecond : first.countP (second.contains ·) ≤ second.length := by
    rw [countP_contains_comm distinct otherDistinct]
    exact List.countP_le_length
  simp only [jaccard]
  split
  · exact Nat.le_refl _
  · apply nearestBits_le_one
    omega

end Similarity

/-! ## Patterns -/

def similarityOf (patterns : List Pattern) : Nat → Nat → Similarity :=
  similarityAt (patterns.map tokenSet).toArray

theorem nodup_tokenSet (pattern : Pattern) : (tokenSet pattern).Nodup :=
  Similarity.nodup_eraseDups _

section

variable (patterns : List Pattern) (position other : Nat)

theorem similarityOf_eq {first second : Pattern} (isFirst : patterns[position]? = some first)
    (isSecond : patterns[other]? = some second) :
    similarityOf patterns position other = .jaccard (tokenSet first) (tokenSet second) := by
  simp [similarityOf, similarityAt, isFirst, isSecond]

theorem nodup_getD_tokenSet : ((patterns.map tokenSet).toArray.getD position []).Nodup := by
  rw [Array.getD_eq_getD_getElem?, List.getElem?_toArray, List.getElem?_map]
  cases patterns[position]? with
  | none => exact List.nodup_nil
  | some pattern => exact nodup_tokenSet pattern

theorem similarityOf_comm :
    similarityOf patterns position other = similarityOf patterns other position :=
  Similarity.jaccard_comm (nodup_getD_tokenSet patterns position)
    (nodup_getD_tokenSet patterns other)

theorem similarityOf_le_one : similarityOf patterns position other ≤ Similarity.one :=
  Similarity.jaccard_le_one (nodup_getD_tokenSet patterns position)
    (nodup_getD_tokenSet patterns other)

end

/-! ## Options -/

structure Options.Valid (options : Options) : Prop where
  cohesion_nonneg : 0.0 ≤ options.minimumCohesion
  cohesion_le_one : options.minimumCohesion ≤ 1.0
  frequency : 0 < options.minimumFrequency
  depth : 0 < options.maximumDepth

namespace Options

/-- Options are valid if they can be had by giving values. -/
theorem valid_iff {options : Options} :
    options.Valid ↔ ∃ given, Options.ofPartial given = .ok options := by
  constructor
  · intro valid
    refine ⟨⟨some options.minimumCohesion, some options.minimumFrequency,
      some options.maximumDepth⟩, ?_⟩
    simp [ofPartial, set, valid.cohesion_nonneg, valid.cohesion_le_one,
      Nat.ne_of_gt valid.frequency, Nat.ne_of_gt valid.depth]
  · intro holds
    rcases holds with ⟨given, isResult⟩
    simp only [ofPartial, set] at isResult
    split at isResult
    · cases isResult
    next inRange =>
    split at isResult
    · cases isResult
    next frequency =>
    split at isResult
    · cases isResult
    next depth =>
    cases isResult
    simp at inRange
    exact ⟨inRange.1, inRange.2, Nat.pos_of_ne_zero frequency, Nat.pos_of_ne_zero depth⟩

theorem valid_default : ({} : Options).Valid :=
  ⟨by decide, by decide, by decide, by decide⟩

def minimum (options : Options) : Similarity := .ofFloat options.minimumCohesion

theorem Valid.minimum_le_one {options : Options} (valid : options.Valid) :
    options.minimum ≤ Similarity.one :=
  Similarity.ofFloat_le valid.cohesion_le_one

end Options

end Stylebook
