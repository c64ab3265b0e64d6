import Stylebook.Proofs.Analysis.Searches
import Stylebook.Proofs.Comparison

/-!
The order of patterns. More frequent patterns come first, and of equally frequent ones the one that
occurs first in the tree. Patterns of different nodes are never equal in this order, so there is
only one way to list them.
-/

namespace Stylebook

/-! ## The order of paths -/

namespace NodePath

theorem le_eq_true_iff {first second : NodePath} :
    first.le second = true ↔ ¬second < first := by
  rw [NodePath.le, Bool.not_eq_true', ← Bool.not_eq_true, List.lex_eq_true_iff_lt]

theorem lt_of_not_lt {first second : NodePath} (atMost : ¬second < first)
    (different : first ≠ second) : first < second := by
  apply Decidable.byContradiction
  intro atLeast
  exact different (List.le_antisymm atMost atLeast)

theorem comparison : Comparison NodePath.le where
  total first second := by
    rw [le_eq_true_iff, le_eq_true_iff]
    by_cases greater : second < first
    · exact .inr (List.lt_asymm greater)
    · exact .inl greater
  trans {first second third} := by
    rw [le_eq_true_iff, le_eq_true_iff, le_eq_true_iff]
    exact List.le_trans

end NodePath

namespace Pattern

theorem comparison_pathLe : Comparison pathLe where
  total first second := by
    cases first with
    | none => exact .inl rfl
    | some path =>
        cases second with
        | none => exact .inr rfl
        | some other => exact NodePath.comparison.total path other
  trans {first second third} := by
    cases first with
    | none => exact fun _ _ => rfl
    | some path =>
        cases second with
        | none => exact fun never _ => nomatch never
        | some other =>
            cases third with
            | none => exact fun _ never => nomatch never
            | some last => exact NodePath.comparison.trans

/-! ## First occurrences -/

theorem leastPath?_spec {paths : List NodePath} (nonempty : paths ≠ []) :
    ∃ least ∈ paths, leastPath? paths = some least ∧ ∀ path ∈ paths, ¬path < least := by
  induction paths with
  | nil => exact absurd rfl nonempty
  | cons head rest induction =>
      rw [leastPath?]
      by_cases alone : rest = []
      · subst alone
        refine ⟨head, List.mem_cons_self, rfl, ?_⟩
        intro path member
        rw [List.mem_singleton.mp member]
        exact List.lt_irrefl head
      · rcases induction alone with ⟨least, isLeast, found, noneLess⟩
        rw [found]
        simp only [List.forall_mem_cons]
        by_cases atMost : head.le least = true
        · rw [if_pos atMost]
          rw [NodePath.le_eq_true_iff] at atMost
          refine ⟨head, List.mem_cons_self, rfl, List.lt_irrefl head, ?_⟩
          exact fun path member => List.le_trans atMost (noneLess path member)
        · rw [if_neg atMost]
          rw [NodePath.le_eq_true_iff, Decidable.not_not] at atMost
          exact ⟨least, List.mem_cons_of_mem head isLeast, rfl, List.lt_asymm atMost, noneLess⟩

def StartsAt (pattern : Pattern) (path : NodePath) : Prop :=
  path ∈ pattern.paths ∧ ∀ other ∈ pattern.paths, other ≠ path → path < other

theorem StartsAt.unique {pattern : Pattern} {path other : NodePath} (starts : pattern.StartsAt path)
    (alsoStarts : pattern.StartsAt other) : path = other := by
  by_contra different
  have before := starts.2 other alsoStarts.1 (Ne.symm different)
  exact List.lt_asymm before (alsoStarts.2 path starts.1 different)

theorem exists_startsAt {pattern : Pattern} (occurs : pattern.occurrences ≠ []) :
    ∃ path, pattern.firstPath? = some path ∧ pattern.StartsAt path := by
  have nonempty : pattern.occurrences.map Occurrence.path ≠ [] := by simpa using occurs
  rcases leastPath?_spec nonempty with ⟨path, isPath, found, noneLess⟩
  refine ⟨path, found, isPath, ?_⟩
  exact fun other isOther different => NodePath.lt_of_not_lt (noneLess other isOther) different.symm

/-! ## The order of patterns -/

def Precedes (first second : Pattern) : Prop :=
  second.frequency < first.frequency ∨
    first.frequency = second.frequency ∧
      ∃ path later, first.StartsAt path ∧ second.StartsAt later ∧ path < later

theorem Precedes.asymm {first second : Pattern} (precedes : first.Precedes second) :
    ¬second.Precedes first := by
  intro follows
  rcases precedes with more | ⟨same, path, later, starts, startsLater, before⟩
  · rcases follows with less | ⟨alsoSame, _⟩
    · exact Nat.lt_asymm more less
    · exact Nat.ne_of_lt more alsoSame
  · rcases follows with less | ⟨_, otherLater, otherPath, otherStartsLater, otherStarts, after⟩
    · exact Nat.ne_of_lt less same
    · rw [startsLater.unique otherStartsLater, starts.unique otherStarts] at before
      exact List.lt_asymm before after

/-- There is one way to list patterns in this order. -/
theorem eq_of_perm_of_precedes {patterns others : List Pattern} (perm : others.Perm patterns)
    (ordered : patterns.Pairwise Precedes) (otherOrdered : others.Pairwise Precedes) :
    others = patterns := by
  refine List.Perm.eq_of_pairwise ?_ otherOrdered ordered perm
  exact fun first second _ _ precedes follows => absurd follows precedes.asymm

theorem comparison : Comparison Pattern.le :=
  (comparison_pathLe.on firstPath?).falling

theorem precedes_of_le {first second : Pattern} (atMost : first.le second = true)
    (occurs : first.occurrences ≠ []) (otherOccurs : second.occurrences ≠ [])
    (apart : first.paths.Disjoint second.paths) : first.Precedes second := by
  rcases exists_startsAt occurs with ⟨path, isFirst, starts⟩
  rcases exists_startsAt otherOccurs with ⟨later, isOtherFirst, startsLater⟩
  rw [Pattern.le, isFirst, isOtherFirst, Bool.or_eq_true, Bool.and_eq_true, decide_eq_true_iff,
    beq_iff_eq, pathLe, NodePath.le_eq_true_iff] at atMost
  refine atMost.imp_right fun holds => ⟨holds.1, path, later, starts, startsLater, ?_⟩
  refine NodePath.lt_of_not_lt holds.2 ?_
  intro same
  rw [← same] at startsLater
  exact apart starts.1 startsLater.1

theorem pairwise_sorted {patterns : List Pattern}
    (occur : ∀ pattern ∈ patterns, pattern.occurrences ≠ [])
    (apart : patterns.Pairwise fun first second => first.paths.Disjoint second.paths) :
    (sorted patterns).Pairwise Precedes := by
  have perm : (sorted patterns).Perm patterns := List.mergeSort_perm _ _
  rw [← perm.pairwise_iff List.disjoint_symm] at apart
  refine ((comparison.pairwise_mergeSort patterns).and apart).imp_of_mem ?_
  intro first second isFirst isSecond holds
  exact precedes_of_le holds.1 (occur first (perm.mem_iff.mp isFirst))
    (occur second (perm.mem_iff.mp isSecond)) holds.2

end Pattern

/-- The patterns are in order, and there is no other way to put them in order. -/
structure Ranked (patterns : List Pattern) : Prop where
  ordered : patterns.Pairwise Pattern.Precedes
  unique : ∀ others : List Pattern, others.Perm patterns → others.Pairwise Pattern.Precedes →
    others = patterns

theorem ranked_sorted {patterns : List Pattern}
    (occur : ∀ pattern ∈ patterns, pattern.occurrences ≠ [])
    (apart : patterns.Pairwise fun first second => first.paths.Disjoint second.paths) :
    Ranked (Pattern.sorted patterns) where
  ordered := Pattern.pairwise_sorted occur apart
  unique _ perm ordered :=
    Pattern.eq_of_perm_of_precedes perm (Pattern.pairwise_sorted occur apart) ordered

section

variable {scope : Visit → Option NodePath} {options : Options} {visits : List Visit}

theorem occurrences_ne_nil_of_mem_search {pattern : Pattern}
    (member : pattern ∈ search scope options visits) : pattern.occurrences ≠ [] := by
  rcases (mem_search member).1 with ⟨key, standsFor⟩
  exact standsFor.occurrences_ne_nil

theorem ranked_search (distinct : (visits.map Visit.path).Nodup) :
    Ranked (search scope options visits) := by
  refine ranked_sorted ?_ ?_
  · exact fun pattern member => occurrences_ne_nil_of_mem_search (List.mem_mergeSort.mpr member)
  · rw [← (List.mergeSort_perm _ Pattern.le).pairwise_iff List.disjoint_symm]
    exact pairwise_disjoint_search distinct

end

end Stylebook
