import Mathlib.Data.Finset.Dedup
import Mathlib.Data.List.Sort
import Stylebook.Proofs.Analysis.Signatures
import Stylebook.Proofs.Comparison

/-!
Canonical lists as lists of sets. The canonical list of some declarations is the only list that
holds the same ones in ascending order, so it is known by the set of them, whatever order they are
in. For as long as no two digests collide, a signature is known by the set as well.
-/

namespace Stylebook

/-! ## The order of declarations -/

namespace Declaration

def IsBelow (first second : Declaration) : Prop :=
  first.property < second.property ∨
    first.property = second.property ∧ first.value < second.value

variable {first second third : Declaration}

theorem le_eq_true_iff : first.le second = true ↔ first.IsBelow second ∨ first = second := by
  rw [le, Bool.or_eq_true, Bool.and_eq_true, decide_eq_true_iff, decide_eq_true_iff, beq_iff_eq,
    IsBelow, or_assoc]
  refine or_congr_right ?_
  rcases first with ⟨property, value⟩
  rcases second with ⟨other, otherValue⟩
  rw [mk.injEq, ← and_or_left]
  refine and_congr_right fun _ => ⟨fun atMost => ?_, fun holds => ?_⟩
  · by_cases same : value = otherValue
    · exact .inr same
    · exact .inl (String.not_le.mp fun atLeast => same (String.le_antisymm atMost atLeast))
  · rcases holds with less | rfl
    · exact String.not_lt.mp (String.lt_asymm less)
    · exact String.not_lt.mp (String.lt_irrefl value)

theorem IsBelow.irrefl (declaration : Declaration) : ¬declaration.IsBelow declaration := by
  intro below
  rcases below with less | ⟨_, less⟩
  · exact String.lt_irrefl _ less
  · exact String.lt_irrefl _ less

theorem IsBelow.trans (left : first.IsBelow second) (right : second.IsBelow third) :
    first.IsBelow third := by
  rw [IsBelow] at left right ⊢
  rcases left with less | ⟨same, less⟩
  · rcases right with more | ⟨same, _⟩
    · exact .inl (String.lt_trans less more)
    · exact .inl (same ▸ less)
  · rcases right with more | ⟨alsoSame, more⟩
    · exact .inl (same ▸ more)
    · exact .inr ⟨same.trans alsoSame, String.lt_trans less more⟩

theorem IsBelow.asymm (below : first.IsBelow second) : ¬second.IsBelow first :=
  fun above => IsBelow.irrefl first (below.trans above)

theorem isBelow_or_isBelow (different : first ≠ second) :
    first.IsBelow second ∨ second.IsBelow first := by
  rcases first with ⟨property, value⟩
  rcases second with ⟨other, otherValue⟩
  by_cases same : property = other
  · subst other
    have otherwise : value ≠ otherValue := fun sameValue => different (sameValue ▸ rfl)
    by_cases less : value < otherValue
    · exact .inl (.inr ⟨rfl, less⟩)
    · have atLeast := String.not_lt.mp less
      exact .inr (.inr ⟨rfl, String.not_le.mp fun atMost =>
        otherwise (String.le_antisymm atMost atLeast)⟩)
  · by_cases less : property < other
    · exact .inl (.inl less)
    · have atLeast := String.not_lt.mp less
      exact .inr (.inl (String.not_le.mp fun atMost => same (String.le_antisymm atMost atLeast)))

theorem comparison : Comparison le where
  total first second := by
    rw [le_eq_true_iff, le_eq_true_iff]
    by_cases same : first = second
    · exact .inl (.inr same)
    · exact (isBelow_or_isBelow same).imp .inl .inl
  trans {first second third} := by
    rw [le_eq_true_iff, le_eq_true_iff, le_eq_true_iff]
    intro left right
    rcases left with below | rfl
    · rcases right with alsoBelow | rfl
      · exact .inl (below.trans alsoBelow)
      · exact .inl below
    · exact right

instance : Std.Irrefl IsBelow := ⟨IsBelow.irrefl⟩

instance : Std.Antisymm IsBelow := ⟨fun _ _ below above => absurd above below.asymm⟩

end Declaration

/-! ## Canonical lists -/

theorem mem_withoutRepeats {declaration : Declaration} :
    (declarations : List Declaration) →
      (declaration ∈ withoutRepeats declarations ↔ declaration ∈ declarations)
  | [] => .rfl
  | [last] => .rfl
  | first :: second :: rest => by
      have later : declaration ∈ withoutRepeats (second :: rest) ↔ declaration ∈ second :: rest :=
        mem_withoutRepeats (second :: rest)
      rw [withoutRepeats]
      split
      next same =>
        rw [later, same, List.mem_cons (b := second) (l := second :: rest)]
        exact ⟨.inr, fun member => member.elim (fun here => here ▸ List.mem_cons_self) id⟩
      next => rw [List.mem_cons, later, List.mem_cons (b := first)]

/-- In ascending order equal declarations are next to each other, so no two are left. -/
theorem pairwise_withoutRepeats : (declarations : List Declaration) →
    declarations.Pairwise (fun first second => first.le second = true) →
      (withoutRepeats declarations).Pairwise Declaration.IsBelow
  | [], _ => .nil
  | [last], _ => List.pairwise_singleton _ last
  | first :: second :: rest, ascending => by
      rcases List.pairwise_cons.mp ascending with ⟨atMost, later⟩
      have below := pairwise_withoutRepeats (second :: rest) later
      rw [withoutRepeats]
      split
      · exact below
      next different =>
        refine .cons ?_ below
        intro declaration member
        rw [mem_withoutRepeats] at member
        rcases Declaration.le_eq_true_iff.mp (atMost declaration member) with less | rfl
        · exact less
        · -- Then the second one, which lies between the two, is the first one again.
          exfalso
          rcases List.mem_cons.mp member with same | inRest
          · exact different same
          · have between := (List.pairwise_cons.mp later).1 first inRest
            rcases Declaration.le_eq_true_iff.mp between with below | same
            · rcases Declaration.le_eq_true_iff.mp (atMost second List.mem_cons_self) with
                above | same
              · exact below.asymm above
              · exact different same
            · exact different same.symm

section

variable {declarations others : List Declaration}

theorem mem_canonical {declaration : Declaration} :
    declaration ∈ canonical declarations ↔ declaration ∈ declarations := by
  rw [canonical, mem_withoutRepeats, List.mem_mergeSort]

theorem pairwise_canonical (declarations : List Declaration) :
    (canonical declarations).Pairwise Declaration.IsBelow :=
  pairwise_withoutRepeats _ (Declaration.comparison.pairwise_mergeSort declarations)

theorem canonical_eq_iff : canonical declarations = canonical others ↔
    ∀ declaration, declaration ∈ declarations ↔ declaration ∈ others := by
  constructor
  · intro same declaration
    rw [← mem_canonical, same, mem_canonical]
  · intro same
    refine (pairwise_canonical declarations).eq_of_mem_iff (pairwise_canonical others) ?_
    intro declaration
    rw [mem_canonical, mem_canonical, same]

theorem canonical_eq_of_perm (perm : declarations.Perm others) :
    canonical declarations = canonical others :=
  canonical_eq_iff.mpr fun _ => perm.mem_iff

def declarationSet (declarations : List Declaration) : Finset Declaration := declarations.toFinset

theorem canonical_eq_iff_declarationSet : canonical declarations = canonical others ↔
    declarationSet declarations = declarationSet others := by
  rw [canonical_eq_iff, declarationSet, declarationSet, Finset.ext_iff]
  simp only [List.mem_toFinset]

theorem declarationSet_canonical (declarations : List Declaration) :
    declarationSet (canonical declarations) = declarationSet declarations := by
  ext declaration
  rw [declarationSet, declarationSet, List.mem_toFinset, List.mem_toFinset, mem_canonical]

theorem eq_canonical_iff {list : List Declaration} : list = canonical declarations ↔
    list.Pairwise Declaration.IsBelow ∧
      ∀ declaration, declaration ∈ list ↔ declaration ∈ declarations := by
  constructor
  · rintro rfl
    exact ⟨pairwise_canonical declarations, fun _ => mem_canonical⟩
  · intro holds
    rcases holds with ⟨ascending, same⟩
    refine ascending.eq_of_mem_iff (pairwise_canonical declarations) ?_
    intro declaration
    rw [same, mem_canonical]

theorem canonical_canonical (declarations : List Declaration) :
    canonical (canonical declarations) = canonical declarations :=
  canonical_eq_iff.mpr fun _ => mem_canonical

end

/-! ## Content -/

/-- Declarations as any are that fit into a memory with addresses of 64 bits. -/
structure Declaration.AllSized (declarations : List Declaration) : Prop where
  length : declarations.length < UInt64.size
  each : ∀ declaration ∈ declarations, declaration.Sized

instance (declarations : List Declaration) : Decidable (Declaration.AllSized declarations) :=
  decidable_of_iff
    (declarations.length < UInt64.size ∧ ∀ declaration ∈ declarations, declaration.Sized)
    ⟨fun holds => ⟨holds.1, holds.2⟩, fun sized => ⟨sized.length, sized.each⟩⟩

section

variable {declarations others : List Declaration}

theorem Declaration.AllSized.canonical (sized : AllSized declarations) :
    AllSized (canonical declarations) where
  length := Nat.lt_of_le_of_lt (length_canonical_le declarations) sized.length
  each declaration member := sized.each declaration (mem_of_mem_canonical member)

theorem content_canonical_eq_iff (sized : Declaration.AllSized declarations)
    (otherSized : Declaration.AllSized others) :
    Signature.content (canonical declarations) = Signature.content (canonical others) ↔
      declarationSet declarations = declarationSet others := by
  rw [← canonical_eq_iff_declarationSet]
  constructor
  · exact Signature.content_inj sized.canonical.length sized.canonical.each
      otherSized.canonical.length otherSized.canonical.each
  · exact congrArg Signature.content

/-- The bytes that are hashed for declarations tell their set, and no more. They are made from the
one list that holds the declarations of this set in strictly ascending order. -/
theorem content_tells_declarationSet (sized : Declaration.AllSized declarations)
    (otherSized : Declaration.AllSized others) :
    (Signature.ofDeclarations declarations).bytes =
        Sha256.digest (Signature.content (canonical declarations)) ∧
      (Signature.content (canonical declarations) = Signature.content (canonical others) ↔
        declarationSet declarations = declarationSet others) ∧
      (∀ list, list = canonical declarations ↔ list.Pairwise Declaration.IsBelow ∧
        ∀ declaration, declaration ∈ list ↔ declaration ∈ declarations) ∧
      canonical (canonical declarations) = canonical declarations ∧
      (declarationSet declarations = declarationSet others →
        canonical declarations = canonical others) :=
  ⟨rfl, content_canonical_eq_iff sized otherSized, fun _ => eq_canonical_iff,
    canonical_canonical declarations, canonical_eq_iff_declarationSet.mpr⟩

/-- A repetition and the order do not show in the bytes, but the end of a property does. -/
theorem content_tells_repeated :
    let declared : List Declaration := [⟨"margin", "0"⟩, ⟨"ab", "c"⟩, ⟨"margin", "0"⟩]
    let reordered : List Declaration := [⟨"ab", "c"⟩, ⟨"margin", "0"⟩]
    let shifted : List Declaration := [⟨"a", "bc"⟩, ⟨"margin", "0"⟩]
    Declaration.AllSized declared ∧ Declaration.AllSized reordered ∧
      Declaration.AllSized shifted ∧
      Signature.content (canonical declared) = Signature.content (canonical reordered) ∧
      Signature.content (canonical declared) ≠ Signature.content (canonical shifted) ∧
      canonical declared = reordered := by
  intro declared reordered shifted
  have sized : Declaration.AllSized declared := by decide +kernel
  have reorderedSized : Declaration.AllSized reordered := by decide +kernel
  have shiftedSized : Declaration.AllSized shifted := by decide +kernel
  have ascending : reordered.Pairwise Declaration.IsBelow ∧
      ∀ declaration, declaration ∈ reordered ↔ declaration ∈ declared := by
    refine ⟨List.pairwise_pair.mpr (.inl (by decide)), fun declaration => ?_⟩
    simp only [reordered, declared, List.mem_cons, List.not_mem_nil]
    tauto
  refine ⟨sized, reorderedSized, shiftedSized, ?_, ?_, ?_⟩
  · exact (content_tells_declarationSet sized reorderedSized).2.1.mpr (by decide)
  · intro same
    exact absurd ((content_tells_declarationSet sized shiftedSized).2.1.mp same) (by decide)
  · exact (((content_tells_declarationSet sized reorderedSized).2.2.1 reordered).mpr ascending).symm

end

/-! ## Signatures -/

/-- Nodes of a tree without collisions have one signature just if they declare one set. -/
theorem StyleTree.CollisionFree.signature_eq_iff {tree : StyleTree}
    (collisionFree : tree.CollisionFree) (sized : tree.Sized) {visit other : Visit}
    (isVisit : visit ∈ tree.walk) (otherIsVisit : other ∈ tree.walk) :
    Signature.ofDeclarations visit.node.declarations =
        Signature.ofDeclarations other.node.declarations ↔
      declarationSet visit.node.declarations = declarationSet other.node.declarations := by
  rw [← canonical_eq_iff_declarationSet]
  constructor
  · exact collisionFree.canonical_eq sized isVisit otherIsVisit
  · exact congrArg Signature.ofCanonical

end Stylebook
