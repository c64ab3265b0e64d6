import Mathlib.Data.List.Forall2
import Stylebook.Proofs.Analysis.Canonical
import Stylebook.Proofs.Analysis.Ranking

/-!
What the searches count. For as long as no two digests collide, each search has one pattern for
each declaration set that enough nodes have, among all nodes or among siblings, and the pattern
occurs at just these nodes.
-/

namespace Stylebook

/-! ## Nodes that declare a set -/

def pathsAmong (scope : Visit → Option NodePath) (visits : List Visit) (within : Option NodePath)
    (declared : Finset Declaration) : List NodePath :=
  (visits.filter fun visit => decide
    (scope visit = within ∧ declarationSet visit.node.declarations = declared)).map Visit.path

namespace StyleTree

def pathsDeclaring (tree : StyleTree) (declared : Finset Declaration) : List NodePath :=
  (tree.walk.filter fun visit =>
    decide (declarationSet visit.node.declarations = declared)).map Visit.path

/-- The paths of siblings that declare a set. Roots are siblings without a parent. -/
def siblingPathsDeclaring (tree : StyleTree) (parent : Option NodePath)
    (declared : Finset Declaration) : List NodePath :=
  (tree.pathsDeclaring declared).filter fun path => decide (path.parent? = parent)

variable {tree : StyleTree} {declared : Finset Declaration} {path : NodePath}

theorem mem_pathsDeclaring : path ∈ tree.pathsDeclaring declared ↔
    ∃ node, tree.node? path = some node ∧ declarationSet node.declarations = declared := by
  simp only [pathsDeclaring, List.mem_map, List.mem_filter, decide_eq_true_iff]
  constructor
  · intro holds
    rcases holds with ⟨visit, ⟨isVisit, isSet⟩, rfl⟩
    exact ⟨visit.node, (mem_walk_iff.mp isVisit).1, isSet⟩
  · intro holds
    rcases holds with ⟨node, found, isSet⟩
    exact ⟨⟨node, path, tree.lineage path⟩, ⟨mem_walk_iff.mpr ⟨found, rfl⟩, isSet⟩, rfl⟩

theorem mem_siblingPathsDeclaring {parent : Option NodePath} :
    path ∈ tree.siblingPathsDeclaring parent declared ↔
      path ∈ tree.pathsDeclaring declared ∧ path.parent? = parent := by
  rw [siblingPathsDeclaring, List.mem_filter, decide_eq_true_iff]

end StyleTree

/-! ## Patterns of declaration sets -/

structure Pattern.Collects (pattern : Pattern) (declared : Finset Declaration)
    (paths : List NodePath) : Prop where
  declared : declarationSet pattern.declarations = declared
  ascending : pattern.declarations.Pairwise Declaration.IsBelow
  signature : pattern.signature = .ofCanonical pattern.declarations
  paths : pattern.paths = paths
  frequency : pattern.frequency = pattern.occurrences.length

theorem Pattern.Collects.length_paths {pattern : Pattern} {declared : Finset Declaration}
    {paths : List NodePath} (collects : pattern.Collects declared paths) :
    pattern.frequency = paths.length := by
  rw [collects.frequency, ← List.length_map (f := Occurrence.path)]
  exact congrArg List.length collects.paths

section

variable {tree : StyleTree} (sized : tree.Sized) (collisionFree : tree.CollisionFree)
  {scope : Visit → Option NodePath} {options : Options} {visits : List Visit}
  (visited : ∀ visit ∈ visits, visit ∈ tree.walk)

include sized collisionFree visited

theorem map_path_visitsWith {visit : Visit} (isVisit : visit ∈ declaring visits) :
    (visitsWith scope visits (visit.key scope)).map Visit.path =
      pathsAmong scope visits (scope visit) (declarationSet visit.node.declarations) := by
  rcases mem_declaring.mp isVisit with ⟨member, declares⟩
  rw [visitsWith, declaring, List.filter_filter, pathsAmong]
  refine congrArg (List.map Visit.path) (List.filter_congr fun other isOther => ?_)
  rw [Bool.eq_iff_iff, Bool.and_eq_true, beq_iff_eq, decide_eq_true_iff, Visit.key, Visit.key,
    Prod.mk.injEq,
    collisionFree.signature_eq_iff sized (visited other isOther) (visited visit member)]
  refine ⟨And.left, fun same => ⟨same, ?_⟩⟩
  -- A node that declares nothing has another set than the one visited.
  rw [Bool.not_eq_true', List.isEmpty_eq_false_iff]
  intro empty
  have nothing := same.2
  rw [empty, declarationSet, declarationSet, List.toFinset_nil, eq_comm,
    List.toFinset_eq_empty_iff] at nothing
  exact declares nothing

theorem Pattern.StandsFor.collects {pattern : Pattern} {visit : Visit}
    (isVisit : visit ∈ declaring visits)
    (standsFor : pattern.StandsFor (sightings scope visits) (visit.key scope)) :
    pattern.Collects (declarationSet visit.node.declarations)
      (pathsAmong scope visits (scope visit) (declarationSet visit.node.declarations)) := by
  rcases standsFor.exists_visit_of_declarations with
    ⟨first, isFirst, isCanonical, isSignature⟩
  have sameSet : declarationSet first.node.declarations =
      declarationSet visit.node.declarations := by
    rw [← collisionFree.signature_eq_iff sized (visited first (mem_declaring.mp isFirst).1)
      (visited visit (mem_declaring.mp isVisit).1), isSignature]
    exact standsFor.signature
  constructor
  · rw [← isCanonical, declarationSet_canonical, sameSet]
  · rw [← isCanonical]
    exact pairwise_canonical _
  · rw [← isCanonical, ← isSignature]
    rfl
  · rw [standsFor.paths_eq, map_path_visitsWith sized collisionFree visited isVisit]
  · exact standsFor.frequency

theorem collects_of_mem_search {pattern : Pattern} (found : pattern ∈ search scope options visits) :
    ∃ visit ∈ declaring visits,
      pattern.Collects (declarationSet visit.node.declarations)
        (pathsAmong scope visits (scope visit) (declarationSet visit.node.declarations)) ∧
      options.minimumFrequency ≤ pattern.frequency := by
  rcases mem_search found with ⟨⟨key, standsFor⟩, frequent⟩
  rcases standsFor.declarations with ⟨sighting, isSighting, isKey, -⟩
  rcases mem_sightings.mp isSighting with ⟨visit, isVisit, rfl⟩
  subst key
  exact ⟨visit, isVisit, standsFor.collects sized collisionFree visited isVisit, frequent⟩

theorem exists_mem_search_collects {visit : Visit} (isVisit : visit ∈ declaring visits)
    (frequent : options.minimumFrequency ≤ (pathsAmong scope visits (scope visit)
      (declarationSet visit.node.declarations)).length) :
    ∃ pattern ∈ search scope options visits,
      pattern.Collects (declarationSet visit.node.declarations)
        (pathsAmong scope visits (scope visit) (declarationSet visit.node.declarations)) := by
  rw [← map_path_visitsWith sized collisionFree visited isVisit, List.length_map] at frequent
  rcases exists_mem_search isVisit frequent with ⟨pattern, found, standsFor⟩
  exact ⟨pattern, found, standsFor.collects sized collisionFree visited isVisit⟩

end

/-! ## One pattern for each set -/

def OnePerKey {Key : Type} (wanted : Key → Prop) (IsOf : Key → Pattern → Prop)
    (patterns : List Pattern) : Prop :=
  ∃ keys : List Key, keys.Nodup ∧ (∀ key, key ∈ keys ↔ wanted key) ∧
    List.Forall₂ IsOf keys patterns

theorem onePerKey_of_keyOf {Key : Type} {wanted : Key → Prop} {IsOf : Key → Pattern → Prop}
    {patterns : List Pattern} (keyOf : Pattern → Key)
    (isOf_iff : ∀ pattern ∈ patterns, ∀ key, IsOf key pattern ↔ key = keyOf pattern)
    (wanted_iff : ∀ key, wanted key ↔ ∃ pattern ∈ patterns, IsOf key pattern)
    (different : patterns.Pairwise fun first second => keyOf first ≠ keyOf second) :
    OnePerKey wanted IsOf patterns := by
  refine ⟨patterns.map keyOf, List.pairwise_map.mpr different, fun key => ?_, ?_⟩
  · rw [wanted_iff, List.mem_map]
    refine exists_congr fun pattern => and_congr_right fun member => ?_
    rw [isOf_iff pattern member, eq_comm]
  · rw [List.forall₂_map_left_iff, List.forall₂_same]
    exact fun pattern member => (isOf_iff pattern member _).mpr rfl

theorem OnePerKey.exists_pattern {Key : Type} {wanted : Key → Prop} {IsOf : Key → Pattern → Prop}
    {patterns : List Pattern} (onePerKey : OnePerKey wanted IsOf patterns) {key : Key}
    (isWanted : wanted key) : ∃ pattern ∈ patterns, IsOf key pattern := by
  rcases onePerKey with ⟨keys, -, wanted_iff, related⟩
  have member := (wanted_iff key).mpr isWanted
  clear wanted_iff
  induction related with
  | nil => cases member
  | cons isOf _ induction =>
      rcases List.mem_cons.mp member with rfl | later
      · exact ⟨_, List.mem_cons_self, isOf⟩
      · rcases induction later with ⟨pattern, isPattern, isOf⟩
        exact ⟨pattern, List.mem_cons_of_mem _ isPattern, isOf⟩

theorem OnePerKey.map {Key Other : Type} {wanted : Key → Prop} {IsOf : Key → Pattern → Prop}
    {otherWanted : Other → Prop} {IsOfOther : Other → Pattern → Prop} {patterns : List Pattern}
    (onePerKey : OnePerKey wanted IsOf patterns) (toOther : Key → Other)
    (injective : ∀ key other, wanted key → wanted other → toOther key = toOther other → key = other)
    (wanted_iff : ∀ other, otherWanted other ↔ ∃ key, wanted key ∧ toOther key = other)
    (isOf : ∀ key pattern, wanted key → IsOf key pattern → IsOfOther (toOther key) pattern) :
    OnePerKey otherWanted IsOfOther patterns := by
  rcases onePerKey with ⟨keys, distinct, isWanted, related⟩
  refine ⟨keys.map toOther, ?_, fun other => ?_, ?_⟩
  · refine List.Nodup.map_on (fun key isKey other isOther => ?_) distinct
    exact injective key other ((isWanted key).mp isKey) ((isWanted other).mp isOther)
  · rw [wanted_iff, List.mem_map]
    simp only [isWanted]
  · rw [List.forall₂_map_left_iff]
    have allWanted : ∀ key ∈ keys, wanted key := fun key => (isWanted key).mp
    refine ((List.forall₂_and_left _ _).mpr ⟨allWanted, related⟩).imp fun key pattern holds => ?_
    exact isOf key pattern holds.1 holds.2

def Pattern.keyWithin (within : NodePath → Option NodePath) (pattern : Pattern) :
    Option NodePath × Finset Declaration :=
  (pattern.paths.head?.bind within, declarationSet pattern.declarations)

section

variable {within : NodePath → Option NodePath} {visits : List Visit}

theorem mem_pathsAmong {scope : Visit → Option NodePath} {place : Option NodePath}
    {declared : Finset Declaration} {path : NodePath} :
    path ∈ pathsAmong scope visits place declared ↔
      ∃ visit ∈ visits, scope visit = place ∧
        declarationSet visit.node.declarations = declared ∧ visit.path = path := by
  simp only [pathsAmong, List.mem_map, List.mem_filter, decide_eq_true_iff, and_assoc]

theorem Pattern.Collects.keyWithin_eq {pattern : Pattern} {place : Option NodePath}
    {declared : Finset Declaration}
    (collects : pattern.Collects declared
      (pathsAmong (fun visit => within visit.path) visits place declared))
    (occurs : pattern.paths ≠ []) : pattern.keyWithin within = (place, declared) := by
  rw [keyWithin, collects.declared]
  cases paths : pattern.paths with
  | nil => exact absurd paths occurs
  | cons path rest =>
      have isPath : path ∈ pattern.paths := paths ▸ List.mem_cons_self
      rw [collects.paths] at isPath
      rcases mem_pathsAmong.mp isPath with ⟨visit, -, isPlace, -, rfl⟩
      exact congrArg (·, declared) isPlace

variable {tree : StyleTree} (sized : tree.Sized) (collisionFree : tree.CollisionFree)
  {options : Options} (valid : options.Valid)
  (visited : ∀ visit ∈ visits, visit ∈ tree.walk) (distinct : (visits.map Visit.path).Nodup)

include sized collisionFree valid visited distinct

theorem onePerKey_search (within : NodePath → Option NodePath) :
    OnePerKey
      (fun key : Option NodePath × Finset Declaration => key.2.Nonempty ∧
        options.minimumFrequency ≤
          (pathsAmong (fun visit => within visit.path) visits key.1 key.2).length)
      (fun key pattern => pattern.Collects key.2
        (pathsAmong (fun visit => within visit.path) visits key.1 key.2))
      (search (fun visit => within visit.path) options visits) := by
  have occurs : ∀ pattern ∈ search (fun visit => within visit.path) options visits,
      pattern.paths ≠ [] := by
    intro pattern member
    rw [Pattern.paths, ne_eq, List.map_eq_nil_iff]
    exact occurrences_ne_nil_of_mem_search member
  have isOf : ∀ pattern ∈ search (fun visit => within visit.path) options visits,
      pattern.Collects (pattern.keyWithin within).2 (pathsAmong (fun visit => within visit.path)
          visits (pattern.keyWithin within).1 (pattern.keyWithin within).2) ∧
        (pattern.keyWithin within).2.Nonempty ∧ options.minimumFrequency ≤ pattern.frequency := by
    intro pattern member
    rcases collects_of_mem_search sized collisionFree visited member with
      ⟨visit, isVisit, collects, frequent⟩
    rw [collects.keyWithin_eq (occurs pattern member)]
    refine ⟨collects, ?_, frequent⟩
    rw [declarationSet, List.toFinset_nonempty_iff]
    exact (mem_declaring.mp isVisit).2
  refine onePerKey_of_keyOf (Pattern.keyWithin within) ?_ ?_ ?_
  · intro pattern member key
    constructor
    · exact fun collects => (collects.keyWithin_eq (occurs pattern member)).symm
    · rintro rfl
      exact (isOf pattern member).1
  · intro key
    constructor
    · intro holds
      rcases holds with ⟨nonempty, frequent⟩
      have positive := Nat.lt_of_lt_of_le valid.frequency frequent
      rcases List.exists_mem_of_length_pos positive with ⟨path, isPath⟩
      rcases mem_pathsAmong.mp isPath with ⟨visit, isVisit, isPlace, isSet, -⟩
      have declares : visit ∈ declaring visits := by
        refine mem_declaring.mpr ⟨isVisit, ?_⟩
        rw [← isSet, declarationSet, List.toFinset_nonempty_iff] at nonempty
        exact nonempty
      rw [← isPlace, ← isSet] at frequent ⊢
      exact exists_mem_search_collects sized collisionFree visited declares frequent
    · intro holds
      rcases holds with ⟨pattern, member, collects⟩
      rcases isOf pattern member with ⟨-, nonempty, frequent⟩
      rw [collects.keyWithin_eq (occurs pattern member)] at nonempty
      rw [collects.length_paths] at frequent
      exact ⟨nonempty, frequent⟩
  · refine (pairwise_disjoint_search distinct).imp_of_mem ?_
    intro first second isFirst isSecond apart same
    rcases List.exists_mem_of_ne_nil _ (occurs first isFirst) with ⟨path, onPath⟩
    refine apart onPath ?_
    rw [(isOf second isSecond).1.paths, ← same, ← (isOf first isFirst).1.paths]
    exact onPath

end

/-! ## The searches of a tree -/

namespace StyleTree

variable {tree : StyleTree}

theorem pathsAmong_walk (declared : Finset Declaration) :
    pathsAmong (fun _ => none) tree.walk none declared = tree.pathsDeclaring declared := by
  simp only [pathsAmong, pathsDeclaring, true_and]

/-- Siblings are at one depth, so a ceiling keeps all of them or none. -/
theorem pathsAmong_walkWithin {ceiling : Nat} {parent : Option NodePath}
    {declared : Finset Declaration} :
    pathsAmong (fun visit => visit.path.parent?) (tree.walkWithin ceiling) parent declared =
      (tree.siblingPathsDeclaring parent declared).filter
        fun path => decide (path.depth ≤ ceiling) := by
  rw [pathsAmong, siblingPathsDeclaring, pathsDeclaring, walkWithin_eq_filter, List.filter_filter,
    List.filter_map, List.filter_map, List.filter_filter, List.filter_filter]
  refine congrArg (List.map Visit.path) (List.filter_congr fun visit _ => ?_)
  rw [Bool.eq_iff_iff]
  simp only [Function.comp_apply, Bool.and_eq_true, decide_eq_true_iff, and_assoc]
  exact and_rotate.symm

theorem depth_eq_of_siblings {declared : Finset Declaration} {parent : Option NodePath}
    {path other : NodePath} (isPath : path ∈ tree.siblingPathsDeclaring parent declared)
    (isOther : other ∈ tree.siblingPathsDeclaring parent declared) : path.depth = other.depth := by
  rcases mem_siblingPathsDeclaring.mp isPath with ⟨isPath, isParent⟩
  rcases mem_siblingPathsDeclaring.mp isOther with ⟨isOther, otherIsParent⟩
  rcases mem_pathsDeclaring.mp isPath with ⟨node, found, -⟩
  rcases mem_pathsDeclaring.mp isOther with ⟨otherNode, otherFound, -⟩
  have same := isParent.trans otherIsParent.symm
  match path, other, ne_nil_of_node? found, ne_nil_of_node? otherFound with
  | [_], [_], _, _ => rfl
  | [_], _ :: _ :: _, _, _ => cases same
  | _ :: _ :: _, [_], _, _ => cases same
  | _ :: _ :: _, _ :: _ :: _, _, _ =>
      have lengths := congrArg List.length (Option.some.inj same)
      simp only [List.length_dropLast] at lengths
      simpa [NodePath.depth] using lengths

def Repeats (tree : StyleTree) (options : Options) (declared : Finset Declaration) : Prop :=
  declared.Nonempty ∧ options.minimumFrequency ≤ (tree.pathsDeclaring declared).length

/-- The set is not empty, and enough siblings with the parent have it, at a depth down to which
siblings are compared. -/
def RepeatsAmong (tree : StyleTree) (options : Options)
    (group : Option NodePath × Finset Declaration) : Prop :=
  group.2.Nonempty ∧
    (∀ path ∈ tree.siblingPathsDeclaring group.1 group.2, path.depth ≤ options.maximumDepth) ∧
    options.minimumFrequency ≤ (tree.siblingPathsDeclaring group.1 group.2).length

theorem repeatsAmong_iff {options : Options} (valid : options.Valid)
    {group : Option NodePath × Finset Declaration} :
    tree.RepeatsAmong options group ↔ group.2.Nonempty ∧ options.minimumFrequency ≤
      (pathsAmong (fun visit => visit.path.parent?) (tree.walkWithin options.maximumDepth)
        group.1 group.2).length := by
  rw [RepeatsAmong, pathsAmong_walkWithin]
  refine and_congr_right fun _ => ⟨fun holds => ?_, fun frequent => ?_⟩
  · rw [List.filter_eq_self.mpr fun path isPath => decide_eq_true (holds.1 path isPath)]
    exact holds.2
  · -- One of the siblings is not too deep, so none of them is.
    have positive := Nat.lt_of_lt_of_le valid.frequency frequent
    rcases List.exists_mem_of_length_pos positive with ⟨path, isPath⟩
    rw [List.mem_filter, decide_eq_true_iff] at isPath
    refine ⟨fun other isOther => ?_, Nat.le_trans frequent (List.length_filter_le _ _)⟩
    rw [depth_eq_of_siblings isOther isPath.1]
    exact isPath.2

section

variable (sized : tree.Sized) (collisionFree : tree.CollisionFree) {options : Options}
  (valid : options.Valid)

include sized collisionFree valid

theorem onePerKey_generalPatterns :
    OnePerKey (tree.Repeats options)
      (fun declared pattern => pattern.Collects declared (tree.pathsDeclaring declared))
      (tree.generalPatterns options) := by
  have everywhere : ∀ key : Option NodePath × Finset Declaration, options.minimumFrequency ≤
      (pathsAmong (fun _ => none) tree.walk key.1 key.2).length → key = (none, key.2) := by
    intro key frequent
    have positive := Nat.lt_of_lt_of_le valid.frequency frequent
    rcases List.exists_mem_of_length_pos positive with ⟨path, isPath⟩
    rcases mem_pathsAmong.mp isPath with ⟨visit, -, isPlace, -⟩
    exact congrArg (·, key.2) isPlace.symm
  have onePerKey := onePerKey_search sized collisionFree valid (fun _ => id)
    tree.nodup_map_path_walk fun _ => none
  refine onePerKey.map Prod.snd ?_ ?_ ?_
  · intro key other holds otherHolds same
    rw [everywhere key holds.2, everywhere other otherHolds.2, same]
  · intro declared
    rw [Repeats, ← pathsAmong_walk]
    constructor
    · exact fun holds => ⟨(none, declared), holds, rfl⟩
    · rintro ⟨key, holds, rfl⟩
      rwa [everywhere key holds.2] at holds
  · intro key pattern holds collects
    rwa [everywhere key holds.2, pathsAmong_walk] at collects

theorem onePerKey_siblingPatterns :
    OnePerKey (tree.RepeatsAmong options)
      (fun group pattern =>
        pattern.Collects group.2 (tree.siblingPathsDeclaring group.1 group.2))
      (tree.siblingPatterns options) := by
  have onePerKey := onePerKey_search sized collisionFree valid
    (fun _ isVisit => (mem_walkWithin.mp isVisit).1)
    (tree.nodup_map_path_walkWithin options.maximumDepth) NodePath.parent?
  refine onePerKey.map id (fun _ _ _ _ same => same) ?_ ?_
  · intro group
    rw [repeatsAmong_iff valid]
    simp only [id_eq, exists_eq_right]
  · intro group pattern holds collects
    rcases (repeatsAmong_iff valid).mpr holds with ⟨-, notTooDeep, -⟩
    rwa [pathsAmong_walkWithin, List.filter_eq_self.mpr fun path isPath =>
      decide_eq_true (notTooDeep path isPath)] at collects

end

end StyleTree

/-- For as long as no two digests collide, the search among all nodes has one pattern for each
declaration set that enough nodes have. The search among siblings has one for each group of
siblings that are not too deep and each set that enough of them have. Their order is the only
one in which more frequent patterns come first, and then those that occur first. -/
theorem repetitions_of_collisionFree {tree : StyleTree} (sized : tree.Sized)
    (collisionFree : tree.CollisionFree) {options : Options} (valid : options.Valid) :
    OnePerKey (tree.Repeats options)
        (fun declared pattern => pattern.Collects declared (tree.pathsDeclaring declared))
        (tree.generalPatterns options) ∧
      OnePerKey (tree.RepeatsAmong options)
        (fun group pattern =>
          pattern.Collects group.2 (tree.siblingPathsDeclaring group.1 group.2))
        (tree.siblingPatterns options) ∧
      Ranked (tree.generalPatterns options) ∧ Ranked (tree.siblingPatterns options) :=
  ⟨StyleTree.onePerKey_generalPatterns sized collisionFree valid,
    StyleTree.onePerKey_siblingPatterns sized collisionFree valid,
    ranked_search tree.nodup_map_path_walk, ranked_search (tree.nodup_map_path_walkWithin _)⟩

def reorderedItems : StyleTree :=
  let color : Declaration := ⟨"color", "red"⟩
  let margin : Declaration := ⟨"margin", "0"⟩
  ⟨[⟨".first", [color, margin], [⟨"&:hover", [margin, color, margin], []⟩]⟩,
    ⟨".second", [margin, color], []⟩, ⟨".last", [margin], []⟩], none⟩

theorem collisionFree_reorderedItems : reorderedItems.CollisionFree := by
  let both : List Declaration := [⟨"color", "red"⟩, ⟨"margin", "0"⟩]
  have canonical_both : canonical both = both := by
    rw [canonical, List.mergeSort_of_pairwise (by decide)]
    rfl
  have sets : ∀ visit ∈ reorderedItems.walk,
      declarationSet visit.node.declarations = declarationSet both ∨
        visit.node.declarations = [⟨"margin", "0"⟩] := by
    decide +kernel
  have canonicals : ∀ visit ∈ reorderedItems.walk,
      canonical visit.node.declarations = both ∨
        canonical visit.node.declarations = [⟨"margin", "0"⟩] := by
    intro visit isVisit
    rcases sets visit isVisit with sameSet | alone
    · exact .inl ((canonical_eq_iff_declarationSet.mpr sameSet).trans canonical_both)
    · rw [alone]
      exact .inr (by decide +kernel)
  intro visit isVisit other isOther same
  rcases canonicals visit isVisit with isBoth | isAlone <;>
    rcases canonicals other isOther with otherIsBoth | otherIsAlone
  · rw [isBoth, otherIsBoth]
  · rw [isBoth, otherIsAlone] at same
    exact absurd same (by decide +kernel)
  · rw [isAlone, otherIsBoth] at same
    exact absurd same (by decide +kernel)
  · rw [isAlone, otherIsAlone]

theorem repetitions_of_reorderedItems :
    reorderedItems.Sized ∧ reorderedItems.CollisionFree ∧ ({} : Options).Valid ∧
      (∃ pattern ∈ reorderedItems.generalPatterns {},
        pattern.paths = [[0], [0, 0], [1]] ∧ pattern.frequency = 3) ∧
      ∃ pattern ∈ reorderedItems.siblingPatterns {},
        pattern.paths = [[0], [1]] ∧ pattern.frequency = 2 := by
  let declared : Finset Declaration := {⟨"color", "red"⟩, ⟨"margin", "0"⟩}
  have sized : reorderedItems.Sized := by decide +kernel
  have repeated : reorderedItems.Repeats {} declared := ⟨by decide, by decide +kernel⟩
  have repeatedAmong : reorderedItems.RepeatsAmong {} (none, declared) :=
    ⟨by decide, by decide +kernel, by decide +kernel⟩
  have everywhere : reorderedItems.pathsDeclaring declared = [[0], [0, 0], [1]] := by
    decide +kernel
  have among : reorderedItems.siblingPathsDeclaring none declared = [[0], [1]] := by
    decide +kernel
  rcases repetitions_of_collisionFree sized collisionFree_reorderedItems Options.valid_default with
    ⟨general, siblings, -, -⟩
  refine ⟨sized, collisionFree_reorderedItems, Options.valid_default, ?_, ?_⟩
  · rcases general.exists_pattern repeated with ⟨pattern, member, collects⟩
    rw [everywhere] at collects
    exact ⟨pattern, member, collects.paths, collects.length_paths⟩
  · rcases siblings.exists_pattern repeatedAmong with ⟨pattern, member, collects⟩
    rw [among] at collects
    exact ⟨pattern, member, collects.paths, collects.length_paths⟩

end Stylebook
