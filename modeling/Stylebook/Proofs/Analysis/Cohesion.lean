import Mathlib.Data.Set.Defs
import Stylebook.Proofs.Analysis.Clusters

/-!
The cohesion of a cluster in terms of declarations. Patterns are compared by the tokens of their
declarations, and two declarations have the same token if the one has its colon where the other has
a colon in its value. Where no two declarations of the members are alike in this way, the cohesion
is the least similarity of two members as sets of declarations.
-/

namespace Stylebook

/-! ## Tokens -/

/-- The property of the second declaration goes on with the beginning of the value of the first, up
to a colon in it. -/
def Declaration.Shifts (first second : Declaration) : Prop :=
  ∃ moved : String, second.property = first.property ++ ":" ++ moved ∧
    first.value = moved ++ ":" ++ second.value

section

variable {first second : Declaration}

theorem toList_declarationToken (declaration : Declaration) :
    (declarationToken declaration).toList =
      declaration.property.toList ++ ':' :: declaration.value.toList := by
  simp [declarationToken]

theorem Declaration.Shifts.token_eq (shifts : first.Shifts second) :
    declarationToken first = declarationToken second := by
  rcases shifts with ⟨moved, property, value⟩
  simp only [declarationToken, property, value, String.append_assoc]

theorem Declaration.Shifts.ne (shifts : first.Shifts second) : first ≠ second := by
  rintro rfl
  rcases shifts with ⟨moved, property, -⟩
  have lengths := congrArg String.length property
  simp only [String.length_append] at lengths
  have colon : ":".length = 1 := rfl
  omega

theorem Declaration.Shifts.colon_mem (shifts : first.Shifts second) :
    ':' ∈ second.property.toList ∧ ':' ∈ first.value.toList := by
  rcases shifts with ⟨moved, property, value⟩
  simp [property, value]

theorem Declaration.eq_or_shifts {moved : List Char}
    (property : second.property.toList = first.property.toList ++ moved)
    (value : ':' :: first.value.toList = moved ++ ':' :: second.value.toList) :
    first = second ∨ first.Shifts second := by
  rcases first with ⟨firstProperty, firstValue⟩
  rcases second with ⟨secondProperty, secondValue⟩
  cases moved with
  | nil =>
      rw [List.append_nil, String.toList_inj] at property
      rw [List.nil_append, List.cons.injEq, String.toList_inj] at value
      exact .inl (by rw [Declaration.mk.injEq]; exact ⟨property.symm, value.2⟩)
  | cons colon moved =>
      rw [List.cons_append, List.cons.injEq] at value
      rcases value with ⟨rfl, value⟩
      refine .inr ⟨.ofList moved, ?_, ?_⟩
      · rw [← String.toList_inj]
        simpa using property
      · rw [← String.toList_inj]
        simpa using value

theorem declarationToken_eq_iff :
    declarationToken first = declarationToken second ↔
      first = second ∨ first.Shifts second ∨ second.Shifts first := by
  constructor
  · intro same
    rw [← String.toList_inj, toList_declarationToken, toList_declarationToken,
      List.append_eq_append_iff] at same
    rcases same with ⟨moved, property, value⟩ | ⟨moved, property, value⟩
    · rcases Declaration.eq_or_shifts property value with same | shifts
      · exact .inl same
      · exact .inr (.inl shifts)
    · rcases Declaration.eq_or_shifts property value with same | shifts
      · exact .inl same.symm
      · exact .inr (.inr shifts)
  · rintro (rfl | shifts | shifts)
    · rfl
    · exact shifts.token_eq
    · exact shifts.token_eq.symm

end

/-! ## Sets -/

namespace Similarity

variable {α β : Type} [BEq α] [LawfulBEq α] [BEq β] [LawfulBEq β] {result : α → β}

theorem eraseDups_map : ∀ {items : List α},
    (∀ item ∈ items, ∀ other ∈ items, result item = result other → item = other) →
      (items.map result).eraseDups = items.eraseDups.map result
  | [], _ => rfl
  | head :: rest, injective => by
      have others : (rest.map result).filter (fun value => !value == result head) =
          (rest.filter fun item => !item == head).map result := by
        rw [List.filter_map]
        congr 1
        refine List.filter_congr fun item member => congrArg not ?_
        have same : result item = result head ↔ item = head :=
          ⟨injective item (.tail _ member) head (.head _), congrArg result⟩
        rw [Bool.eq_iff_iff, beq_iff_eq, beq_iff_eq, same]
      rw [List.map_cons, List.eraseDups_cons, List.eraseDups_cons, others, List.map_cons,
        eraseDups_map]
      intro item member other isOther
      exact injective item (.tail _ (List.mem_of_mem_filter member)) other
        (.tail _ (List.mem_of_mem_filter isOther))
termination_by items => items.length
decreasing_by exact Nat.lt_succ_of_le (List.length_filter_le _ _)

theorem jaccard_map {first second : List α}
    (injective : ∀ item ∈ first, ∀ other ∈ second, result item = result other → item = other) :
    jaccard (first.map result) (second.map result) = jaccard first second := by
  have shared : (first.map result).countP ((second.map result).contains ·) =
      first.countP (second.contains ·) := by
    rw [List.countP_map]
    refine List.countP_congr fun item member => ?_
    simp only [Function.comp_apply, List.contains_iff_mem, List.mem_map]
    constructor
    · rintro ⟨other, isOther, same⟩
      rwa [injective item member other isOther same.symm]
    · exact fun isOther => ⟨item, isOther, rfl⟩
  simp only [jaccard, shared, List.length_map]

theorem jaccard_singleton_self (item : α) : jaccard [item] [item] = one := by
  have shared : [item].countP ([item].contains ·) = 1 := by simp
  simp only [jaccard, shared, List.length_singleton]
  decide

theorem jaccard_singleton_of_ne {item other : α} (different : item ≠ other) :
    jaccard [item] [other] = 0 := by
  have shared : [item].countP ([other].contains ·) = 0 := by simpa using different
  simp only [jaccard, shared, List.length_singleton]
  decide

end Similarity

/-! ## Patterns -/

def tokenSimilarity (first second : Pattern) : Similarity :=
  .jaccard (tokenSet first) (tokenSet second)

def declarationSimilarity (first second : Pattern) : Similarity :=
  .jaccard first.declarations.eraseDups second.declarations.eraseDups

theorem tokenSimilarity_eq {first second : Pattern}
    (injective : ∀ declaration ∈ first.declarations ++ second.declarations,
      ∀ other ∈ first.declarations ++ second.declarations,
        declarationToken declaration = declarationToken other → declaration = other) :
    tokenSimilarity first second = declarationSimilarity first second := by
  have inFirst : ∀ declaration ∈ first.declarations,
      declaration ∈ first.declarations ++ second.declarations :=
    fun _ member => List.mem_append_left _ member
  have inSecond : ∀ declaration ∈ second.declarations,
      declaration ∈ first.declarations ++ second.declarations :=
    fun _ member => List.mem_append_right _ member
  rw [tokenSimilarity, declarationSimilarity, tokenSet, tokenSet, Similarity.eraseDups_map,
    Similarity.eraseDups_map, Similarity.jaccard_map]
  · intro declaration member other isOther
    exact injective _ (inFirst _ (List.mem_eraseDups.mp member)) _
      (inSecond _ (List.mem_eraseDups.mp isOther))
  · intro declaration member other isOther
    exact injective _ (inSecond _ member) _ (inSecond _ isOther)
  · intro declaration member other isOther
    exact injective _ (inFirst _ member) _ (inFirst _ isOther)

/-! ## Clusters -/

/-- The cohesion of a cluster is the least similarity of two of its members, and every two are as
similar as the options ask for. -/
structure Cluster.IsCohesive (options : Options) (similarity : Pattern → Pattern → Similarity)
    (cluster : Cluster) : Prop where
  pair : ∃ first second, [first, second].Sublist cluster.members ∧
    similarity first second = cluster.cohesion
  le : cluster.members.Pairwise fun first second => cluster.cohesion ≤ similarity first second
  minimum : cluster.members.Pairwise fun first second => options.minimum ≤ similarity first second

theorem Cluster.IsCohesive.congr {options : Options} {cluster : Cluster}
    {similarity other : Pattern → Pattern → Similarity}
    (cohesive : cluster.IsCohesive options similarity)
    (same : ∀ first ∈ cluster.members, ∀ second ∈ cluster.members,
      similarity first second = other first second) : cluster.IsCohesive options other where
  pair := by
    rcases cohesive.pair with ⟨first, second, sublist, least⟩
    refine ⟨first, second, sublist, ?_⟩
    rw [← same first (sublist.subset (by simp)) second (sublist.subset (by simp)), least]
  le := cohesive.le.imp_of_mem fun {first second} isFirst isSecond le =>
    same first isFirst second isSecond ▸ le
  minimum := cohesive.minimum.imp_of_mem fun {first second} isFirst isSecond le =>
    same first isFirst second isSecond ▸ le

section

variable {options : Options} {patterns : List Pattern} {group : List Nat} {cluster : Cluster}

/-- Members stand in the order of their positions. -/
theorem pairwise_members {Related : Pattern → Pattern → Prop}
    (members : cluster.members.map some = group.map fun position => patterns[position]?)
    (related : group.Pairwise fun position other => ∀ first second,
      patterns[position]? = some first → patterns[other]? = some second →
        Related first second) : cluster.members.Pairwise Related := by
  have pairs : (group.map fun position => patterns[position]?).Pairwise fun found other =>
      ∀ first second, found = some first → other = some second → Related first second :=
    List.pairwise_map.mpr related
  rw [← members, List.pairwise_map] at pairs
  exact pairs.imp fun holds => holds _ _ rfl rfl

theorem exists_members_of_sublist {position other : Nat}
    (members : cluster.members.map some = group.map fun position => patterns[position]?)
    (sublist : [position, other].Sublist group) :
    ∃ first second, [first, second].Sublist cluster.members ∧
      patterns[position]? = some first ∧ patterns[other]? = some second := by
  have found := sublist.map fun position => patterns[position]?
  rw [← members, List.sublist_map_iff] at found
  rcases found with ⟨pair, pairSublist, isPair⟩
  rw [List.map_cons, List.map_cons, List.map_nil, eq_comm, List.map_eq_cons_iff] at isPair
  rcases isPair with ⟨first, rest, rfl, isFirst, isRest⟩
  rcases List.map_eq_singleton_iff.mp isRest with ⟨second, rfl, isSecond⟩
  exact ⟨first, second, pairSublist, isFirst.symm, isSecond.symm⟩

theorem exists_group_of_mem_clusters (isCluster : cluster ∈ clusters options patterns) :
    ∃ group, ClusterOf patterns group cluster ∧
      cluster.cohesion = cohesionOf (similarityOf patterns) group ∧
      options.minimum ≤ cluster.cohesion := by
  rw [clusters_eq, List.mem_mergeSort, List.mem_filter, List.mem_filterMap] at isCluster
  rcases isCluster with ⟨⟨group, isGroup, isResult⟩, isReported⟩
  have grouping := grouping_finalGroups options patterns
  rcases exists_clusterOf (grouping.nonempty group isGroup) (grouping.ascending group isGroup)
    (grouping.lt isGroup) with ⟨found, isFound, cohesion, clusterOf⟩
  cases isResult.symm.trans isFound
  rw [Cluster.isReported, Bool.and_eq_true] at isReported
  exact ⟨group, clusterOf, cohesion, of_decide_eq_true isReported.1⟩

theorem isCohesive_tokenSimilarity (isCluster : cluster ∈ clusters options patterns)
    (several : 1 < cluster.members.length) : cluster.IsCohesive options tokenSimilarity := by
  rcases exists_group_of_mem_clusters isCluster with ⟨group, clusterOf, cohesion, enough⟩
  have members := clusterOf.members
  have le : cluster.members.Pairwise fun first second =>
      cluster.cohesion ≤ tokenSimilarity first second := by
    have atLeast := (le_cohesionOf_iff.mp (Nat.le_of_eq cohesion)).2
    refine pairwise_members members (atLeast.imp fun {position other} le => ?_)
    intro first second isFirst isSecond
    rwa [similarityOf_eq patterns position other isFirst isSecond] at le
  refine ⟨?_, le, le.imp (Nat.le_trans enough)⟩
  have severalPositions : 1 < group.length := by
    have lengths := congrArg List.length members
    rw [List.length_map, List.length_map] at lengths
    exact lengths ▸ several
  rcases exists_cohesionOf_eq severalPositions with ⟨position, other, sublist, least⟩
  rcases exists_members_of_sublist members sublist with
    ⟨first, second, pairSublist, isFirst, isSecond⟩
  refine ⟨first, second, pairSublist, ?_⟩
  rw [cohesion, ← least, similarityOf_eq patterns position other isFirst isSecond, tokenSimilarity]

/-- The cohesion of a cluster is that of declaration sets if no two declarations of its members are
taken for each other. -/
theorem isCohesive_declarationSimilarity (isCluster : cluster ∈ clusters options patterns)
    (several : 1 < cluster.members.length)
    (apart : ∀ member ∈ cluster.members, ∀ declaration ∈ member.declarations,
      ∀ other ∈ cluster.members, ∀ otherDeclaration ∈ other.declarations,
        ¬ declaration.Shifts otherDeclaration) :
    cluster.IsCohesive options declarationSimilarity := by
  refine (isCohesive_tokenSimilarity isCluster several).congr ?_
  intro first isFirst second isSecond
  refine tokenSimilarity_eq ?_
  have ofMember : ∀ declaration ∈ first.declarations ++ second.declarations,
      ∃ member ∈ cluster.members, declaration ∈ member.declarations := by
    intro declaration member
    rcases List.mem_append.mp member with inFirst | inSecond
    · exact ⟨first, isFirst, inFirst⟩
    · exact ⟨second, isSecond, inSecond⟩
  intro declaration member other isOther same
  rcases ofMember declaration member with ⟨pattern, isPattern, declared⟩
  rcases ofMember other isOther with ⟨otherPattern, isOtherPattern, otherDeclared⟩
  rcases declarationToken_eq_iff.mp same with same | shifts | shifts
  · exact same
  · exact (apart _ isPattern _ declared _ isOtherPattern _ otherDeclared shifts).elim
  · exact (apart _ isOtherPattern _ otherDeclared _ isPattern _ declared shifts).elim

theorem isCohesive_of_colonFree (isCluster : cluster ∈ clusters options patterns)
    (several : 1 < cluster.members.length)
    (colonFree : ∀ member ∈ cluster.members, ∀ declaration ∈ member.declarations,
      ':' ∉ declaration.property.toList) :
    cluster.IsCohesive options declarationSimilarity :=
  isCohesive_declarationSimilarity isCluster several
    fun _ _ _ _ other isOther declaration declared shifts =>
      colonFree other isOther declaration declared shifts.colon_mem.1

end

/-! ## Two patterns -/

section

variable {options : Options} {first second : Pattern}

theorem finalGroups_pair (similar : options.minimum ≤ tokenSimilarity first second) :
    finalGroups options [first, second] = [[0, 1]] := by
  have atMost : tokenSimilarity first second ≤ Similarity.infinite :=
    Nat.le_trans (Similarity.jaccard_le_one (nodup_tokenSet first) (nodup_tokenSet second))
      (by decide)
  have linked : linkage (similarityOf [first, second]) [0] [1] = tokenSimilarity first second :=
    Nat.min_eq_right atMost
  have joined : joinGroups [0] [1] = [0, 1] := List.mergeSort_of_pairwise (by decide)
  have merge : Merge (similarityOf [first, second]) options.minimum (Grouping.singles 2)
      ⟨0, 1, tokenSimilarity first second⟩ [[0, 1]] := by
    refine merge_iff.mpr ⟨?_, similar, congrArg (fun group => [group]) joined.symm⟩
    rw [← linked]
    rfl
  have finished : Finished (similarityOf [first, second]) options.minimum [[0, 1]] := by
    intro link next merge
    cases merge.strongest
  exact (agglomerate_of_merge merge 1).trans (agglomerate_of_finished finished 1)

theorem clusters_pair (valid : options.Valid)
    (similar : options.minimum ≤ tokenSimilarity first second) :
    ∃ cluster, clusters options [first, second] = [cluster] ∧
      cluster.members = [first, second] := by
  rcases exists_reportedGroups valid [first, second] with ⟨reported, perm, pairs⟩
  rw [finalGroups_pair similar] at perm
  have onlyReported : reported = [[0, 1]] := List.perm_singleton.mp perm
  rw [onlyReported, List.forall₂_cons_left_iff] at pairs
  rcases pairs with ⟨cluster, rest, isCluster, noMore, found⟩
  cases noMore
  refine ⟨cluster, found, ?_⟩
  exact List.map_injective_iff.mpr (Option.some_injective _) isCluster.members

/-- Two declarations that are taken for each other make a cluster of patterns that have no
declaration in common. -/
theorem exists_not_isCohesive (valid : options.Valid) (first second : Pattern)
    {declaration other : Declaration} (isFirst : first.declarations = [declaration])
    (isSecond : second.declarations = [other]) (shifts : declaration.Shifts other) :
    ∃ cluster, clusters options [first, second] = [cluster] ∧
      cluster.members = [first, second] ∧ cluster.cohesion = Similarity.one ∧
      ¬ cluster.IsCohesive options declarationSimilarity := by
  have same : tokenSimilarity first second = Similarity.one := by
    rw [tokenSimilarity, tokenSet, tokenSet, isFirst, isSecond, List.map_singleton,
      List.map_singleton, shifts.token_eq]
    exact Similarity.jaccard_singleton_self _
  have different : declarationSimilarity first second = 0 := by
    rw [declarationSimilarity, isFirst, isSecond]
    exact Similarity.jaccard_singleton_of_ne shifts.ne
  rcases clusters_pair valid (valid.minimum_le_one.trans_eq same.symm) with
    ⟨cluster, found, members⟩
  have several : 1 < cluster.members.length := by
    rw [members]
    exact Nat.one_lt_two
  have cohesive := isCohesive_tokenSimilarity (found ▸ List.mem_singleton_self cluster) several
  have onlyPair : ∀ {similarity : Pattern → Pattern → Similarity},
      cluster.IsCohesive options similarity → similarity first second = cluster.cohesion := by
    intro similarity cohesive
    rcases cohesive.pair with ⟨left, right, sublist, least⟩
    rw [members] at sublist
    cases sublist.eq_of_length rfl
    exact least
  have cohesion := (onlyPair cohesive).symm.trans same
  refine ⟨cluster, found, members, cohesion, fun isCohesive => ?_⟩
  have zero := (onlyPair isCohesive).symm.trans different
  rw [cohesion] at zero
  cases zero

end

/-! ## Which declarations are told apart -/

/-- Tokens take declarations for each other only as described, and that is all that keeps the
cohesion of a cluster from being that of declaration sets: it is for all clusters with members of
some declarations exactly if no two of the declarations are taken for each other. -/
theorem isCohesive_iff_not_shifts (declarations : Set Declaration) :
    (∀ first second : Declaration, declarationToken first = declarationToken second ↔
      first = second ∨ first.Shifts second ∨ second.Shifts first) ∧
    ((∀ options patterns, ∀ cluster ∈ clusters options patterns, 1 < cluster.members.length →
        (∀ member ∈ cluster.members, ∀ declaration ∈ member.declarations,
          declaration ∈ declarations) →
        cluster.IsCohesive options declarationSimilarity) ↔
      ∀ first ∈ declarations, ∀ second ∈ declarations, ¬ first.Shifts second) := by
  refine ⟨fun _ _ => declarationToken_eq_iff, ?_⟩
  constructor
  · intro cohesive first isFirst second isSecond shifts
    rcases exists_not_isCohesive Options.valid_default ⟨.ofDeclarations [first], [first], [], 1⟩
      ⟨.ofDeclarations [second], [second], [], 1⟩ rfl rfl shifts with
      ⟨cluster, found, members, -, notCohesive⟩
    refine notCohesive (cohesive _ _ cluster (found ▸ List.mem_singleton_self cluster) ?_ ?_)
    · rw [members]
      exact Nat.one_lt_two
    · rw [members]
      simp [isFirst, isSecond]
  · intro apart options patterns cluster isCluster several inDeclarations
    refine isCohesive_declarationSimilarity isCluster several ?_
    intro member isMember declaration declared other isOther otherDeclaration otherDeclared
    exact apart _ (inDeclarations member isMember _ declared) _
      (inDeclarations other isOther _ otherDeclared)

def narrowPattern : Pattern :=
  let declarations : List Declaration := [⟨"a", "b:c"⟩]
  ⟨.ofDeclarations declarations, declarations, [⟨[0], ".p"⟩, ⟨[1], ".q"⟩], 2⟩

def widePattern : Pattern :=
  let declarations : List Declaration := [⟨"a:b", "c"⟩]
  ⟨.ofDeclarations declarations, declarations, [⟨[2], ".r"⟩, ⟨[3], ".s"⟩], 2⟩

/-- The two patterns make a cluster as if they were equal. -/
theorem clusters_narrow_wide :
    ∃ cluster, clusters {} [narrowPattern, widePattern] = [cluster] ∧ 1 < cluster.members.length ∧
      cluster.cohesion = Similarity.one ∧
      ¬ cluster.IsCohesive {} declarationSimilarity := by
  have shifts : Declaration.Shifts ⟨"a", "b:c"⟩ ⟨"a:b", "c"⟩ := ⟨"b", by decide, by decide⟩
  rcases exists_not_isCohesive Options.valid_default narrowPattern widePattern rfl rfl shifts with
    ⟨cluster, found, members, cohesion, notCohesive⟩
  refine ⟨cluster, found, ?_, cohesion, notCohesive⟩
  rw [members]
  exact Nat.one_lt_two

end Stylebook
