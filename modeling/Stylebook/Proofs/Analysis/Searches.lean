import Stylebook.Proofs.Analysis.Similarity
import Stylebook.Proofs.Tree.Paths

/-!
What the searches find. A pattern stands for all sightings with one key, in their order, so it
occurs at nodes of the tree whose declaration sets have its signature.
-/

namespace Stylebook

/-! ## Patterns of sightings -/

def Pattern.paths (pattern : Pattern) : List NodePath := pattern.occurrences.map Occurrence.path

structure Pattern.StandsFor (pattern : Pattern) (sightings : List Sighting)
    (key : Option NodePath × Signature) : Prop where
  signature : pattern.signature = key.2
  occurrences : pattern.occurrences =
    (sightings.filter fun sighting => sighting.key == key).map Sighting.occurrence
  frequency : pattern.frequency = pattern.occurrences.length
  declarations : ∃ sighting ∈ sightings, sighting.key = key ∧
    pattern.declarations = sighting.declarations

theorem standsFor_of_patternOf {sightings : List Sighting} {key : Option NodePath × Signature}
    {pattern : Pattern} (found : patternOf sightings key = some pattern) :
    pattern.StandsFor sightings key := by
  rw [patternOf] at found
  cases matching : sightings.filter fun sighting => sighting.key == key with
  | nil =>
      rw [matching] at found
      cases found
  | cons first rest =>
      rw [matching] at found
      cases found
      have isFirst : first ∈ sightings.filter fun sighting => sighting.key == key := by
        simp [matching]
      rcases List.mem_filter.mp isFirst with ⟨member, sameKey⟩
      have sameKey : first.key = key := by simpa using sameKey
      exact
        { signature := congrArg Prod.snd sameKey
          occurrences := by rw [matching]
          frequency := by simp
          declarations := ⟨first, member, sameKey, rfl⟩ }

theorem mem_search {scope : Visit → Option NodePath} {options : Options} {visits : List Visit}
    {pattern : Pattern} (member : pattern ∈ search scope options visits) :
    (∃ key, pattern.StandsFor (sightings scope visits) key) ∧
      options.minimumFrequency ≤ pattern.frequency := by
  rw [search, Pattern.sorted, List.mem_mergeSort, List.mem_filter, patternsOf,
    List.mem_filterMap, decide_eq_true_iff] at member
  rcases member with ⟨⟨key, -, found⟩, frequent⟩
  exact ⟨⟨key, standsFor_of_patternOf found⟩, frequent⟩

/-! ## Nodes of patterns -/

theorem mem_sightings {scope : Visit → Option NodePath} {visits : List Visit}
    {sighting : Sighting} :
    sighting ∈ sightings scope visits ↔
      ∃ visit ∈ declaring visits, Sighting.ofVisit scope visit = sighting :=
  List.mem_map

namespace Pattern.StandsFor

variable {pattern : Pattern} {scope : Visit → Option NodePath} {visits : List Visit}
  {key : Option NodePath × Signature}
  (standsFor : pattern.StandsFor (sightings scope visits) key)

include standsFor

theorem exists_visit {occurrence : Occurrence} (member : occurrence ∈ pattern.occurrences) :
    ∃ visit ∈ declaring visits, (Sighting.ofVisit scope visit).occurrence = occurrence ∧
      Signature.ofDeclarations visit.node.declarations = pattern.signature := by
  rw [standsFor.occurrences] at member
  rcases List.mem_map.mp member with ⟨sighting, matching, rfl⟩
  rcases List.mem_filter.mp matching with ⟨isSighting, sameKey⟩
  rcases mem_sightings.mp isSighting with ⟨visit, isVisit, rfl⟩
  refine ⟨visit, isVisit, rfl, ?_⟩
  rw [standsFor.signature, ← eq_of_beq sameKey]
  rfl

theorem exists_visit_of_declarations :
    ∃ visit ∈ declaring visits, canonical visit.node.declarations = pattern.declarations ∧
      Signature.ofDeclarations visit.node.declarations = pattern.signature := by
  rcases standsFor.declarations with ⟨sighting, isSighting, sameKey, sameDeclarations⟩
  rcases mem_sightings.mp isSighting with ⟨visit, isVisit, rfl⟩
  refine ⟨visit, isVisit, sameDeclarations.symm, ?_⟩
  rw [standsFor.signature, ← sameKey]
  rfl

theorem occurrences_ne_nil : pattern.occurrences ≠ [] := by
  rcases standsFor.declarations with ⟨sighting, isSighting, sameKey, _⟩
  rw [standsFor.occurrences]
  have matching : sighting ∈ (sightings scope visits).filter fun other => other.key == key :=
    List.mem_filter.mpr ⟨isSighting, by simpa using sameKey⟩
  exact List.ne_nil_of_mem (List.mem_map_of_mem matching)

end Pattern.StandsFor

/-! ## Keys of visits -/

namespace Visit

/-- How the node is named where a pattern occurs at it. It does not matter which nodes it is
compared with. -/
def occurrence (visit : Visit) : Occurrence := (Sighting.ofVisit (fun _ => none) visit).occurrence

def key (scope : Visit → Option NodePath) (visit : Visit) : Option NodePath × Signature :=
  (scope visit, .ofDeclarations visit.node.declarations)

end Visit

def visitsWith (scope : Visit → Option NodePath) (visits : List Visit)
    (key : Option NodePath × Signature) : List Visit :=
  (declaring visits).filter fun visit => visit.key scope == key

section

variable {scope : Visit → Option NodePath} {visits : List Visit} {pattern : Pattern}
  {key : Option NodePath × Signature}

theorem mem_visitsWith {visit : Visit} :
    visit ∈ visitsWith scope visits key ↔ visit ∈ declaring visits ∧ visit.key scope = key := by
  rw [visitsWith, List.mem_filter, beq_iff_eq]

theorem sightings_with_key (scope : Visit → Option NodePath) (visits : List Visit)
    (key : Option NodePath × Signature) :
    (sightings scope visits).filter (fun sighting => sighting.key == key) =
      (visitsWith scope visits key).map (Sighting.ofVisit scope) :=
  List.filter_map

theorem Pattern.StandsFor.occurrences_eq
    (standsFor : pattern.StandsFor (sightings scope visits) key) :
    pattern.occurrences = (visitsWith scope visits key).map Visit.occurrence := by
  rw [standsFor.occurrences, sightings_with_key, List.map_map]
  rfl

theorem Pattern.StandsFor.paths_eq (standsFor : pattern.StandsFor (sightings scope visits) key) :
    pattern.paths = (visitsWith scope visits key).map Visit.path := by
  rw [Pattern.paths, standsFor.occurrences_eq, List.map_map]
  rfl

theorem Pattern.StandsFor.frequency_eq
    (standsFor : pattern.StandsFor (sightings scope visits) key) :
    pattern.frequency = (visitsWith scope visits key).length := by
  rw [standsFor.frequency, standsFor.occurrences_eq, List.length_map]

/-- Nodes that are counted together often enough make up a pattern. -/
theorem exists_mem_search {options : Options} {visit : Visit} (isVisit : visit ∈ declaring visits)
    (frequent : options.minimumFrequency ≤ (visitsWith scope visits (visit.key scope)).length) :
    ∃ pattern ∈ search scope options visits,
      pattern.StandsFor (sightings scope visits) (visit.key scope) := by
  have isSighting : Sighting.ofVisit scope visit ∈ sightings scope visits :=
    mem_sightings.mpr ⟨visit, isVisit, rfl⟩
  have isKey : visit.key scope ∈ ((sightings scope visits).map Sighting.key).eraseDups :=
    List.mem_eraseDups.mpr (List.mem_map.mpr ⟨_, isSighting, rfl⟩)
  cases found : patternOf (sightings scope visits) (visit.key scope) with
  | none =>
      have isWith : visit ∈ visitsWith scope visits (visit.key scope) :=
        mem_visitsWith.mpr ⟨isVisit, rfl⟩
      rw [patternOf, sightings_with_key] at found
      cases matching : visitsWith scope visits (visit.key scope) with
      | nil => exact absurd matching (List.ne_nil_of_mem isWith)
      | cons first rest =>
          rw [matching] at found
          cases found
  | some pattern =>
      have standsFor := standsFor_of_patternOf found
      refine ⟨pattern, ?_, standsFor⟩
      rw [search, Pattern.sorted, List.mem_mergeSort, List.mem_filter, patternsOf,
        List.mem_filterMap, decide_eq_true_iff, standsFor.frequency_eq]
      exact ⟨⟨_, isKey, found⟩, frequent⟩

/-- A node has one key, so no two patterns occur at it. -/
theorem pairwise_disjoint_search {options : Options} (distinct : (visits.map Visit.path).Nodup) :
    (search scope options visits).Pairwise fun first second =>
      first.paths.Disjoint second.paths := by
  rw [search, Pattern.sorted, (List.mergeSort_perm _ Pattern.le).pairwise_iff List.disjoint_symm]
  refine .filter _ ?_
  rw [patternsOf, List.pairwise_filterMap]
  refine (Similarity.nodup_eraseDups _).imp ?_
  intro key other different pattern isPattern second isSecond path onPath alsoOnPath
  rw [(standsFor_of_patternOf isPattern).paths_eq] at onPath
  rw [(standsFor_of_patternOf isSecond).paths_eq] at alsoOnPath
  rcases List.mem_map.mp onPath with ⟨visit, isVisit, isPath⟩
  rcases List.mem_map.mp alsoOnPath with ⟨otherVisit, otherIsVisit, otherIsPath⟩
  rcases mem_visitsWith.mp isVisit with ⟨visitDeclares, isKey⟩
  rcases mem_visitsWith.mp otherIsVisit with ⟨otherDeclares, otherIsKey⟩
  have same : visit = otherVisit :=
    List.inj_on_of_nodup_map distinct (mem_declaring.mp visitDeclares).1
      (mem_declaring.mp otherDeclares).1 (isPath.trans otherIsPath.symm)
  rw [← same, isKey] at otherIsKey
  exact different otherIsKey

end

end Stylebook
