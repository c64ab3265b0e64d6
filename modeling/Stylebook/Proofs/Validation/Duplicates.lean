import Mathlib.Data.List.Nodup
import Mathlib.Data.Nat.Choose.Basic
import Stylebook.Proofs.Text.Trim
import Stylebook.Proofs.Tree.Paths
import Stylebook.Proofs.Validation.Clean
import Stylebook.Proofs.Validation.Findings

/-!
Siblings with one identifier. The check makes one error for each pair of them, so their number
grows with the pairs and not with the siblings, and a tree without errors has none.
-/

namespace Stylebook

/-! ## Pairs -/

section

variable {α : Type}

def pairs : List α → List (α × α)
  | [] => []
  | head :: tail => tail.map (fun later => (head, later)) ++ pairs tail

theorem mem_of_mem_pairs {items : List α} {pair : α × α} (member : pair ∈ pairs items) :
    pair.1 ∈ items ∧ pair.2 ∈ items := by
  induction items with
  | nil => cases member
  | cons head tail induction =>
      rcases List.mem_append.mp member with here | later
      · rcases List.mem_map.mp here with ⟨other, isOther, rfl⟩
        exact ⟨.head _, .tail _ isOther⟩
      · exact ⟨.tail _ (induction later).1, .tail _ (induction later).2⟩

theorem nodup_pairs {items : List α} (nodup : items.Nodup) : (pairs items).Nodup := by
  induction items with
  | nil => exact .nil
  | cons head tail induction =>
      rcases List.nodup_cons.mp nodup with ⟨notLater, nodup⟩
      refine List.nodup_append.mpr ⟨nodup.map fun _ _ same => (Prod.mk.inj same).2,
        induction nodup, ?_⟩
      rintro pair isHere other isLater rfl
      rcases List.mem_map.mp isHere with ⟨later, _, rfl⟩
      exact notLater (mem_of_mem_pairs isLater).1

/-- Numbered items stand in the order of their numbers. -/
theorem mem_pairs_zipIdx {items : List α} {start : Nat} {first second : α × Nat} :
    (first, second) ∈ pairs (items.zipIdx start) ↔
      first ∈ items.zipIdx start ∧ second ∈ items.zipIdx start ∧ first.2 < second.2 := by
  induction items generalizing start with
  | nil => simp [pairs]
  | cons head tail induction =>
      rw [List.zipIdx_cons, pairs, List.mem_append, induction, List.mem_cons, List.mem_cons,
        List.mem_map]
      constructor
      · rintro (⟨later, isLater, same⟩ | ⟨isFirst, isSecond, before⟩)
        · cases same
          exact ⟨.inl rfl, .inr isLater, List.le_snd_of_mem_zipIdx isLater⟩
        · exact ⟨.inr isFirst, .inr isSecond, before⟩
      · rintro ⟨rfl | isFirst, rfl | isSecond, before⟩
        · exact absurd before (Nat.lt_irrefl _)
        · exact .inl ⟨second, isSecond, rfl⟩
        · have after := List.le_snd_of_mem_zipIdx isFirst
          exact absurd before (by omega)
        · exact .inr ⟨isFirst, isSecond, before⟩

/-- The number of pairs of items that are alike in some way. -/
theorem countP_pairs (items : List α) (holds : α → Bool) :
    (pairs items).countP (fun pair => holds pair.1 && holds pair.2) =
      (items.countP holds).choose 2 := by
  induction items with
  | nil => rfl
  | cons head tail induction =>
      rw [pairs, List.countP_append, List.countP_map, induction, List.countP_cons]
      cases alike : holds head
      · simp [Function.comp_def, alike]
      · simp [Function.comp_def, alike, Nat.choose_succ_succ]

end

/-! ## Siblings -/

def sharesIdentifier (pair : (StyleNode × Nat) × (StyleNode × Nat)) : Bool :=
  !(Text.trimmed pair.1.1.identifier).isEmpty &&
    Text.trimmed pair.2.1.identifier == Text.trimmed pair.1.1.identifier

theorem laterDuplicates_eq (lineage : List String) (identifier : String) (first second : Nat)
    (siblings : List StyleNode) :
    laterDuplicates lineage identifier first (second + 1) siblings =
      ((siblings.zipIdx second).filter fun later =>
        Text.trimmed later.1.identifier == identifier).map fun later =>
          duplicateSiblings lineage identifier first (later.2 + 1) := by
  induction siblings generalizing second with
  | nil => rfl
  | cons node rest induction =>
      rw [laterDuplicates, induction, List.zipIdx_cons, List.filter_cons]
      split <;> rfl

theorem checkSiblings_eq (lineage : List String) (number : Nat) (siblings : List StyleNode) :
    checkSiblings lineage (number + 1) siblings =
      ((pairs (siblings.zipIdx number)).filter sharesIdentifier).map fun pair =>
        duplicateSiblings lineage (Text.trimmed pair.1.1.identifier) (pair.1.2 + 1)
          (pair.2.2 + 1) := by
  induction siblings generalizing number with
  | nil => rfl
  | cons node rest induction =>
      rw [checkSiblings, induction, List.zipIdx_cons, pairs, List.filter_append, List.map_append,
        List.filter_map]
      congr 1
      by_cases blank : (Text.trimmed node.identifier).isEmpty = true
      · simp [sharesIdentifier, Function.comp_def, blank]
      · simp [sharesIdentifier, Function.comp_def, blank, laterDuplicates_eq]

/-! ## Pairs of siblings of a tree -/

structure SiblingPair where
  parent : NodePath
  first : Nat
  second : Nat
  deriving DecidableEq, Repr

namespace StyleTree

variable {tree : StyleTree}

/-- The children of the node at a path, or the roots if the path is empty. -/
def siblingsUnder (tree : StyleTree) : NodePath → List StyleNode
  | [] => tree.roots
  | index :: rest => ((tree.node? (index :: rest)).map StyleNode.children).getD []

def identifierAt (tree : StyleTree) (path : NodePath) : String :=
  ((tree.node? path).map fun node => Text.trimmed node.identifier).getD ""

/-- Two siblings, the earlier one first, have one identifier, blanks around it aside, that is more
than blanks. -/
structure AreAlike (tree : StyleTree) (pair : SiblingPair) : Prop where
  before : pair.first < pair.second
  nodes : ∃ first second, tree.node? (pair.parent.child pair.first) = some first ∧
    tree.node? (pair.parent.child pair.second) = some second ∧
    Text.trimmed first.identifier ≠ "" ∧
    Text.trimmed second.identifier = Text.trimmed first.identifier

def duplicateError (tree : StyleTree) (pair : SiblingPair) : Finding :=
  duplicateSiblings (tree.lineage pair.parent)
    (tree.identifierAt (pair.parent.child pair.first)) (pair.first + 1) (pair.second + 1)

def duplicatesUnder (tree : StyleTree) (parent : NodePath) : List SiblingPair :=
  ((pairs (tree.siblingsUnder parent).zipIdx).filter sharesIdentifier).map fun pair =>
    ⟨parent, pair.1.2, pair.2.2⟩

def duplicates (tree : StyleTree) : List SiblingPair :=
  ([] :: (tree.walkWithin maximumNesting).map Visit.path).flatMap tree.duplicatesUnder

theorem node?_child_eq (parent : NodePath) (index : Nat) :
    tree.node? (parent.child index) = (tree.siblingsUnder parent)[index]? := by
  cases parent with
  | nil => exact tree.node?_root index
  | cons head rest =>
      rw [node?_child tree (List.cons_ne_nil head rest), siblingsUnder]
      cases tree.node? (head :: rest) <;> rfl

theorem siblingsUnder_of_mem_walk {visit : Visit} (isVisit : visit ∈ tree.walk) :
    tree.siblingsUnder visit.path = visit.node.children := by
  have found := (mem_walk_iff.mp isVisit).1
  cases isPath : visit.path with
  | nil => exact absurd isPath (ne_nil_of_node? found)
  | cons head rest =>
      rw [siblingsUnder, ← isPath, found]
      rfl

theorem identifierAt_eq {path : NodePath} {node : StyleNode} (found : tree.node? path = some node) :
    tree.identifierAt path = Text.trimmed node.identifier := by
  rw [identifierAt, found]
  rfl

theorem mem_duplicatesUnder {parent : NodePath} {pair : SiblingPair} :
    pair ∈ tree.duplicatesUnder parent ↔ pair.parent = parent ∧ tree.AreAlike pair := by
  rw [duplicatesUnder, List.mem_map]
  constructor
  · rintro ⟨⟨⟨first, firstIndex⟩, ⟨second, secondIndex⟩⟩, member, rfl⟩
    rcases List.mem_filter.mp member with ⟨member, shares⟩
    rcases mem_pairs_zipIdx.mp member with ⟨isFirst, isSecond, before⟩
    rw [List.mk_mem_zipIdx_iff_getElem?, ← node?_child_eq] at isFirst isSecond
    simp only [sharesIdentifier, Bool.and_eq_true, Bool.not_eq_true', String.isEmpty_eq_false_iff,
      beq_iff_eq] at shares
    exact ⟨rfl, before, first, second, isFirst, isSecond, shares.1, shares.2⟩
  · rintro ⟨rfl, before, first, second, isFirst, isSecond, visible, same⟩
    rw [node?_child_eq, ← List.mk_mem_zipIdx_iff_getElem?] at isFirst isSecond
    refine ⟨((first, pair.first), (second, pair.second)), List.mem_filter.mpr ⟨?_, ?_⟩, rfl⟩
    · exact mem_pairs_zipIdx.mpr ⟨isFirst, isSecond, before⟩
    · simp only [sharesIdentifier, same, visible, Bool.and_eq_true, Bool.not_eq_true',
        String.isEmpty_eq_false_iff, beq_iff_eq, ne_eq, not_false_eq_true, and_self]

theorem map_duplicateError_duplicatesUnder (parent : NodePath) :
    (tree.duplicatesUnder parent).map tree.duplicateError =
      checkSiblings (tree.lineage parent) 1 (tree.siblingsUnder parent) := by
  rw [checkSiblings_eq, duplicatesUnder, List.map_map]
  refine List.map_congr_left fun pair member => ?_
  have isFirst := (mem_pairs_zipIdx.mp (List.mem_of_mem_filter member)).1
  rw [List.mem_zipIdx_iff_getElem?, ← node?_child_eq] at isFirst
  rw [Function.comp_apply, duplicateError, identifierAt_eq isFirst]

/-! ## The errors -/

theorem mem_parents {parent : NodePath} :
    parent ∈ [] :: (tree.walkWithin maximumNesting).map Visit.path ↔
      parent.depth ≤ maximumNesting ∧ (parent = [] ∨ (tree.node? parent).isSome) := by
  rw [List.mem_cons, List.mem_map]
  constructor
  · rintro (rfl | ⟨visit, isVisit, rfl⟩)
    · exact ⟨Nat.zero_le _, .inl rfl⟩
    · rcases mem_walkWithin.mp isVisit with ⟨isVisit, near⟩
      rw [(mem_walk_iff.mp isVisit).1]
      exact ⟨near, .inr rfl⟩
  · rintro ⟨near, rfl | isNode⟩
    · exact .inl rfl
    · rcases Option.isSome_iff_exists.mp isNode with ⟨node, found⟩
      have isVisit : ⟨node, parent, tree.lineage parent⟩ ∈ tree.walk :=
        mem_walk_iff.mpr ⟨found, rfl⟩
      exact .inr ⟨_, mem_walkWithin.mpr ⟨isVisit, near⟩, rfl⟩

theorem mem_duplicates {pair : SiblingPair} :
    pair ∈ tree.duplicates ↔ pair.parent.depth ≤ maximumNesting ∧ tree.AreAlike pair := by
  rw [duplicates, List.mem_flatMap]
  simp only [mem_parents, mem_duplicatesUnder]
  constructor
  · rintro ⟨parent, ⟨near, _⟩, rfl, alike⟩
    exact ⟨near, alike⟩
  · rintro ⟨near, alike⟩
    refine ⟨pair.parent, ⟨near, ?_⟩, rfl, alike⟩
    rcases alike.nodes with ⟨first, _, isFirst, _⟩
    by_cases root : pair.parent = []
    · exact .inl root
    · rw [node?_child tree root] at isFirst
      rcases Option.bind_eq_some_iff.mp isFirst with ⟨parent, found, _⟩
      exact .inr (Option.isSome_iff_exists.mpr ⟨parent, found⟩)

theorem nodup_duplicatesUnder (parent : NodePath) : (tree.duplicatesUnder parent).Nodup := by
  have numbered : (tree.siblingsUnder parent).zipIdx.Nodup := by
    refine List.Nodup.of_map Prod.snd ?_
    rw [List.zipIdx_map_snd]
    exact List.nodup_range'
  refine ((nodup_pairs numbered).filter _).map_on ?_
  rintro ⟨⟨first, firstIndex⟩, ⟨second, secondIndex⟩⟩ isPair
    ⟨⟨other, otherIndex⟩, ⟨later, laterIndex⟩⟩ isOtherPair same
  rcases SiblingPair.mk.inj same with ⟨_, firstSame, secondSame⟩
  replace firstSame : firstIndex = otherIndex := firstSame
  replace secondSame : secondIndex = laterIndex := secondSame
  subst otherIndex laterIndex
  rcases mem_pairs_zipIdx.mp (List.mem_of_mem_filter isPair) with ⟨isFirst, isSecond, _⟩
  rcases mem_pairs_zipIdx.mp (List.mem_of_mem_filter isOtherPair) with ⟨isOther, isLater, _⟩
  rw [List.mk_mem_zipIdx_iff_getElem?] at isFirst isSecond isOther isLater
  cases isFirst.symm.trans isOther
  cases isSecond.symm.trans isLater
  rfl

theorem nodup_duplicates (tree : StyleTree) : tree.duplicates.Nodup := by
  have parents : ([] :: (tree.walkWithin maximumNesting).map Visit.path).Nodup := by
    refine List.nodup_cons.mpr ⟨fun isPath => ?_, tree.nodup_map_path_walkWithin maximumNesting⟩
    rcases List.mem_map.mp isPath with ⟨visit, isVisit, empty⟩
    exact ne_nil_of_node? (mem_walk_iff.mp (mem_walkWithin.mp isVisit).1).1 empty
  refine List.nodup_flatMap.mpr ⟨fun parent _ => nodup_duplicatesUnder parent, ?_⟩
  refine parents.imp fun {parent other} different pair isPair isOther => ?_
  exact different ((mem_duplicatesUnder.mp isPair).1.symm.trans (mem_duplicatesUnder.mp isOther).1)

theorem filter_isDuplicateError_checkNode (visit : Visit) :
    (checkNode visit).filter Finding.isDuplicateError = [] := by
  have expansions : (checkExpansion visit).filter Finding.isDuplicateError = [] :=
    Finding.filter_opensWith_eq_nil (opens_of_mem_checkExpansion visit) (by decide) .error
  have declarations : (checkDeclarations visit.breadcrumb [] visit.node.declarations).filter
      Finding.isDuplicateError = [] :=
    Finding.filter_opensWith_eq_nil (opens_of_mem_checkDeclarations _ _ _) (by decide) .error
  refine (filter_checkNode (by decide) .error visit).trans ?_
  rw [← Finding.isDuplicateError, expansions, declarations, List.append_nil]

theorem filter_isDuplicateError_checkSiblings (lineage : List String) (siblings : List StyleNode) :
    (checkSiblings lineage 1 siblings).filter Finding.isDuplicateError =
      checkSiblings lineage 1 siblings :=
  List.filter_eq_self.mpr fun _ => isDuplicateError_of_mem_checkSiblings

theorem filter_isDuplicateError_checkVisit {visit : Visit} (isVisit : visit ∈ tree.walk) :
    (checkVisit visit).filter Finding.isDuplicateError =
      if visit.depth ≤ maximumNesting then
        (tree.duplicatesUnder visit.path).map tree.duplicateError
      else [] := by
  refine (filter_checkVisit (by decide) .error visit).trans ?_
  rw [← Finding.isDuplicateError, filter_isDuplicateError_checkNode,
    filter_isDuplicateError_checkSiblings, List.nil_append, map_duplicateError_duplicatesUnder,
    siblingsUnder_of_mem_walk isVisit, ← (mem_walk_iff.mp isVisit).2]

/-- The errors about siblings are those about the pairs. -/
theorem filter_isDuplicateError_check (tree : StyleTree) :
    tree.check.filter Finding.isDuplicateError = tree.duplicates.map tree.duplicateError := by
  refine (filter_check (by decide) .error tree).trans ?_
  rw [← Finding.isDuplicateError, filter_isDuplicateError_checkSiblings, duplicates,
    List.map_flatMap, List.flatMap_cons, map_duplicateError_duplicatesUnder, List.flatMap_map,
    walkWithin_eq_filter, flatMap_filter_eq]
  congr 1
  refine List.flatMap_congr fun visit isVisit => ?_
  refine (filter_isDuplicateError_checkVisit isVisit).trans ?_
  exact if_congr decide_eq_true_iff.symm rfl rfl

/-! ## The number of errors -/

/-- Siblings with one identifier make as many pairs as can be chosen from them. -/
theorem countP_duplicatesUnder (parent : NodePath) {identifier : String}
    (visible : identifier ≠ "") :
    (tree.duplicatesUnder parent).countP
        (fun pair => tree.identifierAt (pair.parent.child pair.first) == identifier) =
      ((tree.siblingsUnder parent).countP fun node =>
        Text.trimmed node.identifier == identifier).choose 2 := by
  have alike : ((tree.siblingsUnder parent).countP fun node =>
        Text.trimmed node.identifier == identifier) =
      (tree.siblingsUnder parent).zipIdx.countP fun sibling =>
        Text.trimmed sibling.1.identifier == identifier := by
    nth_rewrite 1 [← List.zipIdx_map_fst 0 (tree.siblingsUnder parent)]
    rw [List.countP_map]
    rfl
  rw [alike, ← countP_pairs, duplicatesUnder, List.countP_map, List.countP_filter]
  refine List.countP_congr fun pair member => ?_
  rcases pair with ⟨⟨first, firstIndex⟩, ⟨second, secondIndex⟩⟩
  have isFirst := (mem_pairs_zipIdx.mp member).1
  rw [List.mk_mem_zipIdx_iff_getElem?, ← node?_child_eq] at isFirst
  simp only [Function.comp_apply, identifierAt_eq isFirst, sharesIdentifier, Bool.and_eq_true,
    Bool.not_eq_true', String.isEmpty_eq_false_iff, beq_iff_eq]
  constructor
  · rintro ⟨rfl, _, same⟩
    exact ⟨rfl, same⟩
  · rintro ⟨rfl, same⟩
    exact ⟨rfl, visible, same⟩

theorem countP_duplicates {parent : NodePath} (near : parent.depth ≤ maximumNesting)
    {identifier : String} (visible : identifier ≠ "") :
    tree.duplicates.countP (fun pair => pair.parent == parent &&
        tree.identifierAt (pair.parent.child pair.first) == identifier) =
      ((tree.siblingsUnder parent).countP fun node =>
        Text.trimmed node.identifier == identifier).choose 2 := by
  have under : (tree.duplicates.filter fun pair => pair.parent == parent).Perm
      (tree.duplicatesUnder parent) := by
    refine (List.perm_ext_iff_of_nodup (tree.nodup_duplicates.filter _)
      (nodup_duplicatesUnder parent)).mpr fun pair => ?_
    rw [List.mem_filter, mem_duplicates, mem_duplicatesUnder, beq_iff_eq]
    constructor
    · rintro ⟨⟨_, alike⟩, isParent⟩
      exact ⟨isParent, alike⟩
    · rintro ⟨rfl, alike⟩
      exact ⟨⟨near, alike⟩, rfl⟩
  rw [← countP_duplicatesUnder parent visible, ← under.countP_eq, List.countP_filter]
  simp only [Bool.and_comm]

/-! ## Trees without errors -/

theorem trimmed_eq_empty_iff (text : String) :
    Text.trimmed text = "" ↔ Text.isAllBlank text = true := by
  rw [Text.trimmed, ← String.toList_inj, String.toList_ofList, Text.isAllBlank, List.all_eq_true]
  exact Text.trim_eq_nil_iff text.toList

theorem trimmed_ne_empty_of_clean (clean : hasErrors tree.check = false) {visit : Visit}
    (isVisit : visit ∈ tree.walk) : Text.trimmed visit.node.identifier ≠ "" := by
  have checked := hasErrors_checkNode_of_clean clean isVisit
  simp only [checkNode, hasErrors_append, Bool.or_eq_false_iff] at checked
  have identifiers := checked.1.1.1
  rw [ne_eq, trimmed_eq_empty_iff]
  intro blank
  simp only [checkIdentifier, if_pos blank] at identifiers
  cases identifiers

theorem duplicates_eq_nil_of_clean (clean : hasErrors tree.check = false) :
    tree.duplicates = [] := by
  have none : tree.check.filter Finding.isDuplicateError = [] := by
    refine List.filter_eq_nil_iff.mpr fun finding member isDuplicate => ?_
    rw [Finding.isDuplicateError, Finding.opensWith, Bool.and_eq_true] at isDuplicate
    exact List.any_eq_false.mp clean finding member isDuplicate.1
  rw [filter_isDuplicateError_check] at none
  exact List.map_eq_nil_iff.mp none

theorem trimmed_ne_of_clean (clean : hasErrors tree.check = false) {parent : NodePath}
    {first second : Nat} {node other : StyleNode} (before : first < second)
    (isNode : tree.node? (parent.child first) = some node)
    (isOther : tree.node? (parent.child second) = some other) :
    Text.trimmed node.identifier ≠ Text.trimmed other.identifier := by
  intro same
  have isVisit : ⟨node, parent.child first, tree.lineage (parent.child first)⟩ ∈ tree.walk :=
    mem_walk_iff.mpr ⟨isNode, rfl⟩
  have visible := trimmed_ne_empty_of_clean clean isVisit
  have near : parent.depth + 1 ≤ maximumNesting := by
    have near := depth_le_of_clean clean _ isVisit
    rwa [Visit.depth, NodePath.depth, NodePath.child, List.length_append] at near
  have isPair : ⟨parent, first, second⟩ ∈ tree.duplicates :=
    mem_duplicates.mpr
      ⟨Nat.le_of_succ_le near, before, node, other, isNode, isOther, visible, same.symm⟩
  rw [duplicates_eq_nil_of_clean clean] at isPair
  cases isPair

/-- The errors about siblings stand for the pairs of siblings with one identifier, so siblings with
one identifier make as many as there are pairs of them, and a tree without errors has none. -/
theorem duplicates_correspond (tree : StyleTree) :
    tree.check.filter Finding.isDuplicateError = tree.duplicates.map tree.duplicateError ∧
      tree.duplicates.Nodup ∧
      (∀ pair, pair ∈ tree.duplicates ↔
        pair.parent.depth ≤ maximumNesting ∧ tree.AreAlike pair) ∧
      (∀ parent identifier, NodePath.depth parent ≤ maximumNesting → identifier ≠ "" →
        ∀ count, ((tree.siblingsUnder parent).countP fun node =>
            Text.trimmed node.identifier == identifier) = count →
          tree.duplicates.countP (fun pair => pair.parent == parent &&
            tree.identifierAt (pair.parent.child pair.first) == identifier) =
              count * (count - 1) / 2) ∧
      (hasErrors tree.check = false →
        ∀ parent first second node other, first ≠ second →
          tree.node? (NodePath.child parent first) = some node →
          tree.node? (NodePath.child parent second) = some other →
          Text.trimmed node.identifier ≠ Text.trimmed other.identifier) := by
  refine ⟨tree.filter_isDuplicateError_check, tree.nodup_duplicates, fun _ => mem_duplicates, ?_,
    ?_⟩
  · rintro parent identifier near visible count rfl
    rw [countP_duplicates near visible, Nat.choose_two_right]
  · intro clean parent first second node other different isNode isOther
    rcases Nat.lt_or_gt_of_ne different with before | after
    · exact trimmed_ne_of_clean clean before isNode isOther
    · exact (trimmed_ne_of_clean clean after isOther isNode).symm

def repeatedRoots : StyleTree :=
  ⟨[⟨".x", [], []⟩, ⟨" .x", [], []⟩, ⟨".y", [], []⟩, ⟨".x ", [], []⟩], none⟩

theorem duplicates_of_repeatedRoots :
    NodePath.depth [] ≤ maximumNesting ∧ ".x" ≠ "" ∧
      repeatedRoots.duplicates.countP (fun pair => pair.parent == [] &&
        repeatedRoots.identifierAt (pair.parent.child pair.first) == ".x") = 3 :=
  ⟨Nat.zero_le _, by decide,
    (duplicates_correspond repeatedRoots).2.2.2.1 [] ".x" (Nat.zero_le _) (by decide) 3 (by decide)⟩

end StyleTree

end Stylebook
