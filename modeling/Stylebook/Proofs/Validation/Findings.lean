import Mathlib.Data.List.Infix
import Stylebook.Proofs.Tree.Walk
import Stylebook.Validation.Check

/-!
Findings of one kind. They are told by their severity and by the words that their message opens
with, and come from the nodes that are not nested too deeply, in the order of the walk.
-/

namespace Stylebook

/-! ## Kinds -/

namespace Finding

def opensWith (severity : Severity) (words : String) (finding : Finding) : Bool :=
  finding.severity == severity && words.toList.isPrefixOf finding.message.toList

def isDuplicateError : Finding → Bool := opensWith .error "duplicate selector '"

def isExpansionError : Finding → Bool :=
  opensWith .error "nested selector lists expand to more than "

def isValueWarning : Finding → Bool := opensWith .warning "value of '"

def OpensWithOneOf (openings : List String) (finding : Finding) : Prop :=
  ∃ words ∈ openings, words.toList <+: finding.message.toList

abbrev Apart (openings : List String) (words : String) : Prop :=
  ∀ other ∈ openings, ¬other.toList <+: words.toList ∧ ¬words.toList <+: other.toList

/-- A message opens with one of two texts at most, unless one of them opens with the other. -/
theorem OpensWithOneOf.opensWith_eq_false {openings : List String} {finding : Finding}
    (opens : finding.OpensWithOneOf openings) {words : String} (apart : Apart openings words)
    (severity : Severity) : finding.opensWith severity words = false := by
  rcases opens with ⟨other, isOpening, opens⟩
  rw [← Bool.not_eq_true, opensWith, Bool.and_eq_true, List.isPrefixOf_iff_prefix]
  rintro ⟨_, alsoOpens⟩
  rcases List.prefix_or_prefix_of_prefix opens alsoOpens with first | second
  · exact (apart other isOpening).1 first
  · exact (apart other isOpening).2 second

theorem filter_opensWith_eq_nil {openings : List String} {findings : List Finding}
    (opens : ∀ finding ∈ findings, finding.OpensWithOneOf openings) {words : String}
    (apart : Apart openings words) (severity : Severity) :
    findings.filter (opensWith severity words) = [] := by
  refine List.filter_eq_nil_iff.mpr fun finding member => ?_
  rw [(opens finding member).opensWith_eq_false apart severity]
  exact Bool.false_ne_true

end Finding

/-! ## What messages open with -/

theorem exists_of_mem_laterDuplicates {lineage : List String} {identifier : String}
    {first second : Nat} {siblings : List StyleNode} {finding : Finding}
    (member : finding ∈ laterDuplicates lineage identifier first second siblings) :
    ∃ second, finding = duplicateSiblings lineage identifier first second := by
  fun_induction laterDuplicates with
  | case1 => cases member
  | case2 second node rest later same induction =>
      rcases List.mem_cons.mp member with here | member
      · exact ⟨second, here⟩
      · exact induction member
  | case3 second node rest later different induction => exact induction member

theorem exists_of_mem_checkSiblings {lineage : List String} {number : Nat}
    {siblings : List StyleNode} {finding : Finding}
    (member : finding ∈ checkSiblings lineage number siblings) :
    ∃ identifier first second, finding = duplicateSiblings lineage identifier first second := by
  fun_induction checkSiblings with
  | case1 => cases member
  | case2 number node rest identifier induction =>
      rcases List.mem_append.mp member with here | member
      · split at here
        · cases here
        · rcases exists_of_mem_laterDuplicates here with ⟨second, rfl⟩
          exact ⟨identifier, number, second, rfl⟩
      · exact induction member

theorem isDuplicateError_of_mem_checkSiblings {lineage : List String} {number : Nat}
    {siblings : List StyleNode} {finding : Finding}
    (member : finding ∈ checkSiblings lineage number siblings) :
    finding.isDuplicateError = true := by
  rcases exists_of_mem_checkSiblings member with ⟨identifier, first, second, rfl⟩
  simp [Finding.isDuplicateError, Finding.opensWith, duplicateSiblings, Finding.error]

theorem opens_of_mem_checkSiblings (lineage : List String) (number : Nat)
    (siblings : List StyleNode) :
    ∀ finding ∈ checkSiblings lineage number siblings,
      finding.OpensWithOneOf ["duplicate selector '"] := by
  intro finding member
  have isDuplicate := isDuplicateError_of_mem_checkSiblings member
  rw [Finding.isDuplicateError, Finding.opensWith, Bool.and_eq_true,
    List.isPrefixOf_iff_prefix] at isDuplicate
  exact ⟨_, List.mem_singleton_self _, isDuplicate.2⟩

theorem opens_of_mem_checkIdentifier (visit : Visit) :
    ∀ finding ∈ checkIdentifier visit,
      finding.OpensWithOneOf ["selector identifier is empty", "'"] := by
  intro finding member
  simp only [checkIdentifier] at member
  split at member
  · rw [List.mem_singleton.mp member]
    simp [Finding.OpensWithOneOf, Finding.error]
  · split at member
    · rw [List.mem_singleton.mp member]
      simp [Finding.OpensWithOneOf, Finding.error]
    · cases member

theorem opens_of_mem_checkExpansion (visit : Visit) :
    ∀ finding ∈ checkExpansion visit,
      finding.OpensWithOneOf ["nested selector lists expand to more than "] := by
  intro finding member
  rw [checkExpansion] at member
  split at member
  · rw [List.mem_singleton.mp member]
    simp [tooManySelectors, Finding.OpensWithOneOf, Finding.error]
  · cases member

theorem opens_of_mem_checkDeclaration {path : String} {seen : List String}
    {declaration : Declaration} :
    ∀ finding ∈ checkDeclaration path seen declaration,
      finding.OpensWithOneOf ["property name is empty", "'", "value of '"] := by
  intro finding member
  simp only [checkDeclaration] at member
  split at member
  · rw [List.mem_singleton.mp member]
    simp [Finding.OpensWithOneOf, Finding.error]
  · rcases List.mem_append.mp member with member | member
    · split at member
      · rw [List.mem_singleton.mp member]
        simp [Finding.OpensWithOneOf, Finding.error]
      · split at member
        · rw [List.mem_singleton.mp member]
          simp [Finding.OpensWithOneOf, Finding.warning]
        · cases member
    · split at member
      · rw [List.mem_singleton.mp member]
        simp [Finding.OpensWithOneOf, Finding.warning]
      · cases member

theorem opens_of_mem_checkDeclarations (path : String) (seen : List String)
    (declarations : List Declaration) :
    ∀ finding ∈ checkDeclarations path seen declarations,
      finding.OpensWithOneOf ["property name is empty", "'", "value of '"] := by
  induction declarations generalizing seen with
  | nil => exact List.forall_mem_nil _
  | cons declaration rest induction =>
      intro finding member
      rcases List.mem_append.mp member with here | member
      · exact opens_of_mem_checkDeclaration finding here
      · exact induction _ finding member

theorem opens_of_mem_checkUse (visit : Visit) :
    ∀ finding ∈ checkUse visit, finding.OpensWithOneOf ["rule has no declarations"] := by
  intro finding member
  rw [checkUse] at member
  split at member
  · rw [List.mem_singleton.mp member]
    simp [Finding.OpensWithOneOf, Finding.warning]
  · cases member

theorem opens_tooDeep (visit : Visit) : (tooDeep visit).OpensWithOneOf ["nesting depth "] := by
  simp [Finding.OpensWithOneOf, tooDeep, Finding.error]

/-! ## The check of a tree -/

theorem flatMap_filter_eq {α β : Type} (items : List α) {keeps : α → Bool}
    {results : α → List β} :
    (items.filter keeps).flatMap results =
      items.flatMap fun item => if keeps item then results item else [] := by
  induction items with
  | nil => rfl
  | cons item rest induction =>
      rw [List.filter_cons, List.flatMap_cons, ← induction]
      split
      · rw [List.flatMap_cons]
      · rfl

/-- Where findings about identifiers and about nodes that do nothing do not matter, only the number
of selectors and the declarations are left of a node. -/
theorem filter_checkNode {words : String}
    (apart : Finding.Apart ["selector identifier is empty", "'", "rule has no declarations"] words)
    (severity : Severity) (visit : Visit) :
    (checkNode visit).filter (Finding.opensWith severity words) =
      (checkExpansion visit).filter (Finding.opensWith severity words) ++
        (checkDeclarations visit.breadcrumb [] visit.node.declarations).filter
          (Finding.opensWith severity words) := by
  have identifiers := Finding.filter_opensWith_eq_nil (opens_of_mem_checkIdentifier visit)
    (fun other isOpening => apart other (List.mem_append_left _ isOpening)) severity
  have uses := Finding.filter_opensWith_eq_nil (opens_of_mem_checkUse visit)
    (fun other isOpening => apart other (List.mem_append_right ["selector identifier is empty", "'"]
      isOpening)) severity
  simp only [checkNode, List.filter_append, identifiers, uses, List.nil_append, List.append_nil]

section

variable {words : String} (apart : Finding.Apart ["nesting depth "] words) (severity : Severity)

include apart

theorem filter_checkVisit (visit : Visit) :
    (checkVisit visit).filter (Finding.opensWith severity words) =
      if visit.depth ≤ maximumNesting then
        (checkNode visit).filter (Finding.opensWith severity words) ++
          (checkSiblings visit.lineage 1 visit.node.children).filter
            (Finding.opensWith severity words)
      else [] := by
  have notTooDeep := (opens_tooDeep visit).opensWith_eq_false apart severity
  rw [checkVisit]
  by_cases near : visit.depth ≤ maximumNesting
  · rw [if_neg (Nat.not_lt_of_le near), if_pos near, List.filter_append]
  · rw [if_pos (Nat.lt_of_not_le near), if_neg near, List.filter_cons_of_neg (by simp [notTooDeep]),
      List.filter_nil]

/-- Where findings about nodes that are nested too deeply do not matter, the walk may as well go on
to the end. -/
theorem StyleTree.filter_check (tree : StyleTree) :
    tree.check.filter (Finding.opensWith severity words) =
      (checkSiblings [] 1 tree.roots).filter (Finding.opensWith severity words) ++
        tree.walk.flatMap fun visit =>
          (checkVisit visit).filter (Finding.opensWith severity words) := by
  rw [check, List.filter_append, List.filter_flatMap, walkWithin_eq_filter, flatMap_filter_eq]
  congr 2
  funext visit
  by_cases reached : visit.depth ≤ maximumNesting + 1
  · simp [reached]
  · have deep : ¬visit.depth ≤ maximumNesting := by omega
    rw [filter_checkVisit apart, if_neg deep]
    simp [reached]

end

end Stylebook
