import Mathlib.Data.List.DropRight
import Stylebook.Naming.Check
import Stylebook.Proofs.Css.Names
import Stylebook.Proofs.Selector.Agreement
import Stylebook.Proofs.Selector.Combine
import Stylebook.Proofs.Selector.Steps
import Stylebook.Proofs.Tree.Walk

/-!
Class names and selectors. Where every root is `.name` and every other node `.name` or `&suffix`,
the class name of a node, which is put together from the last class name of its parent, is what
stands behind the last full stop of its selector.
-/

namespace Stylebook.Naming

open Selector Text

/-! ## Identifiers -/

def NamesClass (identifier : String) : Prop :=
  ∃ name, Css.IsName name ∧ identifier.toList = '.' :: name

def NamesSuffix (identifier : String) : Prop :=
  ∃ suffix, Css.IsName suffix ∧ identifier.toList = '&' :: suffix

structure IsUnbroken (text : List Char) : Prop where
  nonempty : text ≠ []
  trimmed : IsTrimmed text
  unmarked : ∀ character ∈ text, character ∉ Css.listMarks

theorem IsUnbroken.members_eq {text : List Char} (unbroken : IsUnbroken text) :
    members text = [text] :=
  members_of_isMember ⟨unbroken.nonempty, unbroken.trimmed,
    (scan_of_not_mem_listMarks 0 unbroken.unmarked).1⟩

theorem isUnbroken_of_forall {text : List Char} (nonempty : text ≠ [])
    (plain : ∀ character ∈ text, isBlank character = false ∧ character ∉ Css.listMarks) :
    IsUnbroken text where
  nonempty := nonempty
  trimmed := isTrimmed_of_visible fun character member => (plain character member).1
  unmarked _ member := (plain _ member).2

theorem isUnbroken_of_isName {name : List Char} (isName : Css.IsName name) : IsUnbroken name := by
  refine isUnbroken_of_forall isName.nonempty fun character member =>
    ⟨isName.visible character member, ?_⟩
  exact Css.not_mem_listMarks_of_isNameCharacter character
    (Css.isNameCharacter_of_plain (isName.plain character member)).1

theorem IsUnbroken.append {left right : List Char} (ofLeft : IsUnbroken left)
    (ofRight : IsUnbroken right) (middle : List Char)
    (plain : ∀ character ∈ middle, character ∉ Css.listMarks) :
    IsUnbroken (left ++ middle ++ right) where
  nonempty := by simp [ofLeft.nonempty]
  trimmed := ofLeft.trimmed.append ofRight.trimmed ofLeft.nonempty ofRight.nonempty middle
  unmarked := by
    intro character member
    rcases List.mem_append.mp member with member | member
    · rcases List.mem_append.mp member with member | member
      · exact ofLeft.unmarked character member
      · exact plain character member
    · exact ofRight.unmarked character member

/-- A name behind a visible character that is no mark of a list. -/
theorem isUnbroken_cons {first : Char} {name : List Char} (isName : Css.IsName name)
    (visible : isBlank first = false) (plain : first ∉ Css.listMarks) :
    IsUnbroken (first :: name) := by
  have alone : IsUnbroken [first] :=
    ⟨List.cons_ne_nil first [], by constructor <;> simpa using visible, by simpa using plain⟩
  exact alone.append (isUnbroken_of_isName isName) [] (by simp)

/-! ## Class names -/

theorem split_eq_singleton {identifier : String} (unbroken : IsUnbroken identifier.toList) :
    split identifier = [identifier] := by
  rw [split, unbroken.members_eq, List.map_singleton, String.ofList_toList]

theorem ofText_trimmed_eq {identifier : String} (unbroken : IsUnbroken identifier.toList)
    {tokens : List Css.Token} (isTokens : Css.tokens identifier.toList = tokens) :
    Css.Component.ofText (trimmed identifier) =
      Css.Component.nest [] [] (tokens.filter fun token => token != .comment) := by
  rw [unbroken.trimmed.trimmed_eq, Css.Component.ofText, isTokens]

theorem classNames_of_class {identifier : String} {name : List Char} (isName : Css.IsName name)
    (isClass : identifier.toList = '.' :: name) (parentClass : Option String) :
    classNames parentClass identifier = [String.ofList name] := by
  have unbroken : IsUnbroken identifier.toList := isClass ▸ isUnbroken_cons isName rfl (by decide)
  have refs : classRefs identifier = [.name (String.ofList name)] := by
    rw [classRefs, ofText_trimmed_eq unbroken (isClass ▸ isName.tokens_stop)]
    rfl
  rw [classNames, split_eq_singleton unbroken, List.flatMap_singleton, refs]
  rfl

theorem classNames_of_suffix {identifier : String} {suffix : List Char}
    (isName : Css.IsName suffix) (isSuffix : identifier.toList = '&' :: suffix) (parent : String) :
    classNames (some parent) identifier = [parent ++ String.ofList suffix] := by
  have unbroken : IsUnbroken identifier.toList := isSuffix ▸ isUnbroken_cons isName rfl (by decide)
  have refs : classRefs identifier = [.suffix (String.ofList suffix)] := by
    rw [classRefs, ofText_trimmed_eq unbroken (isSuffix ▸ isName.tokens_reference)]
    rfl
  rw [classNames, split_eq_singleton unbroken, List.flatMap_singleton, refs]
  rfl

/-! ## Selectors -/

def afterLastStop (text : List Char) : List Char :=
  text.rtakeWhile fun character => character != '.'

theorem afterLastStop_append {left right : List Char} (noStop : '.' ∉ right) :
    afterLastStop (left ++ right) = afterLastStop left ++ right := by
  have taken : ∀ character ∈ right.reverse, (character != '.') = true := by
    intro character member
    rw [bne_iff_ne]
    rintro rfl
    exact noStop (List.mem_reverse.mp member)
  rw [afterLastStop, List.rtakeWhile, List.reverse_append, List.takeWhile_append_of_pos taken,
    List.reverse_append, List.reverse_reverse]
  rfl

theorem afterLastStop_stop (left : List Char) {right : List Char} (noStop : '.' ∉ right) :
    afterLastStop (left ++ '.' :: right) = right := by
  rw [List.append_cons, afterLastStop_append noStop, afterLastStop,
    List.rtakeWhile_concat_neg _ _ _ (by decide), List.nil_append]

theorem not_mem_of_isName {name : List Char} (isName : Css.IsName name) (character : Char)
    (isOther : ¬(character.isAlphanum = true ∨ character = '-' ∨ character = '_')) :
    character ∉ name :=
  fun member => isOther (isName.plain character member)

theorem combine_class (parent name : List Char) :
    combine parent ('.' :: name) = parent ++ ' ' :: '.' :: name := rfl

theorem combine_suffix (parent : List Char) {suffix : List Char} (isName : Css.IsName suffix) :
    combine parent ('&' :: suffix) = parent ++ suffix := by
  have whole : substitute parent suffix = suffix := by
    have kept : ∀ character ∈ suffix, (if character = '&' then parent else [character]) =
        [character] := by
      intro character member
      rw [if_neg]
      rintro rfl
      exact not_mem_of_isName isName '&' (by decide) member
    rw [substitute, List.flatMap_congr kept, List.flatMap_singleton']
  have fused : isFused ('&' :: suffix) = true := rfl
  rw [combine, fused, if_pos rfl, substitute_cons, if_pos rfl, whole]

theorem joined_singleton (text : List Char) : joined [text] = text := by
  simp [joined, List.intercalate]

/-- The selector of a node below another one, if both are not broken into members. -/
theorem qualifyLineage_concat_of_unbroken {above : List String} {parent identifier : String}
    (qualified : qualifyLineage above = .ok parent) (ofParent : IsUnbroken parent.toList)
    (ofIdentifier : IsUnbroken identifier.toList) :
    qualifyLineage (above ++ [identifier]) =
      .ok (String.ofList (combine parent.toList identifier.toList)) := by
  have nonempty : above ≠ [] := by
    rintro rfl
    cases qualified
  rw [qualifyLineage_concat_eq_ok_iff nonempty]
  refine ⟨parent, qualified, ?_⟩
  rw [ofParent.members_eq, ofIdentifier.members_eq, combinations, List.flatMap_singleton,
    List.map_singleton, joined_singleton, String.toList_ofList]
  exact ⟨List.cons_ne_nil _ _, by simp [maximumSelectors], rfl⟩

/-! ## Resolution -/

/-- The last class name above a node, if there is any, is what stands behind the last full stop of
the selector of its parent. -/
inductive Resolves : List String → Option String → Prop where
  | top : Resolves [] none
  | below {lineage : List String} {selector : String}
      (qualified : qualifyLineage lineage = .ok selector) (unbroken : IsUnbroken selector.toList) :
      Resolves lineage (some (String.ofList (afterLastStop selector.toList)))

/-- The only class name of a node is what stands behind the last full stop of its selector. -/
theorem Resolves.step {above : List String} {parentClass : Option String}
    (resolves : Resolves above parentClass) {identifier : String}
    (names : NamesClass identifier ∨ above ≠ [] ∧ NamesSuffix identifier) :
    ∃ selector, qualifyLineage (above ++ [identifier]) = .ok selector ∧
      IsUnbroken selector.toList ∧
      classNames parentClass identifier =
        [String.ofList (afterLastStop selector.toList)] := by
  rcases names with ⟨name, isName, isClass⟩ | ⟨nested, suffix, isName, isSuffix⟩
  · have noStop := not_mem_of_isName isName '.' (by decide)
    have ofIdentifier : IsUnbroken identifier.toList :=
      isClass ▸ isUnbroken_cons isName rfl (by decide)
    rw [classNames_of_class isName isClass]
    cases resolves with
    | top =>
        refine ⟨identifier, ?_, ofIdentifier, ?_⟩
        · rw [List.nil_append, qualifyLineage_singleton_eq_ok_iff, ofIdentifier.members_eq,
            joined_singleton, List.forall_mem_singleton, isClass]
          exact ⟨List.cons_ne_nil _ _, rfl, by simp [maximumSelectors], rfl⟩
        · rw [isClass, ← List.nil_append ('.' :: name), afterLastStop_stop [] noStop]
    | @below _ parent qualified ofParent =>
        refine ⟨_, qualifyLineage_concat_of_unbroken qualified ofParent ofIdentifier, ?_, ?_⟩
        · rw [String.toList_ofList, isClass, combine_class, List.append_cons]
          exact ofParent.append (isClass ▸ ofIdentifier) [' ']
            (List.forall_mem_singleton.mpr (by decide))
        · rw [String.toList_ofList, isClass, combine_class, List.append_cons,
            afterLastStop_stop _ noStop]
  · have noStop := not_mem_of_isName isName '.' (by decide)
    cases resolves with
    | top => exact absurd rfl nested
    | @below _ parent qualified ofParent =>
        have ofIdentifier : IsUnbroken identifier.toList :=
          isSuffix ▸ isUnbroken_cons isName rfl (by decide)
        refine ⟨_, qualifyLineage_concat_of_unbroken qualified ofParent ofIdentifier, ?_, ?_⟩
        · rw [String.toList_ofList, isSuffix, combine_suffix _ isName]
          simpa using ofParent.append (isUnbroken_of_isName isName) [] (by simp)
        · rw [String.toList_ofList, isSuffix, combine_suffix _ isName, afterLastStop_append noStop,
            classNames_of_suffix isName isSuffix, String.ofList_append]

/-! ## Violations -/

def violationBehindStop? (selector : String) (visit : Visit) : Option Violation :=
  let name := String.ofList (afterLastStop selector.toList)
  (violationOf? name).map fun kind => ⟨visit.breadcrumb, visit.node.identifier, name, kind⟩

structure IsNamed (selector : String) (visit : Visit) : Prop where
  names : NamesClass visit.node.identifier ∨
    1 < visit.lineage.length ∧ NamesSuffix visit.node.identifier
  qualified : qualifyLineage visit.lineage = .ok selector

theorem violationsOf_singleton (visit : Visit) (selector : String) :
    violationsOf visit.lineage visit.node.identifier
        [String.ofList (afterLastStop selector.toList)] =
      (violationBehindStop? selector visit).toList := by
  simp only [violationsOf, List.filterMap_cons, List.filterMap_nil, violationBehindStop?]
  cases violationOf? (String.ofList (afterLastStop selector.toList)) <;> rfl

mutual

private theorem nodeViolations_eq {selectorOf : Visit → String} {above : List String}
    {parentClass : Option String} (resolves : Resolves above parentClass) (path : NodePath) :
    (node : StyleNode) →
      (∀ visit ∈ node.visits path (above ++ [node.identifier]) none,
        IsNamed (selectorOf visit) visit) →
      nodeViolations above parentClass node =
        (node.visits path (above ++ [node.identifier]) none).filterMap
          fun visit => violationBehindStop? (selectorOf visit) visit
  | ⟨identifier, declarations, children⟩ => by
      intro named
      let visit : Visit := ⟨⟨identifier, declarations, children⟩, path, above ++ [identifier]⟩
      have here : IsNamed (selectorOf visit) visit := named visit (mem_visits.mpr (.inl rfl))
      have nested : NamesClass identifier ∨ above ≠ [] ∧ NamesSuffix identifier := by
        refine here.names.imp_right fun ⟨deep, isSuffix⟩ => ⟨?_, isSuffix⟩
        rintro rfl
        simp [visit] at deep
      rcases resolves.step nested with ⟨selector, qualified, unbroken, single⟩
      have same : selectorOf visit = selector := Except.ok.inj (here.qualified.symm.trans qualified)
      subst same
      have below := siblingViolations_eq (.below qualified unbroken) path 0 children
        fun other member => named other (mem_visits.mpr (.inr ⟨by simp, member⟩))
      have names : nodeViolations above parentClass ⟨identifier, declarations, children⟩ =
          (violationBehindStop? (selectorOf visit) visit).toList ++
            siblingViolations visit.lineage
              (some (String.ofList (afterLastStop (selectorOf visit).toList))) children := by
        rw [← violationsOf_singleton]
        simp only [nodeViolations, single, List.getLast?_singleton, visit]
      rw [names, below, StyleNode.visits, List.filterMap_cons]
      cases violationBehindStop? (selectorOf visit) visit <;> rfl

private theorem siblingViolations_eq {selectorOf : Visit → String} {above : List String}
    {parentClass : Option String} (resolves : Resolves above parentClass) (path : NodePath)
    (start : Nat) : (siblings : List StyleNode) →
      (∀ visit ∈ siblingVisits path above none start siblings,
        IsNamed (selectorOf visit) visit) →
      siblingViolations above parentClass siblings =
        (siblingVisits path above none start siblings).filterMap
          fun visit => violationBehindStop? (selectorOf visit) visit
  | [] => fun _ => rfl
  | node :: rest => by
      intro named
      rw [siblingVisits, List.forall_mem_append] at named
      rw [siblingViolations, siblingVisits, List.filterMap_append,
        nodeViolations_eq resolves (path.child start) node named.1,
        siblingViolations_eq resolves path (start + 1) rest named.2]

end

def NamesClasses (tree : StyleTree) : Prop :=
  ∀ visit ∈ tree.walk, NamesClass visit.node.identifier ∨
    visit.isRoot = false ∧ NamesSuffix visit.node.identifier

/-- The selectors of a tree of class names are not broken into members. -/
theorem exists_unbroken_selector {tree : StyleTree} (names : NamesClasses tree) :
    ∀ visit ∈ tree.walk, ∃ selector, qualifyLineage visit.lineage = .ok selector ∧
      IsUnbroken selector.toList := by
  apply StyleTree.walk_induction
  · intro visit member isRoot
    have isClass : NamesClass visit.node.identifier := by
      rcases names visit member with isClass | ⟨notRoot, -⟩
      · exact isClass
      · simp [Visit.isRoot, isRoot.depth_eq] at notRoot
    rcases Resolves.top.step (.inl isClass) with ⟨selector, qualified, unbroken, -⟩
    exact ⟨selector, isRoot.lineage_eq ▸ qualified, unbroken⟩
  · intro parent isParent visit member isChild above
    rcases above with ⟨selector, qualified, unbroken⟩
    have nested := (names visit member).imp_right fun ⟨_, isSuffix⟩ =>
      (⟨StyleTree.lineage_ne_nil isParent, isSuffix⟩ :
        parent.lineage ≠ [] ∧ NamesSuffix visit.node.identifier)
    rcases (Resolves.below qualified unbroken).step nested with ⟨inner, qualified, unbroken, -⟩
    exact ⟨inner, (Visit.IsAmong.lineage_eq isChild) ▸ qualified, unbroken⟩

/-- The violations of a tree of class names are those behind the last full stops of the selectors of
its nodes: at most one for each node, in document order. -/
theorem violations_of_namesClasses {tree : StyleTree} (names : NamesClasses tree) :
    ∃ selectorOf : Visit → String,
      (∀ visit ∈ tree.walk, qualifyLineage visit.lineage = .ok (selectorOf visit)) ∧
      violations tree =
        tree.walk.filterMap fun visit => violationBehindStop? (selectorOf visit) visit := by
  have qualified : ∀ visit, ∃ selector, visit ∈ tree.walk →
      qualifyLineage visit.lineage = .ok selector := by
    intro visit
    by_cases member : visit ∈ tree.walk
    · rcases exists_unbroken_selector names visit member with ⟨selector, qualified, -⟩
      exact ⟨selector, fun _ => qualified⟩
    · exact ⟨"", fun isVisit => absurd isVisit member⟩
  rcases Classical.axiomOfChoice qualified with ⟨selectorOf, qualified⟩
  refine ⟨selectorOf, qualified, siblingViolations_eq .top [] 0 tree.roots ?_⟩
  intro visit member
  refine ⟨(names visit member).imp_right fun ⟨notRoot, isSuffix⟩ => ⟨?_, isSuffix⟩,
    qualified visit member⟩
  have nonempty := List.length_pos_of_ne_nil (StyleTree.lineage_ne_nil member)
  rw [Visit.isRoot, StyleTree.depth_eq_length_lineage visit member, beq_eq_false_iff_ne] at notRoot
  omega

def nestedElements : StyleTree :=
  ⟨[⟨".card", [], [⟨"&__title", [], [⟨"&__icon", [], []⟩, ⟨".link", [], []⟩]⟩]⟩], none⟩

theorem namesClasses_nestedElements : NamesClasses nestedElements := by
  have isName {text : List Char} (isPlain : text.all fun character =>
      character.isAlphanum || character == '-' || character == '_')
      (begins : ∃ first rest, text = first :: rest ∧
        Css.nextToken first rest = Css.nameToken first rest) : Css.IsName text := by
    rcases begins with ⟨first, rest, rfl, begins⟩
    refine Css.isName_cons (fun character member => ?_) begins
    simpa [or_assoc] using List.all_eq_true.mp isPlain character member
  intro visit member
  simp only [StyleTree.walk, nestedElements, siblingVisits, StyleNode.visits, levelsBelow] at member
  simp at member
  rcases member with rfl | rfl | rfl | rfl
  · exact .inl ⟨"card".toList, isName (by decide) ⟨_, _, rfl, rfl⟩, rfl⟩
  · exact .inr ⟨rfl, "__title".toList, isName (by decide) ⟨_, _, rfl, rfl⟩, rfl⟩
  · exact .inr ⟨rfl, "__icon".toList, isName (by decide) ⟨_, _, rfl, rfl⟩, rfl⟩
  · exact .inl ⟨"link".toList, isName (by decide) ⟨_, _, rfl, rfl⟩, rfl⟩

/-- Only the element of an element breaks a rule. -/
theorem violations_of_nestedElements :
    NamesClasses nestedElements ∧
      violations nestedElements = [⟨".card > &__title > &__icon", "&__icon", "card__title__icon",
        .multipleElements⟩] := by
  have names := namesClasses_nestedElements
  rcases violations_of_namesClasses names with ⟨selectorOf, qualified, equal⟩
  have computed : violations nestedElements = nestedElements.walk.filterMap fun visit =>
      (qualifyLineage visit.lineage).toOption.bind fun selector =>
        violationBehindStop? selector visit := by
    rw [equal]
    refine List.filterMap_congr fun visit member => ?_
    rw [qualified visit member, Except.toOption, Option.bind_some]
  exact ⟨names, computed.trans (by decide +kernel)⟩

end Stylebook.Naming
