import Mathlib.Data.List.Forall2
import Stylebook.Stylesheet.Load

/-!
Lowering a document. Its entries are gone through in document order, an entry before those within
its value. A document whose entries are all valid becomes a tree with a node for each mapping and a
declaration for each other value; otherwise the first entry that is not valid is reported.
-/

namespace Stylebook

/-! ## Shapes -/

namespace Yaml.Value

def isKey : Value → Bool
  | integer _ => true
  | float _ => true
  | text _ => true
  | _ => false

def isScalar : Value → Bool
  | sequence _ => false
  | mapping _ => false
  | _ => true

def isMapping : Value → Bool
  | mapping _ => true
  | _ => false

theorem isSome_keyText? (value : Value) : value.keyText?.isSome = value.isKey := by
  cases value <;> rfl

theorem isSome_scalarText? (value : Value) : value.scalarText?.isSome = value.isScalar := by
  cases value <;> rfl

end Yaml.Value

open Yaml (Value)

/-! ## Entries -/

/-- An entry of a document, with the keys of the entries that it stands within, the outermost
first. -/
structure DocumentEntry where
  above : List Value
  key : Value
  value : Value

inductive IsMemberValue : Value → Prop where
  | scalar {value : Value} (isScalar : value.isScalar = true) : IsMemberValue value
  | mapping (entries : List (Value × Value)) : IsMemberValue (.mapping entries)
  | sequence {items : List Value} (scalars : ∀ item ∈ items, item.isScalar = true) :
      IsMemberValue (.sequence items)

namespace DocumentEntry

/-- A key has to be a string or a number. At the top a value has to be a mapping or null. -/
structure IsValid (entry : DocumentEntry) : Prop where
  key : entry.key.isKey = true
  top : entry.above = [] → entry.value = .null ∨ entry.value.isMapping = true
  inner : entry.above ≠ [] → IsMemberValue entry.value

def breadcrumb (entry : DocumentEntry) : String :=
  breadcrumbText (entry.above.filterMap Value.keyText?)

def error? (entry : DocumentEntry) : Option StylesheetError :=
  match entry.key.keyText?, entry.above, entry.value with
  | none, _, _ =>
      some (.invalidDefinition entry.breadcrumb
        ("keys must be strings, got " ++ entry.key.description) none)
  | some _, [], .null => none
  | some _, [], .mapping _ => none
  | some name, [], value =>
      some (.invalidDefinition name
        ("top-level entries must be mappings of declarations, got " ++ value.description) none)
  | some name, _ :: _, .sequence items =>
      if items.all Value.isScalar then none
      else
        some (.invalidDefinition entry.breadcrumb
          ("list items of '" ++ name ++ "' must be scalars") none)
  | some _, _ :: _, _ => none

theorem isMemberValue_sequence_iff {items : List Value} :
    IsMemberValue (.sequence items) ↔ items.all Value.isScalar = true := by
  rw [List.all_eq_true]
  constructor
  · intro isMember
    cases isMember with
    | scalar isScalar => cases isScalar
    | sequence scalars => exact scalars
  · exact .sequence

theorem error?_eq_none_iff (entry : DocumentEntry) : entry.error? = none ↔ entry.IsValid := by
  have validIff : entry.IsValid ↔ entry.key.isKey = true ∧
      (entry.above = [] → entry.value = .null ∨ entry.value.isMapping = true) ∧
        (entry.above ≠ [] → IsMemberValue entry.value) :=
    ⟨fun ⟨key, top, inner⟩ => ⟨key, top, inner⟩, fun ⟨key, top, inner⟩ => ⟨key, top, inner⟩⟩
  rw [validIff, error?, ← Value.isSome_keyText?]
  rcases entry with ⟨above, key, value⟩
  cases key.keyText? with
  | none => simp
  | some name =>
      cases above with
      | nil => cases value <;> simp [Value.isMapping]
      | cons outer later =>
          cases value with
          | sequence items => simp [isMemberValue_sequence_iff]
          | mapping entries => simp [IsMemberValue.mapping]
          | _ => simpa using IsMemberValue.scalar rfl

end DocumentEntry

mutual

/-- The entries within a value: each entry of a mapping, followed by those within its value. -/
def entriesWithin (above : List Value) : Value → List DocumentEntry
  | .mapping entries => entriesOf above entries
  | _ => []

def entriesFrom (above : List Value) : Value × Value → List DocumentEntry
  | (key, value) => ⟨above, key, value⟩ :: entriesWithin (above ++ [key]) value

def entriesOf (above : List Value) : List (Value × Value) → List DocumentEntry
  | [] => []
  | entry :: rest => entriesFrom above entry ++ entriesOf above rest

end

/-! ## Trees -/

/-- The text of a declaration value: that of a scalar, or those of the items of a sequence with
commas between them. -/
inductive IsTextOf : Value → String → Prop where
  | scalar {value : Value} {text : String} (isText : value.scalarText? = some text) :
      IsTextOf value text
  | sequence {items : List Value} {texts : List String}
      (areTexts : List.Forall₂ (fun item text => item.scalarText? = some text) items texts) :
      IsTextOf (.sequence items) (", ".intercalate texts)

structure IsDeclarationOf (entry : Value × Value) (declaration : Declaration) : Prop where
  property : entry.1.keyText? = some declaration.property
  value : IsTextOf entry.2 declaration.value

/-- The node of an entry whose value is a mapping: a declaration for each entry of the mapping that
has another value, and a child for each that has a mapping, both in document order. -/
inductive IsNodeOf : Value × Value → StyleNode → Prop where
  | mapping {key : Value} {entries : List (Value × Value)} {node : StyleNode}
      (identifier : key.keyText? = some node.identifier)
      (declarations : List.Forall₂ IsDeclarationOf
        (entries.filter fun entry => !entry.2.isMapping) node.declarations)
      (children : List.Forall₂ IsNodeOf
        (entries.filter fun entry => entry.2.isMapping) node.children) :
      IsNodeOf (key, .mapping entries) node

inductive IsRootOf : Value × Value → StyleNode → Prop where
  | mapping {entry : Value × Value} {root : StyleNode} (isNode : IsNodeOf entry root) :
      IsRootOf entry root
  | null {key : Value} {identifier : String} (isKey : key.keyText? = some identifier) :
      IsRootOf (key, .null) ⟨identifier, [], []⟩

inductive IsTreeOf : Value → StyleTree → Prop where
  | null : IsTreeOf .null ⟨[], none⟩
  | mapping {entries : List (Value × Value)} {roots : List StyleNode}
      (areRoots : List.Forall₂ IsRootOf entries roots) : IsTreeOf (.mapping entries) ⟨roots, none⟩

/-! ## One tree for a document -/

theorem IsTextOf.unique {value : Value} {first second : String} (isFirst : IsTextOf value first)
    (isSecond : IsTextOf value second) : first = second := by
  cases isFirst with
  | scalar isText =>
      cases isSecond with
      | scalar isText' => exact Option.some.inj (isText.symm.trans isText')
      | sequence areTexts => cases isText
  | sequence areTexts =>
      cases isSecond with
      | scalar isText => cases isText
      | sequence areTexts' =>
          have unique : Relator.RightUnique fun (item : Value) (text : String) =>
              item.scalarText? = some text :=
            fun _ _ _ isText isText' => Option.some.inj (isText.symm.trans isText')
          rw [unique.forall₂ areTexts areTexts']

theorem isDeclarationOf_rightUnique : Relator.RightUnique IsDeclarationOf := by
  rintro entry ⟨property, value⟩ ⟨property', value'⟩ ⟨isProperty, isValue⟩ ⟨isProperty', isValue'⟩
  cases isProperty.symm.trans isProperty'
  cases isValue.unique isValue'
  rfl

mutual

theorem IsNodeOf.unique {key : Value} {first second : StyleNode} (value : Value)
    (isFirst : IsNodeOf (key, value) first) (isSecond : IsNodeOf (key, value) second) :
    first = second := by
  cases value with
  | mapping entries =>
      cases isFirst with
      | mapping identifier declarations children =>
      cases isSecond with
      | mapping identifier' declarations' children' =>
      rcases first with ⟨name, declared, nested⟩
      rcases second with ⟨name', declared', nested'⟩
      cases identifier.symm.trans identifier'
      cases isDeclarationOf_rightUnique.forall₂ declarations declarations'
      cases areNodesOf_unique entries children children'
      rfl
  | _ => cases isFirst

theorem areNodesOf_unique {first second : List StyleNode} (entries : List (Value × Value))
    (areFirst : List.Forall₂ IsNodeOf (entries.filter fun entry => entry.2.isMapping) first)
    (areSecond : List.Forall₂ IsNodeOf (entries.filter fun entry => entry.2.isMapping) second) :
    first = second := by
  cases entries with
  | nil =>
      cases areFirst
      cases areSecond
      rfl
  | cons entry rest =>
      rcases entry with ⟨key, value⟩
      cases isMapping : value.isMapping with
      | false =>
          rw [List.filter_cons_of_neg (by simp [isMapping])] at areFirst areSecond
          exact areNodesOf_unique rest areFirst areSecond
      | true =>
          rw [List.filter_cons_of_pos (by simp [isMapping])] at areFirst areSecond
          cases areFirst with
          | cons isFirst areFirst =>
          cases areSecond with
          | cons isSecond areSecond =>
          rw [IsNodeOf.unique value isFirst isSecond, areNodesOf_unique rest areFirst areSecond]

end

theorem isRootOf_rightUnique : Relator.RightUnique IsRootOf := by
  intro entry first second isFirst isSecond
  cases isFirst with
  | mapping isNode =>
      cases isSecond with
      | mapping isNode' => exact isNode.unique _ isNode'
      | null isKey => cases isNode
  | null isKey =>
      cases isSecond with
      | mapping isNode => cases isNode
      | null isKey' =>
          cases isKey.symm.trans isKey'
          rfl

theorem IsTreeOf.unique {document : Value} {first second : StyleTree}
    (isFirst : IsTreeOf document first) (isSecond : IsTreeOf document second) :
    first = second := by
  cases isFirst with
  | null =>
      cases isSecond
      rfl
  | mapping areRoots =>
      cases isSecond with
      | mapping areRoots' => rw [isRootOf_rightUnique.forall₂ areRoots areRoots']

/-! ## Faults and results -/

section Yields

variable {α β : Type} {Correct : α → Prop} {first? later? : Option StylesheetError}

/-- A lowering reports the first fault if there is one, and otherwise has a correct result. -/
inductive Yields (Correct : α → Prop) :
    Option StylesheetError → Except StylesheetError α → Prop where
  | error (error : StylesheetError) : Yields Correct (some error) (.error error)
  | ok {result : α} (correct : Correct result) : Yields Correct none (.ok result)

/-- A step that follows another looks for a fault only if the other has found none. -/
theorem Yields.bind {CorrectAfter : β → Prop} {lowered : Except StylesheetError α}
    {next : α → Except StylesheetError β} (yields : Yields Correct first? lowered)
    (nextYields : ∀ result, Correct result → Yields CorrectAfter later? (next result)) :
    Yields CorrectAfter (first?.or later?) (lowered >>= next) := by
  cases yields with
  | error error => exact .error error
  | ok correct => exact nextYields _ correct

theorem Yields.map {CorrectAfter : β → Prop} {lowered : Except StylesheetError α} {after : α → β}
    (yields : Yields Correct first? lowered)
    (correct : ∀ result, Correct result → CorrectAfter (after result)) :
    Yields CorrectAfter first? (lowered >>= fun result => .ok (after result)) := by
  cases yields with
  | error error => exact .error error
  | ok isCorrect => exact .ok (correct _ isCorrect)

end Yields

def firstError? (entries : List DocumentEntry) : Option StylesheetError :=
  entries.findSome? DocumentEntry.error?

@[simp]
theorem firstError?_cons (entry : DocumentEntry) (entries : List DocumentEntry) :
    firstError? (entry :: entries) = entry.error?.or (firstError? entries) := by
  rw [firstError?, List.findSome?_cons]
  cases entry.error? <;> rfl

@[simp]
theorem firstError?_append (before after : List DocumentEntry) :
    firstError? (before ++ after) = (firstError? before).or (firstError? after) :=
  List.findSome?_append

/-! ## Lowering the members of a node -/

inductive IsMemberOf (entry : Value × Value) : Member → Prop where
  | declaration {declaration : Declaration} (isDeclaration : IsDeclarationOf entry declaration) :
      IsMemberOf entry (.declaration declaration)
  | child {node : StyleNode} (isNode : IsNodeOf entry node) : IsMemberOf entry (.child node)

theorem IsDeclarationOf.isMapping_eq_false {entry : Value × Value} {declaration : Declaration}
    (isDeclaration : IsDeclarationOf entry declaration) : entry.2.isMapping = false := by
  rcases entry with ⟨key, value⟩
  cases value with
  | mapping entries =>
      cases isDeclaration.value with
      | scalar isText => cases isText
  | _ => rfl

theorem IsNodeOf.isMapping {entry : Value × Value} {node : StyleNode}
    (isNode : IsNodeOf entry node) : entry.2.isMapping = true := by
  cases isNode
  rfl

section Members

variable {entries : List (Value × Value)} {members : List Member}

theorem areDeclarations_of_members (areMembers : List.Forall₂ IsMemberOf entries members) :
    List.Forall₂ IsDeclarationOf (entries.filter fun entry => !entry.2.isMapping)
      (members.filterMap Member.declaration?) := by
  induction areMembers with
  | nil => exact .nil
  | cons isMember areMembers hypothesis =>
      cases isMember with
      | declaration isDeclaration =>
          rw [List.filter_cons_of_pos (by simp [isDeclaration.isMapping_eq_false])]
          exact .cons isDeclaration hypothesis
      | child isNode =>
          rw [List.filter_cons_of_neg (by simp [isNode.isMapping])]
          exact hypothesis

theorem areNodes_of_members (areMembers : List.Forall₂ IsMemberOf entries members) :
    List.Forall₂ IsNodeOf (entries.filter fun entry => entry.2.isMapping)
      (members.filterMap Member.child?) := by
  induction areMembers with
  | nil => exact .nil
  | cons isMember areMembers hypothesis =>
      cases isMember with
      | declaration isDeclaration =>
          rw [List.filter_cons_of_neg (by simp [isDeclaration.isMapping_eq_false])]
          exact hypothesis
      | child isNode =>
          rw [List.filter_cons_of_pos (by simp [isNode.isMapping])]
          exact .cons isNode hypothesis

/-- The members of a node are kept apart, and neither kind loses its order. -/
theorem isNodeOf_ofMembers {key : Value} {identifier : String}
    (isKey : key.keyText? = some identifier)
    (areMembers : List.Forall₂ IsMemberOf entries members) :
    IsNodeOf (key, .mapping entries) (.ofMembers identifier members) :=
  .mapping isKey (areDeclarations_of_members areMembers) (areNodes_of_members areMembers)

end Members

/-- The items of a list are read in order, up to the first that is not a scalar. -/
theorem itemTexts_yields (lineage : List String) (property : String) (items : List Value) :
    Yields (List.Forall₂ (fun item text => item.scalarText? = some text) items)
      (if items.all Value.isScalar then none
        else some (.invalidDefinition (breadcrumbText lineage)
          ("list items of '" ++ property ++ "' must be scalars") none))
      (itemTexts lineage property items) := by
  induction items with
  | nil => exact .ok .nil
  | cons item rest hypothesis =>
      rw [itemTexts, List.all_cons, ← Value.isSome_scalarText?]
      cases isText : item.scalarText? with
      | none => exact .error _
      | some text => exact hypothesis.map fun texts areTexts => .cons isText areTexts

mutual

theorem lowerValue_yields {above : List Value} (inside : above ≠ []) {key : Value} {name : String}
    (isKey : key.keyText? = some name) (value : Value) :
    Yields (IsMemberOf (key, value)) (firstError? (entriesFrom above (key, value)))
      (lowerValue (above.filterMap Value.keyText?) name value) := by
  rcases List.exists_cons_of_ne_nil inside with ⟨outer, later, rfl⟩
  rw [entriesFrom, firstError?_cons]
  cases value with
  | mapping entries =>
      have yields := lowerEntries_yields (List.cons_ne_nil outer (later ++ [key])) entries
      rw [← List.cons_append, List.filterMap_append, List.filterMap_cons_some isKey,
        List.filterMap_nil] at yields
      simp only [DocumentEntry.error?, isKey, entriesWithin, Option.none_or, lowerValue]
      exact yields.map fun members areMembers => .child (isNodeOf_ofMembers isKey areMembers)
  | sequence items =>
      have yields := itemTexts_yields ((outer :: later).filterMap Value.keyText?) name items
      simp only [DocumentEntry.error?, isKey, entriesWithin, firstError?, List.findSome?_nil,
        Option.or_none, lowerValue]
      exact yields.map fun texts areTexts => .declaration ⟨isKey, .sequence areTexts⟩
  | _ =>
      simp only [DocumentEntry.error?, isKey, lowerValue]
      exact .ok (.declaration ⟨isKey, .scalar rfl⟩)

theorem lowerEntry_yields {above : List Value} (inside : above ≠ []) (entry : Value × Value) :
    Yields (IsMemberOf entry) (firstError? (entriesFrom above entry))
      (lowerEntry (above.filterMap Value.keyText?) entry) := by
  rcases entry with ⟨key, value⟩
  rw [lowerEntry, keyText]
  cases isKey : key.keyText? with
  | none =>
      rw [entriesFrom, firstError?_cons]
      simp only [DocumentEntry.error?, isKey]
      exact .error _
  | some name => exact lowerValue_yields inside isKey value

theorem lowerEntries_yields {above : List Value} (inside : above ≠ [])
    (entries : List (Value × Value)) :
    Yields (List.Forall₂ IsMemberOf entries) (firstError? (entriesOf above entries))
      (lowerEntries (above.filterMap Value.keyText?) entries) := by
  cases entries with
  | nil => exact .ok .nil
  | cons entry rest =>
      rw [entriesOf, firstError?_append, lowerEntries]
      exact (lowerEntry_yields inside entry).bind fun member isMember =>
        (lowerEntries_yields inside rest).map fun members areMembers =>
          .cons isMember areMembers

end

/-! ## Lowering a document -/

theorem lowerRoot_yields (entry : Value × Value) :
    Yields (IsRootOf entry) (firstError? (entriesFrom [] entry)) (lowerRoot entry) := by
  rcases entry with ⟨key, value⟩
  rw [entriesFrom, firstError?_cons, List.nil_append, lowerRoot, keyText]
  cases isKey : key.keyText? with
  | none =>
      simp only [DocumentEntry.error?, isKey]
      exact .error _
  | some identifier =>
      simp only [DocumentEntry.error?, isKey]
      cases value with
      | mapping entries =>
          have yields := lowerEntries_yields (List.cons_ne_nil key []) entries
          rw [List.filterMap_cons_some isKey, List.filterMap_nil] at yields
          exact yields.map fun members areMembers =>
            .mapping (isNodeOf_ofMembers isKey areMembers)
      | null => exact .ok (.null isKey)
      | _ => exact .error _

theorem lowerRoots_yields (entries : List (Value × Value)) :
    Yields (List.Forall₂ IsRootOf entries) (firstError? (entriesOf [] entries))
      (lowerRoots entries) := by
  induction entries with
  | nil => exact .ok .nil
  | cons entry rest hypothesis =>
      rw [entriesOf, firstError?_append, lowerRoots]
      exact (lowerRoot_yields entry).bind fun root isRoot =>
        hypothesis.map fun roots areRoots => .cons isRoot areRoots

def documentError? : Value → Option StylesheetError
  | .null => none
  | .mapping entries => firstError? (entriesOf [] entries)
  | _ => some (.parse none "stylesheet must be a YAML mapping" none none)

theorem ofValue_yields (document : Value) :
    Yields (IsTreeOf document) (documentError? document) (StyleTree.ofValue document) := by
  cases document with
  | null => exact .ok .null
  | mapping entries =>
      exact (lowerRoots_yields entries).map fun roots areRoots => .mapping areRoots
  | _ => exact .error _

/-! ## Which documents have a tree -/

inductive IsStylesheet : Value → Prop where
  | null : IsStylesheet .null
  | mapping {entries : List (Value × Value)}
      (valid : ∀ entry ∈ entriesOf [] entries, entry.IsValid) : IsStylesheet (.mapping entries)

inductive IsRefusedFor : Value → StylesheetError → Prop where
  | shape {document : Value} (notNull : document ≠ .null)
      (notMapping : document.isMapping = false) :
      IsRefusedFor document (.parse none "stylesheet must be a YAML mapping" none none)
  | entry {entries : List (Value × Value)} {before after : List DocumentEntry}
      {entry : DocumentEntry} {error : StylesheetError}
      (entriesEq : entriesOf [] entries = before ++ entry :: after)
      (validBefore : ∀ earlier ∈ before, earlier.IsValid) (isError : entry.error? = some error) :
      IsRefusedFor (.mapping entries) error

theorem firstError?_eq_none_iff (entries : List DocumentEntry) :
    firstError? entries = none ↔ ∀ entry ∈ entries, entry.IsValid := by
  simp only [firstError?, List.findSome?_eq_none_iff, DocumentEntry.error?_eq_none_iff]

theorem firstError?_eq_some_iff (entries : List DocumentEntry) (error : StylesheetError) :
    firstError? entries = some error ↔ ∃ before entry after, entries = before ++ entry :: after ∧
      entry.error? = some error ∧ ∀ earlier ∈ before, earlier.IsValid := by
  simp only [firstError?, List.findSome?_eq_some_iff, DocumentEntry.error?_eq_none_iff]

theorem documentError?_eq_none_iff (document : Value) :
    documentError? document = none ↔ IsStylesheet document := by
  cases document with
  | null => exact ⟨fun _ => .null, fun _ => rfl⟩
  | mapping entries =>
      rw [documentError?, firstError?_eq_none_iff]
      constructor
      · exact .mapping
      · intro isStylesheet
        cases isStylesheet with
        | mapping valid => exact valid
  | _ =>
      constructor
      · intro noError
        cases noError
      · intro isStylesheet
        cases isStylesheet

theorem documentError?_eq_some_iff (document : Value) (error : StylesheetError) :
    documentError? document = some error ↔ IsRefusedFor document error := by
  cases document with
  | null =>
      constructor
      · intro isError
        cases isError
      · intro isRefused
        cases isRefused with
        | shape notNull notMapping => exact absurd rfl notNull
  | mapping entries =>
      rw [documentError?, firstError?_eq_some_iff]
      constructor
      · rintro ⟨before, entry, after, entriesEq, isError, validBefore⟩
        exact .entry entriesEq validBefore isError
      · intro isRefused
        cases isRefused with
        | shape notNull notMapping => cases notMapping
        | entry entriesEq validBefore isError => exact ⟨_, _, _, entriesEq, isError, validBefore⟩
  | _ =>
      constructor
      · intro isError
        cases isError
        exact .shape (by simp) rfl
      · intro isRefused
        cases isRefused
        rfl

/-- A document has a tree exactly if it is a style sheet, and then its tree is the only one that
has each entry in its place. Otherwise it is refused for its first entry that is not valid. -/
theorem ofValue_of_entries (document : Value) :
    ((∃ tree, StyleTree.ofValue document = .ok tree) ↔ IsStylesheet document) ∧
      (∀ tree, StyleTree.ofValue document = .ok tree ↔
        IsStylesheet document ∧ IsTreeOf document tree) ∧
      ∀ error, StyleTree.ofValue document = .error error ↔ IsRefusedFor document error := by
  simp only [← documentError?_eq_none_iff, ← documentError?_eq_some_iff]
  have yields := ofValue_yields document
  generalize documentError? document = first?, StyleTree.ofValue document = lowered at yields ⊢
  cases yields with
  | error error => simp
  | ok correct =>
      refine ⟨by simp, fun tree => ?_, by simp⟩
      constructor
      · intro isTree
        cases isTree
        exact ⟨rfl, correct⟩
      · rintro ⟨-, isTree⟩
        rw [correct.unique isTree]

/-- Both entries under one key are kept, although a node stands between them. -/
example : StyleTree.ofValue (.mapping [(.text ".a", .mapping [(.text "top", .null),
      (.text "& b", .mapping []), (.text "top", .sequence [.integer 1, .boolean true])])]) =
    .ok ⟨[⟨".a", [⟨"top", ""⟩, ⟨"top", "1, true"⟩], [⟨"& b", [], []⟩]⟩], none⟩ := rfl

end Stylebook
