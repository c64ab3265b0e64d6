import Stylebook.Proofs.Css.Outer
import Stylebook.Proofs.Validation.Findings

/-!
Which values are warned about. The tokens of a value show what is wrong with it at every level of
its blocks, but the check looks into none of them: it names the first thing that is wrong outside
of blocks, and says nothing of a value that is wrong within them only.
-/

namespace Stylebook

open Css

/-! ## What is wrong with values -/

/-- A problem of a value, with the blocks that are open where it stands, the innermost first. -/
structure ValueFault where
  blocks : List Bracket
  problem : ValueProblem
  deriving DecidableEq, Repr

namespace ValueFault

def isOutside (fault : ValueFault) : Bool := fault.blocks.isEmpty

/-- What is wrong with a token where some blocks are open, if anything. A closing bracket is wrong
unless it closes the innermost block. -/
def ofToken? (blocks : List Bracket) : Token → Option ValueProblem
  | .badString => some .unterminatedString
  | .badUrl => some .malformedAddress
  | .closing bracket => if blocks.head? = some bracket then none else some .unbalancedBracket
  | _ => none

def ofTokens (blocks : List Bracket) : List Token → List ValueFault
  | [] => []
  | token :: rest =>
      ((ofToken? blocks token).map (⟨blocks, ·⟩)).toList ++ ofTokens (openAfter blocks token) rest

def ofValue (value : String) : List ValueFault := ofTokens [] (tokens value.toList)

theorem mem_ofTokens_iff {fault : ValueFault} {blocks : List Bracket} {tokens : List Token} :
    fault ∈ ofTokens blocks tokens ↔ ∃ before token after, tokens = before ++ token :: after ∧
      before.foldl openAfter blocks = fault.blocks ∧
        ofToken? fault.blocks token = some fault.problem := by
  induction tokens generalizing blocks with
  | nil => simp [ofTokens]
  | cons token rest induction =>
      rw [ofTokens, List.mem_append, induction, Option.mem_toList, Option.map_eq_some_iff]
      constructor
      · rintro (⟨problem, isProblem, rfl⟩ | ⟨before, wrong, after, rfl, isOpen, isProblem⟩)
        · exact ⟨[], token, rest, rfl, rfl, isProblem⟩
        · exact ⟨token :: before, wrong, after, rfl, isOpen, isProblem⟩
      · rintro ⟨before, wrong, after, parts, isOpen, isProblem⟩
        cases before with
        | nil =>
            cases parts
            cases isOpen
            exact .inl ⟨fault.problem, isProblem, rfl⟩
        | cons first before =>
            cases parts
            exact .inr ⟨before, wrong, after, rfl, isOpen, isProblem⟩

theorem ofToken?_eq_none_of_opens {token : Token} {bracket : Bracket}
    (opens : token.opens? = some bracket) (blocks : List Bracket) :
    ofToken? blocks token = none := by
  cases token with
  | function name => rfl
  | opening bracket => rfl
  | _ => cases opens

theorem filter_isOutside_ofTokens (blocks : List Bracket) (tokens : List Token) :
    ((ofTokens blocks tokens).filter isOutside).map problem =
      (outerTokens blocks tokens).filterMap (ofToken? []) := by
  induction tokens generalizing blocks with
  | nil => rfl
  | cons token rest induction =>
      rw [ofTokens, outerTokens, List.filter_append, List.map_append, induction]
      cases blocks with
      | nil =>
          cases opens : token.opens? with
          | some bracket =>
              rw [ofToken?_eq_none_of_opens opens, if_neg (by simp)]
              rfl
          | none =>
              rw [if_pos ⟨rfl, rfl⟩, List.filterMap_cons]
              cases ofToken? [] token <;> rfl
      | cons inner outer =>
          rw [if_neg (by simp)]
          cases ofToken? (inner :: outer) token <;> rfl

end ValueFault

theorem ValueProblem.ofComponent?_eq (component : Component) :
    ofComponent? component = component.token?.bind (ValueFault.ofToken? []) := by
  cases component with
  | block opening contents => rfl
  | token single => cases single <;> rfl

/-- A value has the problem that comes first outside of its blocks. -/
theorem ValueProblem.ofValue?_eq (value : String) :
    ofValue? value =
      ((ValueFault.ofValue value).find? ValueFault.isOutside).map ValueFault.problem := by
  -- Components have no comments; among the tokens these are never wrong.
  have noProblem : ∀ token : Token,
      (if (token != .comment) = true then ValueFault.ofToken? [] token else none) =
        ValueFault.ofToken? [] token := by
    intro token
    split
    · rfl
    · next comment =>
      rw [bne_iff_ne, not_not] at comment
      rw [comment]
      rfl
  have outside := congrArg List.head?
    (ValueFault.filter_isOutside_ofTokens [] (tokens value.toList))
  rw [List.head?_map, List.head?_filter] at outside
  rw [ofValue?, ← List.head?_filterMap, funext ofComponent?_eq, ← List.filterMap_filterMap,
    Component.filterMap_ofText, List.filterMap_filter, funext noProblem, ← outside,
    ValueFault.ofValue]

/-! ## Warnings about values -/

def malformedValue (path property : String) (problem : ValueProblem) : Finding :=
  .warning path property ("value of '" ++ property ++ "' " ++ problem.text)

/-- The warning about the value of a declaration, if there is any. Where the property or the value
is missing there is an error instead. -/
def valueWarning? (path : String) (declaration : Declaration) : Option Finding :=
  let property := Text.trimmed declaration.property
  if property.isEmpty || Text.isAllBlank declaration.value then none
  else (ValueProblem.ofValue? declaration.value).map (malformedValue path property)

theorem filter_isValueWarning_checkDeclaration (path : String) (seen : List String)
    (declaration : Declaration) :
    (checkDeclaration path seen declaration).filter Finding.isValueWarning =
      (valueWarning? path declaration).toList := by
  simp only [checkDeclaration, valueWarning?]
  cases (Text.trimmed declaration.property).isEmpty with
  | true => rfl
  | false =>
      have repeated : ∀ property : String, (if seen.contains property then
          [Finding.warning path property
            ("'" ++ property ++ "' is declared more than once; the last value wins")]
          else []).filter Finding.isValueWarning = [] := by
        intro property
        split
        · simp [Finding.isValueWarning, Finding.opensWith, Finding.warning]
        · rfl
      rw [if_neg Bool.false_ne_true, List.filter_append, repeated, List.append_nil, Bool.false_or]
      split
      · rfl
      · cases ValueProblem.ofValue? declaration.value with
        | none => rfl
        | some problem =>
            simp [malformedValue, Finding.isValueWarning, Finding.opensWith, Finding.warning]

theorem filter_isValueWarning_checkDeclarations (path : String) (seen : List String)
    (declarations : List Declaration) :
    (checkDeclarations path seen declarations).filter Finding.isValueWarning =
      declarations.filterMap (valueWarning? path) := by
  rw [List.filterMap_eq_flatMap_toList]
  induction declarations generalizing seen with
  | nil => rfl
  | cons declaration rest induction =>
      rw [checkDeclarations, List.filter_append, induction,
        filter_isValueWarning_checkDeclaration, List.flatMap_cons]

theorem filter_isValueWarning_checkNode (visit : Visit) :
    (checkNode visit).filter Finding.isValueWarning =
      visit.node.declarations.filterMap (valueWarning? visit.breadcrumb) := by
  have expansions : (checkExpansion visit).filter Finding.isValueWarning = [] :=
    Finding.filter_opensWith_eq_nil (opens_of_mem_checkExpansion visit) (by decide) .warning
  refine (filter_checkNode (by decide) .warning visit).trans ?_
  rw [← Finding.isValueWarning, expansions, filter_isValueWarning_checkDeclarations,
    List.nil_append]

theorem filter_isValueWarning_checkSiblings (lineage : List String) (siblings : List StyleNode) :
    (checkSiblings lineage 1 siblings).filter Finding.isValueWarning = [] :=
  Finding.filter_opensWith_eq_nil (opens_of_mem_checkSiblings lineage 1 siblings) (by decide)
    .warning

theorem filter_isValueWarning_checkVisit (visit : Visit) :
    (checkVisit visit).filter Finding.isValueWarning =
      if visit.depth ≤ maximumNesting then
        visit.node.declarations.filterMap (valueWarning? visit.breadcrumb)
      else [] := by
  refine (filter_checkVisit (by decide) .warning visit).trans ?_
  rw [← Finding.isValueWarning, filter_isValueWarning_checkNode,
    filter_isValueWarning_checkSiblings, List.append_nil]

namespace StyleTree

/-- The warnings about values, node by node and declaration by declaration. -/
theorem filter_isValueWarning_check (tree : StyleTree) :
    tree.check.filter Finding.isValueWarning =
      (tree.walkWithin maximumNesting).flatMap fun visit =>
        visit.node.declarations.filterMap (valueWarning? visit.breadcrumb) := by
  refine (filter_check (by decide) .warning tree).trans ?_
  rw [← Finding.isValueWarning, filter_isValueWarning_checkSiblings, List.nil_append,
    walkWithin_eq_filter, flatMap_filter_eq]
  congr 1
  funext visit
  rw [filter_isValueWarning_checkVisit]
  exact if_congr decide_eq_true_iff.symm rfl rfl

/-- The warning about a value, where neither it nor the property is missing, is about the first
thing that is wrong outside of blocks. -/
theorem valueWarning?_eq (path : String) {declaration : Declaration}
    (named : Text.trimmed declaration.property ≠ "")
    (written : Text.isAllBlank declaration.value = false) :
    valueWarning? path declaration =
      ((ValueFault.ofValue declaration.value).find? ValueFault.isOutside).map fun fault =>
        malformedValue path (Text.trimmed declaration.property) fault.problem := by
  have isNamed : (Text.trimmed declaration.property).isEmpty = false := by
    rwa [← Bool.not_eq_true, String.isEmpty_iff]
  simp only [valueWarning?, isNamed, written]
  rw [ValueProblem.ofValue?_eq, Option.map_map]
  rfl

/-- A value that is there is warned about exactly if there is something wrong outside of its
blocks, of which the first is named. So a warning tells whether there is anything wrong with a
value, at whatever level, exactly for the values that are not wrong within their blocks only. -/
theorem valueWarnings_outside (tree : StyleTree) :
    tree.check.filter Finding.isValueWarning =
        ((tree.walkWithin maximumNesting).flatMap fun visit =>
          visit.node.declarations.filterMap (valueWarning? visit.breadcrumb)) ∧
      (∀ value fault, fault ∈ ValueFault.ofValue value ↔
        ∃ before token after, tokens value.toList = before ++ token :: after ∧
          before.foldl openAfter [] = fault.blocks ∧
            ValueFault.ofToken? fault.blocks token = some fault.problem) ∧
      ∀ path declaration, Text.trimmed declaration.property ≠ "" →
        Text.isAllBlank declaration.value = false →
        (valueWarning? path declaration =
          ((ValueFault.ofValue declaration.value).find? ValueFault.isOutside).map fun fault =>
            malformedValue path (Text.trimmed declaration.property) fault.problem) ∧
        (((valueWarning? path declaration).isSome = true ↔
            ∃ fault, fault ∈ ValueFault.ofValue declaration.value) ↔
          ((∃ fault, fault ∈ ValueFault.ofValue declaration.value) →
            ∃ fault ∈ ValueFault.ofValue declaration.value, fault.isOutside = true)) := by
  refine ⟨tree.filter_isValueWarning_check, fun _ _ => ValueFault.mem_ofTokens_iff, ?_⟩
  intro path declaration named written
  have warning := valueWarning?_eq path named written
  have isWarned : (valueWarning? path declaration).isSome = true ↔
      ∃ fault ∈ ValueFault.ofValue declaration.value, fault.isOutside = true := by
    rw [warning, Option.isSome_map, List.find?_isSome]
  refine ⟨warning, ?_⟩
  rw [isWarned]
  constructor
  · exact fun told => told.mpr
  · intro outside
    refine ⟨?_, outside⟩
    rintro ⟨fault, isFault, _⟩
    exact ⟨fault, isFault⟩

def strayBrackets : Declaration := ⟨"width", "calc(]))"⟩

theorem valueWarnings_strayBrackets :
    Text.trimmed strayBrackets.property ≠ "" ∧ Text.isAllBlank strayBrackets.value = false ∧
      valueWarning? ".a" strayBrackets = some (malformedValue ".a" "width" .unbalancedBracket) := by
  have named : Text.trimmed strayBrackets.property ≠ "" := by decide
  have written : Text.isAllBlank strayBrackets.value = false := by decide
  have faults : ValueFault.ofValue strayBrackets.value =
      [⟨[.round], .unbalancedBracket⟩, ⟨[], .unbalancedBracket⟩] := by decide +kernel
  have trimmed : Text.trimmed strayBrackets.property = "width" := by decide
  have warning := ((valueWarnings_outside ⟨[], none⟩).2.2 ".a" strayBrackets named written).1
  rw [faults, trimmed] at warning
  exact ⟨named, written, warning⟩

/-- Nothing is said of a closing bracket that is wrong within a function only. -/
theorem valueWarnings_bracketInside :
    ValueFault.ofValue "calc(1px])" = [⟨[.round], .unbalancedBracket⟩] ∧
      check ⟨[⟨".a", [⟨"width", "calc(1px])"⟩], []⟩], none⟩ = [] :=
  ⟨by decide +kernel, by decide +kernel⟩

end StyleTree

end Stylebook
