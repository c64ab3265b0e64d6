import Stylebook.Proofs.Selector.Reading
import Stylebook.Selector.Profile

/-!
The class names of identifiers. An identifier is a selector list of the grammar, or a suffix behind
the parent reference with what follows it. From its text are read the suffix, if it has one, and
the class names that stand outside of all brackets.
-/

namespace Stylebook.Selector

open Css

namespace Grammar

/-! ## Class names -/

/-- The name of a class selector. Those in an argument are left out. -/
def Simple.classNames : Simple → List String
  | .className name => [String.ofList name.text]
  | _ => []

def Simples.classNames : Simples → List String
  | .nil => []
  | .cons first rest => first.classNames ++ rest.classNames

def Compound.classNames : Compound → List String
  | .headed _ rest => rest.classNames
  | .bare first rest => first.classNames ++ rest.classNames

def Complex.classNames : Complex → List String
  | .last compound => compound.classNames
  | .combined compound _ rest => compound.classNames ++ rest.classNames

def Selectors.classNames : Selectors → List String
  | .last member => member.classNames
  | .listed member rest => member.classNames ++ rest.classNames

theorem Simple.classRefs_components (rest : List Component) (simple : Simple) :
    classRefsAfter false false (simple.components ++ rest) =
      simple.classNames.map .name ++ classRefsAfter false false rest := by
  cases simple <;> rfl

theorem Combinator.classRefs_components (rest : List Component) (combinator : Combinator) :
    classRefsAfter false false (combinator.components ++ rest) =
      classRefsAfter false false rest := by
  cases combinator <;> rfl

mutual

theorem Simples.classRefs_components (rest : List Component) : (simples : Simples) →
    classRefsAfter false false (simples.components ++ rest) =
      simples.classNames.map .name ++ classRefsAfter false false rest
  | .nil => rfl
  | .cons first later => by
      rw [Simples.components, Simples.classNames, List.append_assoc, first.classRefs_components,
        later.classRefs_components, List.map_append, List.append_assoc]

theorem Compound.classRefs_components (rest : List Component) : (compound : Compound) →
    classRefsAfter false false (compound.components ++ rest) =
      compound.classNames.map .name ++ classRefsAfter false false rest
  | .headed head later => by
      have headless (after : List Component) :
          classRefsAfter false false (head.component :: after) =
            classRefsAfter false false after := by
        cases head <;> rfl
      rw [Compound.components, Compound.classNames, List.cons_append, headless,
        later.classRefs_components]
  | .bare first later => by
      rw [Compound.components, Compound.classNames, List.append_assoc, first.classRefs_components,
        later.classRefs_components, List.map_append, List.append_assoc]

theorem Complex.classRefs_components (rest : List Component) : (selector : Complex) →
    classRefsAfter false false (selector.components ++ rest) =
      selector.classNames.map .name ++ classRefsAfter false false rest
  | .last compound => compound.classRefs_components rest
  | .combined compound combinator later => by
      rw [Complex.components, Complex.classNames, List.append_assoc, List.append_assoc,
        compound.classRefs_components, combinator.classRefs_components,
        later.classRefs_components, List.map_append, List.append_assoc]

theorem Selectors.classRefs_components (rest : List Component) : (selectors : Selectors) →
    classRefsAfter false false (selectors.components ++ rest) =
      selectors.classNames.map .name ++ classRefsAfter false false rest
  | .last member => member.classRefs_components rest
  | .listed member later => by
      have separated (after : List Component) :
          classRefsAfter false false (.token .comma :: .token .blank :: after) =
            classRefsAfter false false after := rfl
      rw [Selectors.components, Selectors.classNames, List.append_assoc, List.cons_append,
        List.cons_append, member.classRefs_components, separated, later.classRefs_components,
        List.map_append, List.append_assoc]

end

/-! A selector list does not begin with the parent reference. -/

theorem Simple.head?_components_ne (simple : Simple) (rest : List Component) :
    (simple.components ++ rest).head? ≠ some (.token (.delimiter '&')) := by
  cases simple <;> simp [components]

theorem Compound.head?_components_ne (compound : Compound) (rest : List Component) :
    (compound.components ++ rest).head? ≠ some (.token (.delimiter '&')) := by
  cases compound with
  | headed head later => cases head <;> simp [components, Head.component, Name.token]
  | bare first later =>
      rw [components, List.append_assoc]
      exact first.head?_components_ne _

theorem Complex.head?_components_ne (selector : Complex) (rest : List Component) :
    (selector.components ++ rest).head? ≠ some (.token (.delimiter '&')) := by
  cases selector with
  | last compound => exact compound.head?_components_ne rest
  | combined compound combinator later =>
      rw [components, List.append_assoc]
      exact compound.head?_components_ne _

theorem Selectors.head?_components_ne (selectors : Selectors) :
    selectors.components.head? ≠ some (.token (.delimiter '&')) := by
  cases selectors with
  | last member =>
      have notReference := member.head?_components_ne []
      rwa [List.append_nil] at notReference
  | listed member later => exact member.head?_components_ne _

end Grammar

namespace Identifier

open Grammar

/-! ## Syntax -/

inductive Separator where
  | between (combinator : Combinator)
  | comma
  deriving DecidableEq

/-- What follows a suffix: the other simple selectors of its compound, and then perhaps more
compounds. -/
inductive Sequel where
  | last (rest : Simples)
  | separated (rest : Simples) (separator : Separator) (next : Selectors)

end Identifier

open Grammar Identifier in
/-- A selector list, or the parent reference with a suffix directly behind it, and what follows
that. -/
inductive Identifier where
  | list (selectors : Selectors)
  | fused (suffix : Name) (rest : Sequel)

namespace Identifier

open Grammar

def Separator.text : Separator → List Char
  | .between combinator => combinator.text
  | .comma => [',', ' ']

def Sequel.text : Sequel → List Char
  | .last rest => rest.text
  | .separated rest separator next => rest.text ++ (separator.text ++ next.text)

def text : Identifier → List Char
  | .list selectors => selectors.text
  | .fused suffix rest => '&' :: (suffix.text ++ rest.text)

def Sequel.classNames : Sequel → List String
  | .last rest => rest.classNames
  | .separated rest _ next => rest.classNames ++ next.classNames

def refs : Identifier → List ClassRef
  | .list selectors => selectors.classNames.map .name
  | .fused suffix rest => .suffix (String.ofList suffix.text) :: rest.classNames.map .name

def Separator.components : Separator → List Component
  | .between combinator => combinator.components
  | .comma => [.token .comma, .token .blank]

def Sequel.components : Sequel → List Component
  | .last rest => rest.components
  | .separated rest separator next => rest.components ++ (separator.components ++ next.components)

/-! ## Separators -/

theorem Separator.allMatched (separator : Separator) :
    Component.AllMatched separator.components := by
  cases separator with
  | between combinator => exact combinator.allMatched
  | comma => exact ⟨⟨rfl, rfl, Token.noConfusion⟩, isMatched_blank, trivial⟩

theorem Separator.stops_text (separator : Separator) (rest : List Char) :
    Stops (separator.text ++ rest) := by
  cases separator with
  | between combinator => exact combinator.stops_text rest
  | comma => exact stops_cons (by decide) _

theorem Separator.tokens_text {rest : List Char} (solid : ∀ character ∈ rest.head?,
      isBlank character = false) (separator : Separator) : tokens (separator.text ++ rest) =
        Component.tokensOf separator.components ++ tokens rest := by
  cases separator with
  | between combinator => exact combinator.tokens_text solid
  | comma => exact tokens_comma solid

theorem Separator.classRefs_components (rest : List Component) (separator : Separator) :
    classRefsAfter false false (separator.components ++ rest) =
      classRefsAfter false false rest := by
  cases separator with
  | between combinator => exact combinator.classRefs_components rest
  | comma => rfl

/-! ## What follows a suffix -/

theorem Sequel.allMatched (sequel : Sequel) : Component.AllMatched sequel.components := by
  cases sequel with
  | last rest => exact rest.allMatched
  | separated rest separator next =>
      exact Component.allMatched_append.mpr ⟨rest.allMatched,
        Component.allMatched_append.mpr ⟨separator.allMatched, next.allMatched⟩⟩

theorem Sequel.isSolid_append {before : List Char} (solid : IsSolid before) (sequel : Sequel) :
    IsSolid (before ++ sequel.text) := by
  cases sequel with
  | last rest => exact rest.isSolid_append solid
  | separated rest separator next =>
      rw [text, ← List.append_assoc, ← List.append_assoc]
      exact (rest.isSolid_append solid).append next.isSolid separator.text

theorem Sequel.stops_text {after : List Char} (isStop : Stops after) (sequel : Sequel) :
    Stops (sequel.text ++ after) := by
  cases sequel with
  | last rest => exact rest.stops_text isStop
  | separated rest separator next =>
      rw [text, List.append_assoc, List.append_assoc]
      exact rest.stops_text (separator.stops_text _)

theorem Sequel.tokens_text {after : List Char} (isStop : Stops after) (sequel : Sequel) :
    tokens (sequel.text ++ after) = Component.tokensOf sequel.components ++ tokens after := by
  cases sequel with
  | last rest => exact rest.tokens_text isStop
  | separated rest separator next =>
      rw [text, components, List.append_assoc, List.append_assoc,
        rest.tokens_text (separator.stops_text _),
        separator.tokens_text (next.isSolid.first after), next.tokens_text isStop,
        Component.tokensOf_append, Component.tokensOf_append, List.append_assoc,
        List.append_assoc]

theorem Sequel.classRefs_components (sequel : Sequel) :
    classRefsAfter false false sequel.components = sequel.classNames.map .name := by
  have ofNothing : classRefsAfter false false [] = [] := rfl
  cases sequel with
  | last rest =>
      have refs := rest.classRefs_components []
      rwa [List.append_nil, ofNothing, List.append_nil] at refs
  | separated rest separator next =>
      have refs := next.classRefs_components []
      rw [List.append_nil, ofNothing, List.append_nil] at refs
      rw [components, classNames, rest.classRefs_components, separator.classRefs_components, refs,
        List.map_append]

/-! ## Identifiers -/

/-- The text of a suffix with what follows it is read as the parent reference, the suffix and the
components of what follows. -/
theorem ofText_fused (suffix : Name) (sequel : Sequel) :
    Component.ofText (String.ofList ('&' :: (suffix.text ++ sequel.text))) =
      .token (.delimiter '&') :: suffix.token :: sequel.components := by
  have matched : Component.AllMatched
      (.token (.delimiter '&') :: suffix.token :: sequel.components) :=
    ⟨⟨rfl, rfl, Token.noConfusion⟩, suffix.isMatched, sequel.allMatched⟩
  refine Component.ofText_of_tokens matched ?_
  have stops := sequel.stops_text stops_nil
  have read := sequel.tokens_text stops_nil
  rw [List.append_nil] at stops
  rw [List.append_nil, tokens_nil, List.append_nil] at read
  rw [String.toList_ofList, suffix.isName.tokens_reference_append stops, read]
  rfl

theorem trimmed_of_isSolid {text : List Char} (solid : IsSolid text) :
    Text.trimmed (String.ofList text) = String.ofList text := by
  refine Text.IsTrimmed.trimmed_eq ?_
  rw [String.toList_ofList]
  exact solid.trimmed

/-- Components that do not begin with the parent reference have no suffix. -/
theorem classRefs_of_unfused {identifier : String} {components : List Component}
    (isText : Component.ofText (Text.trimmed identifier) = components)
    (unfused : components.head? ≠ some (.token (.delimiter '&'))) :
    classRefs identifier = classRefsAfter false false components := by
  rw [classRefs, isText]
  split
  next rest => exact absurd rfl unfused
  next => rfl

/-- The class names that are read from an identifier are those of its class selectors outside of
brackets, in order; the suffix that is fused to the parent reference comes first. -/
theorem classRefs_of_text (identifier : Identifier) :
    classRefs (String.ofList identifier.text) = identifier.refs := by
  cases identifier with
  | list selectors =>
      have isText : Component.ofText (Text.trimmed (String.ofList selectors.text)) =
          selectors.components := by
        rw [trimmed_of_isSolid selectors.isSolid, selectors.ofText_text]
      have refs := selectors.classRefs_components []
      rw [List.append_nil, classRefsAfter, List.append_nil] at refs
      exact (classRefs_of_unfused isText selectors.head?_components_ne).trans refs
  | fused suffix rest =>
      have solid : IsSolid ('&' :: (suffix.text ++ rest.text)) :=
        rest.isSolid_append (suffix.isSolid_cons rfl)
      rw [text, classRefs, trimmed_of_isSolid solid, ofText_fused]
      exact congrArg (ClassRef.suffix (String.ofList suffix.text) :: ·) rest.classRefs_components

/-- `&__title.is-active:not(.hidden, ul > .item) .-icon.-icon` -/
def activeTitle : Identifier :=
  .fused (.ofText ['_', '_', 't', 'i', 't', 'l', 'e'] rfl rfl)
    (.separated
      (.cons (.className (.ofText ['i', 's', '-', 'a', 'c', 't', 'i', 'v', 'e'] rfl rfl))
        (.cons (.function .not (.listed
          (.last (.bare (.className (.ofText ['h', 'i', 'd', 'd', 'e', 'n'] rfl rfl)) .nil))
          (.last (.combined (.headed (.type (.ofText ['u', 'l'] rfl rfl)) .nil) .child
            (.last (.bare (.className (.ofText ['i', 't', 'e', 'm'] rfl rfl)) .nil))))))
          .nil))
      (.between .descendant)
      (.last (.last (.bare (.className (.ofText ['-', 'i', 'c', 'o', 'n'] rfl rfl))
        (.cons (.className (.ofText ['-', 'i', 'c', 'o', 'n'] rfl rfl)) .nil)))))

theorem classRefs_of_activeTitle :
    classRefs "&__title.is-active:not(.hidden, ul > .item) .-icon.-icon" =
      [.suffix "__title", .name "is-active", .name "-icon", .name "-icon"] :=
  classRefs_of_text activeTitle

end Identifier

end Stylebook.Selector
