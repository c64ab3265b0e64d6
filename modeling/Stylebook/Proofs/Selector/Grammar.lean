import Stylebook.Proofs.Css.Names
import Stylebook.Proofs.Css.Nesting

/-!
A grammar of selector lists. Each list of the grammar has a text, and the components of this text
are those of its parts in a row.
-/

namespace Stylebook.Selector.Grammar

open Css

/-! ## Syntax -/

/-- A name: letters, digits, hyphens and underscores. It may begin with a hyphen or an underscore
as well as with a letter. -/
structure Name where
  text : List Char
  begins : beginsName text = true
  plain : ∀ character ∈ text, character.isAlphanum = true ∨ character = '-' ∨ character = '_'

def Name.ofText (text : List Char) (begins : beginsName text = true) (plain : text.all
    fun character => character.isAlphanum = true ∨ character = '-' ∨ character = '_') : Name :=
  ⟨text, begins, List.all_iff_forall_prop.mp plain⟩

def Name.letter (character : Char) (isLetter : character.isAlpha = true) : Name where
  text := [character]
  begins := by simp [beginsName, isLetter]
  plain := List.forall_mem_singleton.mpr (.inl (isAlphanum_of_isAlpha isLetter))

inductive Combinator where
  | descendant
  | child
  | sibling
  | laterSibling
  deriving DecidableEq

/-- The pseudo-classes that have a list as their argument: `:not`, `:is`, `:has` and `:where`. -/
inductive Function where
  | not
  | is
  | has
  | anywhere
  deriving DecidableEq

inductive Head where
  | type (name : Name)
  | universal

mutual

/-- `#name`, `.name`, `[name]`, `:name`, `::name`, or a function with its argument. -/
inductive Simple where
  | id (name : Name)
  | className (name : Name)
  | attribute (name : Name)
  | pseudoClass (name : Name)
  | pseudoElement (name : Name)
  | function (function : Function) (argument : Selectors)

inductive Simples where
  | nil
  | cons (first : Simple) (rest : Simples)

/-- Simple selectors, at least one unless they follow a head. -/
inductive Compound where
  | headed (head : Head) (rest : Simples)
  | bare (first : Simple) (rest : Simples)

inductive Complex where
  | last (compound : Compound)
  | combined (compound : Compound) (combinator : Combinator) (rest : Complex)

inductive Selectors where
  | last (member : Complex)
  | listed (member : Complex) (rest : Selectors)

end

/-! ## Text -/

def Combinator.text : Combinator → List Char
  | .descendant => [' ']
  | .child => [' ', '>', ' ']
  | .sibling => [' ', '+', ' ']
  | .laterSibling => [' ', '~', ' ']

def Function.text : Function → List Char
  | .not => ['n', 'o', 't']
  | .is => ['i', 's']
  | .has => ['h', 'a', 's']
  | .anywhere => ['w', 'h', 'e', 'r', 'e']

def Head.text : Head → List Char
  | .type name => name.text
  | .universal => ['*']

mutual

def Simple.text : Simple → List Char
  | .id name => '#' :: name.text
  | .className name => '.' :: name.text
  | .attribute name => '[' :: (name.text ++ [']'])
  | .pseudoClass name => ':' :: name.text
  | .pseudoElement name => ':' :: ':' :: name.text
  | .function function argument => ':' :: (function.text ++ '(' :: (argument.text ++ [')']))

def Simples.text : Simples → List Char
  | .nil => []
  | .cons first rest => first.text ++ rest.text

def Compound.text : Compound → List Char
  | .headed head rest => head.text ++ rest.text
  | .bare first rest => first.text ++ rest.text

def Complex.text : Complex → List Char
  | .last compound => compound.text
  | .combined compound combinator rest => compound.text ++ (combinator.text ++ rest.text)

def Selectors.text : Selectors → List Char
  | .last member => member.text
  | .listed member rest => member.text ++ ',' :: ' ' :: rest.text

end

/-! ## Components -/

def Name.token (name : Name) : Component := .token (.identifier (String.ofList name.text))

def Combinator.components : Combinator → List Component
  | .descendant => [.token .blank]
  | .child => [.token .blank, .token (.delimiter '>'), .token .blank]
  | .sibling => [.token .blank, .token (.delimiter '+'), .token .blank]
  | .laterSibling => [.token .blank, .token (.delimiter '~'), .token .blank]

def Head.component : Head → Component
  | .type name => name.token
  | .universal => .token (.delimiter '*')

mutual

def Simple.components : Simple → List Component
  | .id name => [.token (.hash (String.ofList name.text))]
  | .className name => [.token (.delimiter '.'), name.token]
  | .attribute name => [.block (.opening .square) [name.token]]
  | .pseudoClass name => [.token .colon, name.token]
  | .pseudoElement name => [.token .colon, .token .colon, name.token]
  | .function function argument =>
      [.token .colon, .block (.function (String.ofList function.text)) argument.components]

def Simples.components : Simples → List Component
  | .nil => []
  | .cons first rest => first.components ++ rest.components

def Compound.components : Compound → List Component
  | .headed head rest => head.component :: rest.components
  | .bare first rest => first.components ++ rest.components

def Complex.components : Complex → List Component
  | .last compound => compound.components
  | .combined compound combinator rest =>
      compound.components ++ (combinator.components ++ rest.components)

def Selectors.components : Selectors → List Component
  | .last member => member.components
  | .listed member rest =>
      member.components ++ .token .comma :: .token .blank :: rest.components

end

/-! ## Brackets -/

theorem Name.isMatched (name : Name) : name.token.IsMatched := ⟨rfl, rfl, Token.noConfusion⟩

theorem Head.isMatched : (head : Head) → head.component.IsMatched
  | .type name => name.isMatched
  | .universal => ⟨rfl, rfl, Token.noConfusion⟩

theorem isMatched_colon : (Component.token .colon).IsMatched := ⟨rfl, rfl, Token.noConfusion⟩

theorem isMatched_blank : (Component.token .blank).IsMatched := ⟨rfl, rfl, Token.noConfusion⟩

theorem Combinator.allMatched (combinator : Combinator) :
    Component.AllMatched combinator.components := by
  have delimited (character : Char) : Component.AllMatched
      [.token .blank, .token (.delimiter character), .token .blank] :=
    ⟨isMatched_blank, ⟨rfl, rfl, Token.noConfusion⟩, isMatched_blank, trivial⟩
  cases combinator with
  | descendant => exact ⟨isMatched_blank, trivial⟩
  | child => exact delimited '>'
  | sibling => exact delimited '+'
  | laterSibling => exact delimited '~'

mutual

theorem Simple.allMatched : (simple : Simple) → Component.AllMatched simple.components
  | .id _ => ⟨⟨rfl, rfl, Token.noConfusion⟩, trivial⟩
  | .className name => ⟨⟨rfl, rfl, Token.noConfusion⟩, name.isMatched, trivial⟩
  | .attribute name => ⟨⟨⟨.square, rfl⟩, name.isMatched, trivial⟩, trivial⟩
  | .pseudoClass name => ⟨isMatched_colon, name.isMatched, trivial⟩
  | .pseudoElement name => ⟨isMatched_colon, isMatched_colon, name.isMatched, trivial⟩
  | .function _ argument => ⟨isMatched_colon, ⟨⟨.round, rfl⟩, argument.allMatched⟩, trivial⟩

theorem Simples.allMatched : (simples : Simples) → Component.AllMatched simples.components
  | .nil => trivial
  | .cons first rest => Component.allMatched_append.mpr ⟨first.allMatched, rest.allMatched⟩

theorem Compound.allMatched : (compound : Compound) → Component.AllMatched compound.components
  | .headed head rest => ⟨head.isMatched, rest.allMatched⟩
  | .bare first rest => Component.allMatched_append.mpr ⟨first.allMatched, rest.allMatched⟩

theorem Complex.allMatched : (selector : Complex) → Component.AllMatched selector.components
  | .last compound => compound.allMatched
  | .combined compound combinator rest =>
      Component.allMatched_append.mpr ⟨compound.allMatched,
        Component.allMatched_append.mpr ⟨combinator.allMatched, rest.allMatched⟩⟩

theorem Selectors.allMatched : (selectors : Selectors) → Component.AllMatched selectors.components
  | .last member => member.allMatched
  | .listed member rest =>
      Component.allMatched_append.mpr ⟨member.allMatched,
        ⟨rfl, rfl, Token.noConfusion⟩, isMatched_blank, rest.allMatched⟩

end

end Stylebook.Selector.Grammar
