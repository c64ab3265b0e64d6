import Stylebook.Tree.Basic

/-!
Style sheets: an ordered list of flat rules, and their text.
-/

namespace Stylebook

structure Rule where
  selector : String
  declarations : List Declaration
  source : NodePath
  deriving DecidableEq, Repr, Inhabited

namespace Rule

def lines (rule : Rule) : List String :=
  (rule.selector ++ " \x7b") ::
    (rule.declarations.map fun declaration => "  " ++ declaration.text ++ ";") ++ ["\x7d"]

def css (rule : Rule) : String := String.join (rule.lines.map fun line => line ++ "\n")

end Rule

structure Sheet where
  rules : List Rule
  deriving DecidableEq, Repr, Inhabited

namespace Sheet

def size (sheet : Sheet) : Nat := sheet.rules.length

def isEmpty (sheet : Sheet) : Bool := sheet.rules.isEmpty

def declarationCount (sheet : Sheet) : Nat :=
  sheet.rules.foldr (fun rule count => rule.declarations.length + count) 0

def ruleOf? (sheet : Sheet) (source : NodePath) : Option Rule :=
  sheet.rules.find? fun rule => rule.source == source

def css (sheet : Sheet) : String := "\n".intercalate (sheet.rules.map Rule.css)

end Sheet

end Stylebook
