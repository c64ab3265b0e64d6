import Stylebook.Text

/-!
Selector lists. A list is cut at its commas, except at those within quotes or within
round or square brackets.
-/

namespace Stylebook.Selector

/-! ## Cutting -/

structure OpenMarks where
  depth : Nat := 0
  quote : Option Char := none
  deriving DecidableEq, Repr, Inhabited

namespace OpenMarks

/-- What is open after a character. A closing bracket without an opening one counts for
nothing. -/
def after (marks : OpenMarks) (character : Char) : OpenMarks :=
  match marks.quote with
  | some quote => if character = quote then { marks with quote := none } else marks
  | none =>
      if character = '"' ∨ character = '\'' then { marks with quote := some character }
      else if character = '(' ∨ character = '[' then { marks with depth := marks.depth + 1 }
      else if character = ')' ∨ character = ']' then { marks with depth := marks.depth - 1 }
      else marks

def cutsAt (marks : OpenMarks) (character : Char) : Bool :=
  character == ',' && marks.depth == 0 && marks.quote == none

end OpenMarks

def pieces (marks : OpenMarks) : List Char → List (List Char)
  | [] => [[]]
  | character :: rest =>
      if marks.cutsAt character then [] :: pieces marks rest
      else
        match pieces (marks.after character) rest with
        | piece :: later => (character :: piece) :: later
        | [] => [[character]]

/-! ## Members -/

def members (list : List Char) : List (List Char) :=
  ((pieces {} list).map Text.trim).filter fun member => !member.isEmpty

example : members ['a', ',', ' ', '(', ',', ')', ','] = [['a'], ['(', ',', ')']] := by decide

def joined (members : List (List Char)) : List Char := List.intercalate [',', ' '] members

def split (list : String) : List String := (members list.toList).map String.ofList

end Stylebook.Selector
