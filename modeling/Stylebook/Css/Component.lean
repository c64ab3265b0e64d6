import Stylebook.Css.Tokenize

/-!
Components: CSS text with its brackets matched. A block reaches up to the closing
bracket of its own kind; other closing brackets within it are tokens like any other,
and at the end of the text every block ends.
-/

namespace Stylebook.Css

inductive Component where
  | token (token : Token)
  /-- A block with the token that opens it. -/
  | block (opening : Token) (contents : List Component)
  deriving Repr, Inhabited

namespace Component

/-! ## Matching brackets -/

/-- A block that is open: the token that opened it, its bracket, and the components
before it in reverse. -/
structure OpenBlock where
  opening : Token
  bracket : Bracket
  before : List Component
  deriving Repr

def closeAll (read : List Component) : List OpenBlock → List Component
  | [] => read.reverse
  | inner :: outer => closeAll (.block inner.opening read.reverse :: inner.before) outer

/-- The components of tokens within open blocks, the innermost first; `read` holds in
reverse what was read since the innermost block was opened. -/
def nest (blocks : List OpenBlock) (read : List Component) : List Token → List Component
  | [] => closeAll read blocks
  | next :: rest =>
      match next.opens? with
      | some bracket => nest (⟨next, bracket, read⟩ :: blocks) [] rest
      | none =>
          match blocks with
          | inner :: outer =>
              if next.closes? == some inner.bracket then
                nest outer (.block inner.opening read.reverse :: inner.before) rest
              else nest (inner :: outer) (.token next :: read) rest
          | [] => nest [] (.token next :: read) rest

def ofText (text : String) : List Component :=
  nest [] [] ((tokens text.toList).filter fun token => token != .comment)

end Component

end Stylebook.Css
