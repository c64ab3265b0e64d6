/-!
The style tree: an ordered list of root nodes, each with an identifier (a
selector fragment such as `.card` or `&:hover`), its declarations and its nested
nodes. Order matters everywhere: declarations cascade in document order, and
rules are written in document order.
-/

namespace Stylebook

/-! ## Declarations -/

structure Declaration where
  property : String
  value : String
  deriving DecidableEq, Inhabited, Repr

namespace Declaration

def le (first second : Declaration) : Bool :=
  decide (first.property < second.property) ||
    (first.property == second.property && decide (first.value ≤ second.value))

def text (declaration : Declaration) : String :=
  declaration.property ++ ": " ++ declaration.value

end Declaration

/-! ## Nodes and trees -/

structure StyleNode where
  identifier : String
  declarations : List Declaration
  children : List StyleNode
  deriving BEq, Inhabited, Repr

namespace StyleNode

def isEmpty (node : StyleNode) : Bool :=
  node.declarations.isEmpty && node.children.isEmpty

end StyleNode

/-- A style document. `source` names the file that it was read from, if any; it
is no part of the content. -/
structure StyleTree where
  roots : List StyleNode
  source : Option String := none
  deriving BEq, Inhabited, Repr

/-! ## Node paths -/

/-- The position of a node: the index of its root, then the index of each child
on the way down. Paths are ordered as lists, which is document order. -/
abbrev NodePath := List Nat

namespace NodePath

def child (path : NodePath) (index : Nat) : NodePath := path ++ [index]

def parent? : NodePath → Option NodePath
  | [] => none
  | [_] => none
  | path => some path.dropLast

def depth (path : NodePath) : Nat := path.length

def text (path : NodePath) : String :=
  ".".intercalate (path.map fun index => toString index)

example : parent? [0, 3, 1] = some [0, 3] := rfl

example : parent? [2] = none := rfl

def le (first second : NodePath) : Bool := !second.lex first

example : le [0, 1] [0, 1, 0] ∧ le [0, 1, 0] [0, 2] ∧ ¬ le [1] [0, 2] := by decide

end NodePath

/-! ## Lookup -/

namespace StyleNode

def descendant? : StyleNode → List Nat → Option StyleNode
  | node, [] => some node
  | node, index :: rest =>
      match node.children[index]? with
      | some child => child.descendant? rest
      | none => none

end StyleNode

namespace StyleTree

def isEmpty (tree : StyleTree) : Bool := tree.roots.isEmpty

def node? (tree : StyleTree) : NodePath → Option StyleNode
  | [] => none
  | index :: rest =>
      match tree.roots[index]? with
      | some root => root.descendant? rest
      | none => none

def withSource (tree : StyleTree) (source : String) : StyleTree :=
  { tree with source := some source }

end StyleTree

end Stylebook
