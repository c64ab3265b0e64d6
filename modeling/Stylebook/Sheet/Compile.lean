import Stylebook.Selector.Qualify
import Stylebook.Sheet.Basic
import Stylebook.Tree.Walk

/-!
From a tree to a style sheet. Every node that declares something has a rule under its
qualified selector; nodes without declarations only qualify the selectors below them. A tree
has no style sheet if one of its nodes has no selector.
-/

namespace Stylebook

/-! ## Source locations -/

/-- A place in the input. Lines and columns count from one. -/
structure SourceLocation where
  file : Option String := none
  line : Option Nat := none
  column : Option Nat := none
  deriving DecidableEq, Repr, Inhabited

namespace SourceLocation

def text (location : SourceLocation) : String :=
  location.file.getD "<input>" ++
    match location.line, location.column with
    | none, _ => ""
    | some line, none => ":" ++ toString line
    | some line, some column => ":" ++ toString line ++ ":" ++ toString column

end SourceLocation

/-! ## Errors -/

structure CompileError where
  reason : Selector.QualifyError
  path : String
  location : Option SourceLocation
  deriving DecidableEq, Repr, Inhabited

namespace CompileError

def code (error : CompileError) : String :=
  match error.reason with
  | .emptyIdentifier => "compile/empty-identifier"
  | .parentReferenceAtRoot => "compile/unresolved-parent-reference"
  | .tooManySelectors => "compile/selector-list-too-large"

def reasonText (error : CompileError) : String :=
  match error.reason with
  | .emptyIdentifier => "empty selector identifier"
  | .parentReferenceAtRoot => "parent reference without a parent"
  | .tooManySelectors => "selector list too large"

def text (error : CompileError) : String :=
  error.reasonText ++ " at '" ++ error.path ++ "'" ++
    match error.location with
    | some location => " (" ++ location.text ++ ")"
    | none => ""

end CompileError

/-! ## Compilation -/

def Visit.selector (source : Option String) (visit : Visit) : Except CompileError String :=
  match Selector.qualifyLineage visit.lineage with
  | .ok selector => .ok selector
  | .error reason =>
      .error ⟨reason, visit.breadcrumb, source.map fun file => { file := some file }⟩

def rulesOfVisits (source : Option String) : List Visit → Except CompileError (List Rule)
  | [] => .ok []
  | visit :: rest => do
      let selector ← visit.selector source
      let rules ← rulesOfVisits source rest
      if visit.node.declarations.isEmpty then return rules
      else return ⟨selector, visit.node.declarations, visit.path⟩ :: rules

namespace StyleTree

def compile (tree : StyleTree) : Except CompileError Sheet := do
  let rules ← rulesOfVisits tree.source tree.walk
  return ⟨rules⟩

end StyleTree

end Stylebook
