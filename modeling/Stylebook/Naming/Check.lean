import Stylebook.Naming.ClassName
import Stylebook.Selector.List
import Stylebook.Selector.Profile
import Stylebook.Tree.Walk

/-!
The check of the class names of a tree. A suffix that is fused to the parent reference
continues the last class name of the parent.
-/

namespace Stylebook.Naming

structure Violation where
  path : String
  identifier : String
  className : String
  kind : ViolationKind
  deriving DecidableEq, Repr, Inhabited

namespace Violation

def message (violation : Violation) : String := violation.kind.explanation violation.className

def text (violation : Violation) : String :=
  violation.className ++ " [" ++ violation.path ++ "]: " ++ violation.message

end Violation

def resolve? (parentClass : Option String) : Selector.ClassRef → Option String
  | .name name => some name
  | .suffix suffix => parentClass.map fun parent => parent ++ suffix

def classNames (parentClass : Option String) (identifier : String) : List String :=
  (((Selector.split identifier).flatMap Selector.classRefs).filterMap
    (resolve? parentClass)).eraseDups

def violationsOf (lineage : List String) (identifier : String) (names : List String) :
    List Violation :=
  names.filterMap fun name =>
    (violationOf? name).map fun kind =>
      ⟨" > ".intercalate lineage, identifier, name, kind⟩

mutual

def nodeViolations (above : List String) (parentClass : Option String) :
    StyleNode → List Violation
  | ⟨identifier, _, children⟩ =>
      let lineage := above ++ [identifier]
      let names := classNames parentClass identifier
      violationsOf lineage identifier names ++
        siblingViolations lineage names.getLast? children

def siblingViolations (above : List String) (parentClass : Option String) :
    List StyleNode → List Violation
  | [] => []
  | node :: rest =>
      nodeViolations above parentClass node ++ siblingViolations above parentClass rest

end

def violations (tree : StyleTree) : List Violation := siblingViolations [] none tree.roots

end Stylebook.Naming
