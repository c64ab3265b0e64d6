import Stylebook.Css.Component
import Stylebook.Selector.Qualify
import Stylebook.Tree.Walk

/-!
Findings, which say what is wrong or doubtful about a style tree, and the check of a tree. It
lists every finding in the order of the walk: for each node its own findings, then those about its
children as siblings of each other.
-/

namespace Stylebook

/-! ## Findings -/

/-- Errors keep a tree from being compiled and analysed; warnings do not. -/
inductive Severity where
  | warning
  | error
  deriving DecidableEq, Repr, Inhabited

def Severity.text : Severity → String
  | .warning => "warning"
  | .error => "error"

/-- `path` says where the node stands, and `property` names the declaration, or the node
itself if the finding is about that. -/
structure Finding where
  path : String
  property : String
  message : String
  severity : Severity
  deriving DecidableEq, Repr, Inhabited

namespace Finding

def error (path property message : String) : Finding := ⟨path, property, message, .error⟩

def warning (path property message : String) : Finding := ⟨path, property, message, .warning⟩

def isError (finding : Finding) : Bool := finding.severity == .error

def text (finding : Finding) : String :=
  finding.severity.text ++ ": " ++ finding.message ++ " [" ++ finding.path ++ "]"

end Finding

def hasErrors (findings : List Finding) : Bool := findings.any Finding.isError

/-! ## Values -/

inductive ValueProblem where
  | unterminatedString
  | malformedAddress
  | unbalancedBracket
  deriving DecidableEq, Repr

namespace ValueProblem

def text : ValueProblem → String
  | unterminatedString => "contains an unterminated string"
  | malformedAddress => "contains a malformed url()"
  | unbalancedBracket => "has an unbalanced closing bracket"

/-- What is wrong with one component, if anything. Blocks are not looked into. -/
def ofComponent? : Css.Component → Option ValueProblem
  | .token .badString => some unterminatedString
  | .token .badUrl => some malformedAddress
  | .token (.closing _) => some unbalancedBracket
  | _ => none

def ofValue? (value : String) : Option ValueProblem :=
  (Css.Component.ofText value).findSome? ofComponent?

end ValueProblem

/-! ## Siblings -/

def duplicateSiblings (lineage : List String) (identifier : String) (first second : Nat) :
    Finding :=
  .error (" > ".intercalate (lineage ++ [identifier])) identifier
    ("duplicate selector '" ++ identifier ++ "' (siblings " ++ toString first ++ " and " ++
      toString second ++ ")")

/-- The findings that the sibling with the number `first` has the identifier of later
ones, of which the first has the number `second`. -/
def laterDuplicates (lineage : List String) (identifier : String) (first second : Nat) :
    List StyleNode → List Finding
  | [] => []
  | node :: rest =>
      let later := laterDuplicates lineage identifier first (second + 1) rest
      if Text.trimmed node.identifier == identifier then
        duplicateSiblings lineage identifier first second :: later
      else later

def checkSiblings (lineage : List String) (number : Nat) : List StyleNode → List Finding
  | [] => []
  | node :: rest =>
      let identifier := Text.trimmed node.identifier
      (if identifier.isEmpty then []
        else laterDuplicates lineage identifier number (number + 1) rest) ++
        checkSiblings lineage (number + 1) rest

/-! ## Nodes -/

def checkIdentifier (visit : Visit) : List Finding :=
  let identifier := visit.node.identifier
  if Text.isAllBlank identifier then
    [.error visit.breadcrumb identifier "selector identifier is empty"]
  else if visit.isRoot && Selector.isFused identifier.toList then
    [.error visit.breadcrumb identifier
      ("'" ++ identifier ++ "' references a parent selector but has no parent")]
  else []

def tooManySelectors (visit : Visit) : Finding :=
  .error visit.breadcrumb visit.node.identifier
    ("nested selector lists expand to more than " ++ toString Selector.maximumSelectors ++
      " selectors")

/-- A node is reported only where the limit is first crossed, and the nodes below it are not. -/
def checkExpansion (visit : Visit) : List Finding :=
  if Selector.expandedLength visit.lineage > Selector.maximumSelectors ∧
      Selector.expandedLength visit.lineage.dropLast ≤ Selector.maximumSelectors then
    [tooManySelectors visit]
  else []

def checkDeclaration (path : String) (seen : List String) (declaration : Declaration) :
    List Finding :=
  let property := Text.trimmed declaration.property
  if property.isEmpty then [.error path declaration.property "property name is empty"]
  else
    (if Text.isAllBlank declaration.value then
        [.error path property ("'" ++ property ++ "' has an empty value")]
      else
        match ValueProblem.ofValue? declaration.value with
        | some problem =>
            [.warning path property ("value of '" ++ property ++ "' " ++ problem.text)]
        | none => []) ++
    (if seen.contains property then
        [.warning path property
          ("'" ++ property ++ "' is declared more than once; the last value wins")]
      else [])

def checkDeclarations (path : String) (seen : List String) : List Declaration → List Finding
  | [] => []
  | declaration :: rest =>
      checkDeclaration path seen declaration ++
        checkDeclarations path (Text.trimmed declaration.property :: seen) rest

def checkUse (visit : Visit) : List Finding :=
  if visit.node.isEmpty then
    [.warning visit.breadcrumb visit.node.identifier
      "rule has no declarations and no nested rules"]
  else []

def checkNode (visit : Visit) : List Finding :=
  checkIdentifier visit ++ checkExpansion visit ++
    checkDeclarations visit.breadcrumb [] visit.node.declarations ++ checkUse visit

/-! ## Trees -/

def maximumNesting : Nat := 32

def tooDeep (visit : Visit) : Finding :=
  .error visit.breadcrumb visit.node.identifier
    ("nesting depth " ++ toString visit.depth ++ " exceeds the limit of " ++
      toString maximumNesting)

/-- The findings about a node and its children. Nothing more is said of a node that is
nested too deeply. -/
def checkVisit (visit : Visit) : List Finding :=
  if visit.depth > maximumNesting then [tooDeep visit]
  else checkNode visit ++ checkSiblings visit.lineage 1 visit.node.children

namespace StyleTree

/-- All findings about a tree. The walk ends one level below the limit, where the nodes
that are nested too deeply begin. -/
def check (tree : StyleTree) : List Finding :=
  checkSiblings [] 1 tree.roots ++ (tree.walkWithin (maximumNesting + 1)).flatMap checkVisit

end StyleTree

end Stylebook
