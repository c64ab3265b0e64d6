import Stylebook.Analysis.Metrics
import Stylebook.Naming.Check
import Stylebook.Sheet.Compile
import Stylebook.Validation.Check

/-!
The analysis of a tree and its report.
-/

namespace Stylebook

structure Report where
  warnings : List Finding
  patterns : List Pattern
  clusters : List Cluster
  violations : List Naming.Violation
  metrics : Metrics
  performance : Performance
  deriving Repr, Inhabited

def Report.isClean (report : Report) : Bool :=
  report.warnings.isEmpty && report.patterns.isEmpty && report.violations.isEmpty

/-! ## Errors -/

inductive AnalysisError where
  | invalidTree (findings : List Finding)
  | compile (error : CompileError)
  | panicked (message : String)
  deriving DecidableEq, Repr, Inhabited

namespace AnalysisError

def code : AnalysisError → String
  | invalidTree _ => "analysis/invalid-tree"
  | compile error => error.code
  | panicked _ => "analysis/panicked"

def text : AnalysisError → String
  | invalidTree findings =>
      "cannot analyze a tree with " ++ toString findings.length ++ " validation error(s)"
  | compile error => error.text
  | panicked message => "analysis computation panicked: " ++ message

end AnalysisError

/-! ## Analysis -/

namespace StyleTree

def patterns (tree : StyleTree) (options : Options) : List Pattern :=
  mergePatterns options [tree.generalPatterns options, tree.siblingPatterns options]

def analyzeChecked (tree : StyleTree) (options : Options) (findings : List Finding) :
    Except AnalysisError Report :=
  match tree.compile with
  | .error error => .error (.compile error)
  | .ok sheet =>
      let patterns := tree.patterns options
      let clusters := clusters options patterns
      .ok
        { warnings := findings.filter fun finding => finding.severity == .warning
          patterns
          clusters
          violations := Naming.violations tree
          metrics := .ofSheet sheet clusters
          performance := .ofSheet sheet }

def analyze (tree : StyleTree) (options : Options) : Except AnalysisError Report :=
  let findings := tree.check
  if hasErrors findings then .error (.invalidTree (findings.filter Finding.isError))
  else tree.analyzeChecked options findings

end StyleTree

end Stylebook
