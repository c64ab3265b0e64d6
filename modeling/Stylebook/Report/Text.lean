import Stylebook.Analysis.Report

/-!
Reports and findings for a terminal, with or without colours.
-/

namespace Stylebook

/-! ## Emphasis -/

inductive Emphasis where
  | bold
  | dim
  | yellow
  | boldYellow
  | boldRed
  deriving DecidableEq, Repr

namespace Emphasis

def codes : Emphasis → List String
  | bold => ["1"]
  | dim => ["2"]
  | yellow => ["33"]
  | boldYellow => ["33", "1"]
  | boldRed => ["31", "1"]

def control (code : String) : String := "\x1b[" ++ code ++ "m"

def apply (emphasis : Emphasis) (colored : Bool) (text : String) : String :=
  if colored then String.join (emphasis.codes.map control) ++ text ++ control "0" else text

end Emphasis

/-! ## Lines -/

def line (text : String) : String := text ++ "\n"

def heading (colored : Bool) (title : String) (count : Nat) : String :=
  line (Emphasis.bold.apply colored title ++ " (" ++ toString count ++ ")")

def Severity.label (colored : Bool) (severity : Severity) : String :=
  match severity with
  | .error => Emphasis.boldRed.apply colored severity.text
  | .warning => Emphasis.boldYellow.apply colored severity.text

def Finding.rendered (colored : Bool) (finding : Finding) : String :=
  finding.severity.label colored ++ ": " ++ finding.message ++ " " ++
    Emphasis.dim.apply colored ("[" ++ finding.path ++ "]")

def declarationsLine (declarations : List Declaration) : String :=
  "; ".intercalate (declarations.map Declaration.text)

def rightAligned (width number : Nat) : String :=
  let digits := toString number
  String.ofList (List.replicate (width - digits.length) ' ') ++ digits

def secondLine : String := "        "

/-! ## Parts of a report -/

namespace Pattern

def rendered (colored : Bool) (pattern : Pattern) : String :=
  line ("  " ++ rightAligned 3 pattern.frequency ++ "×  " ++
      declarationsLine pattern.declarations) ++
    line (secondLine ++
      Emphasis.dim.apply colored (", ".intercalate (pattern.occurrences.map Occurrence.selector)))

end Pattern

namespace Cluster

def rendered (colored : Bool) (cluster : Cluster) : String :=
  let shared := cluster.sharedDeclarations
  line ("  cohesion " ++ Decimal.fixed 2 cluster.cohesion.toFloat ++
      "  members " ++ toString cluster.members.length ++
      "  frequency " ++ toString cluster.totalFrequency ++ "  " ++
      Emphasis.dim.apply colored ("representative " ++ cluster.representative.short)) ++
    (if shared.isEmpty then "" else line (secondLine ++ "shared: " ++ declarationsLine shared))

end Cluster

namespace Naming.Violation

def rendered (colored : Bool) (violation : Violation) : String :=
  line ("  " ++ Emphasis.yellow.apply colored violation.className ++ " " ++
    Emphasis.dim.apply colored ("[" ++ violation.kind.text ++ "]") ++ " " ++ violation.message)

end Naming.Violation

def Metrics.rendered (metrics : Metrics) : String :=
  line ("  declarations  " ++ toString metrics.totalDeclarations ++ " (" ++
      toString metrics.coveredDeclarations ++ " in clusters, " ++
      Decimal.fixed 1 (metrics.duplicationRatio * 100.0) ++ "% duplicated)") ++
    line ("  selectors     " ++ toString metrics.selectorCount ++ " (about " ++
      toString metrics.estimatedSelectorCount ++ " after extraction)") ++
    line ("  specificity   avg " ++ Decimal.fixed 1 metrics.averageSpecificity ++ ", max " ++
      toString metrics.maximumSpecificity)

def Performance.rendered (performance : Performance) : String :=
  line ("  render cost   " ++ toString performance.estimatedRenderCost ++ " (longest chain " ++
    toString performance.longestSelectorChain ++ ", " ++
    toString performance.universalSelectors ++ " universal)")

/-! ## Reports -/

namespace Report

def part (colored : Bool) (title : String) (entry : α → String) (values : List α) : String :=
  heading colored title values.length ++ String.join (values.map entry) ++ line ""

def rendered (colored : Bool) (report : Report) : String :=
  (if report.warnings.isEmpty then ""
    else
      part colored "Warnings" (fun finding => line ("  " ++ finding.rendered colored))
        report.warnings) ++
    part colored "Repeated patterns" (Pattern.rendered colored) report.patterns ++
    part colored "Clusters" (Cluster.rendered colored) report.clusters ++
    part colored "Naming violations" (Naming.Violation.rendered colored) report.violations ++
    line (Emphasis.bold.apply colored "Metrics") ++
    report.metrics.rendered ++ report.performance.rendered

end Report

end Stylebook
