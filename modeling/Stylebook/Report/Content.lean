import Stylebook.Analysis.Report

/-!
What a report contains, as data without a format. A report is turned into a datum once, and each
output format is a way of writing data. The fields stand in the order in which the formats write
them.
-/

namespace Stylebook

/-! ## Data -/

inductive Datum where
  | null
  | flag (value : Bool)
  | count (value : Nat)
  | number (value : Float)
  | text (value : String)
  | list (items : List Datum)
  | record (fields : List (String × Datum))
  deriving Inhabited

namespace Datum

def ofOption (write : α → Datum) : Option α → Datum
  | none => .null
  | some value => write value

def ofList (write : α → Datum) (values : List α) : Datum := .list (values.map write)

end Datum

/-! ## Reports -/

def Finding.datum (finding : Finding) : Datum :=
  .record
    [("path", .text finding.path), ("property", .text finding.property),
      ("message", .text finding.message), ("severity", .text finding.severity.text)]

def Declaration.datum (declaration : Declaration) : Datum :=
  .record [("property", .text declaration.property), ("value", .text declaration.value)]

def pathDatum (path : NodePath) : Datum := .ofList Datum.count path

def Occurrence.datum (occurrence : Occurrence) : Datum :=
  .record [("path", pathDatum occurrence.path), ("selector", .text occurrence.selector)]

def Pattern.datum (pattern : Pattern) : Datum :=
  .record
    [("signature", .text pattern.signature.text),
      ("declarations", .ofList Declaration.datum pattern.declarations),
      ("occurrences", .ofList Occurrence.datum pattern.occurrences),
      ("frequency", .count pattern.frequency)]

def Cluster.datum (cluster : Cluster) : Datum :=
  .record
    [("members", .ofList Pattern.datum cluster.members),
      ("cohesion", .number cluster.cohesion.toFloat),
      ("representative", .text cluster.representative.text)]

def Naming.Violation.datum (violation : Naming.Violation) : Datum :=
  .record
    [("path", .text violation.path), ("identifier", .text violation.identifier),
      ("class_name", .text violation.className), ("kind", .text violation.kind.text),
      ("message", .text violation.message)]

def Metrics.datum (metrics : Metrics) : Datum :=
  .record
    [("total_declarations", .count metrics.totalDeclarations),
      ("covered_declarations", .count metrics.coveredDeclarations),
      ("duplication_ratio", .number metrics.duplicationRatio),
      ("selector_count", .count metrics.selectorCount),
      ("estimated_selector_count", .count metrics.estimatedSelectorCount),
      ("average_specificity", .number metrics.averageSpecificity),
      ("max_specificity", .count metrics.maximumSpecificity)]

def Performance.datum (performance : Performance) : Datum :=
  .record
    [("estimated_render_cost", .count performance.estimatedRenderCost),
      ("longest_selector_chain", .count performance.longestSelectorChain),
      ("universal_selectors", .count performance.universalSelectors)]

def Report.datum (report : Report) : Datum :=
  .record
    [("warnings", .ofList Finding.datum report.warnings),
      ("candidates", .ofList Pattern.datum report.patterns),
      ("clusters", .ofList Cluster.datum report.clusters),
      ("naming_violations", .ofList Naming.Violation.datum report.violations),
      ("metrics", report.metrics.datum),
      ("performance", report.performance.datum)]

end Stylebook
