import Stylebook.Cache.Request
import Stylebook.Stylesheet.Load

/-!
The way of a document from text to style sheet and report. A tree with errors is neither
compiled nor analysed; its findings are the result.
-/

namespace Stylebook

/-! ## Results and errors -/

/-- The result of a run. Without a style sheet and a report the tree had errors. -/
structure PipelineResult where
  findings : List Finding
  sheet : Option Sheet
  report : Option Report
  deriving Repr, Inhabited

namespace PipelineResult

def isSuccess (result : PipelineResult) : Bool :=
  !hasErrors result.findings && result.sheet.isSome && result.report.isSome

def errors (result : PipelineResult) : List Finding := result.findings.filter Finding.isError

def warnings (result : PipelineResult) : List Finding :=
  result.findings.filter fun finding => !finding.isError

end PipelineResult

inductive PipelineError where
  | parse (error : StylesheetError)
  | compile (error : CompileError)
  | analysis (error : AnalysisError)
  deriving DecidableEq, Repr, Inhabited

namespace PipelineError

def code : PipelineError → String
  | parse _ => "pipeline/parse"
  | compile error => error.code
  | analysis error => error.code

def text : PipelineError → String
  | parse error => error.text
  | compile error => "compilation failed: " ++ error.text
  | analysis error => "analysis failed: " ++ error.text

end PipelineError

/-! ## Runs -/

structure Pipeline where
  read : String → Except StylesheetError StyleTree := StyleTree.ofText
  options : Options := {}

namespace Pipeline

def runTree (pipeline : Pipeline) (tree : StyleTree) (cache : Cache Report) :
    Except PipelineError PipelineResult × Cache Report :=
  let findings := tree.check
  if hasErrors findings then (.ok ⟨findings, none, none⟩, cache)
  else
    let attempt := Attempt.finished (tree.analyzeChecked pipeline.options findings)
    let (answer, cache) := cache.request (.of tree pipeline.options) attempt
    (match tree.compile, answer.outcome? with
      | .error error, _ => .error (.compile error)
      | .ok _, some (.error error) => .error (.analysis error)
      | .ok sheet, some (.ok report) => .ok ⟨findings, some sheet, some report⟩
      | .ok sheet, none => .ok ⟨findings, some sheet, none⟩,
      cache)

def run (pipeline : Pipeline) (text : String) (cache : Cache Report) :
    Except PipelineError PipelineResult × Cache Report :=
  match pipeline.read text with
  | .ok tree => pipeline.runTree tree cache
  | .error error => (.error (.parse error), cache)

end Pipeline

/-! ## Summaries -/

def Options.summary (options : Options) : String :=
  "AnalysisOptions \x7b minimum_cohesion: " ++
    Decimal.summaryLayout.write options.minimumCohesion ++ ", minimum_frequency: " ++
    toString options.minimumFrequency ++ ", max_depth: " ++ toString options.maximumDepth ++ " \x7d"

def Pipeline.summary (pipeline : Pipeline) (cache : Cache Report) : String :=
  "StylePipeline \x7b options: " ++ pipeline.options.summary ++ ", cache: " ++ cache.summary ++
    ", .. \x7d"

end Stylebook
