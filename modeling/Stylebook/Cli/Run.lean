import Stylebook.Analysis.OptionsText
import Stylebook.Cli.Arguments
import Stylebook.Cli.FileStore
import Stylebook.Pipeline
import Stylebook.Report.Content
import Stylebook.Report.Json
import Stylebook.Report.Text
import Stylebook.Report.Yaml

/-!
Commands. A command reads files, may write one, and ends with an outcome: what it prints
and whether it succeeded.
-/

namespace Stylebook.Cli

/-! ## Outcomes -/

inductive Status where
  | success
  | failure
  deriving DecidableEq, Repr, Inhabited

structure Outcome where
  status : Status := .success
  output : String := ""
  errors : String := ""
  deriving DecidableEq, Repr, Inhabited

structure Failure where
  message : String
  cause : String
  deriving DecidableEq, Repr, Inhabited

namespace Failure

def text (failure : Failure) : String := failure.message ++ ": " ++ failure.cause

def indented (text : String) : String :=
  "\n".intercalate ((text.splitOn "\n").map fun line => "    " ++ line)

def outcome (failure : Failure) (errors : String) : Outcome where
  status := .failure
  errors :=
    errors ++ "Error: " ++ failure.message ++ "\n\nCaused by:\n" ++ indented failure.cause ++ "\n"

end Failure

def findingLines (findings : List Finding) : String :=
  String.join (findings.map fun finding => line (finding.rendered false))

/-! ## Inputs -/

section

variable {m : Type → Type} [Monad m]

def loadTree (files : FileSystem m) (file : String) : m (Except StylesheetError StyleTree) := do
  match ← files.read file with
  | .error error => return .error (.load file error.text)
  | .ok text =>
      match StyleTree.ofText text with
      | .ok tree => return .ok (tree.withSource file)
      | .error error => return .error (error.withFile file)

def loadOptions (files : FileSystem m) (file : String) : m (Except Failure Options) := do
  match ← files.read file with
  | .error error => return .error ⟨"failed to read config " ++ file, error.text⟩
  | .ok text =>
      match Options.ofText text with
      | .ok options => return .ok options
      | .error error => return .error ⟨"invalid config " ++ file, error.text⟩

def Tuning.options (files : FileSystem m) (tuning : Tuning) : m (Except Failure Options) := do
  let base ←
    match tuning.config with
    | some file => loadOptions files file
    | none => pure (.ok {})
  match base with
  | .error failure => return .error failure
  | .ok options =>
      match options.set tuning.given with
      | .ok options => return .ok options
      | .error error => return .error ⟨"invalid analysis options", error.text⟩

/-! ## Commands -/

def withTree (files : FileSystem m) (file : String) (next : StyleTree → m Outcome) :
    m Outcome := do
  match ← loadTree files file with
  | .ok tree => next tree
  | .error error => return (Failure.mk ("cannot load " ++ file) error.text).outcome ""

def checkTree (file : String) (tree : StyleTree) : Outcome :=
  let findings := tree.check
  let errors := (findings.filter Finding.isError).length
  { status := if errors > 0 then .failure else .success
    errors :=
      findingLines findings ++
        line (file ++ ": " ++ toString errors ++ " error(s), " ++
          toString (findings.length - errors) ++ " warning(s)") }

def compileTree (files : FileSystem m) (output : Option String) (tree : StyleTree) :
    m Outcome := do
  let findings := tree.check
  let errors := findingLines findings
  if hasErrors findings then return { status := .failure, errors }
  match tree.compile, output with
  | .error error, _ => return (Failure.mk "compilation failed" error.text).outcome errors
  | .ok sheet, none => return { output := sheet.css, errors }
  | .ok sheet, some file =>
      match ← files.write file sheet.css with
      | .ok () => return { errors }
      | .error error => return (Failure.mk ("cannot write " ++ file) error.text).outcome errors

def Format.write (format : Format) (report : Report) : String :=
  match format with
  | .text => report.rendered false
  | .json => line (Json.pretty 0 report.datum)
  | .yaml => Yaml.document report.datum

def Failure.ofPipeline : PipelineError → Failure
  | .parse error => ⟨"cannot load", error.text⟩
  | .compile error => ⟨"compilation failed: " ++ error.text, error.text⟩
  | .analysis error => ⟨"analysis failed: " ++ error.text, error.text⟩

def analyzeTree (format : Format) (options : Options) (capacity : Nat) (tree : StyleTree) :
    Outcome :=
  match (Pipeline.runTree { options } tree { capacity }).1 with
  | .error error => (Failure.ofPipeline error).outcome ""
  | .ok result =>
      match result.report with
      | some report => { output := format.write report }
      | none => { status := .failure, errors := findingLines result.findings }

namespace Command

/-- Runs a command. The options of an analysis are looked at before its file. -/
def run (files : FileSystem m) : Command → m Outcome
  | .check file => withTree files file fun tree => return checkTree file tree
  | .compile file output => withTree files file (compileTree files output)
  | .analyze file format tuning => do
      match ← tuning.options files with
      | .error failure => return failure.outcome ""
      | .ok options =>
          withTree files file fun tree =>
            return analyzeTree format options tuning.cacheCapacity tree

end Command

end

end Stylebook.Cli
