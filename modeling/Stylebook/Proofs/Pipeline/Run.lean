import Stylebook.Pipeline
import Stylebook.Proofs.Cache.Operations

/-!
What a run of a pipeline on a tree comes to, by the findings about the tree, its style sheet and
the answer of the cache.
-/

namespace Stylebook

/-- The result of a run on a tree without errors, when the analysis has come to an outcome or is
still waited for. An error of the compiler comes first. -/
def StyleTree.resultWith (tree : StyleTree) (outcome? : Option (Except AnalysisError Report)) :
    Except PipelineError PipelineResult :=
  match tree.compile, outcome? with
  | .error error, _ => .error (.compile error)
  | .ok _, some (.error error) => .error (.analysis error)
  | .ok sheet, some (.ok report) => .ok ⟨tree.check, some sheet, some report⟩
  | .ok sheet, none => .ok ⟨tree.check, some sheet, none⟩

theorem StyleTree.resultWith_of_error {tree : StyleTree} {error : CompileError}
    (fails : tree.compile = .error error) (outcome? : Option (Except AnalysisError Report)) :
    tree.resultWith outcome? = .error (.compile error) := by
  simp only [resultWith, fails]

theorem StyleTree.resultWith_of_ok {tree : StyleTree} {sheet : Sheet}
    (compiled : tree.compile = .ok sheet) (report : Report) :
    tree.resultWith (some (.ok report)) = .ok ⟨tree.check, some sheet, some report⟩ := by
  simp only [resultWith, compiled]

theorem StyleTree.analyzeChecked_eq_error_iff (tree : StyleTree) (options : Options)
    (findings : List Finding) (error : AnalysisError) :
    tree.analyzeChecked options findings = .error error ↔
      ∃ reason, tree.compile = .error reason ∧ error = .compile reason := by
  rw [analyzeChecked]
  cases tree.compile with
  | error reason => simp [eq_comm]
  | ok sheet => simp

namespace Pipeline

theorem runTree_of_errors (pipeline : Pipeline) {tree : StyleTree} (cache : Cache Report)
    (errors : hasErrors tree.check = true) :
    pipeline.runTree tree cache = (.ok ⟨tree.check, none, none⟩, cache) := by
  simp [runTree, errors]

theorem fst_runTree_of_clean (pipeline : Pipeline) {tree : StyleTree} (cache : Cache Report)
    (clean : hasErrors tree.check = false) :
    (pipeline.runTree tree cache).1 =
      tree.resultWith (cache.request (.of tree pipeline.options)
        (.finished (tree.analyzeChecked pipeline.options tree.check))).1.outcome? := by
  rw [runTree]
  simp only [clean, Bool.false_eq_true, if_false]
  rfl

/-- A run fails only for want of a style sheet, whatever the cache holds. -/
theorem runTree_isOk_iff (pipeline : Pipeline) (tree : StyleTree) (cache : Cache Report) :
    (∃ result, (pipeline.runTree tree cache).1 = .ok result) ↔
      hasErrors tree.check = true ∨ ∃ sheet, tree.compile = .ok sheet := by
  by_cases errors : hasErrors tree.check = true
  · simp [runTree_of_errors pipeline cache errors, errors]
  · rw [fst_runTree_of_clean pipeline cache (by simpa using errors), Cache.outcome?_request]
    cases compiled : tree.compile with
    | error reason => simp [StyleTree.resultWith_of_error compiled, errors]
    | ok sheet =>
        have analyzed : ∀ error,
            tree.analyzeChecked pipeline.options tree.check ≠ .error error := by
          intro error failed
          rcases (tree.analyzeChecked_eq_error_iff _ _ _).mp failed with ⟨reason, fails, _⟩
          rw [compiled] at fails
          cases fails
        cases (cache.lookup (.of tree pipeline.options)).1 with
        | hit report => simp [StyleTree.resultWith_of_ok compiled]
        | join flight => simp [StyleTree.resultWith, compiled]
        | lead flight =>
            cases outcome : tree.analyzeChecked pipeline.options tree.check with
            | error error => exact absurd outcome (analyzed error)
            | ok report => simp [StyleTree.resultWith_of_ok compiled, Attempt.outcome]

end Pipeline

end Stylebook
