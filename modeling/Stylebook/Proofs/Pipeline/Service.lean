import Stylebook.Proofs.Cache.Coherence
import Stylebook.Proofs.Fingerprint.Encoding
import Stylebook.Proofs.Pipeline.Run
import Stylebook.Proofs.Sheet.Compile

/-!
Runs of pipelines that share a cache. Each caller has a job, a tree to run a pipeline on. A tree
with errors is answered at once; for any other the caller asks the cache, and the outcome may
come from a caller whose tree has the same content but was read from elsewhere.
-/

namespace Stylebook

/-! ## Jobs -/

structure Job where
  pipeline : Pipeline
  tree : StyleTree

namespace Job

def key (job : Job) : CacheKey := .of job.tree job.pipeline.options

def attempt (job : Job) : Attempt :=
  .finished (job.tree.analyzeChecked job.pipeline.options job.tree.check)

def result (job : Job) : Except PipelineError PipelineResult :=
  if hasErrors job.tree.check then .ok ⟨job.tree.check, none, none⟩
  else job.tree.resultWith (some (job.tree.analyze job.pipeline.options))

structure Sized (job : Job) : Prop where
  tree : job.tree.Sized
  options : job.pipeline.options.Sized

end Job

/-- No two trees of the jobs, nor two options, have different content and the same digest. -/
structure CollisionFree (jobs : Nat → Job) : Prop where
  tree : ∀ caller other,
    Sha256.digest (Encoding.ofTree (jobs caller).tree) =
      Sha256.digest (Encoding.ofTree (jobs other).tree) →
    Encoding.ofTree (jobs caller).tree = Encoding.ofTree (jobs other).tree
  options : ∀ caller other,
    Sha256.digest (jobs caller).pipeline.options.content =
      Sha256.digest (jobs other).pipeline.options.content →
    (jobs caller).pipeline.options.content = (jobs other).pipeline.options.content

theorem StyleTree.analyze_of_clean {tree : StyleTree} (clean : hasErrors tree.check = false)
    (options : Options) : tree.analyze options = tree.analyzeChecked options tree.check := by
  simp [analyze, clean]

/-- A job on its own comes to the same result whatever the capacity of its cache. -/
theorem Pipeline.fst_runTree_alone (job : Job) (capacity : Nat) :
    (job.pipeline.runTree job.tree { capacity := capacity }).1 = job.result := by
  rw [Job.result]
  by_cases errors : hasErrors job.tree.check = true
  · rw [if_pos errors, runTree_of_errors _ _ errors]
  · have clean : hasErrors job.tree.check = false := by simpa using errors
    rw [if_neg errors, fst_runTree_of_clean _ _ clean, StyleTree.analyze_of_clean clean]
    rfl

/-- Where a tree was read from does not show in its analysis, once it has a style sheet. -/
theorem StyleTree.analyzeChecked_of_roots {tree other : StyleTree}
    (roots : tree.roots = other.roots) {sheet : Sheet} (compiled : tree.compile = .ok sheet)
    (options : Options) (findings : List Finding) :
    other.analyzeChecked options findings = tree.analyzeChecked options findings := by
  have otherCompiled := compile_eq_ok_of_roots roots compiled
  rcases tree with ⟨nodes, source⟩
  rcases other with ⟨otherNodes, otherSource⟩
  cases roots
  simp only [analyzeChecked, compiled, otherCompiled]
  rfl

namespace Job

theorem result_of_errors {job : Job} (errors : hasErrors job.tree.check = true) :
    job.result = .ok ⟨job.tree.check, none, none⟩ :=
  if_pos errors

/-- An outcome that was computed for a job of the same content serves as well: an error of the
compiler, which names the other tree's file, is hidden by the job's own. -/
theorem resultWith_outcome_of_roots {job other : Job} (roots : job.tree.roots = other.tree.roots)
    (options : job.pipeline.options = other.pipeline.options)
    (clean : hasErrors job.tree.check = false) :
    job.tree.resultWith (some other.attempt.outcome) = job.result := by
  have checks : other.tree.check = job.tree.check := by
    rw [StyleTree.check, StyleTree.check, StyleTree.walkWithin, StyleTree.walkWithin, roots]
  rw [result, clean, if_neg Bool.false_ne_true, StyleTree.analyze_of_clean clean]
  cases compiled : job.tree.compile with
  | error error =>
      rw [StyleTree.resultWith_of_error compiled, StyleTree.resultWith_of_error compiled]
  | ok sheet =>
      rw [attempt, Attempt.outcome, checks, ← options,
        StyleTree.analyzeChecked_of_roots roots compiled]

end Job

/-- Jobs with one key have the same nodes and options. -/
theorem CollisionFree.same_content {jobs : Nat → Job} (collisionFree : CollisionFree jobs)
    (sized : ∀ caller, (jobs caller).Sized) {caller other : Nat}
    (sameKey : (jobs caller).key = (jobs other).key) :
    (jobs caller).tree.roots = (jobs other).tree.roots ∧
      (jobs caller).pipeline.options = (jobs other).pipeline.options := by
  injection sameKey with trees options
  injection trees with trees
  injection options with options
  exact ⟨Encoding.roots_eq_of_ofTree_eq (sized caller).tree (sized other).tree
      (collisionFree.tree caller other trees),
    Options.content_inj (sized caller).options (sized other).options
      (collisionFree.options caller other options)⟩

/-! ## Services and their steps -/

structure Service where
  calls : CallSystem
  results : Nat → Option (Except PipelineError PipelineResult)

inductive ServiceEvent where
  | reject (caller : Nat)
  | call (event : CallEvent)
  | answer (caller : Nat)

def ServiceEvent.caller? : ServiceEvent → Option Nat
  | reject caller => some caller
  | call event => event.caller?
  | answer caller => some caller

namespace Service

def start (capacity : Nat) : Service where
  calls := .start capacity
  results := fun _ => none

/-- Which steps callers take at the cache: they look up the keys of their jobs unless their trees
have errors, and they compute what their jobs need. -/
def Admits (jobs : Nat → Job) : CallEvent → Prop
  | .lookup caller key => hasErrors (jobs caller).tree.check = false ∧ key = (jobs caller).key
  | .finish caller attempt => attempt = (jobs caller).attempt
  | _ => True

def respond (service : Service) (caller : Nat) (result : Except PipelineError PipelineResult) :
    Service :=
  { service with results := Function.update service.results caller (some result) }

inductive Step (jobs : Nat → Job) (service : Service) : ServiceEvent → Service → Prop
  | reject (caller : Nat) (pending : service.results caller = none)
      (errors : hasErrors (jobs caller).tree.check = true) :
      Step jobs service (.reject caller)
        (service.respond caller (.ok ⟨(jobs caller).tree.check, none, none⟩))
  | call (event : CallEvent) {next : CallSystem} (admits : Admits jobs event)
      (step : CallSystem.Step service.calls event next) :
      Step jobs service (.call event) { service with calls := next }
  | answer (caller : Nat) {stage : Stage} {outcome : Outcome}
      (pending : service.results caller = none)
      (reached : service.calls.stages caller = some stage)
      (returned : stage.returned? = some outcome) :
      Step jobs service (.answer caller)
        (service.respond caller ((jobs caller).tree.resultWith (some outcome)))

end Service

end Stylebook
