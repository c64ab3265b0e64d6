import Stylebook.Proofs.Pipeline.Service

/-!
Runs that share a cache come to what each would come to on its own. In whatever order their
steps come, an outcome that is stored or awaited under a key is that of a job with this key, and
jobs with one key differ in no more than where their trees were read from.
-/

namespace Stylebook.Service

variable {jobs : Nat → Job} {service next : Service} {event : ServiceEvent} {caller : Nat}

/-! ## The invariant -/

structure Faithful (jobs : Nat → Job) (service : Service) : Prop where
  coherent : service.calls.Coherent
  own : ∀ {caller stage}, service.calls.stages caller = some stage →
    hasErrors (jobs caller).tree.check = false ∧ stage.key = (jobs caller).key
  found : ∀ {caller key flight progress outcome},
    service.calls.stages caller = some (.leader key flight progress) →
    progress.outcome? = some outcome → outcome = (jobs caller).attempt.outcome
  answered : ∀ {caller result}, service.results caller = some result →
    result = (jobs caller).result

theorem faithful_start (jobs : Nat → Job) (capacity : Nat) : Faithful jobs (start capacity) where
  coherent := CallSystem.coherent_start capacity
  own := nofun
  found := nofun
  answered := nofun

theorem results_respond_eq_some {result found : Except PipelineError PipelineResult} {other : Nat}
    (returned : (service.respond caller result).results other = some found) :
    (other = caller ∧ found = result) ∨ service.results other = some found := by
  replace returned :
      Function.update service.results caller (some result) other = some found := returned
  by_cases same : other = caller
  · subst other
    rw [Function.update_self, Option.some.injEq] at returned
    exact .inl ⟨rfl, returned.symm⟩
  · rw [Function.update_of_ne same] at returned
    exact .inr returned

namespace Faithful

variable (faithful : Faithful jobs service)

include faithful

theorem own_of_step {callEvent : CallEvent} {calls : CallSystem} (admits : Admits jobs callEvent)
    (step : CallSystem.Step service.calls callEvent calls) {stage : Stage}
    (reached : calls.stages caller = some stage) :
    hasErrors (jobs caller).tree.check = false ∧ stage.key = (jobs caller).key := by
  rcases step.origin reached with ⟨earlier, before, precedes⟩ | ⟨key, rfl, _, rfl⟩
  · rw [precedes.key_eq]
    exact faithful.own before
  · rcases admits with ⟨clean, rfl⟩
    exact ⟨clean, Stage.key_ofLookup _ _⟩

theorem found_of_step {callEvent : CallEvent} {calls : CallSystem} (admits : Admits jobs callEvent)
    (step : CallSystem.Step service.calls callEvent calls) {key : CacheKey} {flight : Nat}
    {progress : Progress} {outcome : Outcome}
    (leads : calls.stages caller = some (.leader key flight progress))
    (found : progress.outcome? = some outcome) : outcome = (jobs caller).attempt.outcome := by
  cases step with
  | lookup asking asked fresh =>
      rcases CallSystem.stages_advance_eq_some leads with ⟨rfl, isNew⟩ | ⟨_, ledBefore⟩
      · rw [(Stage.newest_of_ofLookup_eq_leader isNew).2.2.1] at found
        cases found
      · exact faithful.found ledBefore found
  | finish finishing attempt computing =>
      rcases CallSystem.stages_advance_eq_some leads with ⟨rfl, isNew⟩ | ⟨_, ledBefore⟩
      · cases isNew
        cases found
        rw [admits]
      · exact faithful.found ledBefore found
  | publish publishing finished =>
      rcases CallSystem.stages_advance_eq_some leads with ⟨rfl, isNew⟩ | ⟨_, ledBefore⟩
      · cases isNew
        exact faithful.found finished found
      · exact faithful.found ledBefore found
  | read reading waiting published =>
      rcases CallSystem.stages_advance_eq_some leads with ⟨_, isNew⟩ | ⟨_, ledBefore⟩
      · cases isNew
      · exact faithful.found ledBefore found
  | clear => exact faithful.found leads found

/-- A step of a caller whose tree has errors leaves the cache and its counts as they are. -/
theorem calls_eq_of_errors (errors : hasErrors (jobs caller).tree.check = true)
    (step : Step jobs service event next) (isCaller : event.caller? = some caller) :
    next.calls = service.calls := by
  have unreached : service.calls.stages caller = none := by
    cases reached : service.calls.stages caller with
    | none => rfl
    | some stage =>
        rw [(faithful.own reached).1] at errors
        cases errors
  cases step with
  | reject => rfl
  | answer => rfl
  | call callEvent admits step =>
      cases step with
      | lookup asking asked fresh =>
          cases isCaller
          rw [admits.1] at errors
          cases errors
      | finish finishing attempt computing =>
          cases isCaller
          rw [unreached] at computing
          cases computing
      | publish publishing finished =>
          cases isCaller
          rw [unreached] at finished
          cases finished
      | read reading waiting published =>
          cases isCaller
          rw [unreached] at waiting
          cases waiting
      | clear => cases isCaller

variable (sized : ∀ caller, (jobs caller).Sized) (collisionFree : CollisionFree jobs)

include sized collisionFree

/-- Whoever computed the outcome that a call returns, it serves the caller's job. -/
theorem resultWith_returned {stage : Stage} {outcome : Outcome}
    (reached : service.calls.stages caller = some stage)
    (returned : stage.returned? = some outcome) :
    (jobs caller).tree.resultWith (some outcome) = (jobs caller).result := by
  rcases faithful.coherent.computed_of_returned reached returned with
    ⟨leader, flight, progress, leads, found⟩
  rcases faithful.own reached with ⟨clean, key⟩
  have sameKey : (jobs caller).key = (jobs leader).key :=
    key.symm.trans (faithful.own leads).2
  rcases collisionFree.same_content sized sameKey with ⟨roots, options⟩
  rw [faithful.found leads found]
  exact Job.resultWith_outcome_of_roots roots options clean

theorem step (step : Step jobs service event next) : Faithful jobs next := by
  cases step with
  | reject rejected pending errors =>
      refine { faithful with answered := ?_ }
      intro caller result returned
      rcases results_respond_eq_some returned with ⟨rfl, rfl⟩ | before
      · exact (Job.result_of_errors errors).symm
      · exact faithful.answered before
  | call callEvent admits step =>
      exact
        { coherent := faithful.coherent.step step
          own := faithful.own_of_step admits step
          found := faithful.found_of_step admits step
          answered := faithful.answered }
  | answer answered pending reached returned =>
      refine { faithful with answered := ?_ }
      intro caller result isResult
      rcases results_respond_eq_some isResult with ⟨rfl, rfl⟩ | before
      · exact faithful.resultWith_returned sized collisionFree reached returned
      · exact faithful.answered before

theorem transitions {events : List ServiceEvent}
    (transitions : Transitions (Step jobs) service events next) : Faithful jobs next :=
  transitions.invariant
    (fun _ _ _ faithful step => faithful.step sized collisionFree step) faithful

end Faithful

/-! ## Returning -/

theorem results_respond_self (service : Service) (caller : Nat)
    (result : Except PipelineError PipelineResult) :
    (service.respond caller result).results caller = some result :=
  Function.update_self _ _ _

theorem exists_step_finish (jobs : Nat → Job) {leader flight : Nat} {key : CacheKey}
    (leads : service.calls.stages leader = some (.leader key flight .computing)) :
    ∃ event next, Step jobs service event next ∧ next.results = service.results ∧
      next.calls.stages leader =
        some (.leader key flight (.finished (jobs leader).attempt.outcome)) ∧
      ∀ other ≠ leader, next.calls.stages other = service.calls.stages other :=
  ⟨_, _, .call (.finish leader (jobs leader).attempt) rfl (.finish leader _ leads), rfl,
    CallSystem.stages_advance_self _,
    fun _ different => CallSystem.stages_advance_of_ne _ different⟩

theorem exists_step_publish (jobs : Nat → Job) {leader flight : Nat} {key : CacheKey}
    {outcome : Outcome}
    (finished : service.calls.stages leader = some (.leader key flight (.finished outcome))) :
    ∃ event next, Step jobs service event next ∧ next.results = service.results ∧
      next.calls.stages leader = some (.leader key flight (.published outcome)) ∧
      ∀ other ≠ leader, next.calls.stages other = service.calls.stages other :=
  ⟨_, _, .call (.publish leader) trivial (.publish leader finished), rfl,
    CallSystem.stages_advance_self _,
    fun _ different => CallSystem.stages_advance_of_ne _ different⟩

/-- A leader can go on until its outcome is published, without a step of any other caller. -/
theorem exists_published (jobs : Nat → Job) {leader flight : Nat} {key : CacheKey}
    {progress : Progress}
    (leads : service.calls.stages leader = some (.leader key flight progress)) :
    ∃ events later outcome, Transitions (Step jobs) service events later ∧
      later.results = service.results ∧
      later.calls.stages leader = some (.leader key flight (.published outcome)) ∧
      ∀ other ≠ leader, later.calls.stages other = service.calls.stages other := by
  cases progress with
  | published outcome => exact ⟨[], service, outcome, .nil _, rfl, leads, fun _ _ => rfl⟩
  | finished outcome =>
      rcases exists_step_publish jobs leads with
        ⟨event, later, step, results, published, others⟩
      exact ⟨[event], later, outcome, .single step, results, published, others⟩
  | computing =>
      rcases exists_step_finish jobs leads with
        ⟨first, middle, finish, middleResults, finished, middleOthers⟩
      rcases exists_step_publish jobs finished with
        ⟨second, later, publish, results, published, others⟩
      refine ⟨[first, second], later, _, .cons finish (.single publish),
        results.trans middleResults, published, ?_⟩
      intro other different
      exact (others other different).trans (middleOthers other different)

section

variable (sized : ∀ caller, (jobs caller).Sized) (collisionFree : CollisionFree jobs)

include sized collisionFree

/-- Whatever a call to the cache has come to, it can go on until it returns. -/
theorem Faithful.exists_returned (faithful : Faithful jobs service) {stage : Stage}
    (reached : service.calls.stages caller = some stage) :
    ∃ events later, ∃ final : Stage, ∃ outcome, Transitions (Step jobs) service events later ∧
      later.results = service.results ∧ later.calls.stages caller = some final ∧
      final.returned? = some outcome := by
  cases stage with
  | served key report =>
      exact ⟨[], service, _, .ok report, .nil _, rfl, reached, rfl⟩
  | leader key flight progress =>
      rcases exists_published jobs reached with
        ⟨events, later, outcome, transitions, results, published, _⟩
      exact ⟨events, later, _, outcome, transitions, results, published, rfl⟩
  | follower key flight received =>
      cases received with
      | some outcome => exact ⟨[], service, _, outcome, .nil _, rfl, reached, rfl⟩
      | none =>
          -- The leader of the computation comes first; then its outcome can be read.
          rcases faithful.coherent.joined reached with ⟨leader, progress, leads, _⟩
          have different := CallSystem.ne_of_stages_ne reached leads nofun
          rcases exists_published jobs leads with
            ⟨events, later, outcome, transitions, results, published, others⟩
          have laterFaithful := faithful.transitions sized collisionFree transitions
          have waits := (others caller different).trans reached
          have written := laterFaithful.coherent.slot published
          have step : Step jobs later (.call (.read caller)) _ :=
            .call (.read caller) trivial (.read caller waits written)
          exact ⟨_, _, _, outcome, transitions.append (.single step), results,
            CallSystem.stages_advance_self _, rfl⟩

theorem Faithful.exists_answered_of_reached (faithful : Faithful jobs service)
    (pending : service.results caller = none) {stage : Stage}
    (reached : service.calls.stages caller = some stage) :
    ∃ events later, Transitions (Step jobs) service events later ∧
      (later.results caller).isSome = true := by
  rcases faithful.exists_returned sized collisionFree reached with
    ⟨events, later, final, outcome, transitions, results, reached, returned⟩
  rw [← results] at pending
  refine ⟨_, _, transitions.append (.single (.answer caller pending reached returned)), ?_⟩
  rw [results_respond_self]
  rfl

/-- However far its call has come, a caller can still be answered. -/
theorem Faithful.exists_answered (faithful : Faithful jobs service) (caller : Nat) :
    ∃ events later, Transitions (Step jobs) service events later ∧
      (later.results caller).isSome = true := by
  cases pending : service.results caller with
  | some result => exact ⟨[], service, .nil _, by rw [pending]; rfl⟩
  | none =>
      cases reached : service.calls.stages caller with
      | some stage =>
          exact faithful.exists_answered_of_reached sized collisionFree pending reached
      | none =>
          by_cases errors : hasErrors (jobs caller).tree.check = true
          · refine ⟨_, _, .single (.reject caller pending errors), ?_⟩
            rw [results_respond_self]
            rfl
          · have clean : hasErrors (jobs caller).tree.check = false := by simpa using errors
            have lookup : Step jobs service _ _ :=
              .call (.lookup caller (jobs caller).key) ⟨clean, rfl⟩ (.lookup caller _ reached)
            rcases (faithful.step sized collisionFree lookup).exists_answered_of_reached sized
              collisionFree pending (CallSystem.stages_advance_self _) with
              ⟨events, later, transitions, isAnswered⟩
            exact ⟨_, later, .cons lookup transitions, isAnswered⟩

end

/-! ## Results -/

/-- Runs that share a cache of any capacity, in whatever order their steps come and the cache is
cleared, each return what they return with a cache of their own: the findings alone if there are
errors, in which case the shared cache stays as it is, and otherwise the findings, the style
sheet and the report of the caller's own tree. No caller is ever stuck. -/
theorem results_of_transitions {jobs : Nat → Job} (sized : ∀ caller, (jobs caller).Sized)
    (collisionFree : CollisionFree jobs) {capacity : Nat} {events : List ServiceEvent}
    {service : Service} (transitions : Transitions (Step jobs) (start capacity) events service) :
    (∀ caller result, service.results caller = some result →
      result = (jobs caller).result ∧ ∀ capacity,
        result = ((jobs caller).pipeline.runTree (jobs caller).tree { capacity := capacity }).1) ∧
    (∀ caller event next, hasErrors (jobs caller).tree.check = true →
      Step jobs service event next → event.caller? = some caller → next.calls = service.calls) ∧
    ∀ caller, ∃ laterEvents later, Transitions (Step jobs) service laterEvents later ∧
      (later.results caller).isSome = true := by
  have faithful := (faithful_start jobs capacity).transitions sized collisionFree transitions
  refine ⟨?_, ?_, faithful.exists_answered sized collisionFree⟩
  · intro caller result returned
    have isResult := faithful.answered returned
    refine ⟨isResult, ?_⟩
    intro capacity
    rw [isResult, Pipeline.fst_runTree_alone]
  · intro caller event next errors step isCaller
    exact faithful.calls_eq_of_errors errors step isCaller

/-- All callers but the first have copies of one tree, each from a file of its own. It draws no
error, and yet it has no style sheet. -/
def copies (caller : Nat) : Job where
  pipeline := {}
  tree :=
    if caller = 0 then ⟨[⟨".a", [], []⟩], none⟩ else ⟨[⟨",", [], []⟩], some (toString caller)⟩

private theorem sized_leaf {identifier : String} {source : Option String}
    (short : (Encoding.utf8 identifier).length < UInt64.size) :
    StyleTree.Sized ⟨[⟨identifier, [], []⟩], source⟩ where
  roots := show 1 < UInt64.size by decide
  visit := by
    intro visit member
    cases List.mem_singleton.mp member
    exact
      { depth := show 1 < UInt64.size by decide
        identifier := short
        declarations := show 0 < UInt64.size by decide
        declaration := nofun
        children := show 0 < UInt64.size by decide }

private theorem sized_copies (caller : Nat) : (copies caller).Sized where
  tree := by
    rw [copies]
    by_cases isFirst : caller = 0
    · rw [if_pos isFirst]
      exact sized_leaf (by decide +kernel)
    · rw [if_neg isFirst]
      exact sized_leaf (by decide +kernel)
  options := ⟨show 2 < UInt64.size by decide, show 3 < UInt64.size by decide⟩

private theorem collisionFree_copies : CollisionFree copies where
  tree := by
    intro caller other
    have different : Sha256.digest (Encoding.ofTree ⟨[⟨".a", [], []⟩], none⟩) ≠
        Sha256.digest (Encoding.ofTree ⟨[⟨",", [], []⟩], none⟩) := by decide +kernel
    by_cases isFirst : caller = 0
    · by_cases otherIsFirst : other = 0
      · subst caller other
        exact fun _ => rfl
      · intro collide
        rw [copies, copies, if_pos isFirst, if_neg otherIsFirst] at collide
        exact absurd collide different
    · by_cases otherIsFirst : other = 0
      · intro collide
        rw [copies, copies, if_neg isFirst, if_pos otherIsFirst] at collide
        exact absurd collide.symm different
      · rw [copies, copies, if_neg isFirst, if_neg otherIsFirst]
        exact fun _ => rfl
  options := fun _ _ _ => rfl

/-- A caller who waits for a computation on another's copy is told of its own file. -/
theorem results_of_copies :
    (∀ caller, (copies caller).Sized) ∧ CollisionFree copies ∧
    ∃ service events later,
      Transitions (Step copies) (start 1)
        [.call (.lookup 1 (copies 1).key), .call (.lookup 2 (copies 2).key)] service ∧
      service.calls.stages 2 = some (.follower (copies 1).key 0 none) ∧
      Transitions (Step copies) service events later ∧
      later.results 2 =
        some (.error (.compile ⟨.emptyIdentifier, ",", some { file := some "2" }⟩)) := by
  have waiting : Transitions (Step copies) (start 1) _ _ :=
    .cons (.call (.lookup 1 (copies 1).key) ⟨by decide, rfl⟩ (.lookup 1 _ rfl)) <|
    .single (.call (.lookup 2 (copies 2).key) ⟨by decide, rfl⟩ (.lookup 2 _ rfl))
  rcases (results_of_transitions sized_copies collisionFree_copies waiting).2.2 2 with
    ⟨events, later, transitions, answered⟩
  rcases Option.isSome_iff_exists.mp answered with ⟨result, returned⟩
  have isResult := ((results_of_transitions sized_copies collisionFree_copies
    (waiting.append transitions)).1 2 result returned).1
  refine ⟨sized_copies, collisionFree_copies, _, events, later, waiting, ?_, transitions, ?_⟩
  · have empty : Cache.entry? (start 1).calls.cache (copies 1).key = none := rfl
    have joined := Cache.lookup_after_lead empty rfl
    have sameKey : (copies 2).key = (copies 1).key := rfl
    rw [sameKey]
    exact congrArg (fun found => some (Stage.ofLookup (copies 1).key found)) joined
  · have clean : hasErrors (copies 2).tree.check = false := by decide
    have fails : (copies 2).tree.compile =
        .error ⟨.emptyIdentifier, ",", some { file := some "2" }⟩ := by decide
    rw [returned, isResult, Job.result, clean, if_neg Bool.false_ne_true,
      StyleTree.resultWith_of_error fails]

end Stylebook.Service
