import Mathlib.Logic.Function.Basic
import Stylebook.Cache.Request
import Stylebook.Proofs.Cache.Operations
import Stylebook.Proofs.Transitions

/-!
Any number of callers who ask a cache for reports at once. A call is a lookup, and then either
a computation with its finish or a wait. One step is what happens under one lock, so between
two steps of a caller any others may take theirs, and the cache may be cleared.
-/

namespace Stylebook

abbrev Outcome := Except AnalysisError Report

theorem Attempt.outcome_eq_ok_iff {attempt : Attempt} {report : Report} :
    attempt.outcome = .ok report ↔ attempt = .finished (.ok report) := by
  cases attempt <;> simp [outcome]

/-! ## Stages of a call -/

/-- How far the leader of a computation has come. Once `finished`, the computation is no longer
listed in the cache; once `published`, those who joined it may read its outcome. -/
inductive Progress where
  | computing
  | finished (outcome : Outcome)
  | published (outcome : Outcome)

namespace Progress

def outcome? : Progress → Option Outcome
  | computing => none
  | finished outcome => some outcome
  | published outcome => some outcome

def published? : Progress → Option Outcome
  | published outcome => some outcome
  | _ => none

structure Precedes (earlier later : Progress) : Prop where
  outcome : ∀ outcome, earlier.outcome? = some outcome → later.outcome? = some outcome
  published : ∀ outcome, earlier = .published outcome → later = .published outcome

theorem Precedes.refl (progress : Progress) : progress.Precedes progress :=
  ⟨fun _ found => found, fun _ found => found⟩

theorem computing_precedes (progress : Progress) : computing.Precedes progress :=
  ⟨nofun, nofun⟩

theorem finished_precedes_published (outcome : Outcome) :
    (finished outcome).Precedes (published outcome) :=
  ⟨fun _ found => found, nofun⟩

theorem published?_eq_some_iff {progress : Progress} {outcome : Outcome} :
    progress.published? = some outcome ↔ progress = .published outcome := by
  cases progress <;> simp [published?]

end Progress

/-- How far a call has come. A follower has `received` an outcome once it has read it. -/
inductive Stage where
  | leader (key : CacheKey) (flight : Nat) (progress : Progress)
  | follower (key : CacheKey) (flight : Nat) (received : Option Outcome)
  | served (key : CacheKey) (report : Report)

namespace Stage

def ofLookup (key : CacheKey) : Lookup Report → Stage
  | .hit report => served key report
  | .join flight => follower key flight none
  | .lead flight => leader key flight .computing

def key : Stage → CacheKey
  | leader key _ _ => key
  | follower key _ _ => key
  | served key _ => key

theorem key_ofLookup (key : CacheKey) (found : Lookup Report) : (ofLookup key found).key = key := by
  cases found <;> rfl

theorem keeps_of_ofLookup_eq_served {cache : Cache Report} {key other : CacheKey} {report : Report}
    (isServed : ofLookup key (cache.lookup key).1 = served other report) :
    other = key ∧ cache.Keeps key report := by
  rcases cache.lookup_cases key with ⟨value, isHit, keeps, _⟩ | ⟨_, isJoin, _⟩ | ⟨isLead, _⟩
  · rw [isHit] at isServed
    cases isServed
    exact ⟨rfl, keeps⟩
  · rw [isJoin] at isServed
    cases isServed
  · rw [isLead] at isServed
    cases isServed

theorem mem_flights_of_ofLookup_eq_follower {cache : Cache Report} {key other : CacheKey}
    {flight : Nat} {received : Option Outcome}
    (follows : ofLookup key (cache.lookup key).1 = follower other flight received) :
    other = key ∧ received = none ∧ (key, flight) ∈ cache.flights := by
  rcases cache.lookup_cases key with ⟨_, isHit, _⟩ | ⟨joined, isJoin, listed, _⟩ | ⟨isLead, _⟩
  · rw [isHit] at follows
    cases follows
  · rw [isJoin] at follows
    cases follows
    exact ⟨rfl, rfl, listed⟩
  · rw [isLead] at follows
    cases follows

theorem newest_of_ofLookup_eq_leader {cache : Cache Report} {key other : CacheKey} {flight : Nat}
    {progress : Progress}
    (leads : ofLookup key (cache.lookup key).1 = leader other flight progress) :
    other = key ∧ flight = cache.nextFlight ∧ progress = .computing ∧
      (cache.lookup key).2.nextFlight = cache.nextFlight + 1 := by
  rcases cache.lookup_cases key with ⟨_, isHit, _⟩ | ⟨_, isJoin, _⟩ | ⟨isLead, _, _, _, advanced⟩
  · rw [isHit] at leads
    cases leads
  · rw [isJoin] at leads
    cases leads
  · rw [isLead] at leads
    cases leads
    exact ⟨rfl, rfl, rfl, advanced⟩

inductive Precedes : Stage → Stage → Prop
  | leader {key : CacheKey} {flight : Nat} {earlier later : Progress}
      (progress : earlier.Precedes later) :
      Precedes (leader key flight earlier) (leader key flight later)
  | follower {key : CacheKey} {flight : Nat} {earlier later : Option Outcome}
      (kept : ∀ outcome, earlier = some outcome → later = some outcome) :
      Precedes (follower key flight earlier) (follower key flight later)
  | served {key : CacheKey} {report : Report} :
      Precedes (served key report) (served key report)

theorem Precedes.refl (stage : Stage) : stage.Precedes stage := by
  cases stage with
  | leader key flight progress => exact .leader (.refl progress)
  | follower key flight received => exact .follower fun _ kept => kept
  | served key report => exact .served

theorem Precedes.key_eq {earlier later : Stage} (precedes : earlier.Precedes later) :
    later.key = earlier.key := by
  cases precedes <;> rfl

def returned? : Stage → Option Outcome
  | leader _ _ progress => progress.published?
  | follower _ _ received => received
  | served _ report => some (.ok report)

end Stage

/-! ## Systems and their steps -/

/-- A cache with its callers. A computation has a slot for its outcome, from which those who
joined it read. -/
structure CallSystem where
  cache : Cache Report
  stages : Nat → Option Stage
  slots : Nat → Option Outcome

inductive CallEvent where
  | lookup (caller : Nat) (key : CacheKey)
  | finish (caller : Nat) (attempt : Attempt)
  | publish (caller : Nat)
  | read (caller : Nat)
  | clear

def CallEvent.caller? : CallEvent → Option Nat
  | lookup caller _ => some caller
  | finish caller _ => some caller
  | publish caller => some caller
  | read caller => some caller
  | clear => none

namespace CallSystem

def start (capacity : Nat) : CallSystem where
  cache := { capacity := capacity }
  stages := fun _ => none
  slots := fun _ => none

def advance (system : CallSystem) (caller : Nat) (stage : Stage) : CallSystem :=
  { system with stages := Function.update system.stages caller (some stage) }

/-- One step. A finish comes with whatever the computation led to. -/
inductive Step (system : CallSystem) : CallEvent → CallSystem → Prop
  | lookup (caller : Nat) (key : CacheKey) (fresh : system.stages caller = none) :
      Step system (.lookup caller key)
        { system.advance caller (.ofLookup key (system.cache.lookup key).1) with
          cache := (system.cache.lookup key).2 }
  | finish (caller : Nat) (attempt : Attempt) {key : CacheKey} {flight : Nat}
      (computing : system.stages caller = some (.leader key flight .computing)) :
      Step system (.finish caller attempt)
        { system.advance caller (.leader key flight (.finished attempt.outcome)) with
          cache := system.cache.finish key attempt.outcome }
  | publish (caller : Nat) {key : CacheKey} {flight : Nat} {outcome : Outcome}
      (finished : system.stages caller = some (.leader key flight (.finished outcome))) :
      Step system (.publish caller)
        { system.advance caller (.leader key flight (.published outcome)) with
          slots := Function.update system.slots flight (some outcome) }
  | read (caller : Nat) {key : CacheKey} {flight : Nat} {outcome : Outcome}
      (waiting : system.stages caller = some (.follower key flight none))
      (published : system.slots flight = some outcome) :
      Step system (.read caller) (system.advance caller (.follower key flight (some outcome)))
  | clear : Step system .clear { system with cache := system.cache.clear }

variable {system next : CallSystem} {event : CallEvent} {caller other : Nat}

theorem stages_advance_self (stage : Stage) :
    (system.advance caller stage).stages caller = some stage :=
  Function.update_self _ _ _

theorem stages_advance_of_ne (stage : Stage) (different : other ≠ caller) :
    (system.advance caller stage).stages other = system.stages other :=
  Function.update_of_ne different _ _

theorem stages_advance_eq_some {stage found : Stage}
    (reached : (system.advance caller stage).stages other = some found) :
    (other = caller ∧ stage = found) ∨ (other ≠ caller ∧ system.stages other = some found) := by
  by_cases same : other = caller
  · subst other
    rw [stages_advance_self, Option.some.injEq] at reached
    exact .inl ⟨rfl, reached⟩
  · rw [stages_advance_of_ne stage same] at reached
    exact .inr ⟨same, reached⟩

theorem exists_stages_advance_iff {stage target : Stage} :
    (∃ other, (system.advance caller stage).stages other = some target) ↔
      stage = target ∨ ∃ other, other ≠ caller ∧ system.stages other = some target := by
  constructor
  · intro holds
    rcases holds with ⟨other, reached⟩
    rcases stages_advance_eq_some reached with ⟨_, isTarget⟩ | ⟨different, reached⟩
    · exact .inl isTarget
    · exact .inr ⟨other, different, reached⟩
  · intro holds
    rcases holds with isTarget | ⟨other, different, reached⟩
    · exact ⟨caller, (stages_advance_self stage).trans (congrArg some isTarget)⟩
    · exact ⟨other, (stages_advance_of_ne stage different).trans reached⟩

theorem ne_of_stages_ne {stage found : Option Stage} (reached : system.stages other = found)
    (otherwise : system.stages caller = stage) (different : found ≠ stage) : other ≠ caller := by
  intro same
  subst other
  exact different (reached.symm.trans otherwise)

/-- Where a caller who was elsewhere goes on, the others stay where they are. -/
theorem exists_stages_advance_iff_of_ne {stage target : Stage} {found : Option Stage}
    (reached : system.stages caller = found) (different : some target ≠ found) :
    (∃ other, (system.advance caller stage).stages other = some target) ↔
      stage = target ∨ ∃ other, system.stages other = some target := by
  rw [exists_stages_advance_iff]
  refine or_congr_right ?_
  constructor
  · intro holds
    rcases holds with ⟨other, _, isTarget⟩
    exact ⟨other, isTarget⟩
  · intro holds
    rcases holds with ⟨other, isTarget⟩
    exact ⟨other, ne_of_stages_ne isTarget reached different, isTarget⟩

/-! ## Calls across a step -/

private theorem persists_advance {stage found : Stage}
    (onward : ∀ earlier, system.stages caller = some earlier → earlier.Precedes stage)
    (reached : system.stages other = some found) :
    ∃ later, (system.advance caller stage).stages other = some later ∧ found.Precedes later := by
  by_cases same : other = caller
  · subst other
    exact ⟨stage, stages_advance_self stage, onward found reached⟩
  · exact ⟨found, (stages_advance_of_ne stage same).trans reached, .refl found⟩

private theorem onward_of_eq {stage found : Stage} (reached : system.stages caller = some found)
    (precedes : found.Precedes stage) :
    ∀ earlier, system.stages caller = some earlier → earlier.Precedes stage := by
  intro earlier isEarlier
  rw [reached, Option.some.injEq] at isEarlier
  rwa [← isEarlier]

/-- No step takes a call back. -/
theorem Step.persists (step : Step system event next) {stage : Stage}
    (reached : system.stages other = some stage) :
    ∃ later, next.stages other = some later ∧ stage.Precedes later := by
  cases step with
  | lookup caller key fresh =>
      refine persists_advance ?_ reached
      intro earlier isEarlier
      rw [fresh] at isEarlier
      cases isEarlier
  | finish caller attempt computing =>
      exact persists_advance
        (onward_of_eq computing (.leader (Progress.computing_precedes _))) reached
  | publish caller finished =>
      exact persists_advance
        (onward_of_eq finished (.leader (Progress.finished_precedes_published _))) reached
  | read caller waiting _ => exact persists_advance (onward_of_eq waiting (.follower nofun)) reached
  | clear => exact ⟨stage, reached, .refl stage⟩

theorem Step.leader_persists (step : Step system event next) {key : CacheKey} {flight : Nat}
    {progress : Progress} (leads : system.stages other = some (.leader key flight progress)) :
    ∃ later, next.stages other = some (.leader key flight later) ∧ progress.Precedes later := by
  rcases step.persists leads with ⟨stage, reached, precedes⟩
  cases precedes with
  | leader progress => exact ⟨_, reached, progress⟩

private theorem origin_advance {stage found earlier : Stage}
    (came : system.stages caller = some earlier) (precedes : earlier.Precedes stage)
    (reached : (system.advance caller stage).stages other = some found) :
    ∃ earlier, system.stages other = some earlier ∧ earlier.Precedes found := by
  by_cases same : other = caller
  · subst other
    rw [stages_advance_self, Option.some.injEq] at reached
    exact ⟨earlier, came, reached ▸ precedes⟩
  · rw [stages_advance_of_ne stage same] at reached
    exact ⟨found, reached, .refl found⟩

/-- A call was there before a step unless its lookup was the step. -/
theorem Step.origin (step : Step system event next) {stage : Stage}
    (reached : next.stages other = some stage) :
    (∃ earlier, system.stages other = some earlier ∧ earlier.Precedes stage) ∨
      ∃ key, event = .lookup other key ∧ next.cache = (system.cache.lookup key).2 ∧
        stage = .ofLookup key (system.cache.lookup key).1 := by
  cases step with
  | lookup caller key fresh =>
      by_cases same : other = caller
      · subst other
        have isLookup : some (Stage.ofLookup key (system.cache.lookup key).1) = some stage :=
          (stages_advance_self _).symm.trans reached
        exact .inr ⟨key, rfl, rfl, (Option.some.inj isLookup).symm⟩
      · exact .inl ⟨stage, (stages_advance_of_ne _ same).symm.trans reached, .refl stage⟩
  | finish caller attempt computing =>
      exact .inl (origin_advance computing (.leader (Progress.computing_precedes _)) reached)
  | publish caller finished =>
      exact .inl
        (origin_advance finished (.leader (Progress.finished_precedes_published _)) reached)
  | read caller waiting _ => exact .inl (origin_advance waiting (.follower nofun) reached)
  | clear => exact .inl ⟨stage, reached, .refl stage⟩

/-! ## Requests -/

/-- A call whose steps follow each other at once is a request: it leaves the same cache and
returns the same outcome, unless it waits. -/
theorem exists_transitions_request (fresh : system.stages caller = none) (key : CacheKey)
    (attempt : Attempt) :
    ∃ events next, ∃ stage : Stage, Transitions Step system events next ∧
      next.cache = (system.cache.request key attempt).2 ∧
      next.stages caller = some stage ∧
      stage.returned? = (system.cache.request key attempt).1.outcome? := by
  have lookup : Step system (.lookup caller key) _ := .lookup caller key fresh
  rw [Cache.outcome?_request, Cache.snd_request]
  cases found : (system.cache.lookup key).1 with
  | hit report =>
      refine ⟨_, _, _, .single lookup, rfl, stages_advance_self _, ?_⟩
      rw [found]
      rfl
  | join flight =>
      refine ⟨_, _, _, .single lookup, rfl, stages_advance_self _, ?_⟩
      rw [found]
      rfl
  | lead flight =>
      rw [found] at lookup
      refine ⟨_, _, _, .cons lookup (.cons (.finish caller attempt (stages_advance_self _)) <|
        .single (.publish caller (stages_advance_self _))), rfl, stages_advance_self _, rfl⟩

end CallSystem

end Stylebook
