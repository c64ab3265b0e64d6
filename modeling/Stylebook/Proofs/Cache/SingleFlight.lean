import Stylebook.Proofs.Cache.Coherence

/-!
Callers who ask for a key at the same time share one computation and its outcome, and what is
stored or served is a report that was computed for its key.
-/

namespace Stylebook.CallSystem

structure SingleFlight (system : CallSystem) : Prop where
  /-- Only one call at a time computes for a key. -/
  alone : ∀ {caller other key flight otherFlight},
    system.stages caller = some (.leader key flight .computing) →
    system.stages other = some (.leader key otherFlight .computing) → caller = other
  /-- Under way are just the computations of these calls, each under its key alone. -/
  underWay : ∀ key flight, (key, flight) ∈ system.cache.flights ↔
    ∃ caller, system.stages caller = some (.leader key flight .computing)
  distinct : (system.cache.flights.map Prod.fst).Nodup
  /-- No key has both a value and a computation under way. -/
  apart : ∀ entry ∈ system.cache.entries, ∀ flight, (entry.key, flight) ∉ system.cache.flights
  /-- Whoever waits has an outcome to read or a leader who is yet to publish one. -/
  awaited : ∀ {caller key flight}, system.stages caller = some (.follower key flight none) →
    (∃ outcome, system.slots flight = some outcome) ∨
      ∃ leader progress, system.stages leader = some (.leader key flight progress) ∧
        progress.published? = none
  /-- An outcome is published in an empty slot and stays there. -/
  unpublished : ∀ {caller key flight progress},
    system.stages caller = some (.leader key flight progress) → progress.published? = none →
    system.slots flight = none
  settled : ∀ {event next}, Step system event next → ∀ flight outcome,
    system.slots flight = some outcome → next.slots flight = some outcome
  /-- A follower joins a computation under way and stays with it. -/
  joined : ∀ {caller key flight received next}, Step system (.lookup caller key) next →
    next.stages caller = some (.follower key flight received) →
    (key, flight) ∈ system.cache.flights
  stays : ∀ {caller key flight received event next}, Step system event next →
    system.stages caller = some (.follower key flight received) →
    ∃ later, next.stages caller = some (.follower key flight later) ∧
      ∀ outcome, received = some outcome → later = some outcome
  /-- A follower returns the outcome of the one leader of the computation that it joined. -/
  received : ∀ {caller key flight outcome},
    system.stages caller = some (.follower key flight (some outcome)) →
    ∃ leader, system.stages leader = some (.leader key flight (.published outcome)) ∧
      ∀ other otherKey progress,
        system.stages other = some (.leader otherKey flight progress) → other = leader
  /-- What is kept for a key was computed for it. -/
  kept : ∀ entry ∈ system.cache.entries, system.Computed entry.key (.ok entry.value)
  /-- A report that a lookup is served with was computed for its key before the lookup. -/
  served : ∀ {caller key report next}, Step system (.lookup caller key) next →
    next.stages caller = some (.served key report) → system.Computed key (.ok report)
  /-- Values are added by leaders who computed a report, and not by those who failed. -/
  added : ∀ {event next}, Step system event next → ∀ entry ∈ next.cache.entries,
    system.cache.Keeps entry.key entry.value ∨
      ∃ caller flight, event = .finish caller (.finished (.ok entry.value)) ∧
        system.stages caller = some (.leader entry.key flight .computing)

theorem Step.mem_flights_of_joins {system next : CallSystem} {caller flight : Nat}
    {key : CacheKey} {received : Option Outcome} (step : Step system (.lookup caller key) next)
    (follows : next.stages caller = some (.follower key flight received)) :
    (key, flight) ∈ system.cache.flights := by
  cases step with
  | lookup _ _ fresh =>
      rcases stages_advance_eq_some follows with ⟨_, isNew⟩ | ⟨different, _⟩
      · exact (Stage.mem_flights_of_ofLookup_eq_follower isNew).2.2
      · exact absurd rfl different

theorem Step.follower_persists {system next : CallSystem} {event : CallEvent}
    {caller flight : Nat} {key : CacheKey} {received : Option Outcome}
    (step : Step system event next)
    (follows : system.stages caller = some (.follower key flight received)) :
    ∃ later, next.stages caller = some (.follower key flight later) ∧
      ∀ outcome, received = some outcome → later = some outcome := by
  rcases step.persists follows with ⟨stage, reached, precedes⟩
  cases precedes with
  | follower kept => exact ⟨_, reached, kept⟩

namespace Coherent

variable {system : CallSystem} (coherent : system.Coherent)

include coherent

theorem awaited {caller flight : Nat} {key : CacheKey}
    (waits : system.stages caller = some (.follower key flight none)) :
    (∃ outcome, system.slots flight = some outcome) ∨
      ∃ leader progress, system.stages leader = some (.leader key flight progress) ∧
        progress.published? = none := by
  rcases coherent.joined waits with ⟨leader, progress, leads, _⟩
  cases published : progress.published? with
  | none => exact .inr ⟨leader, progress, leads, published⟩
  | some outcome => exact .inl ⟨outcome, (coherent.slot leads).trans published⟩

theorem settled {event : CallEvent} {next : CallSystem} (step : Step system event next)
    {flight : Nat} {outcome : Outcome} (written : system.slots flight = some outcome) :
    next.slots flight = some outcome := by
  rcases coherent.written written with ⟨caller, key, progress, leads⟩
  have isPublished : progress = .published outcome := by
    rw [← Progress.published?_eq_some_iff, ← coherent.slot leads, written]
  rcases step.leader_persists leads with ⟨later, leads, precedes⟩
  rw [(coherent.step step).slot leads, precedes.published outcome isPublished]
  rfl

theorem received {caller flight : Nat} {key : CacheKey} {outcome : Outcome}
    (follows : system.stages caller = some (.follower key flight (some outcome))) :
    ∃ leader, system.stages leader = some (.leader key flight (.published outcome)) ∧
      ∀ other otherKey progress,
        system.stages other = some (.leader otherKey flight progress) → other = leader := by
  rcases coherent.joined follows with ⟨leader, progress, leads, published⟩
  rw [published outcome rfl] at leads
  exact ⟨leader, leads, fun _ _ _ otherLeads => coherent.led otherLeads leads⟩

theorem computed_of_lookup {caller : Nat} {key : CacheKey} {report : Report} {next : CallSystem}
    (step : Step system (.lookup caller key) next)
    (isServed : next.stages caller = some (.served key report)) :
    system.Computed key (.ok report) := by
  cases step with
  | lookup _ _ fresh =>
      rcases stages_advance_eq_some isServed with ⟨_, isNew⟩ | ⟨different, _⟩
      · exact coherent.kept (Stage.keeps_of_ofLookup_eq_served isNew).2
      · exact absurd rfl different

end Coherent

/-- Whatever the capacity, and in whatever order callers look up, finish, publish and read and
the cache is cleared, computations are shared and only reports are stored. -/
theorem singleFlight_of_transitions {capacity : Nat} {events : List CallEvent}
    {system : CallSystem} (transitions : Transitions Step (start capacity) events system) :
    SingleFlight system := by
  have coherent := (coherent_start capacity).transitions transitions
  refine
    { alone := coherent.computing_unique
      underWay := coherent.listed
      distinct := coherent.distinct
      apart := ?_
      awaited := coherent.awaited
      unpublished := ?_
      settled := fun step _ _ => coherent.settled step
      joined := fun step => step.mem_flights_of_joins
      stays := fun step => step.follower_persists
      received := coherent.received
      kept := fun entry member => coherent.kept ⟨entry, member, rfl, rfl⟩
      served := coherent.computed_of_lookup
      added := ?_ }
  · intro entry member flight
    exact coherent.apart ⟨entry, member, rfl, rfl⟩
  · intro caller key flight progress leads unpublished
    rw [coherent.slot leads, unpublished]
  · intro event next step entry member
    rcases step.added ⟨entry, member, rfl, rfl⟩ with kept | ⟨caller, flight, isFinish, leads, _⟩
    · exact .inl kept
    · exact .inr ⟨caller, flight, isFinish, leads⟩

/-- The first leader is overtaken: before its outcome is published, a report is served, the
cache is cleared, and another computation for the key begins, which panics. -/
theorem singleFlight_overtaken :
    ∃ system, Transitions Step (start 1)
        [.lookup 0 default, .lookup 1 default, .finish 0 (.finished (.ok default)),
          .lookup 2 default, .clear, .lookup 3 default, .publish 0, .read 1,
          .finish 3 (.panicked none)] system ∧
      SingleFlight system ∧
      system.stages 1 = some (.follower default 0 (some (.ok default))) ∧
      system.stages 2 = some (.served default default) ∧
      system.stages 3 =
        some (.leader default 1 (.finished (.error (.panicked "unknown panic")))) := by
  have transitions : Transitions Step (start 1) _ _ :=
    .cons (.lookup 0 default rfl) <|
    .cons (.lookup 1 default rfl) <|
    .cons (.finish 0 (.finished (.ok default)) rfl) <|
    .cons (.lookup 2 default rfl) <|
    .cons .clear <|
    .cons (.lookup 3 default rfl) <|
    .cons (.publish 0 rfl) <|
    .cons (.read 1 rfl rfl) <|
    .cons (.finish 3 (.panicked none) rfl) <|
    .nil _
  exact ⟨_, transitions, singleFlight_of_transitions transitions, rfl, rfl, rfl⟩

end Stylebook.CallSystem
