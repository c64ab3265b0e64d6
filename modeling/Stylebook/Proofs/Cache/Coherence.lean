import Mathlib.Data.List.Nodup
import Stylebook.Proofs.Cache.Calls

/-!
How the calls, the two tables of a cache and the slots of its computations belong together,
whatever order the steps of the callers come in. A finish gives up the key before the outcome
is published, so meanwhile a report may be served, another computation for the key may begin
and the cache may be cleared.
-/

namespace Stylebook.CallSystem

variable {system next : CallSystem} {event : CallEvent} {caller other flight : Nat}
  {key : CacheKey} {outcome : Outcome}

/-! ## Computed outcomes -/

def Computed (system : CallSystem) (key : CacheKey) (outcome : Outcome) : Prop :=
  ∃ caller flight progress, system.stages caller = some (.leader key flight progress) ∧
    progress.outcome? = some outcome

theorem Step.computed_persists (step : Step system event next)
    (computed : system.Computed key outcome) : next.Computed key outcome := by
  rcases computed with ⟨caller, flight, progress, leads, found⟩
  rcases step.leader_persists leads with ⟨later, leads, precedes⟩
  exact ⟨caller, flight, later, leads, precedes.outcome outcome found⟩

/-! ## The invariant -/

structure Coherent (system : CallSystem) : Prop where
  listed : ∀ key flight, (key, flight) ∈ system.cache.flights ↔
    ∃ caller, system.stages caller = some (.leader key flight .computing)
  distinct : (system.cache.flights.map Prod.fst).Nodup
  led : ∀ {caller other key otherKey flight progress otherProgress},
    system.stages caller = some (.leader key flight progress) →
    system.stages other = some (.leader otherKey flight otherProgress) → caller = other
  numbered : ∀ {caller key flight progress},
    system.stages caller = some (.leader key flight progress) → flight < system.cache.nextFlight
  slot : ∀ {caller key flight progress},
    system.stages caller = some (.leader key flight progress) →
    system.slots flight = progress.published?
  written : ∀ {flight outcome}, system.slots flight = some outcome →
    ∃ caller key progress, system.stages caller = some (.leader key flight progress)
  joined : ∀ {caller key flight received},
    system.stages caller = some (.follower key flight received) →
    ∃ leader progress, system.stages leader = some (.leader key flight progress) ∧
      ∀ outcome, received = some outcome → progress = .published outcome
  apart : ∀ {key value flight}, system.cache.Keeps key value → (key, flight) ∉ system.cache.flights
  kept : ∀ {key value}, system.cache.Keeps key value → system.Computed key (.ok value)
  served : ∀ {caller key report}, system.stages caller = some (.served key report) →
    system.Computed key (.ok report)

theorem coherent_start (capacity : Nat) : (start capacity).Coherent where
  listed := by simp [start]
  distinct := by simp [start]
  led := nofun
  numbered := nofun
  slot := nofun
  written := nofun
  joined := nofun
  apart keeps := absurd keeps (Cache.not_keeps_of_empty rfl)
  kept keeps := absurd keeps (Cache.not_keeps_of_empty rfl)
  served := nofun

/-- A leader that was none before a step leads the newest computation. -/
theorem Step.leader_origin (step : Step system event next) {progress : Progress}
    (leads : next.stages other = some (.leader key flight progress)) :
    (∃ earlier, system.stages other = some (.leader key flight earlier) ∧
      earlier.Precedes progress) ∨
    (event = .lookup other key ∧ flight = system.cache.nextFlight ∧
      next.cache.nextFlight = system.cache.nextFlight + 1) := by
  rcases step.origin leads with ⟨stage, reached, precedes⟩ | ⟨asked, isLookup, cache, found⟩
  · cases precedes with
    | leader progress => exact .inl ⟨_, reached, progress⟩
  · right
    rcases Stage.newest_of_ofLookup_eq_leader found.symm with ⟨isAsked, isNewest, _, advanced⟩
    rw [cache, isAsked]
    exact ⟨isLookup, isNewest, advanced⟩

theorem Step.nextFlight_le (step : Step system event next) :
    system.cache.nextFlight ≤ next.cache.nextFlight := by
  cases step with
  | lookup caller key fresh =>
      show _ ≤ (system.cache.lookup key).2.nextFlight
      rcases system.cache.lookup_cases key with
        ⟨_, _, _, _, same⟩ | ⟨_, _, _, _, same⟩ | ⟨_, _, _, _, advanced⟩ <;> omega
  | finish caller attempt computing => exact Nat.le_of_eq Cache.nextFlight_finish.symm
  | publish caller finished => exact Nat.le_refl _
  | read caller waiting published => exact Nat.le_refl _
  | clear => exact Nat.le_refl _

/-- A value that was not kept before a step comes from the finish of the computation for its
key. -/
theorem Step.added (step : Step system event next) {value : Report}
    (keeps : next.cache.Keeps key value) :
    system.cache.Keeps key value ∨
      ∃ caller flight, event = .finish caller (.finished (.ok value)) ∧
        system.stages caller = some (.leader key flight .computing) ∧
        next.stages caller = some (.leader key flight (.finished (.ok value))) := by
  cases step with
  | lookup caller asked fresh => exact .inl (Cache.keeps_lookup.mp keeps)
  | @finish caller attempt finished number computing =>
      rcases Cache.keeps_of_keeps_finish keeps with ⟨rfl, found⟩ | kept
      · rw [Attempt.outcome_eq_ok_iff] at found
        subst attempt
        exact .inr ⟨caller, number, rfl, computing, stages_advance_self _⟩
      · exact .inl kept
  | publish caller finished => exact .inl keeps
  | read caller waiting published => exact .inl keeps
  | clear => exact absurd keeps Cache.not_keeps_clear

namespace Coherent

variable (coherent : system.Coherent)

include coherent

theorem numbered_of_step (step : Step system event next) {progress : Progress}
    (leads : next.stages caller = some (.leader key flight progress)) :
    flight < next.cache.nextFlight := by
  rcases step.leader_origin leads with ⟨earlier, leads, _⟩ | ⟨_, rfl, advanced⟩
  · exact Nat.lt_of_lt_of_le (coherent.numbered leads) step.nextFlight_le
  · omega

theorem led_of_step (step : Step system event next) {otherKey : CacheKey}
    {progress otherProgress : Progress}
    (leads : next.stages caller = some (.leader key flight progress))
    (otherLeads : next.stages other = some (.leader otherKey flight otherProgress)) :
    caller = other := by
  rcases step.leader_origin leads with ⟨_, leads, _⟩ | ⟨isLookup, isNewest, _⟩
  · rcases step.leader_origin otherLeads with ⟨_, otherLeads, _⟩ | ⟨_, isNewest, _⟩
    · exact coherent.led leads otherLeads
    · exact absurd (coherent.numbered leads) (by omega)
  · rcases step.leader_origin otherLeads with ⟨_, otherLeads, _⟩ | ⟨isOther, _, _⟩
    · exact absurd (coherent.numbered otherLeads) (by omega)
    · rw [isLookup] at isOther
      cases isOther
      rfl

/-- Whatever a call returns, a leader has found for its key. -/
theorem computed_of_returned {stage : Stage} (reached : system.stages caller = some stage)
    (returned : stage.returned? = some outcome) : system.Computed stage.key outcome := by
  cases stage with
  | leader key flight progress =>
      cases Progress.published?_eq_some_iff.mp returned
      exact ⟨caller, flight, _, reached, rfl⟩
  | follower key flight received =>
      rcases coherent.joined reached with ⟨leader, progress, leads, published⟩
      exact ⟨leader, flight, progress, leads, by rw [published outcome returned]; rfl⟩
  | served key report =>
      cases returned
      exact coherent.served reached

theorem slot_nextFlight : system.slots system.cache.nextFlight = none := by
  cases written : system.slots system.cache.nextFlight with
  | none => rfl
  | some outcome =>
      rcases coherent.written written with ⟨caller, key, progress, leads⟩
      exact absurd (coherent.numbered leads) (Nat.lt_irrefl _)

theorem computing_unique {otherFlight : Nat}
    (computes : system.stages caller = some (.leader key flight .computing))
    (otherComputes : system.stages other = some (.leader key otherFlight .computing)) :
    caller = other := by
  have first := (coherent.listed key flight).mpr ⟨caller, computes⟩
  have second := (coherent.listed key otherFlight).mpr ⟨other, otherComputes⟩
  have same := List.inj_on_of_nodup_map coherent.distinct first second rfl
  cases same
  exact coherent.led computes otherComputes

theorem listed_of_step (step : Step system event next) (key : CacheKey) (flight : Nat) :
    (key, flight) ∈ next.cache.flights ↔
      ∃ caller, next.stages caller = some (.leader key flight .computing) := by
  cases step with
  | lookup caller asked fresh =>
      refine Iff.trans ?_ (exists_stages_advance_iff_of_ne fresh nofun).symm
      rw [← coherent.listed]
      show (key, flight) ∈ (system.cache.lookup asked).2.flights ↔ _
      rcases system.cache.lookup_cases asked with
        ⟨value, isHit, _, same, _⟩ | ⟨joined, isJoin, _, same, _⟩ | ⟨isLead, _, _, more, _⟩
      · simp [isHit, same, Stage.ofLookup]
      · simp [isJoin, same, Stage.ofLookup]
      · simp [isLead, more, Stage.ofLookup, eq_comm]
  | @finish caller attempt finished number computing =>
      refine Iff.trans ?_ exists_stages_advance_iff.symm
      show (key, flight) ∈ (system.cache.finish finished attempt.outcome).flights ↔ _
      rw [Cache.mem_flights_finish, coherent.listed, or_iff_right nofun]
      constructor
      · intro holds
        rcases holds with ⟨⟨other, leads⟩, different⟩
        refine ⟨other, ?_, leads⟩
        intro same
        subst other
        rw [computing] at leads
        cases leads
        exact different rfl
      · intro holds
        rcases holds with ⟨other, different, leads⟩
        refine ⟨⟨other, leads⟩, ?_⟩
        intro same
        subst key
        exact different (coherent.computing_unique leads computing)
  | publish caller finished =>
      refine (coherent.listed key flight).trans (Iff.symm ?_)
      refine (exists_stages_advance_iff_of_ne finished ?_).trans (or_iff_right ?_)
      · nofun
      · nofun
  | read caller waiting published =>
      refine (coherent.listed key flight).trans (Iff.symm ?_)
      refine (exists_stages_advance_iff_of_ne waiting ?_).trans (or_iff_right ?_)
      · nofun
      · nofun
  | clear => exact coherent.listed key flight

theorem distinct_of_step (step : Step system event next) :
    (next.cache.flights.map Prod.fst).Nodup := by
  cases step with
  | lookup caller asked fresh =>
      show ((system.cache.lookup asked).2.flights.map Prod.fst).Nodup
      rcases system.cache.lookup_cases asked with
        ⟨_, _, _, same, _⟩ | ⟨_, _, _, same, _⟩ | ⟨_, _, idle, more, _⟩
      · rw [same]
        exact coherent.distinct
      · rw [same]
        exact coherent.distinct
      · rw [more, List.map_cons, List.nodup_cons]
        refine ⟨?_, coherent.distinct⟩
        intro member
        rcases List.mem_map.mp member with ⟨⟨_, flight⟩, listed, rfl⟩
        exact idle flight listed
  | @finish caller attempt finished number computing =>
      show ((system.cache.finish finished attempt.outcome).flights.map Prod.fst).Nodup
      rw [Cache.flights_finish]
      exact coherent.distinct.sublist (List.filter_sublist.map Prod.fst)
  | publish caller finished => exact coherent.distinct
  | read caller waiting published => exact coherent.distinct
  | clear => exact coherent.distinct

theorem slot_of_step (step : Step system event next) {progress : Progress}
    (leads : next.stages other = some (.leader key flight progress)) :
    next.slots flight = progress.published? := by
  cases step with
  | lookup caller asked fresh =>
      rcases stages_advance_eq_some leads with ⟨_, isNew⟩ | ⟨_, leads⟩
      · rcases Stage.newest_of_ofLookup_eq_leader isNew with ⟨_, isNewest, isComputing, _⟩
        rw [isNewest, isComputing]
        exact coherent.slot_nextFlight
      · exact coherent.slot leads
  | @finish caller attempt finished number computing =>
      rcases stages_advance_eq_some leads with ⟨_, isNew⟩ | ⟨_, leads⟩
      · cases isNew
        have empty := coherent.slot computing
        exact empty
      · exact coherent.slot leads
  | @publish caller published number outcome finished =>
      rcases stages_advance_eq_some leads with ⟨_, isNew⟩ | ⟨different, ledBefore⟩
      · cases isNew
        exact Function.update_self _ _ _
      · have otherFlight : flight ≠ number := by
          intro same
          subst flight
          exact different (coherent.led ledBefore finished)
        exact (Function.update_of_ne otherFlight _ _).trans (coherent.slot ledBefore)
  | @read caller joined number outcome waiting published =>
      rcases stages_advance_eq_some leads with ⟨_, isNew⟩ | ⟨_, leads⟩
      · cases isNew
      · exact coherent.slot leads
  | clear => exact coherent.slot leads

theorem written_of_step (step : Step system event next)
    (written : next.slots flight = some outcome) :
    ∃ caller key progress, next.stages caller = some (.leader key flight progress) := by
  have before : ∀ {outcome}, system.slots flight = some outcome →
      ∃ caller key progress, next.stages caller = some (.leader key flight progress) := by
    intro outcome written
    rcases coherent.written written with ⟨caller, key, progress, leads⟩
    rcases step.leader_persists leads with ⟨later, leads, _⟩
    exact ⟨caller, key, later, leads⟩
  cases step with
  | lookup caller asked fresh => exact before written
  | finish caller attempt computing => exact before written
  | @publish caller published number outcome finished =>
      by_cases same : flight = number
      · subst flight
        exact ⟨caller, published, .published outcome, stages_advance_self _⟩
      · exact before ((Function.update_of_ne same _ _).symm.trans written)
  | read caller waiting published => exact before written
  | clear => exact before written

theorem joined_of_step (step : Step system event next) {received : Option Outcome}
    (follows : next.stages other = some (.follower key flight received)) :
    ∃ leader progress, next.stages leader = some (.leader key flight progress) ∧
      ∀ outcome, received = some outcome → progress = .published outcome := by
  have before : ∀ {received}, system.stages other = some (.follower key flight received) →
      ∃ leader progress, next.stages leader = some (.leader key flight progress) ∧
        ∀ outcome, received = some outcome → progress = .published outcome := by
    intro received follows
    rcases coherent.joined follows with ⟨leader, progress, leads, published⟩
    rcases step.leader_persists leads with ⟨later, leads, precedes⟩
    exact ⟨leader, later, leads,
      fun outcome isReceived => precedes.published outcome (published outcome isReceived)⟩
  cases step with
  | lookup caller asked fresh =>
      rcases stages_advance_eq_some follows with ⟨_, isNew⟩ | ⟨_, follows⟩
      · rcases Stage.mem_flights_of_ofLookup_eq_follower isNew with ⟨isAsked, isWaiting, listed⟩
        rcases (coherent.listed asked flight).mp listed with ⟨leader, leads⟩
        have different := ne_of_stages_ne leads fresh nofun
        subst isAsked isWaiting
        exact ⟨leader, .computing, (stages_advance_of_ne _ different).trans leads, nofun⟩
      · exact before follows
  | finish caller attempt computing =>
      rcases stages_advance_eq_some follows with ⟨_, isNew⟩ | ⟨_, follows⟩
      · cases isNew
      · exact before follows
  | publish caller finished =>
      rcases stages_advance_eq_some follows with ⟨_, isNew⟩ | ⟨_, follows⟩
      · cases isNew
      · exact before follows
  | @read caller joined number outcome waiting published =>
      rcases stages_advance_eq_some follows with ⟨_, isNew⟩ | ⟨_, follows⟩
      · cases isNew
        rcases coherent.joined waiting with ⟨leader, progress, leads, _⟩
        have isPublished : progress = .published outcome := by
          rw [← Progress.published?_eq_some_iff, ← coherent.slot leads, published]
        have different := ne_of_stages_ne leads waiting nofun
        refine ⟨leader, progress, (stages_advance_of_ne _ different).trans leads, ?_⟩
        intro read isRead
        cases isRead
        exact isPublished
      · exact before follows
  | clear => exact before follows

theorem apart_of_step (step : Step system event next) {value : Report}
    (keeps : next.cache.Keeps key value) : (key, flight) ∉ next.cache.flights := by
  cases step with
  | lookup caller asked fresh =>
      replace keeps : system.cache.Keeps key value := Cache.keeps_lookup.mp keeps
      show (key, flight) ∉ (system.cache.lookup asked).2.flights
      rcases system.cache.lookup_cases asked with
        ⟨_, _, _, same, _⟩ | ⟨_, _, _, same, _⟩ | ⟨_, unkept, _, more, _⟩
      · rw [same]
        exact coherent.apart keeps
      · rw [same]
        exact coherent.apart keeps
      · rw [more]
        intro member
        rcases List.mem_cons.mp member with isNew | member
        · cases isNew
          exact unkept value keeps
        · exact coherent.apart keeps member
  | @finish caller attempt finished number computing =>
      intro member
      rcases Cache.mem_flights_finish.mp member with ⟨member, different⟩
      rcases Cache.keeps_of_keeps_finish keeps with ⟨same, _⟩ | kept
      · exact different same
      · exact coherent.apart kept member
  | publish caller finished => exact coherent.apart keeps
  | read caller waiting published => exact coherent.apart keeps
  | clear => exact absurd keeps Cache.not_keeps_clear

theorem kept_of_step (step : Step system event next) {value : Report}
    (keeps : next.cache.Keeps key value) : next.Computed key (.ok value) := by
  rcases step.added keeps with kept | ⟨caller, flight, _, _, leads⟩
  · exact step.computed_persists (coherent.kept kept)
  · exact ⟨caller, flight, _, leads, rfl⟩

theorem served_of_step (step : Step system event next) {report : Report}
    (isServed : next.stages other = some (.served key report)) :
    next.Computed key (.ok report) := by
  apply step.computed_persists
  rcases step.origin isServed with ⟨earlier, before, precedes⟩ | ⟨asked, _, _, found⟩
  · cases precedes with
    | served => exact coherent.served before
  · rcases Stage.keeps_of_ofLookup_eq_served found.symm with ⟨isAsked, keeps⟩
    rw [isAsked]
    exact coherent.kept keeps

theorem step (step : Step system event next) : next.Coherent where
  listed := coherent.listed_of_step step
  distinct := coherent.distinct_of_step step
  led := coherent.led_of_step step
  numbered := coherent.numbered_of_step step
  slot := coherent.slot_of_step step
  written := coherent.written_of_step step
  joined := coherent.joined_of_step step
  apart := coherent.apart_of_step step
  kept := coherent.kept_of_step step
  served := coherent.served_of_step step

/-- However the steps of the callers are ordered, they keep the invariant. -/
theorem transitions {events : List CallEvent} (transitions : Transitions Step system events next) :
    next.Coherent :=
  transitions.invariant (fun _ _ _ coherent step => coherent.step step) coherent

end Coherent

end Stylebook.CallSystem
