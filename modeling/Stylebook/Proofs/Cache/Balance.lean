import Stylebook.Proofs.Cache.Recency

/-!
The counts of a cache balance. Every request is served, computes or joins; every computation has
ended or is under way; and every value that was stored is still kept, was dropped for a newer one,
or was removed when the cache was cleared.
-/

namespace Stylebook

variable {Value : Type}

/-! ## Counting events -/

namespace CacheEvent

def isLookup : CacheEvent Value → Bool
  | lookup _ => true
  | _ => false

def isFinish : CacheEvent Value → Bool
  | finish _ _ => true
  | _ => false

def isSuccess : CacheEvent Value → Bool
  | finish _ (.ok _) => true
  | _ => false

end CacheEvent

namespace Cache

variable {cache next : Cache Value} {key : CacheKey} {keys : List CacheKey}
  {event : CacheEvent Value}

def after (cache : Cache Value) : CacheEvent Value → Cache Value
  | .lookup key => (cache.lookup key).2
  | .finish key outcome => cache.finish key outcome
  | .clear => cache.clear

def cleared (cache : Cache Value) : CacheEvent Value → Nat
  | .clear => cache.size
  | _ => 0

def clearedBy (cache : Cache Value) : List (CacheEvent Value) → Nat
  | [] => 0
  | event :: rest => cache.cleared event + (cache.after event).clearedBy rest

theorem Step.eq_after (step : Step cache event next) : next = cache.after event := by
  cases step <;> rfl

/-! ## Computations under way -/

abbrev DistinctFlights (cache : Cache Value) : Prop := (cache.flights.map Prod.fst).Nodup

/-- One computation is for the key, if no key has two. -/
theorem length_without_flight (distinct : cache.DistinctFlights) {flight : Nat}
    (underWay : (key, flight) ∈ cache.flights) :
    (cache.flights.filter fun flight => flight.1 != key).length + 1 = cache.flights.length := by
  rcases List.append_of_mem underWay with ⟨newer, older, isFlights⟩
  rw [DistinctFlights, isFlights, List.map_append, List.map_cons, List.nodup_middle,
    List.nodup_cons, List.mem_append, not_or] at distinct
  have others : ∀ {flights : List (CacheKey × Nat)}, key ∉ flights.map Prod.fst →
      (flights.filter fun flight => flight.1 != key) = flights := by
    intro flights notKey
    refine List.filter_eq_self.mpr fun other isOther => bne_iff_ne.mpr fun isKey => ?_
    exact notKey (isKey ▸ List.mem_map_of_mem isOther)
  rw [isFlights, List.filter_append, others distinct.1.1, List.filter_cons_of_neg (by simp),
    others distinct.1.2, List.length_append, List.length_append, List.length_cons, Nat.add_assoc]

theorem Step.distinctFlights (step : Step cache event next) (distinct : cache.DistinctFlights) :
    next.DistinctFlights := by
  cases step with
  | lookup key =>
      rcases cache.lookup_cases key with
        ⟨_, _, _, same, _⟩ | ⟨_, _, _, same, _⟩ | ⟨_, _, idle, added, _⟩
      · rwa [DistinctFlights, same]
      · rwa [DistinctFlights, same]
      · rw [DistinctFlights, added, List.map_cons, List.nodup_cons]
        refine ⟨fun isKey => ?_, distinct⟩
        rcases List.mem_map.mp isKey with ⟨⟨_, flight⟩, listed, rfl⟩
        exact idle flight listed
  | finish key flight underWay outcome =>
      rw [DistinctFlights, flights_finish]
      exact distinct.sublist (List.filter_sublist.map Prod.fst)
  | clear => exact distinct

/-! ## Values -/

/-- A value that is stored for a new key is kept, and for as long as the cache is not full, no
other is dropped for it. -/
theorem Represents.store_counts (represents : Represents keys cache) (missing : key ∉ keys)
    (idle : ∀ flight, (key, flight) ∉ cache.flights) (positive : 0 < cache.capacity)
    (value : Value) :
    (cache.store key value).size + (cache.store key value).evictions =
        cache.size + cache.evictions + 1 ∧
      (cache.store key value).hits = cache.hits ∧
      (cache.store key value).misses = cache.misses ∧
      (cache.store key value).coalesced = cache.coalesced := by
  have fresh := represents.fresh missing
  have size := represents.size_eq
  rcases Nat.lt_or_eq_of_le represents.within with room | full
  · rw [store_of_room fresh (size ▸ room)]
    exact ⟨Nat.add_right_comm _ _ _, rfl, rfl, rfl⟩
  · have nonempty : keys ≠ [] := List.ne_nil_of_length_pos (full ▸ positive)
    have after := (represents.store missing idle positive value).size_eq
    rw [Recency.toFront, List.erase_of_not_mem missing, Recency.cut,
      if_pos (full ▸ Nat.lt_succ_self _), List.length_dropLast, List.length_cons,
      Nat.add_sub_cancel, ← size] at after
    rcases represents.exists_oldest nonempty key value with ⟨newer, oldest, _, reordered, inOrder⟩
    have stored := store_of_full fresh (size.trans full) (oldest?_of_inOrder inOrder reordered)
    refine ⟨?_, ?_, ?_, ?_⟩
    · rw [after, stored]
      rfl
    · rw [stored]
    · rw [stored]
    · rw [stored]

/-! ## Balances -/

/-- The counts of a cache that has had these numbers of requests and finishes, `successes` of the
latter with a value, and from which so many values were cleared away. -/
structure Balances (cache : Cache Value) (requests finishes successes cleared : Nat) : Prop where
  requests : cache.hits + cache.misses + cache.coalesced = requests
  computations : cache.misses = finishes + cache.flights.length
  values : 0 < cache.capacity → successes = cache.size + cache.evictions + cleared
  nothing : cache.capacity = 0 → cache.size = 0 ∧ cache.evictions = 0

theorem balances_empty (capacity : Nat) :
    Balances ({ capacity := capacity } : Cache Value) 0 0 0 0 where
  requests := rfl
  computations := rfl
  values _ := rfl
  nothing _ := ⟨rfl, rfl⟩

namespace Balances

variable {requests finishes successes removed : Nat}
  (balances : Balances cache requests finishes successes removed)

include balances

theorem lookup (key : CacheKey) :
    Balances (cache.lookup key).2 (requests + 1) finishes successes removed := by
  have isRequests := balances.requests
  have isComputations := balances.computations
  cases kept : cache.entry? key with
  | some entry =>
      rw [lookup_of_entry kept]
      exact
        { requests := by simp only; omega
          computations := isComputations
          values := fun positive => by
            simpa only [Cache.size, touched, List.length_map] using balances.values positive
          nothing := fun isZero => by
            simpa only [Cache.size, touched, List.length_map] using balances.nothing isZero }
  | none =>
      cases underWay : cache.flight? key with
      | some flight =>
          rw [lookup_of_flight kept underWay]
          exact
            { requests := by simp only; omega
              computations := isComputations
              values := balances.values
              nothing := balances.nothing }
      | none =>
          rw [lookup_of_neither kept underWay]
          exact
            { requests := by simp only; omega
              computations := by rw [List.length_cons]; simp only; omega
              values := balances.values
              nothing := balances.nothing }

/-- A finish without a value, and one in a cache without capacity. -/
theorem without_flight {flight : Nat} (distinct : cache.DistinctFlights)
    (underWay : (key, flight) ∈ cache.flights) :
    Balances { cache with flights := cache.flights.filter fun flight => flight.1 != key }
      requests (finishes + 1) successes removed where
  requests := balances.requests
  computations := by
    have ended := length_without_flight distinct underWay
    have isComputations := balances.computations
    simp only
    omega
  values := balances.values
  nothing := balances.nothing

theorem finish {flight : Nat} (represents : Represents keys cache)
    (distinct : cache.DistinctFlights) (underWay : (key, flight) ∈ cache.flights)
    (outcome : Except AnalysisError Value) :
    Balances (cache.finish key outcome) requests (finishes + 1)
      (successes + (CacheEvent.finish key outcome).isSuccess.toNat) removed := by
  have ended := balances.without_flight distinct underWay
  cases outcome with
  | error error => exact ended
  | ok value =>
      rw [Cache.finish]
      by_cases isZero : cache.capacity = 0
      · rw [if_pos isZero]
        exact
          { ended with values := fun positive => absurd isZero (Nat.pos_iff_ne_zero.mp positive) }
      · rw [if_neg isZero]
        have positive := Nat.pos_of_ne_zero isZero
        have idle : ∀ flight, (key, flight) ∉ cache.flights.filter fun flight => flight.1 != key :=
          fun flight listed => absurd (List.mem_filter.mp listed).2 (by simp)
        rcases (represents.without_flight key).store_counts (represents.apart underWay) idle
          positive value with ⟨stored, hits, misses, coalesced⟩
        have capacity : ∀ {other : Cache Value}, (other.store key value).capacity =
            other.capacity := capacity_evict _ _
        exact
          { requests := by rw [hits, misses, coalesced]; exact ended.requests
            computations := by rw [misses, flights_store]; exact ended.computations
            values := fun _ => by
              have before := ended.values positive
              rw [stored, before]
              simp only [CacheEvent.isSuccess, Bool.toNat_true]
              omega
            nothing := fun none => absurd (capacity.symm.trans none) isZero }

theorem clear : Balances cache.clear requests finishes successes (removed + cache.size) where
  requests := balances.requests
  computations := balances.computations
  values positive := by
    have before := balances.values positive
    have empty : cache.clear.size = 0 := rfl
    have evictions : cache.clear.evictions = cache.evictions := rfl
    omega
  nothing isZero := ⟨rfl, (balances.nothing isZero).2⟩

/-- One step adds to each number what its event counts for. -/
theorem step (represents : Represents keys cache) (distinct : cache.DistinctFlights)
    (step : Step cache event next) :
    Balances next (requests + event.isLookup.toNat) (finishes + event.isFinish.toNat)
      (successes + event.isSuccess.toNat) (removed + cache.cleared event) := by
  cases step with
  | lookup key => exact balances.lookup key
  | finish key flight underWay outcome =>
      exact balances.finish represents distinct underWay outcome
  | clear => exact balances.clear

end Balances

theorem Balances.transitions {events : List (CacheEvent Value)}
    {requests finishes successes removed : Nat} (transitions : Transitions Step cache events next)
    (balances : Balances cache requests finishes successes removed)
    (represents : Represents keys cache) (distinct : cache.DistinctFlights) :
    Balances next (requests + events.countP CacheEvent.isLookup)
      (finishes + events.countP CacheEvent.isFinish)
      (successes + events.countP CacheEvent.isSuccess) (removed + cache.clearedBy events) := by
  induction transitions generalizing keys requests finishes successes removed with
  | nil => exact balances
  | @cons cache middle next event events step rest induction =>
      have later := induction (balances.step represents distinct step) (represents.step step)
        (step.distinctFlights distinct)
      have counted (test : CacheEvent Value → Bool) (count : Nat) :
          count + (event :: events).countP test =
            count + (test event).toNat + events.countP test := by
        have one : (if test event then 1 else 0) = (test event).toNat := by
          cases test event <;> rfl
        rw [List.countP_cons, one, Nat.add_assoc, Nat.add_comm (events.countP test)]
      rw [counted, counted, counted, clearedBy, ← step.eq_after, ← Nat.add_assoc]
      exact later

/-- In whatever order values are looked up, computations end and the cache is cleared: the hits,
misses and joins are the lookups; the misses are the finishes and the computations under way; and
of the values that were computed, each is still kept, was evicted or was cleared away, unless
there is no capacity to keep any. -/
theorem balances_of_transitions {capacity : Nat} {events : List (CacheEvent Value)}
    {cache : Cache Value}
    (transitions : Transitions Step ({ capacity := capacity } : Cache Value) events cache) :
    cache.hits + cache.misses + cache.coalesced = events.countP CacheEvent.isLookup ∧
      cache.misses = events.countP CacheEvent.isFinish + cache.flights.length ∧
      (0 < capacity → events.countP CacheEvent.isSuccess = cache.size + cache.evictions +
        ({ capacity := capacity } : Cache Value).clearedBy events) ∧
      (capacity = 0 → cache.size = 0 ∧ cache.evictions = 0) := by
  have represents : Represents [] ({ capacity := capacity } : Cache Value) :=
    represents_empty capacity
  have same := (represents.transitions transitions).1
  have balances := (balances_empty capacity).transitions transitions represents .nil
  simp only [Nat.zero_add] at balances
  exact ⟨balances.requests, balances.computations,
    fun positive => balances.values (same ▸ positive),
    fun isZero => balances.nothing (same.trans isZero)⟩

/-- Of two values that are computed at a time one is evicted and the other cleared away; then a
third computation, which leads to none, ends before a fourth one. -/
theorem balances_of_fourComputations :
    let key (number : UInt8) : CacheKey := ⟨⟨[number]⟩, ⟨[]⟩⟩
    let events : List (CacheEvent Nat) :=
      [.lookup (key 1), .lookup (key 1), .lookup (key 2), .finish (key 1) (.ok 1),
        .finish (key 2) (.ok 2), .lookup (key 2), .clear, .lookup (key 3), .lookup (key 4),
        .finish (key 3) (.error (.panicked ""))]
    ∃ cache, Transitions Step ({ capacity := 1 } : Cache Nat) events cache ∧
      cache.stats = ⟨1, 4, 1, 1, 0⟩ ∧
      cache.hits + cache.misses + cache.coalesced = 6 ∧
      cache.misses = 3 + cache.flights.length ∧
      2 = cache.size + cache.evictions + 1 := by
  intro key events
  let asked : Cache Nat :=
    { capacity := 1, flights := [(key 2, 1), (key 1, 0)], clock := 3, nextFlight := 2,
      misses := 2, coalesced := 1 }
  have first : Transitions Step ({ capacity := 1 } : Cache Nat) _ asked :=
    .cons (.lookup (key 1)) <|
    .cons (.lookup (key 1)) <|
    .cons (.lookup (key 2)) <|
    .nil _
  let stored : Cache Nat :=
    (asked.finish (key 1) (.ok 1 : Except AnalysisError Nat)).finish (key 2)
      (.ok 2 : Except AnalysisError Nat)
  have stillAsked : (key 2, 1) ∈
      (asked.finish (key 1) (.ok 1 : Except AnalysisError Nat)).flights := by decide
  have second : Transitions Step asked _ stored :=
    .cons (.finish (key 1) 0 (by decide) (.ok 1)) <|
    .single (.finish (key 2) 1 stillAsked (.ok 2))
  let emptied : Cache Nat := (stored.lookup (key 2)).2.clear
  have askedAgain : (key 3, 2) ∈ ((emptied.lookup (key 3)).2.lookup (key 4)).2.flights := by decide
  have third : Transitions Step stored _ _ :=
    .cons (.lookup (key 2)) <|
    .cons .clear <|
    .cons (.lookup (key 3)) <|
    .cons (.lookup (key 4)) <|
    .single (.finish (key 3) 2 askedAgain (.error (.panicked "")))
  have transitions : Transitions Step ({ capacity := 1 } : Cache Nat) events _ :=
    (first.append second).append third
  have cleared : ({ capacity := 1 } : Cache Nat).clearedBy events = 1 := by decide +kernel
  rcases balances_of_transitions transitions with ⟨requests, computations, values, _⟩
  have values := values Nat.one_pos
  rw [cleared] at values
  exact ⟨_, transitions, by decide +kernel, requests, computations, values⟩

end Cache

/-! ## Callers -/

namespace CallEvent

def isLookup : CallEvent → Bool
  | lookup _ _ => true
  | _ => false

def isFinish : CallEvent → Bool
  | finish _ _ => true
  | _ => false

def isSuccess : CallEvent → Bool
  | finish _ attempt => attempt.outcome.isOk
  | _ => false

end CallEvent

namespace CallSystem

variable {system next : CallSystem}

structure Amounts (calls : List CallEvent) (events : List (CacheEvent Report)) : Prop where
  lookups : events.countP CacheEvent.isLookup = calls.countP CallEvent.isLookup
  finishes : events.countP CacheEvent.isFinish = calls.countP CallEvent.isFinish
  successes : events.countP CacheEvent.isSuccess = calls.countP CallEvent.isSuccess

theorem Coherent.amounts_of_step (coherent : system.Coherent) {event : CallEvent}
    (step : Step system event next) :
    ∃ events, Transitions Cache.Step system.cache events next.cache ∧ Amounts [event] events := by
  cases step with
  | lookup caller key fresh => exact ⟨_, .single (.lookup key), rfl, rfl, rfl⟩
  | @finish caller attempt key flight computing =>
      have underWay := (coherent.listed key flight).mpr ⟨caller, computing⟩
      refine ⟨_, .single (.finish key flight underWay attempt.outcome), rfl, rfl, ?_⟩
      rw [List.countP_singleton, List.countP_singleton, CallEvent.isSuccess]
      cases attempt.outcome <;> rfl
  | publish caller finished => exact ⟨[], .nil _, rfl, rfl, rfl⟩
  | read caller waiting published => exact ⟨[], .nil _, rfl, rfl, rfl⟩
  | clear => exact ⟨_, .single .clear, rfl, rfl, rfl⟩

theorem Coherent.exists_amounts {calls : List CallEvent}
    (transitions : Transitions Step system calls next) (coherent : system.Coherent) :
    ∃ events, Transitions Cache.Step system.cache events next.cache ∧ Amounts calls events := by
  induction transitions with
  | nil => exact ⟨[], .nil _, rfl, rfl, rfl⟩
  | @cons system middle next event calls step _ induction =>
      rcases coherent.amounts_of_step step with ⟨events, first, amounts⟩
      rcases induction (coherent.step step) with ⟨later, rest, laterAmounts⟩
      have both : event :: calls = [event] ++ calls := rfl
      refine ⟨events ++ later, first.append rest, ?_, ?_, ?_⟩
      · rw [both, List.countP_append, List.countP_append, amounts.lookups, laterAmounts.lookups]
      · rw [both, List.countP_append, List.countP_append, amounts.finishes, laterAmounts.finishes]
      · rw [both, List.countP_append, List.countP_append, amounts.successes,
          laterAmounts.successes]

/-- However many callers share a cache, its counts are those of their calls. -/
theorem balances_of_calls {capacity : Nat} {calls : List CallEvent}
    (transitions : Transitions Step (start capacity) calls system) :
    ∃ cleared, Cache.Balances system.cache (calls.countP CallEvent.isLookup)
      (calls.countP CallEvent.isFinish) (calls.countP CallEvent.isSuccess) cleared := by
  rcases (coherent_start capacity).exists_amounts transitions with ⟨events, steps, amounts⟩
  have balances := (Cache.balances_empty capacity).transitions steps
    (Cache.represents_empty capacity) .nil
  rw [amounts.lookups, amounts.finishes, amounts.successes] at balances
  simp only [Nat.zero_add] at balances
  exact ⟨_, balances⟩

end CallSystem

end Stylebook
