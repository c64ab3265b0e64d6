import Stylebook.Cache.Request

/-!
What the operations of a cache do to the values it keeps and to the computations under way,
apart from times of use and counts.
-/

namespace Stylebook.Cache

variable {Value : Type} {cache : Cache Value} {key other : CacheKey} {value : Value}

def Keeps (cache : Cache Value) (key : CacheKey) (value : Value) : Prop :=
  ∃ entry ∈ cache.entries, entry.key = key ∧ entry.value = value

theorem keeps_of_entry? {entry : CacheEntry Value} (found : cache.entry? key = some entry) :
    cache.Keeps key entry.value :=
  ⟨entry, List.mem_of_find?_eq_some found, by simpa using List.find?_some found, rfl⟩

theorem entry?_eq_none_iff : cache.entry? key = none ↔ ∀ value, ¬cache.Keeps key value := by
  unfold entry?
  rw [List.find?_eq_none]
  constructor
  · intro unmatched value keeps
    rcases keeps with ⟨entry, member, isKey, _⟩
    exact unmatched entry member (by simpa using isKey)
  · intro unkept entry member isKey
    exact unkept entry.value ⟨entry, member, by simpa using isKey, rfl⟩

theorem mem_flights_of_flight? {flight : Nat} (found : cache.flight? key = some flight) :
    (key, flight) ∈ cache.flights := by
  rcases Option.map_eq_some_iff.mp found with ⟨⟨other, number⟩, located, rfl⟩
  have isKey : other = key := by simpa using List.find?_some located
  rw [← isKey]
  exact List.mem_of_find?_eq_some located

theorem flight?_eq_none_iff :
    cache.flight? key = none ↔ ∀ flight, (key, flight) ∉ cache.flights := by
  rw [flight?, Option.map_eq_none_iff, List.find?_eq_none]
  constructor
  · intro unmatched flight member
    exact unmatched (key, flight) member (by simp)
  · intro idle found member isKey
    rcases found with ⟨other, flight⟩
    have isKey : other = key := by simpa using isKey
    subst other
    exact idle flight member

/-! ## Lookups -/

theorem mem_touched {time : Nat} {entries : List (CacheEntry Value)} :
    (∃ entry ∈ touched key time entries, entry.key = other ∧ entry.value = value) ↔
      ∃ entry ∈ entries, entry.key = other ∧ entry.value = value := by
  constructor
  · intro holds
    rcases holds with ⟨_, member, isOther, isValue⟩
    rcases List.mem_map.mp member with ⟨entry, isEntry, rfl⟩
    refine ⟨entry, isEntry, ?_, ?_⟩
    · rw [← isOther]
      split <;> rfl
    · rw [← isValue]
      split <;> rfl
  · intro holds
    rcases holds with ⟨entry, member, isOther, isValue⟩
    refine ⟨_, List.mem_map_of_mem member, ?_, ?_⟩
    · rw [← isOther]
      split <;> rfl
    · rw [← isValue]
      split <;> rfl

theorem lookup_of_entry {entry : CacheEntry Value} (found : cache.entry? key = some entry) :
    cache.lookup key =
      (.hit entry.value,
        { cache with
          clock := cache.clock + 1
          entries := touched key (cache.clock + 1) cache.entries
          hits := cache.hits + 1 }) := by
  rw [lookup]
  simp only [show entry? { cache with clock := cache.clock + 1 } key =
    some entry from found]

theorem lookup_of_flight {flight : Nat} (missing : cache.entry? key = none)
    (found : cache.flight? key = some flight) :
    cache.lookup key =
      (.join flight,
        { cache with clock := cache.clock + 1, coalesced := cache.coalesced + 1 }) := by
  rw [lookup]
  simp only [show entry? { cache with clock := cache.clock + 1 } key =
      none from missing,
    show flight? { cache with clock := cache.clock + 1 } key =
      some flight from found]

theorem lookup_of_neither (missing : cache.entry? key = none) (idle : cache.flight? key = none) :
    cache.lookup key =
      (.lead cache.nextFlight,
        { cache with
          clock := cache.clock + 1
          misses := cache.misses + 1
          flights := (key, cache.nextFlight) :: cache.flights
          nextFlight := cache.nextFlight + 1 }) := by
  rw [lookup]
  simp only [show entry? { cache with clock := cache.clock + 1 } key =
      none from missing,
    show flight? { cache with clock := cache.clock + 1 } key =
      none from idle]

/-- A lookup finds a value that is kept, or joins a computation under way, or is the first to
lead one. -/
theorem lookup_cases (cache : Cache Value) (key : CacheKey) :
    (∃ value, (cache.lookup key).1 = .hit value ∧ cache.Keeps key value ∧
      (cache.lookup key).2.flights = cache.flights ∧
      (cache.lookup key).2.nextFlight = cache.nextFlight) ∨
    (∃ flight, (cache.lookup key).1 = .join flight ∧ (key, flight) ∈ cache.flights ∧
      (cache.lookup key).2.flights = cache.flights ∧
      (cache.lookup key).2.nextFlight = cache.nextFlight) ∨
    ((cache.lookup key).1 = .lead cache.nextFlight ∧
      (∀ value, ¬cache.Keeps key value) ∧ (∀ flight, (key, flight) ∉ cache.flights) ∧
      (cache.lookup key).2.flights = (key, cache.nextFlight) :: cache.flights ∧
      (cache.lookup key).2.nextFlight = cache.nextFlight + 1) := by
  cases kept : cache.entry? key with
  | some entry =>
      left
      rw [lookup_of_entry kept]
      exact ⟨entry.value, rfl, keeps_of_entry? kept, rfl, rfl⟩
  | none =>
      right
      cases underWay : cache.flight? key with
      | some flight =>
          left
          rw [lookup_of_flight kept underWay]
          exact ⟨flight, rfl, mem_flights_of_flight? underWay, rfl, rfl⟩
      | none =>
          right
          rw [lookup_of_neither kept underWay]
          exact ⟨rfl, entry?_eq_none_iff.mp kept, flight?_eq_none_iff.mp underWay, rfl, rfl⟩

theorem keeps_lookup : (cache.lookup key).2.Keeps other value ↔ cache.Keeps other value := by
  cases kept : cache.entry? key with
  | some entry =>
      rw [lookup_of_entry kept]
      exact mem_touched
  | none =>
      cases underWay : cache.flight? key with
      | some flight =>
          rw [lookup_of_flight kept underWay]
          exact Iff.rfl
      | none =>
          rw [lookup_of_neither kept underWay]
          exact Iff.rfl

/-- Who asks for a key right after its leader joins the leader. -/
theorem lookup_after_lead (missing : cache.entry? key = none) (idle : cache.flight? key = none) :
    ((cache.lookup key).2.lookup key).1 = .join cache.nextFlight := by
  have led := lookup_of_neither missing idle
  have unkept : entry? (cache.lookup key).2 key = none := by
    rw [led]
    exact missing
  have underWay : flight? (cache.lookup key).2 key = some cache.nextFlight := by
    rw [led]
    simp [flight?]
  rw [lookup_of_flight unkept underWay]

/-! ## Finishes -/

theorem evictOne_spec (cache : Cache Value) :
    cache.evictOne.entries ⊆ cache.entries ∧ cache.evictOne.flights = cache.flights ∧
      cache.evictOne.nextFlight = cache.nextFlight := by
  rw [evictOne]
  cases oldest? cache.entries with
  | none => exact ⟨List.Subset.refl _, rfl, rfl⟩
  | some oldest => exact ⟨List.filter_sublist.subset, rfl, rfl⟩

theorem evict_spec (cache : Cache Value) (fuel : Nat) :
    (cache.evict fuel).entries ⊆ cache.entries ∧ (cache.evict fuel).flights = cache.flights ∧
      (cache.evict fuel).nextFlight = cache.nextFlight := by
  induction fuel generalizing cache with
  | zero => exact ⟨List.Subset.refl _, rfl, rfl⟩
  | succ fuel induction =>
      rw [evict]
      by_cases exceeds : cache.capacity < cache.size
      · rw [if_pos exceeds]
        rcases cache.evictOne_spec with ⟨oneEntries, oneFlights, oneNext⟩
        rcases induction cache.evictOne with ⟨entries, flights, next⟩
        exact ⟨List.Subset.trans entries oneEntries, flights.trans oneFlights, next.trans oneNext⟩
      · rw [if_neg exceeds]
        exact ⟨List.Subset.refl _, rfl, rfl⟩

theorem flights_store : (cache.store key value).flights = cache.flights :=
  (evict_spec _ _).2.1

theorem nextFlight_store : (cache.store key value).nextFlight = cache.nextFlight :=
  (evict_spec _ _).2.2

theorem keeps_of_keeps_store {found : Value} (keeps : (cache.store key value).Keeps other found) :
    (other = key ∧ found = value) ∨ cache.Keeps other found := by
  rcases keeps with ⟨entry, member, rfl, rfl⟩
  rcases List.mem_cons.mp ((evict_spec _ _).1 member) with rfl | member
  · exact .inl ⟨rfl, rfl⟩
  · exact .inr ⟨entry, (List.mem_filter.mp member).1, rfl, rfl⟩

theorem flights_finish {outcome : Except ε Value} :
    (cache.finish key outcome).flights = cache.flights.filter fun flight => flight.1 != key := by
  cases outcome with
  | error error => rfl
  | ok value =>
      rw [finish]
      split
      · rfl
      · exact flights_store

theorem mem_flights_finish {outcome : Except ε Value} {flight : Nat} :
    (other, flight) ∈ (cache.finish key outcome).flights ↔
      (other, flight) ∈ cache.flights ∧ other ≠ key := by
  rw [flights_finish, List.mem_filter, bne_iff_ne]

theorem nextFlight_finish {outcome : Except ε Value} :
    (cache.finish key outcome).nextFlight = cache.nextFlight := by
  cases outcome with
  | error error => rfl
  | ok value =>
      rw [finish]
      split
      · rfl
      · exact nextFlight_store

theorem keeps_of_keeps_finish {outcome : Except ε Value}
    (keeps : (cache.finish key outcome).Keeps other value) :
    (other = key ∧ outcome = .ok value) ∨ cache.Keeps other value := by
  cases outcome with
  | error error => exact .inr keeps
  | ok computed =>
      rw [finish] at keeps
      split at keeps
      · exact .inr keeps
      · rcases keeps_of_keeps_store keeps with ⟨isKey, rfl⟩ | kept
        · exact .inl ⟨isKey, rfl⟩
        · exact .inr kept

/-! ## Clearing -/

theorem not_keeps_of_empty (empty : cache.entries = []) : ¬cache.Keeps key value := by
  intro keeps
  rcases keeps with ⟨entry, member, _⟩
  rw [empty] at member
  cases member

theorem not_keeps_clear : ¬cache.clear.Keeps key value :=
  not_keeps_of_empty rfl

/-! ## Requests -/

theorem outcome?_request (cache : Cache Report) (key : CacheKey) (attempt : Attempt) :
    (cache.request key attempt).1.outcome? =
      match (cache.lookup key).1 with
      | .hit report => some (.ok report)
      | .join _ => none
      | .lead _ => some attempt.outcome := by
  rw [request, requestWith]
  rcases cache.lookup key with ⟨found, after⟩
  cases found <;> rfl

theorem snd_request (cache : Cache Report) (key : CacheKey) (attempt : Attempt) :
    (cache.request key attempt).2 =
      match (cache.lookup key).1 with
      | .lead _ => (cache.lookup key).2.finish key attempt.outcome
      | _ => (cache.lookup key).2 := by
  rw [request, requestWith]
  rcases cache.lookup key with ⟨found, after⟩
  cases found <;> rfl

end Stylebook.Cache
