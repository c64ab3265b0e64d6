import Mathlib.Data.List.Perm.Basic
import Stylebook.Proofs.Cache.Coherence
import Stylebook.Proofs.Cache.Eviction

/-!
A cache is a list of keys in the order of their use. The cache itself knows this order from the
times in its entries only, and these come from a clock that also ticks for requests that find
nothing; the list is what remains of it. Whatever requests, finishes and clearings a cache has
seen, its keys are those of the list, and the key it drops is the last one.
-/

namespace Stylebook

variable {Value : Type}

inductive CacheEvent (Value : Type) where
  | lookup (key : CacheKey)
  | finish (key : CacheKey) (outcome : Except AnalysisError Value)
  | clear

namespace Cache

/-- One step of a cache. Any computation under way may end next, with a value or without. -/
inductive Step (cache : Cache Value) : CacheEvent Value → Cache Value → Prop
  | lookup (key : CacheKey) : Step cache (.lookup key) (cache.lookup key).2
  | finish (key : CacheKey) (flight : Nat) (underWay : (key, flight) ∈ cache.flights)
      (outcome : Except AnalysisError Value) :
      Step cache (.finish key outcome) (cache.finish key outcome)
  | clear : Step cache .clear cache.clear

end Cache

/-! ## Keys by recency -/

namespace Recency

def toFront (key : CacheKey) (keys : List CacheKey) : List CacheKey := key :: keys.erase key

theorem toFront_perm {key : CacheKey} {keys : List CacheKey} (member : key ∈ keys) :
    (toFront key keys).Perm keys :=
  (List.perm_cons_erase member).symm

theorem toFront_split {key : CacheKey} {newer older : List CacheKey}
    (distinct : (newer ++ key :: older).Nodup) :
    toFront key (newer ++ key :: older) = key :: (newer ++ older) := by
  rw [List.nodup_middle, List.nodup_cons, List.mem_append, not_or] at distinct
  rw [toFront, List.erase_append_right _ distinct.1.1, List.erase_cons_head]

def cut (capacity : Nat) (keys : List CacheKey) : List CacheKey :=
  if capacity < keys.length then keys.dropLast else keys

theorem mem_cut_toFront {capacity : Nat} {key : CacheKey} {keys : List CacheKey}
    (positive : 0 < capacity) : key ∈ cut capacity (toFront key keys) := by
  rw [cut, toFront]
  by_cases exceeds : capacity < (key :: keys.erase key).length
  · have others : keys.erase key ≠ [] :=
      List.ne_nil_of_length_pos (Nat.lt_of_lt_of_le positive (Nat.le_of_lt_succ exceeds))
    rw [if_pos exceeds, List.dropLast_cons_of_ne_nil others]
    exact List.mem_cons_self
  · rw [if_neg exceeds]
    exact List.mem_cons_self

def after (capacity : Nat) (keys : List CacheKey) : CacheEvent Value → List CacheKey
  | .lookup key => if key ∈ keys then toFront key keys else keys
  | .finish _ (.error _) => keys
  | .finish key (.ok _) => if capacity = 0 then keys else cut capacity (toFront key keys)
  | .clear => []

def replay (capacity : Nat) (events : List (CacheEvent Value)) : List CacheKey :=
  events.foldl (after capacity) []

end Recency

namespace Cache

variable {cache next : Cache Value} {key : CacheKey} {keys : List CacheKey}

abbrev InOrder (entries : List (CacheEntry Value)) : Prop :=
  entries.Pairwise fun newer older => older.lastUsed < newer.lastUsed

structure Represents (keys : List CacheKey) (cache : Cache Value) : Prop where
  ordered : ∃ entries, entries.Perm cache.entries ∧ entries.map CacheEntry.key = keys ∧
    InOrder entries
  current : ∀ entry ∈ cache.entries, entry.lastUsed ≤ cache.clock
  distinct : keys.Nodup
  within : keys.length ≤ cache.capacity
  apart : ∀ {key flight}, (key, flight) ∈ cache.flights → key ∉ keys

theorem represents_empty (capacity : Nat) :
    Represents [] ({ capacity := capacity } : Cache Value) where
  ordered := ⟨[], .nil, rfl, .nil⟩
  current := nofun
  distinct := .nil
  within := Nat.zero_le _
  apart := nofun

theorem represents_clear (cache : Cache Value) : Represents [] cache.clear where
  ordered := ⟨[], .nil, rfl, .nil⟩
  current := nofun
  distinct := .nil
  within := Nat.zero_le _
  apart := nofun

theorem touched_eq_self {time : Nat} {entries : List (CacheEntry Value)}
    (absent : ∀ entry ∈ entries, entry.key ≠ key) : touched key time entries = entries := by
  rw [touched, List.map_congr_left (g := id), List.map_id]
  intro entry member
  rw [if_neg (absent entry member), id]

theorem touched_perm {time : Nat} {entries others : List (CacheEntry Value)}
    (reordered : entries.Perm others) : (touched key time entries).Perm (touched key time others) :=
  reordered.map _

/-- A key is touched in one entry only, if no two have the same key. -/
theorem touched_split {time : Nat} {entry : CacheEntry Value}
    {newer older : List (CacheEntry Value)}
    (distinct : ((newer ++ entry :: older).map CacheEntry.key).Nodup) :
    touched entry.key time (newer ++ entry :: older) =
      newer ++ { entry with lastUsed := time } :: older := by
  rw [List.map_append, List.map_cons, List.nodup_middle, List.nodup_cons, List.mem_append,
    not_or] at distinct
  have absent : ∀ {others : List (CacheEntry Value)}, entry.key ∉ others.map CacheEntry.key →
      touched entry.key time others = others := by
    intro others notKey
    exact touched_eq_self fun other isOther isKey => notKey (isKey ▸ List.mem_map_of_mem isOther)
  calc touched entry.key time (newer ++ entry :: older)
      = touched entry.key time newer ++ touched entry.key time (entry :: older) :=
        List.map_append
    _ = newer ++ { entry with lastUsed := time } :: touched entry.key time older := by
        rw [absent distinct.1.1, touched, List.map_cons, if_pos rfl, touched]
    _ = newer ++ { entry with lastUsed := time } :: older := by rw [absent distinct.1.2]

/-- The last of the entries by recency is the oldest one, however they are listed. -/
theorem oldest?_of_inOrder {newer entries : List (CacheEntry Value)} {oldest : CacheEntry Value}
    (inOrder : InOrder (newer ++ [oldest])) (reordered : entries.Perm (newer ++ [oldest])) :
    oldest? entries = some oldest := by
  apply oldest?_eq_some
  · exact reordered.mem_iff.mpr (List.mem_append_right _ List.mem_cons_self)
  · intro entry member different
    have listed := reordered.mem_iff.mp member
    rw [List.mem_append, List.mem_singleton, or_iff_left different] at listed
    exact (List.pairwise_append.mp inOrder).2.2 entry listed oldest List.mem_cons_self

/-- Without the last key, just the last entry is missing. -/
theorem filter_perm_of_distinct {newer entries : List (CacheEntry Value)}
    {oldest : CacheEntry Value} (distinct : ((newer ++ [oldest]).map CacheEntry.key).Nodup)
    (reordered : entries.Perm (newer ++ [oldest])) :
    (entries.filter fun entry => entry.key != oldest.key).Perm newer := by
  rw [List.map_append, List.nodup_append] at distinct
  have kept : (newer.filter fun entry => entry.key != oldest.key) = newer := by
    refine List.filter_eq_self.mpr fun entry member => bne_iff_ne.mpr ?_
    exact distinct.2.2 _ (List.mem_map_of_mem member) _ List.mem_cons_self
  have filtered := reordered.filter fun entry => entry.key != oldest.key
  rwa [List.filter_append, kept, List.filter_singleton, bne_self_eq_false, cond_false,
    List.append_nil] at filtered

namespace Represents

variable (represents : Represents keys cache)

include represents

theorem keys_perm : (cache.entries.map CacheEntry.key).Perm keys := by
  rcases represents.ordered with ⟨entries, reordered, rfl, _⟩
  exact (reordered.map _).symm

theorem size_eq : cache.size = keys.length := by
  rw [← represents.keys_perm.length_eq, List.length_map, size]

theorem mem_iff_keeps : key ∈ keys ↔ ∃ value, cache.Keeps key value := by
  rw [← represents.keys_perm.mem_iff, List.mem_map]
  constructor
  · intro holds
    rcases holds with ⟨entry, member, isKey⟩
    exact ⟨entry.value, entry, member, isKey, rfl⟩
  · intro holds
    rcases holds with ⟨value, entry, member, isKey, _⟩
    exact ⟨entry, member, isKey⟩

theorem entry?_eq_none_iff_not_mem : cache.entry? key = none ↔ key ∉ keys := by
  rw [entry?_eq_none_iff, represents.mem_iff_keeps, not_exists]

theorem fresh (missing : key ∉ keys) : ∀ entry ∈ cache.entries, entry.key ≠ key := by
  intro entry member isKey
  exact missing (represents.keys_perm.mem_iff.mp (isKey ▸ List.mem_map_of_mem member))

/-- A cache goes on as before when only its clock, its counts and its computations change. -/
theorem of_entries_eq {other : Cache Value} (same : other.entries = cache.entries)
    (capacity : other.capacity = cache.capacity) (clock : cache.clock ≤ other.clock)
    (apart : ∀ {key flight}, (key, flight) ∈ other.flights → key ∉ keys) :
    Represents keys other where
  ordered := same ▸ represents.ordered
  current entry member := Nat.le_trans (represents.current entry (same ▸ member)) clock
  distinct := represents.distinct
  within := capacity ▸ represents.within
  apart := apart

/-! ## Lookups -/

theorem touched (member : key ∈ keys) :
    Represents (Recency.toFront key keys)
      { cache with
        clock := cache.clock + 1
        entries := Cache.touched key (cache.clock + 1) cache.entries
        hits := cache.hits + 1 } := by
  have distinct := represents.distinct
  have moved := Recency.toFront_perm member
  rcases represents.ordered with ⟨entries, reordered, rfl, inOrder⟩
  rcases List.mem_map.mp member with ⟨entry, isEntry, rfl⟩
  rcases List.append_of_mem isEntry with ⟨newer, older, rfl⟩
  have first : (Cache.touched entry.key (cache.clock + 1) cache.entries).Perm
      ({ entry with lastUsed := cache.clock + 1 } :: (newer ++ older)) := by
    refine (touched_perm reordered.symm).trans ?_
    rw [touched_split distinct]
    exact List.perm_middle
  have split : (newer ++ entry :: older).map CacheEntry.key =
      newer.map CacheEntry.key ++ entry.key :: older.map CacheEntry.key := List.map_append
  have current : ∀ other ∈ newer ++ older, other.lastUsed ≤ cache.clock := by
    intro other isOther
    refine represents.current other (reordered.mem_iff.mp ?_)
    exact List.perm_middle.mem_iff.mpr (List.mem_cons_of_mem _ isOther)
  exact
    { ordered := by
        refine ⟨_, first.symm, ?_, ?_⟩
        · rw [split, Recency.toFront_split (split ▸ distinct), List.map_cons, List.map_append]
        · refine List.pairwise_cons.mpr ⟨?_, inOrder.sublist ?_⟩
          · intro other isOther
            exact Nat.lt_succ_of_le (current other isOther)
          · exact (List.sublist_cons_self entry older).append_left newer
      current := by
        intro other isOther
        rcases List.mem_cons.mp (first.mem_iff.mp isOther) with rfl | isOther
        · exact Nat.le_refl _
        · exact Nat.le_succ_of_le (current other isOther)
      distinct := represents.distinct.perm moved.symm
      within := moved.length_eq ▸ represents.within
      apart := fun listed isKey => represents.apart listed (moved.mem_iff.mp isKey) }

theorem lookup (key : CacheKey) :
    Represents (if key ∈ keys then Recency.toFront key keys else keys) (cache.lookup key).2 := by
  cases kept : cache.entry? key with
  | some entry =>
      have member : key ∈ keys := represents.mem_iff_keeps.mpr ⟨_, keeps_of_entry? kept⟩
      rw [lookup_of_entry kept, if_pos member]
      exact represents.touched member
  | none =>
      have missing := represents.entry?_eq_none_iff_not_mem.mp kept
      rw [if_neg missing]
      cases underWay : cache.flight? key with
      | some flight =>
          rw [lookup_of_flight kept underWay]
          exact represents.of_entries_eq rfl rfl (Nat.le_succ _) represents.apart
      | none =>
          rw [lookup_of_neither kept underWay]
          refine represents.of_entries_eq rfl rfl (Nat.le_succ _) ?_
          intro other flight listed
          rcases List.mem_cons.mp listed with isNew | listed
          · cases isNew
            exact missing
          · exact represents.apart listed

/-! ## Finishes -/

theorem inOrder_newest {entries : List (CacheEntry Value)} (inOrder : InOrder entries)
    (reordered : entries.Perm cache.entries) (key : CacheKey) (value : Value) :
    InOrder (⟨key, value, cache.clock + 1⟩ :: entries) := by
  refine List.pairwise_cons.mpr ⟨?_, inOrder⟩
  intro entry member
  exact Nat.lt_succ_of_le (represents.current entry (reordered.mem_iff.mp member))

/-- Of the entries with a new one, the oldest has the last key. -/
theorem exists_oldest (nonempty : keys ≠ []) (key : CacheKey) (value : Value) :
    ∃ newer : List (CacheEntry Value), ∃ oldest : CacheEntry Value,
      keys = newer.map CacheEntry.key ++ [oldest.key] ∧
      (cache.withNewest key value).Perm ((⟨key, value, cache.clock + 1⟩ :: newer) ++ [oldest]) ∧
      InOrder ((⟨key, value, cache.clock + 1⟩ :: newer) ++ [oldest]) := by
  rcases represents.ordered with ⟨entries, reordered, rfl, inOrder⟩
  rcases List.eq_nil_or_concat' entries with rfl | ⟨newer, oldest, rfl⟩
  · exact absurd rfl nonempty
  · exact ⟨newer, oldest, List.map_append, reordered.symm.cons _,
      represents.inOrder_newest inOrder reordered key value⟩

theorem store (missing : key ∉ keys) (idle : ∀ flight, (key, flight) ∉ cache.flights)
    (positive : 0 < cache.capacity) (value : Value) :
    Represents (Recency.cut cache.capacity (Recency.toFront key keys)) (cache.store key value) := by
  have fresh := represents.fresh missing
  have size := represents.size_eq
  have distinct : (key :: keys).Nodup := List.nodup_cons.mpr ⟨missing, represents.distinct⟩
  have apart : ∀ {other flight}, (other, flight) ∈ cache.flights → other ∉ key :: keys := by
    intro other flight listed isKey
    rcases List.mem_cons.mp isKey with rfl | isKey
    · exact idle flight listed
    · exact represents.apart listed isKey
  have current : ∀ entry ∈ cache.withNewest key value, entry.lastUsed ≤ cache.clock + 1 := by
    intro entry member
    rcases List.mem_cons.mp member with rfl | member
    · exact Nat.le_refl _
    · exact Nat.le_succ_of_le (represents.current entry member)
  rw [Recency.toFront, List.erase_of_not_mem missing, Recency.cut, List.length_cons]
  rcases Nat.lt_or_eq_of_le represents.within with room | full
  · rw [if_neg (Nat.not_lt_of_le room), store_of_room fresh (size ▸ room)]
    exact
      { ordered := by
          rcases represents.ordered with ⟨entries, reordered, rfl, inOrder⟩
          exact ⟨_, reordered.cons _, rfl, represents.inOrder_newest inOrder reordered key value⟩
        current := current
        distinct := distinct
        within := room
        apart := apart }
  · have nonempty : keys ≠ [] := List.ne_nil_of_length_pos (full ▸ positive)
    rcases represents.exists_oldest nonempty key value with
      ⟨newer, oldest, rfl, reordered, inOrder⟩
    rw [if_pos (full ▸ Nat.lt_succ_self _), ← List.cons_append, List.dropLast_concat,
      store_of_full fresh (size.trans full) (oldest?_of_inOrder inOrder reordered)]
    have shorter : (key :: newer.map CacheEntry.key).Sublist
        (key :: (newer.map CacheEntry.key ++ [oldest.key])) :=
      (List.sublist_append_left _ _).cons_cons _
    have remaining := filter_perm_of_distinct (by
      rw [List.map_append]
      exact distinct) reordered
    exact
      { ordered := ⟨_, remaining.symm, rfl, inOrder.sublist (List.sublist_append_left _ _)⟩
        current := fun entry member => current entry (List.mem_filter.mp member).1
        distinct := distinct.sublist shorter
        within := by
          rw [← full, List.length_append]
          exact Nat.le_refl _
        apart := fun listed isKey => apart listed (shorter.subset isKey) }

/-- A finish ends the computation for its key, so the key is no longer under way. -/
theorem without_flight (key : CacheKey) :
    Represents keys
      { cache with flights := cache.flights.filter fun flight => flight.1 != key } :=
  represents.of_entries_eq rfl rfl (Nat.le_refl _) fun listed =>
    represents.apart (List.mem_of_mem_filter listed)

theorem finish {flight : Nat} (underWay : (key, flight) ∈ cache.flights)
    (outcome : Except AnalysisError Value) :
    Represents (Recency.after cache.capacity keys (.finish key outcome))
      (cache.finish key outcome) := by
  have missing := represents.apart underWay
  have ended := represents.without_flight key
  cases outcome with
  | error error => exact ended
  | ok value =>
      rw [Cache.finish, Recency.after]
      by_cases isZero : cache.capacity = 0
      · rw [if_pos isZero, if_pos isZero]
        exact ended
      · rw [if_neg isZero, if_neg isZero]
        refine ended.store missing ?_ (Nat.pos_of_ne_zero isZero) value
        intro flight listed
        exact absurd (List.mem_filter.mp listed).2 (by simp)

/-! ## Steps -/

theorem step {event : CacheEvent Value} (step : Step cache event next) :
    Represents (Recency.after cache.capacity keys event) next := by
  cases step with
  | lookup key => exact represents.lookup key
  | finish key flight underWay outcome => exact represents.finish underWay outcome
  | clear => exact represents_clear cache

end Represents

theorem Step.capacity_eq {event : CacheEvent Value} (step : Step cache event next) :
    next.capacity = cache.capacity := by
  cases step with
  | lookup key => exact capacity_lookup
  | finish key flight underWay outcome => exact capacity_finish
  | clear => rfl

theorem Represents.transitions {events : List (CacheEvent Value)}
    (transitions : Transitions Step cache events next) (represents : Represents keys cache) :
    next.capacity = cache.capacity ∧
      Represents (events.foldl (Recency.after cache.capacity) keys) next := by
  induction transitions generalizing keys with
  | nil => exact ⟨rfl, represents⟩
  | cons step _ induction =>
      rcases induction (represents.step step) with ⟨capacity, later⟩
      rw [step.capacity_eq] at capacity later
      exact ⟨capacity, later⟩

/-! ## Eviction -/

structure LeastRecent (keys : List CacheKey) (cache : Cache Value) : Prop where
  distinct : keys.Nodup
  stored : (cache.entries.map CacheEntry.key).Perm keys
  bounded : cache.size ≤ cache.capacity
  found : ∀ key, (∃ value, (cache.lookup key).1 = .hit value) ↔ key ∈ keys
  /-- A finish replaces no value. -/
  fresh : ∀ {key flight}, (key, flight) ∈ cache.flights → key ∉ keys
  /-- What a full cache drops for a new value is the entry of the last key, and this entry
  alone, in whatever order the entries are looked through. -/
  dropped : ∀ {key flight} (value : Value), (key, flight) ∈ cache.flights →
    0 < cache.capacity → cache.size = cache.capacity →
    ∃ oldest, keys.getLast? = some oldest.key ∧
      (∀ entries, entries.Perm (cache.withNewest key value) → oldest? entries = some oldest) ∧
      (cache.finish key (.ok value : Except AnalysisError Value)).entries =
        (cache.withNewest key value).filter fun entry => entry.key != oldest.key
  /-- The value that was just computed is not dropped. -/
  kept : ∀ {key flight} (value : Value), (key, flight) ∈ cache.flights →
    0 < cache.capacity → (cache.finish key (.ok value : Except AnalysisError Value)).Keeps key value

namespace Represents

variable (represents : Represents keys cache)

include represents

theorem found (key : CacheKey) : (∃ value, (cache.lookup key).1 = .hit value) ↔ key ∈ keys := by
  cases kept : cache.entry? key with
  | some entry =>
      rw [lookup_of_entry kept]
      exact iff_of_true ⟨_, rfl⟩ (represents.mem_iff_keeps.mpr ⟨_, keeps_of_entry? kept⟩)
  | none =>
      refine iff_of_false ?_ (represents.entry?_eq_none_iff_not_mem.mp kept)
      cases underWay : cache.flight? key with
      | some flight =>
          rw [lookup_of_flight kept underWay]
          exact nofun
      | none =>
          rw [lookup_of_neither kept underWay]
          exact nofun

theorem dropped {flight : Nat} (value : Value) (underWay : (key, flight) ∈ cache.flights)
    (positive : 0 < cache.capacity) (full : cache.size = cache.capacity) :
    ∃ oldest, keys.getLast? = some oldest.key ∧
      (∀ entries, entries.Perm (cache.withNewest key value) → oldest? entries = some oldest) ∧
      (cache.finish key (.ok value : Except AnalysisError Value)).entries =
        (cache.withNewest key value).filter fun entry => entry.key != oldest.key := by
  have fresh := (represents.without_flight key).fresh (represents.apart underWay)
  have nonempty : keys ≠ [] :=
    List.ne_nil_of_length_pos (represents.size_eq ▸ full.symm ▸ positive)
  rcases represents.exists_oldest nonempty key value with
    ⟨newer, oldest, isKeys, reordered, inOrder⟩
  refine ⟨oldest, ?_, ?_, ?_⟩
  · rw [isKeys, List.getLast?_concat]
  · intro entries same
    exact oldest?_of_inOrder inOrder (same.trans reordered)
  · rw [Cache.finish, if_neg (Nat.pos_iff_ne_zero.mp positive)]
    exact congrArg Cache.entries (store_of_full fresh full (oldest?_of_inOrder inOrder reordered))

theorem kept {flight : Nat} (value : Value) (underWay : (key, flight) ∈ cache.flights)
    (positive : 0 < cache.capacity) :
    (cache.finish key (.ok value : Except AnalysisError Value)).Keeps key value := by
  have missing := represents.apart underWay
  have listed : key ∈ Recency.after cache.capacity keys (.finish key (.ok value)) := by
    rw [Recency.after, if_neg (Nat.pos_iff_ne_zero.mp positive)]
    exact Recency.mem_cut_toFront positive
  rcases (represents.finish underWay (.ok value)).mem_iff_keeps.mp listed with ⟨other, keeps⟩
  rcases keeps_of_keeps_finish keeps with ⟨_, isValue⟩ | before
  · cases isValue
    exact keeps
  · exact absurd (represents.mem_iff_keeps.mpr ⟨other, before⟩) missing

theorem leastRecent : LeastRecent keys cache where
  distinct := represents.distinct
  stored := represents.keys_perm
  bounded := represents.size_eq ▸ represents.within
  found := represents.found
  fresh := represents.apart
  dropped := represents.dropped
  kept := represents.kept

end Represents

/-- Whatever the capacity, and in whatever order values are looked up, computations end and the
cache is cleared, its keys are those that the same events leave in a list by recency, and for a
new value it drops the last of them. -/
theorem leastRecent_of_transitions {capacity : Nat} {events : List (CacheEvent Value)}
    {cache : Cache Value}
    (transitions : Transitions Step ({ capacity := capacity } : Cache Value) events cache) :
    cache.capacity = capacity ∧ LeastRecent (Recency.replay capacity events) cache := by
  rcases (represents_empty capacity).transitions transitions with ⟨same, represents⟩
  exact ⟨same, represents.leastRecent⟩

/-- Two computations end in the order opposite to that of their requests. The value that is asked
for again stays when a third one is stored. -/
theorem leastRecent_touched :
    let first : CacheKey := ⟨⟨[1]⟩, ⟨[]⟩⟩
    let second : CacheKey := ⟨⟨[2]⟩, ⟨[]⟩⟩
    let third : CacheKey := ⟨⟨[3]⟩, ⟨[]⟩⟩
    ∃ cache : Cache Nat,
      Transitions Step ({ capacity := 2 } : Cache Nat)
        [.lookup first, .lookup second, .finish second (.ok 2), .finish first (.ok 1),
          .lookup second, .lookup third, .finish third (.ok 3)] cache ∧
      LeastRecent [third, second] cache ∧ cache.size = 2 ∧ cache.evictions = 1 := by
  intro first second third
  let full : Cache Nat :=
    { capacity := 2, entries := [⟨first, 1, 4⟩, ⟨second, 2, 3⟩], clock := 4, nextFlight := 2,
      misses := 2 }
  have filled : Transitions Step ({ capacity := 2 } : Cache Nat) _ full :=
    .cons (.lookup first) <|
    .cons (.lookup second) <|
    .cons (.finish second 1 (by decide) (.ok 2)) <|
    .cons (.finish first 0 (by decide) (.ok 1)) <|
    .nil _
  have underWay : (third, 2) ∈ ((full.lookup second).2.lookup third).2.flights := by decide
  have evicted : Transitions Step full _ _ :=
    .cons (.lookup second) <|
    .cons (.lookup third) <|
    .cons (.finish third 2 underWay (.ok 3)) <|
    .nil _
  have transitions := filled.append evicted
  have recency : Recency.replay 2
      [CacheEvent.lookup first, .lookup second, .finish second (.ok 2), .finish first (.ok 1),
        .lookup second, .lookup third, .finish third (.ok 3)] = [third, second] := by decide
  refine ⟨_, transitions, recency ▸ (leastRecent_of_transitions transitions).2, ?_, ?_⟩
  · decide
  · decide

end Cache

/-! ## Callers -/

namespace CallSystem

variable {system next : CallSystem}

/-- What a caller does is a step of the cache, or leaves the cache as it is. -/
theorem Coherent.cache_transitions (coherent : system.Coherent) {event : CallEvent}
    (step : Step system event next) :
    ∃ events, Transitions Cache.Step system.cache events next.cache := by
  cases step with
  | lookup caller key fresh => exact ⟨_, .single (.lookup key)⟩
  | @finish caller attempt key flight computing =>
      have underWay := (coherent.listed key flight).mpr ⟨caller, computing⟩
      exact ⟨_, .single (.finish key flight underWay attempt.outcome)⟩
  | publish caller finished => exact ⟨[], .nil _⟩
  | read caller waiting published => exact ⟨[], .nil _⟩
  | clear => exact ⟨_, .single .clear⟩

theorem Coherent.exists_cache_transitions {calls : List CallEvent}
    (transitions : Transitions Step system calls next) (coherent : system.Coherent) :
    ∃ events, Transitions Cache.Step system.cache events next.cache := by
  induction transitions with
  | nil => exact ⟨[], .nil _⟩
  | cons step _ induction =>
      rcases coherent.cache_transitions step with ⟨events, first⟩
      rcases induction (coherent.step step) with ⟨later, rest⟩
      exact ⟨events ++ later, first.append rest⟩

/-- However many callers share a cache, it has an order of recency. -/
theorem exists_leastRecent {capacity : Nat} {calls : List CallEvent}
    (transitions : Transitions Step (start capacity) calls system) :
    ∃ keys, Cache.LeastRecent keys system.cache := by
  rcases (coherent_start capacity).exists_cache_transitions transitions with ⟨events, steps⟩
  rcases (Cache.represents_empty capacity).transitions steps with ⟨_, represents⟩
  exact ⟨_, represents.leastRecent⟩

end CallSystem

end Stylebook
