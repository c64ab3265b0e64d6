import Stylebook.Analysis.Options

/-!
A cache of computed values, kept under the fingerprints of what they were computed from.

A request for a key is a lookup. It finds the value, or it leads a computation of the
value, or it joins a computation that is under way and takes over its outcome. A
computation ends with a finish, which keeps its value if it has one. When there are
more values than the capacity allows, those that have not been used for the longest
time are dropped.
-/

namespace Stylebook

structure CacheKey where
  tree : Fingerprint
  options : Fingerprint
  deriving DecidableEq, Repr, Inhabited

namespace CacheKey

def of (tree : StyleTree) (options : Options) : CacheKey :=
  ⟨tree.fingerprint, options.fingerprint⟩

end CacheKey

structure CacheEntry (Value : Type) where
  key : CacheKey
  value : Value
  lastUsed : Nat
  deriving Repr

/-- Counts since the cache was made, apart from `entries`, which is the number of values
kept at present. -/
structure CacheStats where
  hits : Nat := 0
  misses : Nat := 0
  coalesced : Nat := 0
  evictions : Nat := 0
  entries : Nat := 0
  deriving DecidableEq, Repr, Inhabited

/-- A cache. `flights` lists the computations under way, each with a number of its own,
and `clock` counts the uses so far. -/
structure Cache (Value : Type) where
  capacity : Nat
  entries : List (CacheEntry Value) := []
  flights : List (CacheKey × Nat) := []
  clock : Nat := 0
  nextFlight : Nat := 0
  hits : Nat := 0
  misses : Nat := 0
  coalesced : Nat := 0
  evictions : Nat := 0
  deriving Repr

inductive Lookup (Value : Type) where
  | hit (value : Value)
  | join (flight : Nat)
  | lead (flight : Nat)
  deriving Repr

namespace Cache

def defaultCapacity : Nat := 64

def entry? (cache : Cache Value) (key : CacheKey) : Option (CacheEntry Value) :=
  cache.entries.find? fun entry => entry.key == key

def flight? (cache : Cache Value) (key : CacheKey) : Option Nat :=
  (cache.flights.find? fun flight => flight.1 == key).map Prod.snd

def size (cache : Cache Value) : Nat := cache.entries.length

def isEmpty (cache : Cache Value) : Bool := cache.size == 0

def stats (cache : Cache Value) : CacheStats :=
  ⟨cache.hits, cache.misses, cache.coalesced, cache.evictions, cache.size⟩

/-! ## Lookups -/

def touched (key : CacheKey) (time : Nat) (entries : List (CacheEntry Value)) :
    List (CacheEntry Value) :=
  entries.map fun entry => if entry.key = key then { entry with lastUsed := time } else entry

def lookup (cache : Cache Value) (key : CacheKey) : Lookup Value × Cache Value :=
  let time := cache.clock + 1
  let cache := { cache with clock := time }
  match cache.entry? key, cache.flight? key with
  | some entry, _ =>
      (.hit entry.value,
        { cache with entries := touched key time cache.entries, hits := cache.hits + 1 })
  | none, some flight => (.join flight, { cache with coalesced := cache.coalesced + 1 })
  | none, none =>
      (.lead cache.nextFlight,
        { cache with
          misses := cache.misses + 1
          flights := (key, cache.nextFlight) :: cache.flights
          nextFlight := cache.nextFlight + 1 })

/-! ## Finishes -/

def oldest? : List (CacheEntry Value) → Option (CacheEntry Value)
  | [] => none
  | entry :: rest =>
      match oldest? rest with
      | none => some entry
      | some oldest => some (if entry.lastUsed ≤ oldest.lastUsed then entry else oldest)

def evictOne (cache : Cache Value) : Cache Value :=
  match oldest? cache.entries with
  | none => cache
  | some oldest =>
      { cache with
        entries := cache.entries.filter fun entry => entry.key != oldest.key
        evictions := cache.evictions + 1 }

def evict (cache : Cache Value) : Nat → Cache Value
  | 0 => cache
  | fuel + 1 => if cache.capacity < cache.size then cache.evictOne.evict fuel else cache

def store (cache : Cache Value) (key : CacheKey) (value : Value) : Cache Value :=
  let time := cache.clock + 1
  let others := cache.entries.filter fun entry => entry.key != key
  let cache := { cache with clock := time, entries := ⟨key, value, time⟩ :: others }
  cache.evict cache.size

/-- Ends the computation for a key. A failure is not kept, nor is anything in a cache
without capacity. -/
def finish (cache : Cache Value) (key : CacheKey) (outcome : Except ε Value) : Cache Value :=
  let cache := { cache with flights := cache.flights.filter fun flight => flight.1 != key }
  match outcome with
  | .error _ => cache
  | .ok value => if cache.capacity = 0 then cache else cache.store key value

/-- Drops all values. Computations under way go on. -/
def clear (cache : Cache Value) : Cache Value := { cache with entries := [] }

end Cache

end Stylebook
