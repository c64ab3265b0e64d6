import Stylebook.Proofs.Cache.Operations

/-!
What a cache drops. The entry that was used least recently does not depend on the order in which
the entries are listed, as long as no two were used at the same time, and a cache that holds no
more than its capacity drops at most one entry for a new one.
-/

namespace Stylebook.Cache

variable {Value : Type} {cache : Cache Value} {key : CacheKey} {value : Value}
  {entries : List (CacheEntry Value)} {entry oldest : CacheEntry Value}

/-! ## The oldest entry -/

theorem oldest?_eq_none_iff : oldest? entries = none ↔ entries = [] := by
  cases entries with
  | nil => simp [oldest?]
  | cons entry rest =>
      rw [oldest?]
      cases oldest? rest <;> simp

theorem oldest?_spec (found : oldest? entries = some oldest) :
    oldest ∈ entries ∧ ∀ entry ∈ entries, oldest.lastUsed ≤ entry.lastUsed := by
  induction entries generalizing oldest with
  | nil => cases found
  | cons first rest induction =>
      rw [oldest?] at found
      cases later : oldest? rest with
      | none =>
          rw [later, Option.some.injEq] at found
          rw [oldest?_eq_none_iff.mp later, ← found]
          simp
      | some other =>
          rcases induction later with ⟨member, least⟩
          rw [later, Option.some.injEq] at found
          rw [List.forall_mem_cons]
          split at found
          · next earlier =>
              subst first
              exact ⟨List.mem_cons_self, Nat.le_refl _, fun entry isEntry =>
                Nat.le_trans earlier (least entry isEntry)⟩
          · next recent =>
              subst other
              exact ⟨List.mem_cons_of_mem _ member, Nat.le_of_not_le recent, least⟩

/-- An entry that was used before all others is the oldest in every order of the entries. -/
theorem oldest?_eq_some (member : oldest ∈ entries)
    (least : ∀ entry ∈ entries, entry ≠ oldest → oldest.lastUsed < entry.lastUsed) :
    oldest? entries = some oldest := by
  cases found : oldest? entries with
  | none =>
      rw [oldest?_eq_none_iff.mp found] at member
      cases member
  | some other =>
      rcases oldest?_spec found with ⟨isEntry, earliest⟩
      by_cases same : other = oldest
      · rw [same]
      · exact absurd (earliest oldest member) (Nat.not_le_of_lt (least other isEntry same))

/-! ## Storing -/

def withNewest (cache : Cache Value) (key : CacheKey) (value : Value) : List (CacheEntry Value) :=
  ⟨key, value, cache.clock + 1⟩ :: cache.entries

theorem evict_of_size_le (within : cache.size ≤ cache.capacity) (fuel : Nat) :
    cache.evict fuel = cache := by
  cases fuel with
  | zero => rfl
  | succ fuel => rw [evict, if_neg (Nat.not_lt_of_le within)]

theorem evictOne_of_oldest? (found : oldest? cache.entries = some oldest) :
    cache.evictOne =
      { cache with
        entries := cache.entries.filter fun entry => entry.key != oldest.key
        evictions := cache.evictions + 1 } := by
  rw [evictOne, found]

theorem capacity_evict (cache : Cache Value) (fuel : Nat) :
    (cache.evict fuel).capacity = cache.capacity := by
  induction fuel generalizing cache with
  | zero => rfl
  | succ fuel induction =>
      rw [evict]
      split
      · rw [induction, evictOne]
        split <;> rfl
      · rfl

theorem length_filter_oldest_lt (found : oldest? entries = some oldest) :
    (entries.filter fun entry => entry.key != oldest.key).length < entries.length :=
  List.length_filter_lt_length_iff_exists.mpr ⟨oldest, (oldest?_spec found).1, by simp⟩

theorem store_of_fresh (fresh : ∀ entry ∈ cache.entries, entry.key ≠ key) (value : Value) :
    cache.store key value =
      evict
        { cache with clock := cache.clock + 1, entries := cache.withNewest key value }
        (cache.size + 1) := by
  have others : (cache.entries.filter fun entry => entry.key != key) = cache.entries :=
    List.filter_eq_self.mpr fun entry member => bne_iff_ne.mpr (fresh entry member)
  rw [store, others]
  rfl

theorem store_of_room (fresh : ∀ entry ∈ cache.entries, entry.key ≠ key)
    (room : cache.size < cache.capacity) (value : Value) :
    cache.store key value =
      { cache with clock := cache.clock + 1, entries := cache.withNewest key value } := by
  rw [store_of_fresh fresh, evict_of_size_le]
  exact room

/-- A full cache drops the oldest entry, and no other, to store a new one. -/
theorem store_of_full (fresh : ∀ entry ∈ cache.entries, entry.key ≠ key)
    (full : cache.size = cache.capacity)
    (found : oldest? (cache.withNewest key value) = some oldest) :
    cache.store key value =
      { cache with
        clock := cache.clock + 1
        entries := (cache.withNewest key value).filter fun entry => entry.key != oldest.key
        evictions := cache.evictions + 1 } := by
  have dropped := length_filter_oldest_lt found
  rw [store_of_fresh fresh, evict, if_pos, evictOne_of_oldest? found, evict_of_size_le]
  · exact Nat.le_trans (Nat.le_of_lt_succ dropped) (Nat.le_of_eq full)
  · exact full ▸ Nat.lt_succ_self _

/-! ## Capacity -/

theorem capacity_lookup : (cache.lookup key).2.capacity = cache.capacity := by
  rw [lookup]
  split <;> rfl

theorem capacity_finish {outcome : Except ε Value} :
    (cache.finish key outcome).capacity = cache.capacity := by
  cases outcome with
  | error error => rfl
  | ok value =>
      rw [finish]
      split
      · rfl
      · exact capacity_evict _ _

end Stylebook.Cache
