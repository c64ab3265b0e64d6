/-!
Orders that compare any two items, as they are given to a sort or to the search for a best item.
-/

namespace Stylebook

/-- An order that compares any two items. Different items may be equal in it. -/
structure Comparison {α : Type} (le : α → α → Bool) : Prop where
  total (first second : α) : le first second = true ∨ le second first = true
  trans {first second third : α} :
    le first second = true → le second third = true → le first third = true

/-- Items with greater keys come first, and those with equal keys in another order. -/
def byFalling {α : Type} (key : α → Nat) (le : α → α → Bool) (first second : α) : Bool :=
  decide (key second < key first) || (key first == key second && le first second)

variable {α β : Type} {key : α → Nat} {le : α → α → Bool}

theorem byFalling_eq_true_iff {first second : α} :
    byFalling key le first second = true ↔
      key second < key first ∨ key first = key second ∧ le first second = true := by
  simp [byFalling]

namespace Comparison

theorem on (comparison : Comparison le) (transform : β → α) :
    Comparison fun first second => le (transform first) (transform second) where
  total first second := comparison.total (transform first) (transform second)
  trans := comparison.trans

theorem falling (comparison : Comparison le) : Comparison (byFalling key le) where
  total first second := by
    rw [byFalling_eq_true_iff, byFalling_eq_true_iff]
    rcases Nat.lt_trichotomy (key first) (key second) with less | same | greater
    · exact .inr (.inl less)
    · rcases comparison.total first second with before | after
      · exact .inl (.inr ⟨same, before⟩)
      · exact .inr (.inr ⟨same.symm, after⟩)
    · exact .inl (.inl greater)
  trans {first second third} := by
    simp only [byFalling_eq_true_iff]
    intro left right
    rcases left with left | ⟨left, leLeft⟩
    · rcases right with right | ⟨right, -⟩
      · exact .inl (Nat.lt_trans right left)
      · exact .inl (right ▸ left)
    · rcases right with right | ⟨right, leRight⟩
      · exact .inl (left ▸ right)
      · exact .inr ⟨left.trans right, comparison.trans leLeft leRight⟩

theorem pairwise_mergeSort (comparison : Comparison le) (items : List α) :
    (items.mergeSort le).Pairwise fun first second => le first second = true := by
  apply List.pairwise_mergeSort
  · intro first second third
    exact comparison.trans
  · intro first second
    rw [Bool.or_eq_true]
    exact comparison.total first second

/-- Going through items and keeping the better one of two ends with the best. -/
theorem foldl_best (comparison : Comparison le) (first : α) (rest : List α) :
    rest.foldl (fun best item => if le best item then best else item) first ∈ first :: rest ∧
      ∀ item ∈ first :: rest,
        le (rest.foldl (fun best item => if le best item then best else item) first) item =
          true := by
  induction rest generalizing first with
  | nil => simpa using comparison.total first first
  | cons second rest induction =>
      rw [List.foldl_cons]
      by_cases better : le first second = true
      · rw [if_pos better]
        rcases induction first with ⟨member, best⟩
        have bestOfFirst := best first List.mem_cons_self
        simp only [List.forall_mem_cons] at best ⊢
        refine ⟨?_, best.1, comparison.trans bestOfFirst better, best.2⟩
        rcases List.mem_cons.mp member with isFirst | inRest
        · rw [isFirst]
          exact List.mem_cons_self
        · exact List.mem_cons_of_mem _ (List.mem_cons_of_mem _ inRest)
      · rw [if_neg better]
        rcases induction second with ⟨member, best⟩
        have worse := (comparison.total first second).resolve_left better
        simp only [List.forall_mem_cons] at best ⊢
        exact ⟨List.mem_cons_of_mem _ member, comparison.trans best.1 worse, best⟩

end Comparison

end Stylebook
