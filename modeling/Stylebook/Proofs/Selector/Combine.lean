import Stylebook.Proofs.Selector.Scan
import Stylebook.Selector.Qualify

/-!
Balanced identifiers: every bracket and every quote is closed, no bracket is closed that was
not opened, and no parent reference stands within quotes. What a member of such an identifier
makes of a balanced selector is a balanced selector again, at whatever bracket depth the
parent references stand.
-/

namespace Stylebook.Selector

open Text OpenMarks

namespace OpenMarks

/-! ## Characters of balanced texts -/

def ClosesOpened (marks : OpenMarks) (character : Char) : Prop :=
  ¬(marks.quote = none ∧ marks.depth = 0 ∧ (character = ')' ∨ character = ']'))

instance (marks : OpenMarks) (character : Char) : Decidable (ClosesOpened marks character) :=
  inferInstanceAs (Decidable (¬_))

def RefersUnquoted (marks : OpenMarks) (character : Char) : Prop :=
  ¬(character = '&' ∧ marks.quote ≠ none)

instance (marks : OpenMarks) (character : Char) : Decidable (RefersUnquoted marks character) :=
  inferInstanceAs (Decidable (¬_))

/-! ## Deeper scans -/

def deeper (marks : OpenMarks) (levels : Nat) : OpenMarks :=
  { marks with depth := marks.depth + levels }

theorem after_deeper {marks : OpenMarks} {character : Char}
    (closes : ClosesOpened marks character) (levels : Nat) :
    (marks.deeper levels).after character = (marks.after character).deeper levels := by
  rcases marks with ⟨depth, quote⟩
  cases quote with
  | none =>
      by_cases quotes : character = '"' ∨ character = '\''
      · simp [deeper, after, quotes]
      · by_cases opens : character = '(' ∨ character = '['
        · simp [deeper, after, quotes, opens, Nat.add_right_comm]
        · by_cases closing : character = ')' ∨ character = ']'
          · have positive : depth ≠ 0 := by
              intro level
              exact closes ⟨rfl, level, closing⟩
            have levelled : depth + levels - 1 = depth - 1 + levels := by omega
            simp [deeper, after, quotes, opens, closing, levelled]
          · simp [deeper, after, quotes, opens, closing]
  | some quote =>
      by_cases same : character = quote
      · simp [deeper, after, same]
      · simp [deeper, after, same]

theorem afterAll_deeper {marks : OpenMarks} {text : List Char}
    (closes : Throughout ClosesOpened marks text) (levels : Nat) :
    (marks.deeper levels).afterAll text = (marks.afterAll text).deeper levels := by
  induction text generalizing marks with
  | nil => rfl
  | cons head tail induction =>
      rw [afterAll_cons, after_deeper closes.1, induction closes.2, afterAll_cons]

theorem throughout_deeper {Allowed : OpenMarks → Char → Prop} {levels : Nat}
    (allowed : ∀ marks character, Allowed marks character →
      Allowed (deeper marks levels) character)
    {marks : OpenMarks} {text : List Char} (closes : Throughout ClosesOpened marks text)
    (throughout : Throughout Allowed marks text) :
    Throughout Allowed (marks.deeper levels) text := by
  induction text generalizing marks with
  | nil => trivial
  | cons head tail induction =>
      refine ⟨allowed marks head throughout.1, ?_⟩
      rw [after_deeper closes.1]
      exact induction closes.2 throughout.2

theorem ClosesOpened.deeper {marks : OpenMarks} {character : Char}
    (closes : ClosesOpened marks character) (levels : Nat) :
    ClosesOpened (marks.deeper levels) character := by
  intro holds
  rcases holds with ⟨unquoted, level, closing⟩
  have outer : marks.depth = 0 := Nat.eq_zero_of_add_eq_zero_right level
  exact closes ⟨unquoted, outer, closing⟩

theorem KeepsWhole.deeper {marks : OpenMarks} {character : Char}
    (whole : KeepsWhole marks character) (levels : Nat) :
    KeepsWhole (marks.deeper levels) character := by
  apply Bool.eq_false_iff.mpr
  intro cut
  rcases eq_empty_of_cutsAt cut with ⟨nothing, rfl⟩
  have outer : marks.depth + levels = 0 := congrArg OpenMarks.depth nothing
  have unquoted : marks.quote = none := congrArg OpenMarks.quote nothing
  have level : marks.depth = 0 := Nat.eq_zero_of_add_eq_zero_right outer
  simp [KeepsWhole, cutsAt, level, unquoted] at whole

end OpenMarks

/-! ## Balanced identifiers -/

/-- The scan of an identifier meets no closing bracket without an opening one and no parent
reference within quotes, and leaves nothing open. -/
structure Balanced (identifier : List Char) : Prop where
  closes : Throughout ClosesOpened {} identifier
  refers : Throughout RefersUnquoted {} identifier
  closed : afterAll {} identifier = {}

instance (identifier : List Char) : Decidable (Balanced identifier) :=
  decidable_of_iff
    (Throughout ClosesOpened {} identifier ∧ Throughout RefersUnquoted {} identifier ∧
      afterAll {} identifier = {})
    ⟨fun ⟨closes, refers, closed⟩ => ⟨closes, refers, closed⟩,
      fun ⟨closes, refers, closed⟩ => ⟨closes, refers, closed⟩⟩

example : Balanced ['&', ':', 'i', 's', '(', '&', ',', '[', '"', ')', '"', ']', ')'] := by decide

structure IsSelector (text : List Char) : Prop extends IsMember text where
  closes : Throughout ClosesOpened {} text
  closed : afterAll {} text = {}

theorem isSelector_of_balanced {identifier member : List Char} (balanced : Balanced identifier)
    (isMember : member ∈ members identifier) : IsSelector member where
  toIsMember := isMember_of_mem_members isMember
  closes := throughout_of_mem_members balanced.closes isMember
  closed := closed_of_mem_members balanced.closed isMember

theorem members_joined_of_isSelector {parts : List (List Char)}
    (selectors : ∀ part ∈ parts, IsSelector part) : members (joined parts) = parts :=
  members_joined (fun part member => (selectors part member).toIsMember)
    fun part member => (selectors part (List.dropLast_subset parts member)).closed

/-! ## Substitution -/

/-- A selector in brackets that are open leaves them as they are. -/
theorem IsSelector.afterAll_eq {parent : List Char} (selector : IsSelector parent)
    (depth : Nat) : afterAll ⟨depth, none⟩ parent = ⟨depth, none⟩ := by
  have inside := afterAll_deeper selector.closes depth
  rw [selector.closed] at inside
  simpa [deeper] using inside

theorem IsSelector.throughout_eq {Allowed : OpenMarks → Char → Prop}
    (allowed : ∀ marks levels character, Allowed marks character →
      Allowed (deeper marks levels) character)
    {parent : List Char} (selector : IsSelector parent) (throughout : Throughout Allowed {} parent)
    (depth : Nat) : Throughout Allowed ⟨depth, none⟩ parent := by
  have inside := throughout_deeper (fun marks => allowed marks depth) selector.closes throughout
  simpa [deeper] using inside

theorem substitute_cons (parent : List Char) (head : Char) (tail : List Char) :
    substitute parent (head :: tail) =
      (if head = '&' then parent else [head]) ++ substitute parent tail :=
  List.flatMap_cons

private theorem eq_of_refersUnquoted {marks : OpenMarks} (refers : RefersUnquoted marks '&') :
    marks = ⟨marks.depth, none⟩ ∧ marks.after '&' = marks := by
  rcases marks with ⟨depth, quote⟩
  cases quote with
  | none => exact ⟨rfl, rfl⟩
  | some quote => exact absurd ⟨rfl, Option.some_ne_none quote⟩ refers

theorem afterAll_substitute {parent : List Char} (selector : IsSelector parent)
    {marks : OpenMarks} {member : List Char} (refers : Throughout RefersUnquoted marks member) :
    marks.afterAll (substitute parent member) = marks.afterAll member := by
  induction member generalizing marks with
  | nil => rfl
  | cons head tail induction =>
      rw [substitute_cons, afterAll_append]
      by_cases reference : head = '&'
      · subst head
        rcases eq_of_refersUnquoted refers.1 with ⟨unquoted, unchanged⟩
        have back : marks.afterAll parent = marks := by
          rw [unquoted]
          exact selector.afterAll_eq marks.depth
        have later := induction refers.2
        rw [unchanged] at later
        rw [if_pos rfl, back, later, afterAll_cons, unchanged]
      · rw [if_neg reference]
        exact induction refers.2

theorem throughout_substitute {Allowed : OpenMarks → Char → Prop}
    (allowed : ∀ marks levels character, Allowed marks character →
      Allowed (deeper marks levels) character)
    {parent : List Char} (selector : IsSelector parent)
    (parentThroughout : Throughout Allowed {} parent) {marks : OpenMarks} {member : List Char}
    (refers : Throughout RefersUnquoted marks member)
    (throughout : Throughout Allowed marks member) :
    Throughout Allowed marks (substitute parent member) := by
  induction member generalizing marks with
  | nil => trivial
  | cons head tail induction =>
      rw [substitute_cons, throughout_append]
      by_cases reference : head = '&'
      · subst head
        rcases eq_of_refersUnquoted refers.1 with ⟨unquoted, unchanged⟩
        have later := induction refers.2 throughout.2
        rw [if_pos rfl]
        rw [unchanged] at later
        rw [unquoted] at later ⊢
        refine ⟨selector.throughout_eq allowed parentThroughout marks.depth, ?_⟩
        rw [selector.afterAll_eq marks.depth]
        exact later
      · rw [if_neg reference]
        exact ⟨⟨throughout.1, trivial⟩, induction refers.2 throughout.2⟩

theorem substitute_append (parent left right : List Char) :
    substitute parent (left ++ right) = substitute parent left ++ substitute parent right :=
  List.flatMap_append

private theorem substitute_singleton_isTrimmed {parent : List Char} (trimmed : IsTrimmed parent)
    {character : Char} (visible : isBlank character = false) :
    IsTrimmed (substitute parent [character]) := by
  rw [substitute_cons]
  by_cases reference : character = '&'
  · rw [if_pos reference]
    simpa [substitute] using trimmed
  · rw [if_neg reference]
    constructor <;> simpa [substitute] using visible

private theorem substitute_ne_nil {parent : List Char} (nonempty : parent ≠ [])
    {member : List Char} (memberNonempty : member ≠ []) : substitute parent member ≠ [] := by
  cases member with
  | nil => exact absurd rfl memberNonempty
  | cons head tail =>
      rw [substitute_cons]
      split <;> simp [nonempty]

theorem substitute_isTrimmed {parent : List Char} (trimmed : IsTrimmed parent)
    (nonempty : parent ≠ []) {member : List Char} (memberTrimmed : IsTrimmed member) :
    IsTrimmed (substitute parent member) where
  first character isHead := by
    cases member with
    | nil => cases isHead
    | cons head tail =>
        have headNonempty := substitute_ne_nil nonempty (List.cons_ne_nil head [])
        rw [← List.singleton_append, substitute_append,
          List.head?_append_of_ne_nil _ headNonempty] at isHead
        exact (substitute_singleton_isTrimmed trimmed (memberTrimmed.first head rfl)).first
          character isHead
  last character isLast := by
    rcases List.eq_nil_or_concat member with rfl | ⟨init, last, rfl⟩
    · cases isLast
    · have lastNonempty := substitute_ne_nil nonempty (List.cons_ne_nil last [])
      rw [List.concat_eq_append, substitute_append,
        List.getLast?_append_of_ne_nil _ lastNonempty] at isLast
      have visible := memberTrimmed.last last (by simp)
      exact (substitute_singleton_isTrimmed trimmed visible).last character isLast

/-! ## Combination -/

private theorem isSelector_descendant {parent member : List Char} (selector : IsSelector parent)
    (inner : IsSelector member) : IsSelector (parent ++ ' ' :: member) := by
  have shape : parent ++ ' ' :: member = parent ++ [' '] ++ member := by simp
  have throughout : ∀ {Allowed : OpenMarks → Char → Prop}, Allowed {} ' ' →
      Throughout Allowed {} parent → Throughout Allowed {} member →
      Throughout Allowed {} (parent ++ ' ' :: member) := by
    intro Allowed space ofParent ofMember
    rw [throughout_append, selector.closed]
    exact ⟨ofParent, space, ofMember⟩
  exact
    { nonempty := by simp
      trimmed := by
        rw [shape]
        exact selector.trimmed.append inner.trimmed selector.nonempty inner.nonempty [' ']
      whole := throughout (by decide) selector.whole inner.whole
      closes := throughout (by decide) selector.closes inner.closes
      closed := by
        rw [afterAll_append, selector.closed]
        exact inner.closed }

private theorem isSelector_substitute {parent member : List Char} (selector : IsSelector parent)
    (inner : IsSelector member) (refers : Throughout RefersUnquoted {} member) :
    IsSelector (substitute parent member) where
  nonempty := substitute_ne_nil selector.nonempty inner.nonempty
  trimmed := substitute_isTrimmed selector.trimmed selector.nonempty inner.trimmed
  whole := throughout_substitute (fun _ levels _ whole => whole.deeper levels) selector
    selector.whole refers inner.whole
  closes := throughout_substitute (fun _ levels _ closes => closes.deeper levels) selector
    selector.closes refers inner.closes
  closed := by rw [afterAll_substitute selector refers, inner.closed]

theorem isSelector_combine {parent member : List Char} (selector : IsSelector parent)
    (inner : IsSelector member) (refers : Throughout RefersUnquoted {} member) :
    IsSelector (combine parent member) := by
  rw [combine]
  split
  · exact isSelector_substitute selector inner refers
  · exact isSelector_descendant selector inner

theorem isSelector_of_mem_combinations {parents : List (List Char)} {identifier part : List Char}
    (selectors : ∀ parent ∈ parents, IsSelector parent) (balanced : Balanced identifier)
    (isPart : part ∈ combinations parents (members identifier)) : IsSelector part := by
  rcases List.mem_flatMap.mp isPart with ⟨parent, isParent, isCombined⟩
  rcases List.mem_map.mp isCombined with ⟨member, isMember, rfl⟩
  exact isSelector_combine (selectors parent isParent)
    (isSelector_of_balanced balanced isMember)
    (throughout_of_mem_members balanced.refers isMember)

end Stylebook.Selector
