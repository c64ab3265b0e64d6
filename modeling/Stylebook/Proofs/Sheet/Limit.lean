import Stylebook.Proofs.Selector.Lineage
import Stylebook.Proofs.Sheet.Rules

/-!
How many members the selector of a rule has. The limit is put on the members that are counted
before they are joined. The text is cut into as many again at a root and below balanced
identifiers, and at a node with children into no more than the limit, since otherwise these
have no selector. A node without children below an unbalanced identifier may exceed the limit
by as much as it likes.
-/

namespace Stylebook

open Selector

/-! ## What is left of a qualified selector -/

namespace Selector

private theorem subset_joined : ∀ {parts : List (List Char)}, ∀ part ∈ parts, part ⊆ joined parts
  | [], part, isPart => by cases isPart
  | [only], part, isPart => by
      have alone : joined [only] = only := by simp [joined, List.intercalate]
      rw [alone, List.mem_singleton.mp isPart]
      exact List.Subset.refl only
  | first :: next :: rest, part, isPart => by
      have separated : joined (first :: next :: rest) =
          first ++ [',', ' '] ++ joined (next :: rest) := List.intercalate_cons_cons
      rw [separated]
      rcases List.mem_cons.mp isPart with rfl | isPart
      · rw [List.append_assoc]
        exact List.subset_append_left _ _
      · exact List.subset_append_of_subset_right _ (subset_joined part isPart)

private theorem subset_combine (parent : List Char) (member : List Char) :
    parent ⊆ combine parent member := by
  rw [combine]
  by_cases fused : isFused member = true
  · -- A fused member has a reference, and the parent takes its place.
    have reference : '&' ∈ member := by
      rw [isFused, beq_iff_eq] at fused
      exact (List.dropWhile_sublist _).subset (List.mem_of_head? fused)
    rw [if_pos fused]
    intro character isCharacter
    exact List.mem_flatMap.mpr ⟨'&', reference, by simpa using isCharacter⟩
  · rw [if_neg fused]
    exact List.subset_append_left _ _

private theorem members_joined_combinations_ne_nil {parents inner : List (List Char)}
    (isMember : ∀ parent ∈ parents, IsMember parent) (someParent : parents ≠ [])
    (someInner : inner ≠ []) : members (joined (combinations parents inner)) ≠ [] := by
  rcases List.exists_mem_of_ne_nil parents someParent with ⟨parent, isParent⟩
  rcases List.exists_mem_of_ne_nil inner someInner with ⟨member, isInner⟩
  have isPart : combine parent member ∈ combinations parents inner :=
    List.mem_flatMap.mpr ⟨parent, isParent, List.mem_map_of_mem isInner⟩
  have left : members parent ≠ [] := by simp [members_of_isMember (isMember parent isParent)]
  intro nothing
  rw [members_eq_nil_iff] at nothing
  apply left
  rw [members_eq_nil_iff]
  intro character isCharacter
  exact nothing character (subset_joined _ isPart (subset_combine parent member isCharacter))

/-- A qualified selector has a member. -/
theorem members_ne_nil_of_qualifyLineage {lineage : List String} {selector : String}
    (isOk : qualifyLineage lineage = .ok selector) : members selector.toList ≠ [] := by
  induction lineage using List.reverseRecOn generalizing selector with
  | nil =>
      rw [qualifyLineage_nil] at isOk
      cases isOk
  | append_singleton outer identifier induction =>
      by_cases root : outer = []
      · subst outer
        rw [List.nil_append, qualifyLineage_singleton_eq_ok_iff] at isOk
        rcases isOk with ⟨inhabited, _, _, text⟩
        rw [text, members_joined_members]
        exact inhabited
      · rw [qualifyLineage_concat_eq_ok_iff root] at isOk
        rcases isOk with ⟨parent, parentOk, inhabited, _, text⟩
        rw [text]
        exact members_joined_combinations_ne_nil (fun _ => isMember_of_mem_members)
          (induction parentOk) inhabited

/-! ## Selectors within the limit -/

theorem length_members_of_root {root selector : String}
    (isOk : qualifyLineage [root] = .ok selector) :
    (members selector.toList).length ≤ maximumSelectors := by
  rw [qualifyLineage_singleton_eq_ok_iff] at isOk
  rcases isOk with ⟨_, _, small, text⟩
  rw [text, members_joined_members]
  exact small

theorem length_members_of_balanced {lineage : List String} (nonempty : lineage ≠ [])
    (balanced : ∀ identifier ∈ lineage, Balanced identifier.toList) {selector : String}
    (isOk : qualifyLineage lineage = .ok selector) :
    (members selector.toList).length ≤ maximumSelectors := by
  rcases (qualifyLineage_eq_ok_iff nonempty balanced selector).mp isOk with ⟨qualifies, text⟩
  rw [text, members_joined_of_isSelector (isSelector_of_mem_lineageSelectors balanced),
    length_lineageSelectors nonempty qualifies.inhabited, ← prod_memberCount_le_iff]
  exact qualifies.small

/-- The members above an identifier are no more than its selector counts. -/
theorem length_members_of_above {outer : List String} (nonempty : outer ≠ [])
    {identifier parent selector : String}
    (isOk : qualifyLineage (outer ++ [identifier]) = .ok selector)
    (above : qualifyLineage outer = .ok parent) :
    (members parent.toList).length ≤ maximumSelectors := by
  rcases (qualifyLineage_concat_eq_ok_iff nonempty identifier selector).mp isOk with
    ⟨other, otherOk, inhabited, small, _⟩
  rw [above, Except.ok.injEq] at otherOk
  subst other
  have positive := List.length_pos_of_ne_nil inhabited
  exact Nat.le_trans (Nat.le_mul_of_pos_right _ positive) small

end Selector

/-! ## A selector without bound -/

namespace Selector

open OpenMarks

def copies (count : Nat) : List Char := (List.replicate count ['b', ',']).flatten

theorem members_copies (count : Nat) (rest : List Char) :
    members (copies count ++ rest) = List.replicate count ['b'] ++ members rest := by
  have isMember : IsMember ['b'] := ⟨by decide, by decide, by decide⟩
  induction count with
  | zero => rfl
  | succ count induction =>
      have shape : copies (count + 1) ++ rest = ['b'] ++ ',' :: (copies count ++ rest) := by
        simp [copies, List.replicate_succ]
      rw [shape, members_append_comma isMember rfl, induction, List.replicate_succ]
      rfl

private theorem doubleQuote_not_mem_copies (count : Nat) : '"' ∉ copies count := by
  simp [copies]

/-- An attribute whose value is a closing bracket, a comma and these members. -/
def crowded (count : Nat) : List Char :=
  ['[', 'y', '=', '"', ']', ','] ++ copies count ++ ['"', ']']

private theorem crowded_scan (count : Nat) :
    Throughout KeepsWhole {} (crowded count) ∧ afterAll {} (crowded count) = {} := by
  have inside := doubleQuote_not_mem_copies count
  have opened : afterAll {} ['[', 'y', '=', '"', ']', ','] = ⟨1, some '"'⟩ := by decide
  have quoted : afterAll {} (['[', 'y', '=', '"', ']', ','] ++ copies count) = ⟨1, some '"'⟩ := by
    rw [afterAll_append {} _ (copies count), opened, afterAll_of_quoted inside]
  constructor
  · rw [crowded, throughout_append, quoted, throughout_append, opened]
    exact ⟨⟨by decide, keepsWhole_of_quoted inside⟩, by decide⟩
  · rw [crowded, afterAll_append, quoted]
    decide

private theorem isMember_crowded_append (count : Nat) {rest : List Char}
    (whole : Throughout KeepsWhole {} rest) (trimmed : Text.IsTrimmed (['"', ']'] ++ rest)) :
    IsMember (crowded count ++ rest) where
  nonempty := List.cons_ne_nil _ _
  trimmed := by
    have first : Text.IsTrimmed ['[', 'y', '=', '"', ']', ','] := by decide
    rw [crowded, List.append_assoc]
    exact first.append trimmed (by decide) (List.cons_ne_nil _ _) (copies count)
  whole := by
    rw [throughout_append, (crowded_scan count).2]
    exact ⟨(crowded_scan count).1, whole⟩

/-- Within quotes once more, the first quotation mark of the value ends the quote. -/
theorem members_crowded_twice (count : Nat) :
    members (crowded count ++ ['[', 'x', '=', '"'] ++ crowded count ++ ['"', ']']) =
      (crowded count ++ ['[', 'x', '=', '"', '[', 'y', '=', '"', ']']) ::
        (List.replicate count ['b'] ++ [['"', ']', '"', ']']]) := by
  have shape : crowded count ++ ['[', 'x', '=', '"'] ++ crowded count ++ ['"', ']'] =
      (crowded count ++ ['[', 'x', '=', '"', '[', 'y', '=', '"', ']']) ++
        ',' :: (copies count ++ ['"', ']', '"', ']']) := by
    simp [crowded]
  have isMember : IsMember (crowded count ++ ['[', 'x', '=', '"', '[', 'y', '=', '"', ']']) :=
    isMember_crowded_append count (by decide) (by decide)
  have closed :
      afterAll {} (crowded count ++ ['[', 'x', '=', '"', '[', 'y', '=', '"', ']']) = {} := by
    rw [afterAll_append, (crowded_scan count).2]
    decide
  rw [shape, members_append_comma isMember closed, members_copies]
  have alone : members ['"', ']', '"', ']'] = [['"', ']', '"', ']']] := by decide
  rw [alone]

private theorem isMember_crowded (count : Nat) : IsMember (crowded count) := by
  have isMember : IsMember (crowded count ++ []) :=
    isMember_crowded_append count trivial (by decide)
  rwa [List.append_nil] at isMember

private theorem qualifyLineage_crowded (count : Nat) :
    qualifyLineage [String.ofList (crowded count)] = .ok (String.ofList (crowded count)) := by
  rw [qualifyLineage_singleton_eq_ok_iff, String.toList_ofList,
    members_of_isMember (isMember_crowded count)]
  have one : 1 ≤ maximumSelectors := by decide
  refine ⟨List.cons_ne_nil _ _, ?_, one, by simp [joined, List.intercalate]⟩
  intro member isMember
  rw [List.mem_singleton.mp isMember]
  rfl

def crowdedTwice (count : Nat) : List Char :=
  crowded count ++ ['[', 'x', '=', '"'] ++ crowded count ++ ['"', ']']

private theorem qualifyLineage_crowdedTwice (count : Nat) :
    qualifyLineage [String.ofList (crowded count), "&[x=\"&\"]"] =
      .ok (String.ofList (crowdedTwice count)) := by
  have identifier : members ['&', '[', 'x', '=', '"', '&', '"', ']'] =
      [['&', '[', 'x', '=', '"', '&', '"', ']']] := by decide
  have fused : combine (crowded count) ['&', '[', 'x', '=', '"', '&', '"', ']'] =
      crowdedTwice count := by
    rw [combine, if_pos (by decide)]
    simp [substitute, crowdedTwice]
  have twoLevels : [String.ofList (crowded count), "&[x=\"&\"]"] =
      [String.ofList (crowded count)] ++ ["&[x=\"&\"]"] := rfl
  rw [twoLevels, qualifyLineage_concat_eq_ok_iff (List.cons_ne_nil _ _)]
  refine ⟨_, qualifyLineage_crowded count, ?_⟩
  rw [String.toList_ofList, String.toList_ofList, members_of_isMember (isMember_crowded count),
    identifier]
  have one : 1 * 1 ≤ maximumSelectors := by decide
  refine ⟨List.cons_ne_nil _ _, one, ?_⟩
  simp [combinations, fused, joined, List.intercalate]

end Selector

def crowdedTree (count : Nat) : StyleTree :=
  ⟨[⟨String.ofList (crowded count), [], [⟨"&[x=\"&\"]", [⟨"color", "red"⟩], []⟩]⟩], none⟩

/-- The rule of the node below has as many members as one likes. -/
theorem compile_crowdedTree (count : Nat) :
    (crowdedTree count).compile =
      .ok ⟨[⟨String.ofList (crowdedTwice count), [⟨"color", "red"⟩], [0, 0]⟩]⟩ := by
  have walk : (crowdedTree count).walk =
      [⟨⟨String.ofList (crowded count), [], [⟨"&[x=\"&\"]", [⟨"color", "red"⟩], []⟩]⟩, [0],
          [String.ofList (crowded count)]⟩,
        ⟨⟨"&[x=\"&\"]", [⟨"color", "red"⟩], []⟩, [0, 0],
          [String.ofList (crowded count), "&[x=\"&\"]"]⟩] := rfl
  rw [StyleTree.compile_eq_ok_iff, walk, rulesOfVisits_cons_eq_ok_iff]
  refine ⟨_, _, qualifyLineage_crowded count, ?_, rfl⟩
  rw [rulesOfVisits_cons_eq_ok_iff]
  exact ⟨_, _, qualifyLineage_crowdedTwice count, rfl, rfl⟩

theorem length_split_crowdedTwice (count : Nat) :
    (split (String.ofList (crowdedTwice count))).length = count + 2 := by
  rw [length_split, String.toList_ofList, crowdedTwice, members_crowded_twice]
  simp

/-! ## Rules -/

/-- A node without children whose selector was counted to be within the limit, and is cut into
more members once its text is put together. -/
structure Visit.FallsApart (visit : Visit) : Prop where
  leaf : visit.node.children = []
  unbalanced : ∃ identifier ∈ visit.lineage, ¬Balanced identifier.toList
  exceeds : ∃ parent, qualifyLineage visit.lineage.dropLast = .ok parent ∧
    (split parent).length * (split visit.node.identifier).length ≤ maximumSelectors ∧
    maximumSelectors < (members (joined
      (combinations (members parent.toList) (members visit.node.identifier.toList)))).length

namespace StyleTree

variable {tree : StyleTree} {sheet : Sheet} {visit : Visit}

private theorem length_members_of_children (isOk : tree.compile = .ok sheet)
    (isVisit : visit ∈ tree.walk) (inner : visit.node.children ≠ []) {selector : String}
    (qualified : qualifyLineage visit.lineage = .ok selector) :
    (members selector.toList).length ≤ maximumSelectors := by
  rcases List.exists_cons_of_ne_nil inner with ⟨child, rest, children⟩
  have isChild : Visit.IsChildOf
      ⟨child, visit.path.child 0, visit.lineage ++ [child.identifier]⟩ visit :=
    ⟨0, by simp [children], rfl, rfl⟩
  rcases tree.compile_isOk_iff.mp ⟨sheet, isOk⟩ _ (mem_walk_of_isChildOf isVisit isChild) with
    ⟨below, belowOk⟩
  exact length_members_of_above (lineage_ne_nil isVisit) belowOk qualified

private theorem fallsApart_of_exceeds (isOk : tree.compile = .ok sheet)
    (isVisit : visit ∈ tree.walk) {selector : String}
    (qualified : qualifyLineage visit.lineage = .ok selector)
    (exceeds : maximumSelectors < (members selector.toList).length) : visit.FallsApart where
  leaf := by
    by_contra inner
    have small := length_members_of_children isOk isVisit inner qualified
    omega
  unbalanced := by
    by_contra noneUnbalanced
    have balanced : ∀ identifier ∈ visit.lineage, Balanced identifier.toList := by
      intro identifier isAbove
      by_contra unbalanced
      exact noneUnbalanced ⟨identifier, isAbove, unbalanced⟩
    have small := length_members_of_balanced (lineage_ne_nil isVisit) balanced qualified
    omega
  exceeds := by
    rw [lineage_eq_concat isVisit] at qualified
    by_cases root : visit.lineage.dropLast = []
    · rw [root, List.nil_append] at qualified
      have small := length_members_of_root qualified
      omega
    · rcases (qualifyLineage_concat_eq_ok_iff root _ selector).mp qualified with
        ⟨parent, parentOk, _, counted, text⟩
      refine ⟨parent, parentOk, ?_, ?_⟩
      · rwa [length_split, length_split]
      · rwa [← text]

private theorem exceeds_of_fallsApart (isVisit : visit ∈ tree.walk) {selector : String}
    (qualified : qualifyLineage visit.lineage = .ok selector) (fallsApart : visit.FallsApart) :
    maximumSelectors < (members selector.toList).length := by
  rcases fallsApart.exceeds with ⟨parent, parentOk, _, exceeds⟩
  have nested : visit.lineage.dropLast ≠ [] := by
    intro root
    rw [root, qualifyLineage_nil] at parentOk
    cases parentOk
  rw [lineage_eq_concat isVisit, qualifyLineage_concat_eq_ok_iff nested] at qualified
  rcases qualified with ⟨other, otherOk, _, _, text⟩
  rw [parentOk, Except.ok.injEq] at otherOk
  subst other
  rwa [text]

/-- Every rule has a selector, and no more than the limit unless the selector of its node falls
apart. -/
theorem rules_within_limit_iff (isOk : tree.compile = .ok sheet) :
    ∀ rule ∈ sheet.rules, ∃ visit ∈ tree.walk, rule.ComesFrom visit ∧
      1 ≤ (split rule.selector).length ∧
        ((split rule.selector).length ≤ maximumSelectors ↔ ¬visit.FallsApart) := by
  intro rule member
  rcases (mem_rules_iff isOk).mp member with ⟨visit, isVisit, _, comesFrom⟩
  rw [length_split]
  refine ⟨visit, isVisit, comesFrom, ?_, ?_, ?_⟩
  · exact List.length_pos_of_ne_nil (members_ne_nil_of_qualifyLineage comesFrom.qualified)
  · intro small fallsApart
    have exceeds := exceeds_of_fallsApart isVisit comesFrom.qualified fallsApart
    omega
  · intro together
    by_contra large
    exact together (fallsApart_of_exceeds isOk isVisit comesFrom.qualified (by omega))

/-- One selector was counted and two are left, which is within the limit. -/
theorem rules_within_limit_crowded :
    ∃ sheet, (crowdedTree 0).compile = .ok sheet ∧
      sheet.rules.map (fun rule => split rule.selector) =
        [["[y=\"],\"][x=\"[y=\"]", "\"]\"]"]] ∧
      ∀ rule ∈ sheet.rules, ∃ visit ∈ (crowdedTree 0).walk, rule.ComesFrom visit ∧
        1 ≤ (split rule.selector).length ∧
          ((split rule.selector).length ≤ maximumSelectors ↔ ¬visit.FallsApart) :=
  ⟨_, compile_crowdedTree 0, by decide, rules_within_limit_iff (compile_crowdedTree 0)⟩

/-- Of a limit of 1024 selectors one is used up when they are counted, and 1025 are left. -/
theorem crowdedTree_exceeds :
    ∃ sheet, (crowdedTree 1023).compile = .ok sheet ∧
      ∃ rule ∈ sheet.rules, (split rule.selector).length = 1025 ∧
        ¬(split rule.selector).length ≤ maximumSelectors := by
  have length := length_split_crowdedTwice 1023
  refine ⟨_, compile_crowdedTree 1023, _, List.mem_singleton_self _, length, ?_⟩
  rw [length]
  decide

end StyleTree

end Stylebook
