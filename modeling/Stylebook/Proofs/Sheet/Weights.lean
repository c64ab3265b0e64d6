import Stylebook.Analysis.Metrics
import Stylebook.Proofs.Naming.Resolution
import Stylebook.Proofs.Selector.Exact
import Stylebook.Proofs.Selector.Profile
import Stylebook.Proofs.Sheet.Rules
import Stylebook.Validation.Check

/-!
The weights of rules. They are computed in 32 bits, and so they are the exact ones as long as these
can be held in 32 bits. Only a rule with a very long selector can have a greater weight. But a tree
need not be large for that, since every parent reference in an identifier becomes a copy of the
selector of the parent.
-/

namespace Stylebook

open Selector

/-! ## Exact weights -/

namespace Rule

def counts (rule : Rule) : Counts := exactCounts rule.selector

def IsExact (rule : Rule) : Prop :=
  (Profile.ofSelector rule.selector).specificity.counts = rule.counts ∧
    rule.weight = rule.counts.weight

theorem weight_lt (rule : Rule) : rule.weight < UInt32.size := UInt32.toNat_lt_size _

/-- Where the counts can be held, their weight is computed modulo the range of 32 bits. -/
theorem weight_eq_mod (rule : Rule) (fits : rule.counts.Fits) :
    rule.weight = rule.counts.weight % UInt32.size := by
  rw [weight, Specificity.toNat_weight, (keeps_exactCounts rule.selector).counts_eq fits, counts]

theorem isExact_iff (rule : Rule) : rule.IsExact ↔ rule.counts.weight < UInt32.size := by
  constructor
  · intro isExact
    rw [← isExact.2]
    exact rule.weight_lt
  · intro small
    have fits := Counts.fits_of_weight_lt small
    refine ⟨(keeps_exactCounts rule.selector).counts_eq fits, ?_⟩
    rw [rule.weight_eq_mod fits, Nat.mod_eq_of_lt small]

end Rule

theorem foldl_max_lt_iff {bound : Nat} (greatest : Nat) (numbers : List Nat) :
    numbers.foldl Nat.max greatest < bound ↔
      greatest < bound ∧ ∀ number ∈ numbers, number < bound := by
  induction numbers generalizing greatest with
  | nil => simp
  | cons number rest induction =>
      rw [List.foldl_cons, induction, List.forall_mem_cons, ← and_assoc]
      exact and_congr_left' Nat.max_lt

theorem Metrics.maximumSpecificity_ofSheet (sheet : Sheet) (clusters : List Cluster) :
    (Metrics.ofSheet sheet clusters).maximumSpecificity =
      (sheet.rules.map Rule.weight).foldl Nat.max 0 := by
  rw [ofSheet, Sheet.isEmpty]
  split
  next empty => rw [List.isEmpty_iff.mp empty, List.map_nil, List.foldl_nil]
  next => rfl

namespace Sheet

/-- The counts and the weight of a rule are exact just if the exact weight can be held in 32 bits,
and it takes a character for every 50 of the weight. The greatest weight of a style sheet is exact
just if all weights can be held. -/
theorem weights_exact_iff (sheet : Sheet) (clusters : List Cluster) :
    (∀ rule ∈ sheet.rules, (rule.IsExact ↔ rule.counts.weight < UInt32.size) ∧
        rule.counts.weight ≤ 50 * rule.selector.length) ∧
      ((Metrics.ofSheet sheet clusters).maximumSpecificity =
          (sheet.rules.map fun rule => rule.counts.weight).foldl Nat.max 0 ↔
        ∀ rule ∈ sheet.rules, rule.counts.weight < UInt32.size) := by
  refine ⟨fun rule _ => ⟨rule.isExact_iff, weight_exactCounts_le rule.selector⟩, ?_⟩
  rw [Metrics.maximumSpecificity_ofSheet]
  constructor
  · intro same
    have small : (sheet.rules.map Rule.weight).foldl Nat.max 0 < UInt32.size := by
      rw [foldl_max_lt_iff, List.forall_mem_map]
      exact ⟨by decide, fun rule _ => rule.weight_lt⟩
    rw [same, foldl_max_lt_iff, List.forall_mem_map] at small
    exact small.2
  · intro small
    rw [List.map_congr_left fun rule member => (rule.isExact_iff.mpr (small rule member)).2]

end Sheet

/-! ## A weight without bound -/

namespace Selector

def hashes (count : Nat) : List Char := (List.replicate count ['#', 'a']).flatten

def references (count : Nat) : List Char := List.replicate count '&'

theorem hashes_mul (outer inner : Nat) :
    (List.replicate inner (hashes outer)).flatten = hashes (outer * inner) := by
  induction inner with
  | zero => rfl
  | succ inner induction =>
      rw [List.replicate_succ, List.flatten_cons, induction, hashes, hashes, ← List.flatten_append,
        List.replicate_append_replicate, Nat.mul_succ, Nat.add_comm, hashes]

theorem length_hashes (count : Nat) : (hashes count).length = 2 * count := by
  simp [hashes, Nat.mul_comm]

theorem substitute_references (parent : List Char) (count : Nat) :
    substitute parent (references count) = (List.replicate count parent).flatten := by
  simp [substitute, references, List.flatMap_def]

theorem isAlpha_a : 'a'.isAlpha = true := rfl

open Grammar in
def hash : Simple := .id (.letter 'a' isAlpha_a)

open Grammar in
def hashSimples : Nat → Simples
  | 0 => .nil
  | count + 1 => .cons hash (hashSimples count)

open Grammar in
theorem text_hashSimples (count : Nat) : (hashSimples count).text = hashes count := by
  induction count with
  | zero => rfl
  | succ count induction =>
      rw [hashSimples, Simples.text, induction, hashes, hashes, List.replicate_succ,
        List.flatten_cons]
      rfl

theorem parts_hashSimples (count : Nat) :
    (hashSimples count).parts = List.replicate count .idLike := by
  induction count with
  | zero => rfl
  | succ count induction =>
      rw [hashSimples, Grammar.Simples.parts, induction, List.replicate_succ]
      rfl

theorem parts_hashes (count : Nat) :
    parts (Css.Component.ofText (String.ofList (hashes (count + 1)))) =
      List.replicate (count + 1) .idLike := by
  have read := Grammar.Selectors.parts_ofText
    (.last (.last (.bare hash (hashSimples count))))
  have isText : hashes (count + 1) = '#' :: 'a' :: (hashSimples count).text := by
    rw [text_hashSimples, hashes, hashes, List.replicate_succ]
    rfl
  rw [isText, List.replicate_succ, ← parts_hashSimples]
  exact read

theorem greatestCounts_ids (current : Counts) (count : Nat) :
    greatestCounts 0 current (List.replicate count .idLike) =
      max 0 (current + ⟨count, 0, 0⟩) := by
  induction count generalizing current with
  | zero => rfl
  | succ count induction =>
      have oneMore : Part.idLike.counts + ⟨count, 0, 0⟩ = ⟨count + 1, 0, 0⟩ :=
        Counts.ext (Nat.add_comm 1 count) rfl rfl
      rw [List.replicate_succ, greatestCounts_cons Part.noConfusion, induction, Counts.add_assoc,
        oneMore]

theorem exactCounts_hashes {count : Nat} (positive : 0 < count) :
    exactCounts (String.ofList (hashes count)) = ⟨count, 0, 0⟩ := by
  cases count with
  | zero => exact absurd positive (Nat.lt_irrefl 0)
  | succ count =>
      rw [exactCounts, parts_hashes, greatestCounts_ids, Counts.zero_add,
        max_eq_right (Counts.zero_le _)]

open Naming in
theorem isUnbroken_hashes (count : Nat) : IsUnbroken (hashes (count + 1)) := by
  refine isUnbroken_of_forall (by simp [hashes, List.replicate_succ]) ?_
  have plain : ∀ character ∈ ['#', 'a'],
      Text.isBlank character = false ∧ character ∉ Css.listMarks := by
    rw [List.forall_mem_cons, List.forall_mem_singleton]
    exact ⟨⟨rfl, by decide⟩, rfl, by decide⟩
  intro character member
  rw [hashes, List.mem_flatten] at member
  rcases member with ⟨copy, isCopy, member⟩
  rw [List.eq_of_mem_replicate isCopy] at member
  exact plain character member

open Naming in
theorem isUnbroken_references (count : Nat) : IsUnbroken (references (count + 1)) := by
  refine isUnbroken_of_forall (by simp [references]) fun character member => ?_
  rw [List.eq_of_mem_replicate member]
  decide

theorem qualifyLineage_hashes (count : Nat) :
    qualifyLineage [String.ofList (hashes (count + 1))] =
      .ok (String.ofList (hashes (count + 1))) := by
  rw [qualifyLineage_singleton_eq_ok_iff, String.toList_ofList,
    (isUnbroken_hashes count).members_eq, Naming.joined_singleton, List.forall_mem_singleton]
  exact ⟨List.cons_ne_nil _ _, rfl, by simp [maximumSelectors], rfl⟩

/-- Every reference becomes a copy of the parent. -/
theorem qualifyLineage_references (outer inner : Nat) :
    qualifyLineage [String.ofList (hashes (outer + 1)), String.ofList (references (inner + 1))] =
      .ok (String.ofList (hashes ((outer + 1) * (inner + 1)))) := by
  have fused : isFused (references (inner + 1)) = true := rfl
  refine (Naming.qualifyLineage_concat_of_unbroken (qualifyLineage_hashes outer) ?_ ?_).trans ?_
  · rw [String.toList_ofList]
    exact isUnbroken_hashes outer
  · rw [String.toList_ofList]
    exact isUnbroken_references inner
  · rw [String.toList_ofList, String.toList_ofList, combine, if_pos fused, substitute_references,
      hashes_mul]

end Selector

def stackedLeaf (inner : Nat) : StyleNode :=
  ⟨String.ofList (references (inner + 1)), [⟨"color", "red"⟩], []⟩

def stackedRoot (outer inner : Nat) : StyleNode :=
  ⟨String.ofList (hashes (outer + 1)), [], [stackedLeaf inner]⟩

def stackedTree (outer inner : Nat) : StyleTree := ⟨[stackedRoot outer inner], none⟩

section

variable (outer inner : Nat)

def stackedVisits : List Visit :=
  [⟨stackedRoot outer inner, [0], [String.ofList (hashes (outer + 1))]⟩,
    ⟨stackedLeaf inner, [0, 0],
      [String.ofList (hashes (outer + 1)), String.ofList (references (inner + 1))]⟩]

namespace StyleTree

theorem compile_stackedTree : (stackedTree outer inner).compile =
    .ok ⟨[⟨String.ofList (hashes ((outer + 1) * (inner + 1))), [⟨"color", "red"⟩], [0, 0]⟩]⟩ := by
  have walk : (stackedTree outer inner).walk = stackedVisits outer inner := rfl
  rw [compile_eq_ok_iff, walk, stackedVisits, rulesOfVisits_cons_eq_ok_iff]
  refine ⟨_, _, qualifyLineage_hashes outer, ?_, rfl⟩
  rw [rulesOfVisits_cons_eq_ok_iff]
  exact ⟨_, _, qualifyLineage_references outer inner, rfl, rfl⟩

private theorem checkDeclarations_color (path : String) :
    checkDeclarations path [] [⟨"color", "red"⟩] = [] := by
  have property : Text.trimmed "color" = "color" := by decide
  have readable : ValueProblem.ofValue? "red" = none := by decide +kernel
  have visible : Text.isAllBlank "red" = false := by decide
  simp [checkDeclarations, checkDeclaration, property, readable, visible]

private theorem isAllBlank_ofList_eq_false {text : List Char} (unbroken : Naming.IsUnbroken text) :
    Text.isAllBlank (String.ofList text) = false := by
  rcases List.exists_cons_of_ne_nil unbroken.nonempty with ⟨first, rest, rfl⟩
  have visible := unbroken.trimmed.1 first rfl
  rw [Text.isAllBlank, String.toList_ofList, List.all_cons, visible, Bool.false_and]

private theorem checkVisit_stackedVisits :
    ∀ visit ∈ stackedVisits outer inner, checkVisit visit = [] := by
  have hashesVisible := isAllBlank_ofList_eq_false (isUnbroken_hashes outer)
  have referencesVisible := isAllBlank_ofList_eq_false (isUnbroken_references inner)
  have unfused : isFused (hashes (outer + 1)) = false := rfl
  have single : expandedLength [String.ofList (hashes (outer + 1))] ≤ maximumSelectors := by
    simp [expandedLength, (isUnbroken_hashes outer).members_eq, saturatingProduct, maximumCount,
      maximumSelectors]
  have product : expandedLength
      [String.ofList (hashes (outer + 1)), String.ofList (references (inner + 1))] ≤
        maximumSelectors := by
    simp [expandedLength, (isUnbroken_hashes outer).members_eq,
      (isUnbroken_references inner).members_eq, saturatingProduct, maximumCount, maximumSelectors]
  rw [stackedVisits, List.forall_mem_cons, List.forall_mem_singleton]
  constructor
  · have nothing (path : String) : checkDeclarations path [] [] = [] := rfl
    simp [checkVisit, checkNode, checkIdentifier, checkExpansion, checkUse, checkSiblings,
      laterDuplicates, stackedRoot, hashesVisible, unfused, Nat.not_lt.mpr single, nothing,
      Visit.depth, NodePath.depth, maximumNesting, StyleNode.isEmpty]
  · simp [checkVisit, checkNode, checkIdentifier, checkExpansion, checkUse, checkSiblings,
      stackedLeaf, referencesVisible, Nat.not_lt.mpr product, checkDeclarations_color, Visit.isRoot,
      Visit.depth, NodePath.depth, maximumNesting, StyleNode.isEmpty]

theorem check_stackedTree : (stackedTree outer inner).check = [] := by
  have walk : (stackedTree outer inner).walkWithin (maximumNesting + 1) =
      stackedVisits outer inner := rfl
  have alone : checkSiblings [] 1 (stackedTree outer inner).roots = [] := by
    simp [stackedTree, checkSiblings, laterDuplicates]
  rw [check, alone, walk, List.nil_append, List.flatMap_eq_nil_iff]
  exact checkVisit_stackedVisits outer inner

end StyleTree

end

namespace StyleTree

/-- 2501 times `#a`, and below it 17173 references, are of the weight 4294967300, which is 4 in 32
bits. -/
theorem stackedTree_overflows :
    hasErrors (stackedTree 2500 17172).check = false ∧
      ∃ sheet, (stackedTree 2500 17172).compile = .ok sheet ∧
        ∃ rule ∈ sheet.rules, rule.selector.length = 85899346 ∧
          rule.counts.weight = 4294967300 ∧ ¬rule.counts.weight < UInt32.size ∧
            rule.weight = 4 := by
  rw [check_stackedTree]
  refine ⟨rfl, _, compile_stackedTree 2500 17172, _, List.mem_singleton_self _, ?_⟩
  generalize isRule : Rule.mk (String.ofList (hashes ((2500 + 1) * (17172 + 1)))) _ _ = rule
  have counts : rule.counts = ⟨42949673, 0, 0⟩ := by
    rw [← isRule]
    exact exactCounts_hashes (by decide)
  have length : rule.selector.length = 2 * ((2500 + 1) * (17172 + 1)) := by
    rw [← isRule, ← String.length_toList, String.toList_ofList, length_hashes]
  have kept : rule.weight = 4294967300 % UInt32.size := by
    rw [rule.weight_eq_mod (by rw [counts]; decide), counts]
    rfl
  rw [length, kept, counts]
  decide

end StyleTree

end Stylebook
