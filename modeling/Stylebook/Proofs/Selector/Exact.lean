import Stylebook.Proofs.Css.Width
import Stylebook.Proofs.Selector.Specificity

/-!
Counting without a bound. A specificity keeps its counts, and computes its weight, in 32 bits. Here
the counts of a selector list are natural numbers, and the kept ones agree with them as far as they
can. A great weight needs a long text: nothing weighs more for its length than an id, which has at
least two characters.
-/

namespace Stylebook.Selector

open Css

/-! ## Exact counts -/

def Counts.weight (counts : Counts) : Nat :=
  counts.ids * 100 + counts.classes * 10 + counts.types

namespace Counts

theorem weight_zero : (0 : Counts).weight = 0 := rfl

theorem ids_add (first second : Counts) : (first + second).ids = first.ids + second.ids := rfl

theorem classes_add (first second : Counts) :
    (first + second).classes = first.classes + second.classes := rfl

theorem types_add (first second : Counts) : (first + second).types = first.types + second.types :=
  rfl

theorem weight_add (first second : Counts) :
    (first + second).weight = first.weight + second.weight := by
  simp only [weight, ids_add, classes_add, types_add]
  omega

theorem weight_max_le (first second : Counts) :
    (max first second).weight ≤ max first.weight second.weight := by
  rcases max_choice first second with isFirst | isSecond
  · rw [isFirst]
    exact le_max_left _ _
  · rw [isSecond]
    exact le_max_right _ _

theorem fits_of_weight_lt {counts : Counts} (small : counts.weight < UInt32.size) :
    counts.Fits := by
  rw [weight] at small
  exact ⟨by omega, by omega, by omega⟩

end Counts

mutual

def Part.counts : Part → Counts
  | .idLike => ⟨1, 0, 0⟩
  | .classLike => ⟨0, 1, 0⟩
  | .typeLike => ⟨0, 0, 1⟩
  | .list parts => greatestCounts 0 0 parts
  | .comma => 0
  | .boundary => 0
  | .plain => 0
  | .universal => 0

/-- The greatest counts among `best` and the members of a list, of which the first already has the
counts `current`. -/
def greatestCounts (best current : Counts) : List Part → Counts
  | [] => max best current
  | .comma :: rest => greatestCounts (max best current) 0 rest
  | part :: rest => greatestCounts best (current + part.counts) rest

end

theorem greatestCounts_cons {part : Part} (notComma : part ≠ .comma) (best current : Counts)
    (rest : List Part) :
    greatestCounts best current (part :: rest) =
      greatestCounts best (current + part.counts) rest := by
  cases part <;> simp_all [greatestCounts]

def exactCounts (selector : String) : Counts :=
  greatestCounts 0 0 (parts (Component.ofText selector))

/-! ## Kept counts -/

namespace Specificity

/-- The specificity keeps these counts as far as they can be held in 32 bits. As ids decide first
which counts are greater, classes are kept only with them, and types only with both. -/
structure Keeps (kept : Specificity) (counts : Counts) : Prop where
  ids : counts.ids < UInt32.size → kept.ids.toNat = counts.ids
  classes : counts.ids < UInt32.size → counts.classes < UInt32.size →
    kept.classes.toNat = counts.classes
  types : counts.Fits → kept.types.toNat = counts.types

variable {kept other : Specificity} {counts otherCounts : Counts}

theorem Keeps.counts_eq (keeps : kept.Keeps counts) (fits : counts.Fits) : kept.counts = counts :=
  Counts.ext (keeps.ids fits.1) (keeps.classes fits.1 fits.2.1) (keeps.types fits)

theorem keeps_rounded (counts : Counts) : counts.rounded.Keeps counts where
  ids := UInt32.toNat_ofNat_of_lt'
  classes _ := UInt32.toNat_ofNat_of_lt'
  types fits := UInt32.toNat_ofNat_of_lt' fits.2.2

theorem Keeps.add (keeps : kept.Keeps counts) (otherKeeps : other.Keeps otherCounts) :
    (kept.add other).Keeps (counts + otherCounts) := by
  rcases keeps with ⟨ids, classes, types⟩
  rcases otherKeeps with ⟨otherIds, otherClasses, otherTypes⟩
  -- A sum that can be held is one of numbers that can be held.
  constructor <;>
    simp only [Specificity.add, Counts.Fits, Counts.ids_add, Counts.classes_add, Counts.types_add,
      UInt32.toNat_add] <;>
    grind [Counts.Fits]

/-- The greater of two is found among the kept ones too. If these compare otherwise, then the count
that decides cannot be held, and nothing is said of it and of those after it. -/
theorem Keeps.max (keeps : kept.Keeps counts) (otherKeeps : other.Keeps otherCounts) :
    (kept.max other).Keeps (Max.max counts otherCounts) := by
  have isLess := isLess_iff kept other
  rw [Counts.lt_iff] at isLess
  rw [Specificity.max]
  rcases keeps with ⟨ids, classes, types⟩
  rcases otherKeeps with ⟨otherIds, otherClasses, otherTypes⟩
  rcases lt_or_ge counts otherCounts with less | notLess
  · rw [max_eq_right_of_lt less]
    rw [Counts.lt_iff] at less
    split
    · exact ⟨otherIds, otherClasses, otherTypes⟩
    · constructor <;> grind [Specificity.counts, Counts.Fits]
  · rw [max_eq_left notLess]
    rw [← not_lt, Counts.lt_iff] at notLess
    split
    · constructor <;> grind [Specificity.counts, Counts.Fits]
    · exact ⟨ids, classes, types⟩

theorem toNat_weight (specificity : Specificity) :
    specificity.weight.toNat = specificity.counts.weight % UInt32.size := by
  simp [weight, counts, Counts.weight, UInt32.toNat_add, UInt32.toNat_mul]

end Specificity

mutual

theorem Part.keeps : (part : Part) → part.specificity.Keeps part.counts
  | .idLike => Specificity.keeps_rounded ⟨1, 0, 0⟩
  | .classLike => Specificity.keeps_rounded ⟨0, 1, 0⟩
  | .typeLike => Specificity.keeps_rounded ⟨0, 0, 1⟩
  | .list parts => keeps_greatest (Specificity.keeps_rounded 0) (Specificity.keeps_rounded 0) parts
  | .comma => Specificity.keeps_rounded 0
  | .boundary => Specificity.keeps_rounded 0
  | .plain => Specificity.keeps_rounded 0
  | .universal => Specificity.keeps_rounded 0

theorem keeps_greatest {best current : Specificity} {bestCounts currentCounts : Counts}
    (bestKeeps : best.Keeps bestCounts) (currentKeeps : current.Keeps currentCounts) :
    (parts : List Part) → (greatestSpecificity best current parts).Keeps
      (greatestCounts bestCounts currentCounts parts)
  | [] => bestKeeps.max currentKeeps
  | part :: rest => by
      by_cases comma : part = .comma
      · subst comma
        exact keeps_greatest (bestKeeps.max currentKeeps) (Specificity.keeps_rounded 0) rest
      · rw [Grammar.greatestSpecificity_cons comma, greatestCounts_cons comma]
        exact keeps_greatest bestKeeps (currentKeeps.add part.keeps) rest

end

/-- The kept specificity of a selector list and its counts. -/
theorem keeps_exactCounts (selector : String) :
    (Profile.ofSelector selector).specificity.Keeps (exactCounts selector) :=
  keeps_greatest (Specificity.keeps_rounded 0) (Specificity.keeps_rounded 0) _

/-! ## Weight and length -/

mutual

def Part.load : Part → Nat
  | .idLike => 100
  | .classLike => 10
  | .typeLike => 1
  | .list parts => loadOf parts
  | .comma => 0
  | .boundary => 0
  | .plain => 0
  | .universal => 0

def loadOf : List Part → Nat
  | [] => 0
  | part :: rest => part.load + loadOf rest

end

mutual

theorem Part.weight_counts_le : (part : Part) → part.counts.weight ≤ part.load
  | .idLike => by decide
  | .classLike => by decide
  | .typeLike => by decide
  | .list parts => by
      have greatest := weight_greatestCounts_le 0 0 parts
      rw [Counts.weight_zero] at greatest
      rw [Part.counts, Part.load]
      omega
  | .comma => by decide
  | .boundary => by decide
  | .plain => by decide
  | .universal => by decide

theorem weight_greatestCounts_le (best current : Counts) : (parts : List Part) →
    (greatestCounts best current parts).weight ≤ max best.weight (current.weight + loadOf parts)
  | [] => Counts.weight_max_le best current
  | part :: rest => by
      by_cases comma : part = .comma
      · subst comma
        have later := weight_greatestCounts_le (max best current) 0 rest
        have greatest := Counts.weight_max_le best current
        rw [Counts.weight_zero] at later
        rw [greatestCounts, loadOf, Part.load]
        omega
      · have later := weight_greatestCounts_le best (current + part.counts) rest
        have own := part.weight_counts_le
        rw [Counts.weight_add] at later
        rw [greatestCounts_cons comma, loadOf]
        omega

end

theorem loadOf_append (left right : List Part) :
    loadOf (left ++ right) = loadOf left + loadOf right := by
  induction left with
  | nil => exact (Nat.zero_add _).symm
  | cons part rest induction =>
      rw [List.cons_append, loadOf, loadOf, induction, Nat.add_assoc]

theorem loadOf_reverse (parts : List Part) : loadOf parts.reverse = loadOf parts := by
  induction parts with
  | nil => rfl
  | cons part rest induction =>
      rw [List.reverse_cons, loadOf_append, induction, loadOf, loadOf, loadOf, Nat.add_zero,
        Nat.add_comm]

theorem loadOf_withPart (read : List Part) (part? : Option Part) :
    loadOf (withPart read part?) = loadOf part?.toList + loadOf read := by
  cases part? with
  | none => exact (Nat.zero_add _).symm
  | some part => rfl

open Component

/-- What weighs 100 is a hash, and what weighs 10 has at least one token. -/
theorem loadOf_ofComponent?_le (component : Component) :
    loadOf (Part.ofComponent? component).toList ≤ 50 * component.width := by
  fun_cases Part.ofComponent? component <;> simp [loadOf, Part.load, width, Token.width]
  omega

theorem loadOf_partsOnto_le (read : List Part) (components : List Component) :
    loadOf (partsOnto read components) ≤ loadOf read + 50 * widthOf components := by
  induction read, components using partsOnto.induct
    (fun component => loadOf (pseudo? component).toList ≤ 50 * component.width) with
  | case1 name =>
      rw [pseudo?]
      split <;> simp [loadOf, Part.load, width, Token.width]
  | case2 name contents anywhere => simp [pseudo?, anywhere, loadOf, Part.load]
  | case3 name contents notAnywhere transparent induction =>
      rw [pseudo?, if_neg notAnywhere, if_pos transparent, width]
      simp only [Option.toList_some, loadOf, Part.load] at induction ⊢
      omega
  | case4 name contents notAnywhere notTransparent =>
      rw [pseudo?, if_neg notAnywhere, if_neg notTransparent, width]
      simp only [Option.toList_some, loadOf, Part.load, Token.width]
      omega
  | case5 opening contents notFunction =>
      rw [pseudo?]
      · exact Nat.zero_le _
      · exact notFunction
  | case6 single notIdentifier =>
      rw [pseudo?]
      · exact Nat.zero_le _
      · exact notIdentifier
  | case7 read => simp [partsOnto, loadOf_reverse]
  | case8 read =>
      simp only [partsOnto, loadOf_reverse, loadOf, Part.load, widthOf, width, Token.width]
      omega
  | case9 read name rest induction =>
      simp only [partsOnto, loadOf, Part.load, widthOf, width, Token.width] at induction ⊢
      omega
  | case10 read => simp [partsOnto, loadOf_reverse]
  | case11 read =>
      simp only [partsOnto, loadOf_reverse, loadOf, Part.load, widthOf, width, Token.width]
      omega
  | case12 read name rest induction =>
      simp only [partsOnto, loadOf, Part.load, widthOf, width, Token.width] at induction ⊢
      omega
  | case13 read next rest notLast notColons inside induction =>
      rw [loadOf_withPart] at induction
      rw [partsOnto, widthOf, widthOf] <;> first | assumption | omega
  | case14 read component rest _ _ _ _ _ _ induction =>
      have own := loadOf_ofComponent?_le component
      rw [loadOf_withPart] at induction
      rw [partsOnto, widthOf] <;> first | assumption | omega

/-- No character of a selector list adds more than 50 to its weight. -/
theorem weight_exactCounts_le (selector : String) :
    (exactCounts selector).weight ≤ 50 * selector.length := by
  have greatest := weight_greatestCounts_le 0 0 (parts (Component.ofText selector))
  have loads := loadOf_partsOnto_le [] (Component.ofText selector)
  have widths := Component.widthOf_ofText selector
  rw [Counts.weight_zero] at greatest
  rw [← parts, loadOf] at loads
  rw [exactCounts]
  omega

end Stylebook.Selector
