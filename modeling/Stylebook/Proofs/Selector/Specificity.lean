import Mathlib.Data.Prod.Lex
import Mathlib.Order.MinMax
import Stylebook.Proofs.Selector.Parts

/-!
The specificity of a selector list of the grammar. It is the greatest of its members, each with
the sum of what its simple selectors count for.
-/

namespace Stylebook.Selector

/-! ## Counts -/

@[ext]
structure Counts where
  ids : Nat
  classes : Nat
  types : Nat

namespace Counts

instance : Zero Counts := ⟨⟨0, 0, 0⟩⟩

instance : Add Counts :=
  ⟨fun first second =>
    ⟨first.ids + second.ids, first.classes + second.classes, first.types + second.types⟩⟩

def key (counts : Counts) : ℕ ×ₗ ℕ ×ₗ ℕ := toLex (counts.ids, toLex (counts.classes, counts.types))

theorem key_injective : Function.Injective key := by
  intro first second same
  cases first
  cases second
  simpa [key] using same

instance : LinearOrder Counts := LinearOrder.lift' key key_injective

def Fits (counts : Counts) : Prop :=
  counts.ids < UInt32.size ∧ counts.classes < UInt32.size ∧ counts.types < UInt32.size

instance (counts : Counts) : Decidable counts.Fits :=
  inferInstanceAs (Decidable (_ ∧ _ ∧ _))

theorem add_assoc (first second third : Counts) :
    first + second + third = first + (second + third) :=
  Counts.ext (Nat.add_assoc _ _ _) (Nat.add_assoc _ _ _) (Nat.add_assoc _ _ _)

theorem zero_add (counts : Counts) : 0 + counts = counts :=
  Counts.ext (Nat.zero_add _) (Nat.zero_add _) (Nat.zero_add _)

theorem lt_iff {first second : Counts} : first < second ↔ first.ids < second.ids ∨
    first.ids = second.ids ∧ (first.classes < second.classes ∨
      first.classes = second.classes ∧ first.types < second.types) := by
  have byKey : first < second ↔ first.key < second.key := .rfl
  rw [byKey, key, key, Prod.Lex.toLex_lt_toLex, Prod.Lex.toLex_lt_toLex]

theorem zero_le (counts : Counts) : 0 ≤ counts := by
  rw [← not_lt, lt_iff]
  rintro (less | ⟨_, less | ⟨_, less⟩⟩) <;> exact Nat.not_lt_zero _ less

theorem fits_zero : Fits 0 := ⟨by decide, by decide, by decide⟩

theorem Fits.max {first second : Counts} (fits : first.Fits) (otherFits : second.Fits) :
    (max first second).Fits := by
  rcases max_choice first second with isFirst | isSecond
  · rwa [isFirst]
  · rwa [isSecond]

def rounded (counts : Counts) : Specificity :=
  ⟨.ofNat counts.ids, .ofNat counts.classes, .ofNat counts.types⟩

theorem rounded_add (first second : Counts) :
    (first + second).rounded = first.rounded.add second.rounded :=
  Specificity.mk.injEq .. ▸ ⟨UInt32.ofNat_add _ _, UInt32.ofNat_add _ _, UInt32.ofNat_add _ _⟩

end Counts

def Specificity.counts (specificity : Specificity) : Counts :=
  ⟨specificity.ids.toNat, specificity.classes.toNat, specificity.types.toNat⟩

theorem Specificity.isLess_iff (first second : Specificity) :
    first.isLess second = true ↔ first.counts < second.counts := by
  rw [Counts.lt_iff]
  simp only [isLess, counts, Bool.or_eq_true, Bool.and_eq_true, decide_eq_true_iff, beq_iff_eq,
    UInt32.lt_iff_toNat_lt, ← UInt32.toNat_inj]

namespace Counts

theorem counts_rounded {counts : Counts} (fits : counts.Fits) :
    counts.rounded.counts = counts :=
  Counts.ext (UInt32.toNat_ofNat_of_lt' fits.1) (UInt32.toNat_ofNat_of_lt' fits.2.1)
    (UInt32.toNat_ofNat_of_lt' fits.2.2)

theorem rounded_max {first second : Counts} (fits : first.Fits) (otherFits : second.Fits) :
    (Max.max first second).rounded = first.rounded.max second.rounded := by
  have isLess := Specificity.isLess_iff first.rounded second.rounded
  rw [counts_rounded fits, counts_rounded otherFits] at isLess
  rw [Specificity.max]
  split
  next less => rw [max_eq_right_of_lt (isLess.mp less)]
  next notLess => rw [max_eq_left (not_lt.mp fun less => notLess (isLess.mpr less))]

end Counts

example : max (⟨0, 5, 9⟩ : Counts) ⟨1, 0, 0⟩ = ⟨1, 0, 0⟩ := by decide

namespace Grammar

/-! ## Specificity -/

def Head.counts : Head → Counts
  | .type _ => ⟨0, 0, 1⟩
  | .universal => 0

mutual

def Simple.counts : Simple → Counts
  | .id _ => ⟨1, 0, 0⟩
  | .className _ => ⟨0, 1, 0⟩
  | .attribute _ => ⟨0, 1, 0⟩
  | .pseudoClass name => if name.isElement then ⟨0, 0, 1⟩ else ⟨0, 1, 0⟩
  | .pseudoElement _ => ⟨0, 0, 1⟩
  | .function .anywhere _ => 0
  | .function _ argument => argument.counts

def Simples.counts : Simples → Counts
  | .nil => 0
  | .cons first rest => first.counts + rest.counts

def Compound.counts : Compound → Counts
  | .headed head rest => head.counts + rest.counts
  | .bare first rest => first.counts + rest.counts

def Complex.counts : Complex → Counts
  | .last compound => compound.counts
  | .combined compound _ rest => compound.counts + rest.counts

def Selectors.counts : Selectors → Counts
  | .last member => member.counts
  | .listed member rest => max member.counts rest.counts

end

mutual

/-- The counts of each member of an argument that is looked at can be held in 32 bits. -/
def Simple.Fits : Simple → Prop
  | .function .anywhere _ => True
  | .function _ argument => argument.Fits
  | _ => True

def Simples.Fits : Simples → Prop
  | .nil => True
  | .cons first rest => first.Fits ∧ rest.Fits

def Compound.Fits : Compound → Prop
  | .headed _ rest => rest.Fits
  | .bare first rest => first.Fits ∧ rest.Fits

def Complex.Fits : Complex → Prop
  | .last compound => compound.Fits
  | .combined compound _ rest => compound.Fits ∧ rest.Fits

def Selectors.Fits : Selectors → Prop
  | .last member => member.counts.Fits ∧ member.Fits
  | .listed member rest => (member.counts.Fits ∧ member.Fits) ∧ rest.Fits

end

theorem Selectors.Fits.counts : {selectors : Selectors} → selectors.Fits → selectors.counts.Fits
  | .last _, fits => fits.1
  | .listed _ _, ⟨memberFits, laterFits⟩ => memberFits.1.max laterFits.counts

/-! ## Adding up -/

theorem greatestSpecificity_cons {part : Part} (notComma : part ≠ .comma)
    (best current : Specificity) (rest : List Part) :
    greatestSpecificity best current (part :: rest) =
      greatestSpecificity best (current.add part.specificity) rest := by
  cases part <;> simp_all [greatestSpecificity]

section

variable (best : Specificity) (current : Counts) (rest : List Part)

/-- A part adds what it counts for to what was counted before. -/
theorem greatestSpecificity_of_part {part : Part} {counts : Counts} (inCompound : InCompound part)
    (isCounted : part.specificity = counts.rounded) :
    greatestSpecificity best current.rounded (part :: rest) =
      greatestSpecificity best (current + counts).rounded rest := by
  rw [greatestSpecificity_cons inCompound.1, isCounted, Counts.rounded_add]

theorem Head.specificity_part (head : Head) : head.part.specificity = head.counts.rounded := by
  cases head <;> rfl

theorem greatestSpecificity_boundary (specificity : Specificity) :
    greatestSpecificity best specificity (.boundary :: rest) =
      greatestSpecificity best specificity rest := by
  have nothing : specificity.add {} = specificity := by
    simp [Specificity.add]
  rw [greatestSpecificity_cons Part.noConfusion, Part.specificity, nothing]

theorem Combinator.greatestSpecificity_parts (specificity : Specificity)
    (combinator : Combinator) :
    greatestSpecificity best specificity (combinator.parts ++ rest) =
      greatestSpecificity best specificity rest := by
  cases combinator <;>
    simp only [parts, List.cons_append, List.nil_append, greatestSpecificity_boundary]

end

theorem specificity_list {parts : List Part} {counts : Counts}
    (greatest : greatestSpecificity (0 : Counts).rounded {} parts = (max 0 counts).rounded) :
    (Part.list parts).specificity = counts.rounded := by
  rw [max_eq_right counts.zero_le] at greatest
  exact greatest

mutual

theorem Simple.specificity_part : (simple : Simple) → simple.Fits →
    simple.part.specificity = simple.counts.rounded
  | .id _, _ => rfl
  | .className _, _ => rfl
  | .attribute _, _ => rfl
  | .pseudoClass name, _ => by
      rw [Simple.part, Simple.counts]
      split <;> rfl
  | .pseudoElement _, _ => rfl
  | .function .anywhere _, _ => rfl
  | .function .not argument, fits =>
      specificity_list (argument.greatestSpecificity_parts Counts.fits_zero fits)
  | .function .is argument, fits =>
      specificity_list (argument.greatestSpecificity_parts Counts.fits_zero fits)
  | .function .has argument, fits =>
      specificity_list (argument.greatestSpecificity_parts Counts.fits_zero fits)

theorem Simples.greatestSpecificity_parts (best : Specificity) (current : Counts)
    (rest : List Part) : (simples : Simples) → simples.Fits →
      greatestSpecificity best current.rounded (simples.parts ++ rest) =
        greatestSpecificity best (current + simples.counts).rounded rest
  | .nil, _ => rfl
  | .cons first later, ⟨fits, laterFits⟩ => by
      rw [Simples.parts, Simples.counts, List.cons_append,
        greatestSpecificity_of_part _ _ _ first.inCompound_part (first.specificity_part fits),
        later.greatestSpecificity_parts _ _ _ laterFits, Counts.add_assoc]

theorem Compound.greatestSpecificity_parts (best : Specificity) (current : Counts)
    (rest : List Part) : (compound : Compound) → compound.Fits →
      greatestSpecificity best current.rounded (compound.parts ++ rest) =
        greatestSpecificity best (current + compound.counts).rounded rest
  | .headed head later, fits => by
      rw [Compound.parts, Compound.counts, List.cons_append,
        greatestSpecificity_of_part _ _ _ head.inCompound_part head.specificity_part,
        later.greatestSpecificity_parts _ _ _ fits, Counts.add_assoc]
  | .bare first later, ⟨fits, laterFits⟩ => by
      rw [Compound.parts, Compound.counts, List.cons_append,
        greatestSpecificity_of_part _ _ _ first.inCompound_part (first.specificity_part fits),
        later.greatestSpecificity_parts _ _ _ laterFits, Counts.add_assoc]

theorem Complex.greatestSpecificity_parts (best : Specificity) (current : Counts)
    (rest : List Part) : (selector : Complex) → selector.Fits →
      greatestSpecificity best current.rounded (selector.parts ++ rest) =
        greatestSpecificity best (current + selector.counts).rounded rest
  | .last compound, fits => compound.greatestSpecificity_parts best current rest fits
  | .combined compound combinator later, ⟨fits, laterFits⟩ => by
      rw [Complex.parts, Complex.counts, List.append_assoc, List.append_assoc,
        compound.greatestSpecificity_parts _ _ _ fits, combinator.greatestSpecificity_parts,
        later.greatestSpecificity_parts _ _ _ laterFits, Counts.add_assoc]

theorem Selectors.greatestSpecificity_parts {best : Counts} (bestFits : best.Fits) :
    (selectors : Selectors) → selectors.Fits →
      greatestSpecificity best.rounded {} selectors.parts = (max best selectors.counts).rounded
  | .last member, ⟨countsFit, fits⟩ => by
      have added := member.greatestSpecificity_parts best.rounded 0 [] fits
      rw [List.append_nil, Counts.zero_add, greatestSpecificity,
        ← Counts.rounded_max bestFits countsFit] at added
      exact added
  | .listed member later, ⟨⟨countsFit, fits⟩, laterFits⟩ => by
      have added := member.greatestSpecificity_parts best.rounded 0
        (.comma :: .boundary :: later.parts) fits
      rw [Counts.zero_add, greatestSpecificity, ← Counts.rounded_max bestFits countsFit,
        greatestSpecificity_boundary,
        later.greatestSpecificity_parts (bestFits.max countsFit) laterFits, max_assoc] at added
      exact added

end

end Grammar

end Stylebook.Selector
