import Stylebook.Proofs.Selector.Specificity

/-!
The profile of a selector list of the grammar. Besides the specificity it has the number of
compounds of the longest member and the number of universal selectors.
-/

namespace Stylebook.Selector

open Css

/-! ## Members -/

theorem countCompounds_eq (count : Nat) (within : Bool) (parts : List Part) :
    countCompounds count within parts = count + compoundCount within parts := by
  induction parts generalizing count within with
  | nil => rfl
  | cons part rest induction =>
      rw [compoundCount]
      cases part with
      | comma => exact induction count within
      | boundary => exact induction count false
      | _ =>
          have later := congrArg (count + ·) (induction (if within then 0 else 1) true)
          refine (induction _ true).trans (Eq.trans ?_ later.symm)
          cases within with
          | true => rw [if_pos rfl, if_pos rfl, Nat.zero_add]
          | false => rw [if_neg Bool.noConfusion, if_neg Bool.noConfusion, Nat.add_assoc]

theorem compoundCount_of_inCompound {part : Part} (inCompound : InCompound part) (within : Bool)
    (rest : List Part) :
    compoundCount within (part :: rest) = (if within then 0 else 1) + compoundCount true rest := by
  cases part with
  | comma => exact absurd rfl inCompound.1
  | boundary => exact absurd rfl inCompound.2
  | _ => exact countCompounds_eq _ true rest

theorem memberParts_nil : memberParts [] = [[]] := rfl

theorem memberParts_ne_nil (parts : List Part) : memberParts parts ≠ [] := by
  cases parts with
  | nil => exact List.cons_ne_nil _ _
  | cons part rest =>
      rw [memberParts, List.foldr_cons]
      generalize rest.foldr putBefore [[]] = members
      fun_cases putBefore part members <;> exact List.cons_ne_nil _ _

theorem memberParts_comma (rest : List Part) :
    memberParts (.comma :: rest) = [] :: memberParts rest := rfl

theorem memberParts_cons {part : Part} (notComma : part ≠ .comma) (rest : List Part) :
    memberParts (part :: rest) = (memberParts rest).modifyHead (part :: ·) := by
  rcases List.exists_cons_of_ne_nil (memberParts_ne_nil rest) with ⟨member, later, isCons⟩
  rw [memberParts, List.foldr_cons, ← memberParts, isCons, putBefore, List.modifyHead_cons]
  exact notComma

/-- Parts without a comma belong to the first member of what follows. -/
theorem memberParts_append {parts : List Part} (noComma : .comma ∉ parts) (rest : List Part) :
    memberParts (parts ++ rest) = (memberParts rest).modifyHead (parts ++ ·) := by
  induction parts with
  | nil => exact (congrFun List.modifyHead_id _).symm
  | cons part later induction =>
      rw [List.mem_cons, not_or] at noComma
      rw [List.cons_append, memberParts_cons (Ne.symm noComma.1), induction noComma.2,
        List.modifyHead_modifyHead]
      rfl

theorem memberParts_append_comma {member : List Part} (noComma : .comma ∉ member)
    (rest : List Part) : memberParts (member ++ .comma :: rest) = member :: memberParts rest := by
  rw [memberParts_append noComma, memberParts_comma, List.modifyHead_cons, List.append_nil]

theorem memberParts_eq_singleton {member : List Part} (noComma : .comma ∉ member) :
    memberParts member = [member] := by
  have single := memberParts_append noComma []
  rwa [List.append_nil, memberParts_nil, List.modifyHead_cons, List.append_nil] at single

/-- A boundary before the first compound of a member does not count. -/
theorem map_compoundCount_boundary (parts : List Part) :
    (memberParts (.boundary :: parts)).map (compoundCount false) =
      (memberParts parts).map (compoundCount false) := by
  rcases List.exists_cons_of_ne_nil (memberParts_ne_nil parts) with ⟨member, later, isCons⟩
  rw [memberParts_cons Part.noConfusion, isCons, List.modifyHead_cons, List.map_cons,
    List.map_cons]
  rfl

namespace Grammar

/-! ## Compounds -/

def Complex.length : Complex → Nat
  | .last _ => 1
  | .combined _ _ rest => 1 + rest.length

def Selectors.compounds : Selectors → Nat
  | .last member => member.length
  | .listed member rest => max member.length rest.compounds

theorem Combinator.noComma_parts (combinator : Combinator) : .comma ∉ combinator.parts := by
  cases combinator <;> simp [parts]

mutual

theorem Simples.noComma_parts : (simples : Simples) → .comma ∉ simples.parts
  | .nil => List.not_mem_nil
  | .cons first later =>
      List.not_mem_cons_of_ne_of_not_mem (Ne.symm first.inCompound_part.1) later.noComma_parts

theorem Compound.noComma_parts : (compound : Compound) → .comma ∉ compound.parts
  | .headed head later =>
      List.not_mem_cons_of_ne_of_not_mem (Ne.symm head.inCompound_part.1) later.noComma_parts
  | .bare first later =>
      List.not_mem_cons_of_ne_of_not_mem (Ne.symm first.inCompound_part.1) later.noComma_parts

theorem Complex.noComma_parts : (selector : Complex) → .comma ∉ selector.parts
  | .last compound => compound.noComma_parts
  | .combined compound combinator later => by
      rw [Complex.parts, List.mem_append, List.mem_append, not_or, not_or]
      exact ⟨compound.noComma_parts, combinator.noComma_parts, later.noComma_parts⟩

end

theorem Combinator.compoundCount_parts (within : Bool) (rest : List Part)
    (combinator : Combinator) :
    compoundCount within (combinator.parts ++ rest) = compoundCount false rest := by
  cases combinator <;> rfl

mutual

theorem Simples.compoundCount_parts (rest : List Part) : (simples : Simples) →
    compoundCount true (simples.parts ++ rest) = compoundCount true rest
  | .nil => rfl
  | .cons first later => by
      rw [Simples.parts, List.cons_append, compoundCount_of_inCompound first.inCompound_part,
        later.compoundCount_parts, if_pos rfl, Nat.zero_add]

theorem Compound.compoundCount_parts (rest : List Part) : (compound : Compound) →
    compoundCount false (compound.parts ++ rest) = 1 + compoundCount true rest
  | .headed head later => by
      rw [Compound.parts, List.cons_append, compoundCount_of_inCompound head.inCompound_part,
        later.compoundCount_parts]
      rfl
  | .bare first later => by
      rw [Compound.parts, List.cons_append, compoundCount_of_inCompound first.inCompound_part,
        later.compoundCount_parts]
      rfl

theorem Complex.compoundCount_parts : (selector : Complex) →
    compoundCount false selector.parts = selector.length
  | .last compound => by
      have counted := compound.compoundCount_parts []
      rwa [List.append_nil] at counted
  | .combined compound combinator later => by
      rw [Complex.parts, Complex.length, compound.compoundCount_parts,
        combinator.compoundCount_parts, later.compoundCount_parts]

theorem Selectors.foldl_compoundCount_parts (longest : Nat) : (selectors : Selectors) →
    ((memberParts selectors.parts).map (compoundCount false)).foldl Nat.max longest =
      max longest selectors.compounds
  | .last member => by
      rw [Selectors.parts, memberParts_eq_singleton member.noComma_parts, List.map_singleton,
        member.compoundCount_parts]
      rfl
  | .listed member later => by
      rw [Selectors.parts, memberParts_append_comma member.noComma_parts, List.map_cons,
        map_compoundCount_boundary, member.compoundCount_parts, List.foldl_cons,
        later.foldl_compoundCount_parts, Selectors.compounds, ← max_assoc]

end

/-! ## Universal selectors -/

def Compound.universal : Compound → Nat
  | .headed .universal _ => 1
  | _ => 0

def Complex.universal : Complex → Nat
  | .last compound => compound.universal
  | .combined compound _ rest => compound.universal + rest.universal

/-- How many compounds begin with `*`, those in arguments left aside. -/
def Selectors.universal : Selectors → Nat
  | .last member => member.universal
  | .listed member rest => member.universal + rest.universal

theorem Simple.isUniversal_part (simple : Simple) : isUniversal simple.part = false := by
  cases simple with
  | pseudoClass name =>
      rw [part]
      split <;> rfl
  | function kind argument => cases kind <;> rfl
  | _ => rfl

theorem Combinator.countP_parts (combinator : Combinator) :
    combinator.parts.countP isUniversal = 0 := by
  cases combinator <;> rfl

mutual

theorem Simples.countP_parts : (simples : Simples) → simples.parts.countP isUniversal = 0
  | .nil => rfl
  | .cons first later => by
      rw [Simples.parts, List.countP_cons, first.isUniversal_part, later.countP_parts]
      rfl

theorem Compound.countP_parts : (compound : Compound) →
    compound.parts.countP isUniversal = compound.universal
  | .headed head later => by
      rw [Compound.parts, List.countP_cons, later.countP_parts]
      cases head <;> rfl
  | .bare first later => by
      rw [Compound.parts, List.countP_cons, first.isUniversal_part, later.countP_parts]
      rfl

theorem Complex.countP_parts : (selector : Complex) →
    selector.parts.countP isUniversal = selector.universal
  | .last compound => compound.countP_parts
  | .combined compound combinator later => by
      rw [Complex.parts, Complex.universal, List.countP_append, List.countP_append,
        compound.countP_parts, combinator.countP_parts, later.countP_parts, Nat.zero_add]

theorem Selectors.countP_parts : (selectors : Selectors) →
    selectors.parts.countP isUniversal = selectors.universal
  | .last member => member.countP_parts
  | .listed member later => by
      rw [Selectors.parts, Selectors.universal, List.countP_append, member.countP_parts,
        ← later.countP_parts]
      rfl

end

/-! ## Profile -/

theorem Selectors.parts_ofText (selectors : Selectors) :
    Selector.parts (Component.ofText (String.ofList selectors.text)) = selectors.parts := by
  have ofComponents := selectors.parts_components []
  rwa [List.append_nil, parts_nil, List.append_nil, ← selectors.ofText_text] at ofComponents

/-- The profile of the text of a selector list is that of the list. -/
theorem profile_of_text (selectors : Selectors) (fits : selectors.Fits) :
    (Profile.ofSelector (String.ofList selectors.text)).specificity.counts = selectors.counts ∧
      (Profile.ofSelector (String.ofList selectors.text)).compounds = selectors.compounds ∧
      (Profile.ofSelector (String.ofList selectors.text)).universal = selectors.universal := by
  rw [Profile.ofSelector, selectors.parts_ofText, Profile.ofParts]
  refine ⟨?_, ?_, selectors.countP_parts⟩
  · have greatest := selectors.greatestSpecificity_parts Counts.fits_zero fits
    rw [max_eq_right selectors.counts.zero_le] at greatest
    exact (congrArg Specificity.counts greatest).trans (Counts.counts_rounded fits.counts)
  · exact (selectors.foldl_compoundCount_parts 0).trans (Nat.zero_max _)

/-- `* > .a:not(#b, c)::d, e *:where(#f)` -/
def twoUniversal : Selectors :=
  .listed
    (.combined (.headed .universal .nil) .child (.last (.bare (.className (.letter 'a' rfl))
      (.cons (.function .not (.listed (.last (.bare (.id (.letter 'b' rfl)) .nil))
        (.last (.last (.headed (.type (.letter 'c' rfl)) .nil)))))
        (.cons (.pseudoElement (.letter 'd' rfl)) .nil)))))
    (.last (.combined (.headed (.type (.letter 'e' rfl)) .nil) .descendant
      (.last (.headed .universal
        (.cons (.function .anywhere (.last (.last (.bare (.id (.letter 'f' rfl)) .nil))))
          .nil)))))

theorem profile_of_twoUniversal : twoUniversal.Fits ∧
    (Profile.ofSelector "* > .a:not(#b, c)::d, e *:where(#f)").specificity.counts = ⟨1, 1, 1⟩ ∧
      (Profile.ofSelector "* > .a:not(#b, c)::d, e *:where(#f)").compounds = 2 ∧
      (Profile.ofSelector "* > .a:not(#b, c)::d, e *:where(#f)").universal = 2 := by
  have memberFits : (⟨1, 1, 1⟩ : Counts).Fits ∧ (⟨0, 0, 1⟩ : Counts).Fits := by decide
  have argumentFits : (⟨1, 0, 0⟩ : Counts).Fits ∧ (⟨0, 0, 1⟩ : Counts).Fits := by decide
  have fits : twoUniversal.Fits :=
    ⟨⟨memberFits.1, trivial, trivial, ⟨⟨argumentFits.1, trivial, trivial⟩, argumentFits.2,
      trivial⟩, trivial, trivial⟩, memberFits.2, trivial, trivial, trivial⟩
  exact ⟨fits, profile_of_text twoUniversal fits⟩

end Grammar

end Stylebook.Selector
