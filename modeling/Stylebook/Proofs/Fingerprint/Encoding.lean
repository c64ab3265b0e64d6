import Stylebook.Analysis.Options

/-!
Encoded content can be told apart. A part of an encoding shows where it ends, so equal bytes
hold equal parts one after the other, and trees with equal bytes have equal nodes. Numbers must
be below `2 ^ 64`, and so must the lengths of texts and lists.
-/

namespace Stylebook

namespace Encoding

/-! ## Numbers and texts -/

theorem length_ofNat (number : Nat) : (ofNat number).length = 8 := by
  rw [ofNat, List.length_map, List.length_range]

/-- A number is known by its digits. -/
private theorem eq_of_digits {count : Nat} :
    ∀ {number other : Nat}, number < Nat.pow 256 count → other < Nat.pow 256 count →
      (∀ index < count, number / Nat.pow 256 index % 256 = other / Nat.pow 256 index % 256) →
      number = other := by
  induction count with
  | zero =>
      intro number other small otherSmall _
      exact (Nat.lt_one_iff.mp small).trans (Nat.lt_one_iff.mp otherSmall).symm
  | succ count induction =>
      intro number other small otherSmall digits
      have lowest : number / 1 % 256 = other / 1 % 256 := digits 0 (Nat.zero_lt_succ count)
      have rest : number / 256 = other / 256 := by
        apply induction
        · exact Nat.div_lt_of_lt_mul (Nat.mul_comm _ 256 ▸ small)
        · exact Nat.div_lt_of_lt_mul (Nat.mul_comm _ 256 ▸ otherSmall)
        · intro index isIndex
          have shifted : Nat.pow 256 (index + 1) = 256 * Nat.pow 256 index := Nat.mul_comm _ _
          have digit := digits (index + 1) (Nat.succ_lt_succ isIndex)
          rwa [shifted, ← Nat.div_div_eq_div_mul, ← Nat.div_div_eq_div_mul] at digit
      omega

theorem ofNat_inj {number other : Nat} (sized : number < UInt64.size)
    (otherSized : other < UInt64.size) (same : ofNat number = ofNat other) : number = other := by
  have bound : UInt64.size = Nat.pow 256 8 := by decide
  apply eq_of_digits (bound ▸ sized) (bound ▸ otherSized)
  intro index isIndex
  have digit := congrArg UInt8.toNat
    (List.map_inj_left.mp same index (List.mem_range.mpr isIndex))
  simpa using digit

theorem ofNat_append_inj {number other : Nat} {rest otherRest : List UInt8}
    (sized : number < UInt64.size) (otherSized : other < UInt64.size)
    (same : ofNat number ++ rest = ofNat other ++ otherRest) :
    number = other ∧ rest = otherRest := by
  have lengths : (ofNat number).length = (ofNat other).length := by
    rw [length_ofNat, length_ofNat]
  rcases List.append_inj same lengths with ⟨numbers, rests⟩
  exact ⟨ofNat_inj sized otherSized numbers, rests⟩

theorem utf8_inj {text other : String} (same : utf8 text = utf8 other) : text = other := by
  rw [utf8, utf8, String.toUTF8_eq_toByteArray, String.toUTF8_eq_toByteArray] at same
  exact String.toByteArray_inj.mp (ByteArray.ext (Array.toList_inj.mp same))

theorem ofText_append_inj {text other : String} {rest otherRest : List UInt8}
    (sized : (utf8 text).length < UInt64.size) (otherSized : (utf8 other).length < UInt64.size)
    (same : ofText text ++ rest = ofText other ++ otherRest) :
    text = other ∧ rest = otherRest := by
  rw [ofText, ofText, List.append_assoc, List.append_assoc] at same
  rcases ofNat_append_inj sized otherSized same with ⟨lengths, same⟩
  rcases List.append_inj same lengths with ⟨texts, rests⟩
  exact ⟨utf8_inj texts, rests⟩

theorem toBits_inj : ∀ {number other : Float}, number.toBits = other.toBits → number = other
  | ⟨⟨_, _⟩⟩, ⟨⟨_, _⟩⟩, rfl => rfl

theorem ofFloat_append_inj {number other : Float} {rest otherRest : List UInt8}
    (same : ofFloat number ++ rest = ofFloat other ++ otherRest) :
    number = other ∧ rest = otherRest := by
  rcases ofNat_append_inj number.toBits.toNat_lt other.toBits.toNat_lt same with ⟨bits, rests⟩
  exact ⟨toBits_inj (UInt64.toNat_inj.mp bits), rests⟩

/-! ## Lists -/

/-- A list can be told apart once its length is known. -/
theorem flatMap_append_inj {Value : Type} {encode : Value → List UInt8} {sized : Value → Prop}
    (delimited : ∀ value other rest otherRest, sized value → sized other →
      encode value ++ rest = encode other ++ otherRest → value = other ∧ rest = otherRest)
    {rest otherRest : List UInt8} :
    ∀ {values others : List Value}, (∀ value ∈ values, sized value) →
      (∀ value ∈ others, sized value) → values.length = others.length →
      values.flatMap encode ++ rest = others.flatMap encode ++ otherRest →
      values = others ∧ rest = otherRest
  | [], [], _, _, _, same => ⟨rfl, same⟩
  | value :: values, other :: others, allSized, othersSized, lengths, same => by
      rw [List.forall_mem_cons] at allSized othersSized
      rw [List.flatMap_cons, List.flatMap_cons, List.append_assoc, List.append_assoc] at same
      rcases delimited _ _ _ _ allSized.1 othersSized.1 same with ⟨rfl, later⟩
      rcases flatMap_append_inj delimited allSized.2 othersSized.2
        (Nat.succ.inj lengths) later with ⟨rfl, rests⟩
      exact ⟨rfl, rests⟩

end Encoding

/-! ## Declarations and nodes -/

structure Declaration.Sized (declaration : Declaration) : Prop where
  property : (Encoding.utf8 declaration.property).length < UInt64.size
  value : (Encoding.utf8 declaration.value).length < UInt64.size

structure Visit.Sized (visit : Visit) : Prop where
  depth : visit.depth < UInt64.size
  identifier : (Encoding.utf8 visit.node.identifier).length < UInt64.size
  declarations : visit.node.declarations.length < UInt64.size
  declaration : ∀ declaration ∈ visit.node.declarations, declaration.Sized
  children : visit.node.children.length < UInt64.size

/-- A tree as any is that fits into a memory with addresses of 64 bits. -/
structure StyleTree.Sized (tree : StyleTree) : Prop where
  roots : tree.roots.length < UInt64.size
  visit : ∀ visit ∈ tree.walk, visit.Sized

instance (declaration : Declaration) : Decidable declaration.Sized :=
  decidable_of_iff
    ((Encoding.utf8 declaration.property).length < UInt64.size ∧
      (Encoding.utf8 declaration.value).length < UInt64.size)
    ⟨fun holds => ⟨holds.1, holds.2⟩, fun sized => ⟨sized.property, sized.value⟩⟩

instance (visit : Visit) : Decidable visit.Sized :=
  decidable_of_iff
    (visit.depth < UInt64.size ∧ (Encoding.utf8 visit.node.identifier).length < UInt64.size ∧
      visit.node.declarations.length < UInt64.size ∧
      (∀ declaration ∈ visit.node.declarations, declaration.Sized) ∧
      visit.node.children.length < UInt64.size)
    ⟨fun holds => ⟨holds.1, holds.2.1, holds.2.2.1, holds.2.2.2.1, holds.2.2.2.2⟩,
      fun sized =>
        ⟨sized.depth, sized.identifier, sized.declarations, sized.declaration, sized.children⟩⟩

instance (tree : StyleTree) : Decidable tree.Sized :=
  decidable_of_iff (tree.roots.length < UInt64.size ∧ ∀ visit ∈ tree.walk, visit.Sized)
    ⟨fun holds => ⟨holds.1, holds.2⟩, fun sized => ⟨sized.roots, sized.visit⟩⟩

namespace Encoding

variable {rest otherRest : List UInt8}

theorem ofDeclaration_append_inj {declaration other : Declaration} (sized : declaration.Sized)
    (otherSized : other.Sized)
    (same : ofDeclaration declaration ++ rest = ofDeclaration other ++ otherRest) :
    declaration = other ∧ rest = otherRest := by
  rw [ofDeclaration, ofDeclaration, List.append_assoc, List.append_assoc] at same
  rcases ofText_append_inj sized.property otherSized.property same with ⟨properties, same⟩
  rcases ofText_append_inj sized.value otherSized.value same with ⟨values, rests⟩
  cases declaration
  cases other
  cases properties
  cases values
  exact ⟨rfl, rests⟩

theorem ofVisit_append_inj {visit other : Visit} (sized : visit.Sized) (otherSized : other.Sized)
    (same : ofVisit visit ++ rest = ofVisit other ++ otherRest) :
    visit.node.identifier = other.node.identifier ∧
      visit.node.declarations = other.node.declarations ∧
      visit.node.children.length = other.node.children.length ∧ rest = otherRest := by
  simp only [ofVisit, ofDeclarations, List.append_assoc] at same
  rcases ofNat_append_inj sized.depth otherSized.depth same with ⟨_, same⟩
  rcases ofText_append_inj sized.identifier otherSized.identifier same with ⟨identifiers, same⟩
  rcases ofNat_append_inj sized.declarations otherSized.declarations same with ⟨lengths, same⟩
  rcases flatMap_append_inj (fun _ _ _ _ => ofDeclaration_append_inj) sized.declaration
    otherSized.declaration lengths same with ⟨declarations, same⟩
  rcases ofNat_append_inj sized.children otherSized.children same with ⟨children, rests⟩
  exact ⟨identifiers, declarations, children, rests⟩

mutual

/-- The bytes of a node with its descendants tell it apart. The lineage does not show in them,
so it need not be the same for both nodes. -/
private theorem visits_append_inj (path : NodePath) (lineage otherLineage : List String)
    {rest otherRest : List UInt8} :
    (node other : StyleNode) →
      (∀ visit ∈ node.visits path lineage none, visit.Sized) →
      (∀ visit ∈ other.visits path otherLineage none, visit.Sized) →
      (node.visits path lineage none).flatMap ofVisit ++ rest =
        (other.visits path otherLineage none).flatMap ofVisit ++ otherRest →
      node = other ∧ rest = otherRest
  | ⟨identifier, declarations, children⟩, ⟨otherIdentifier, otherDeclarations, otherChildren⟩,
      sized, otherSized, same => by
      simp only [StyleNode.visits, reduceCtorEq, if_false, levelsBelow, List.forall_mem_cons,
        List.flatMap_cons, List.append_assoc] at sized otherSized same
      rcases ofVisit_append_inj sized.1 otherSized.1 same with
        ⟨identifiers, sameDeclarations, lengths, same⟩
      rcases siblingVisits_append_inj path lineage otherLineage 0 children otherChildren
        sized.2 otherSized.2 lengths same with ⟨sameChildren, rests⟩
      cases identifiers
      cases sameDeclarations
      cases sameChildren
      exact ⟨rfl, rests⟩

private theorem siblingVisits_append_inj (path : NodePath) (lineage otherLineage : List String)
    (index : Nat) {rest otherRest : List UInt8} :
    (siblings others : List StyleNode) →
      (∀ visit ∈ siblingVisits path lineage none index siblings, visit.Sized) →
      (∀ visit ∈ siblingVisits path otherLineage none index others, visit.Sized) →
      siblings.length = others.length →
      (siblingVisits path lineage none index siblings).flatMap ofVisit ++ rest =
        (siblingVisits path otherLineage none index others).flatMap ofVisit ++ otherRest →
      siblings = others ∧ rest = otherRest
  | [], [], _, _, _, same => ⟨rfl, same⟩
  | node :: siblings, other :: others, sized, otherSized, lengths, same => by
      simp only [siblingVisits, List.forall_mem_append, List.flatMap_append,
        List.append_assoc] at sized otherSized same
      rcases visits_append_inj (path.child index) _ _ node other sized.1 otherSized.1 same with
        ⟨nodes, same⟩
      rcases siblingVisits_append_inj path lineage otherLineage (index + 1) siblings others
        sized.2 otherSized.2 (Nat.succ.inj lengths) same with ⟨rfl, rests⟩
      exact ⟨by rw [nodes], rests⟩

end

/-- Trees with equal bytes have equal nodes. -/
theorem roots_eq_of_ofTree_eq {tree other : StyleTree} (sized : tree.Sized)
    (otherSized : other.Sized) (same : ofTree tree = ofTree other) : tree.roots = other.roots := by
  rw [ofTree, ofTree, List.append_assoc, List.append_assoc] at same
  have same := List.append_cancel_left same
  rcases ofNat_append_inj sized.roots otherSized.roots same with ⟨lengths, same⟩
  rw [← List.append_nil (tree.walk.flatMap _), ← List.append_nil (other.walk.flatMap _)] at same
  exact (siblingVisits_append_inj [] [] [] 0 tree.roots other.roots sized.visit otherSized.visit
    lengths same).1

end Encoding

/-! ## Options -/

structure Options.Sized (options : Options) : Prop where
  frequency : options.minimumFrequency < UInt64.size
  depth : options.maximumDepth < UInt64.size

theorem Options.content_inj {options other : Options} (sized : options.Sized)
    (otherSized : other.Sized) (same : options.content = other.content) : options = other := by
  simp only [content, List.append_assoc] at same
  have same := List.append_cancel_left same
  rcases Encoding.ofFloat_append_inj same with ⟨cohesions, same⟩
  rcases Encoding.ofNat_append_inj sized.frequency otherSized.frequency same with
    ⟨frequencies, same⟩
  have depths := Encoding.ofNat_inj sized.depth otherSized.depth same
  cases options
  cases other
  cases cohesions
  cases frequencies
  cases depths
  rfl

end Stylebook
