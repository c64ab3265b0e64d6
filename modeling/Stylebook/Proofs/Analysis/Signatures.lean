import Stylebook.Proofs.Fingerprint.Domains

/-!
Signatures of canonical lists. A canonical list holds declarations of the set that it is made
from and no more of them, and the bytes under its digest tell what it holds. So signatures tell
declaration sets apart for as long as no two digests collide.
-/

namespace Stylebook

/-! ## Canonical lists -/

theorem withoutRepeats_sublist :
    (declarations : List Declaration) → (withoutRepeats declarations).Sublist declarations
  | [] => .slnil
  | [last] => .refl [last]
  | first :: second :: rest => by
      have later := withoutRepeats_sublist (second :: rest)
      rw [withoutRepeats]
      split
      · exact later.cons first
      · exact later.cons_cons first

theorem mem_of_mem_canonical {declarations : List Declaration} {declaration : Declaration}
    (member : declaration ∈ canonical declarations) : declaration ∈ declarations :=
  List.mem_mergeSort.mp ((withoutRepeats_sublist _).subset member)

theorem length_canonical_le (declarations : List Declaration) :
    (canonical declarations).length ≤ declarations.length := by
  have sorted := (withoutRepeats_sublist (declarations.mergeSort Declaration.le)).length_le
  rwa [List.length_mergeSort] at sorted

/-! ## Content -/

theorem Signature.content_inj {first second : List Declaration}
    (length : first.length < UInt64.size) (sized : ∀ declaration ∈ first, declaration.Sized)
    (otherLength : second.length < UInt64.size)
    (otherSized : ∀ declaration ∈ second, declaration.Sized)
    (same : content first = content second) : first = second := by
  rw [content, content, Encoding.ofDeclarations, Encoding.ofDeclarations] at same
  have same := List.append_cancel_left same
  rcases Encoding.ofNat_append_inj length otherLength same with ⟨lengths, same⟩
  rw [← List.append_nil (first.flatMap _), ← List.append_nil (second.flatMap _)] at same
  exact (Encoding.flatMap_append_inj (fun _ _ _ _ => Encoding.ofDeclaration_append_inj) sized
    otherSized lengths same).1

/-! ## Collisions -/

/-- Declaration sets of the tree have one digest only if they have one content. -/
def StyleTree.CollisionFree (tree : StyleTree) : Prop :=
  ∀ visit ∈ tree.walk, ∀ other ∈ tree.walk,
    Sha256.digest (Signature.content (canonical visit.node.declarations)) =
        Sha256.digest (Signature.content (canonical other.node.declarations)) →
      Signature.content (canonical visit.node.declarations) =
        Signature.content (canonical other.node.declarations)

instance (tree : StyleTree) : Decidable tree.CollisionFree :=
  inferInstanceAs (Decidable (∀ visit ∈ tree.walk, ∀ other ∈ tree.walk, _ → _))

theorem StyleTree.CollisionFree.canonical_eq {tree : StyleTree} (collisionFree : tree.CollisionFree)
    (sized : tree.Sized) {visit other : Visit} (isVisit : visit ∈ tree.walk)
    (otherIsVisit : other ∈ tree.walk)
    (same : Signature.ofDeclarations visit.node.declarations =
      Signature.ofDeclarations other.node.declarations) :
    canonical visit.node.declarations = canonical other.node.declarations := by
  have lengths : ∀ visited ∈ tree.walk,
      (canonical visited.node.declarations).length < UInt64.size := by
    intro visited member
    exact Nat.lt_of_le_of_lt (length_canonical_le _) (sized.visit visited member).declarations
  have allSized : ∀ visited ∈ tree.walk,
      ∀ declaration ∈ canonical visited.node.declarations, declaration.Sized := by
    intro visited member declaration isDeclaration
    exact (sized.visit visited member).declaration declaration (mem_of_mem_canonical isDeclaration)
  injection same with digests
  exact Signature.content_inj (lengths visit isVisit) (allSized visit isVisit)
    (lengths other otherIsVisit) (allSized other otherIsVisit)
    (collisionFree visit isVisit other otherIsVisit digests)

end Stylebook
