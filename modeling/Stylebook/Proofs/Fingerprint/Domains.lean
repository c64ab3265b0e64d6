import Stylebook.Analysis.Signature
import Stylebook.Proofs.Fingerprint.Encoding

/-!
What the bytes under a digest say. Those of two trees are equal just if the trees have equal
nodes, wherever they were read from. Those of a tree, of options and of a declaration set are
never equal, because each kind of content stands under a word of its own.
-/

namespace Stylebook.Encoding

theorem ofTree_of_roots {tree other : StyleTree} (same : tree.roots = other.roots) :
    ofTree tree = ofTree other := by
  rw [ofTree, ofTree, StyleTree.walk, StyleTree.walk, same]

/-- Content under different words is different, whatever follows the words. -/
theorem ofText_append_ne {word other : String} (different : word ≠ other)
    (sized : (utf8 word).length < UInt64.size) (otherSized : (utf8 other).length < UInt64.size)
    (rest otherRest : List UInt8) : ofText word ++ rest ≠ ofText other ++ otherRest := by
  intro same
  exact different (ofText_append_inj sized otherSized same).1

variable (tree : StyleTree) (options : Options) (declarations : List Declaration)

theorem ofTree_ne_options : ofTree tree ≠ options.content := by
  rw [ofTree, Options.content, List.append_assoc, List.append_assoc, List.append_assoc]
  exact ofText_append_ne (by decide) (by decide +kernel) (by decide +kernel) _ _

theorem ofTree_ne_declarations : ofTree tree ≠ Signature.content declarations := by
  rw [ofTree, Signature.content, List.append_assoc]
  exact ofText_append_ne (by decide) (by decide +kernel) (by decide +kernel) _ _

theorem options_ne_declarations : options.content ≠ Signature.content declarations := by
  rw [Options.content, Signature.content, List.append_assoc, List.append_assoc]
  exact ofText_append_ne (by decide) (by decide +kernel) (by decide +kernel) _ _

/-- The bytes that are hashed for a tree tell its nodes with their declarations and children,
and no more; and they are never those that are hashed for options or for a declaration set,
which differ from each other as well. -/
theorem ofTree_eq_iff_roots_eq {tree other : StyleTree} (sized : tree.Sized)
    (otherSized : other.Sized) :
    (ofTree tree = ofTree other ↔ tree.roots = other.roots) ∧
      ∀ (content : StyleTree) (options : Options) (declarations : List Declaration),
        ofTree content ≠ options.content ∧
        ofTree content ≠ Signature.content declarations ∧
        options.content ≠ Signature.content declarations := by
  refine ⟨⟨roots_eq_of_ofTree_eq sized otherSized, ofTree_of_roots⟩, ?_⟩
  intro content options declarations
  exact ⟨ofTree_ne_options content options, ofTree_ne_declarations content declarations,
    options_ne_declarations options declarations⟩

/-- A node with a child has other bytes than the two side by side, but the same bytes when it
was read from a file. -/
theorem ofTree_nested :
    let child : StyleNode := ⟨"&:hover", [⟨"color", "blue"⟩], []⟩
    let nested : StyleTree := ⟨[⟨".card", [⟨"color", "red"⟩], [child]⟩], none⟩
    let flat : StyleTree := ⟨[⟨".card", [⟨"color", "red"⟩], []⟩, child], none⟩
    nested.Sized ∧ flat.Sized ∧ (nested.withSource "card.yaml").Sized ∧
      ofTree nested ≠ ofTree flat ∧ ofTree nested = ofTree (nested.withSource "card.yaml") := by
  intro child nested flat
  have nestedSized : nested.Sized := by decide +kernel
  have flatSized : flat.Sized := by decide +kernel
  have sourcedSized : (nested.withSource "card.yaml").Sized := by decide +kernel
  refine ⟨nestedSized, flatSized, sourcedSized, ?_, ?_⟩
  · intro same
    cases (ofTree_eq_iff_roots_eq nestedSized flatSized).1.mp same
  · exact (ofTree_eq_iff_roots_eq nestedSized sourcedSized).1.mpr rfl

end Stylebook.Encoding
