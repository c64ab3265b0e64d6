import Stylebook.Hash.Sha256
import Stylebook.Text
import Stylebook.Tree.Walk

/-!
Fingerprints: digests of content. Equal content has equal fingerprints, wherever it came from.

Content is digested as bytes. Numbers have eight bytes, and the length of a text stands before it,
so that neighbouring parts cannot run into each other.
-/

namespace Stylebook

namespace Encoding

/-- A number below `2 ^ 64` as eight bytes, the least significant first. -/
def ofNat (number : Nat) : List UInt8 :=
  (List.range 8).map fun index => (number / Nat.pow 256 index).toUInt8

def ofFloat (number : Float) : List UInt8 := ofNat number.toBits.toNat

def utf8 (text : String) : List UInt8 := text.toUTF8.data.toList

def ofText (text : String) : List UInt8 := ofNat (utf8 text).length ++ utf8 text

def ofDeclaration (declaration : Declaration) : List UInt8 :=
  ofText declaration.property ++ ofText declaration.value

def ofDeclarations (declarations : List Declaration) : List UInt8 :=
  ofNat declarations.length ++ declarations.flatMap ofDeclaration

/-- A visited node with its depth. Its children follow it in the walk, so their number is
enough here. -/
def ofVisit (visit : Visit) : List UInt8 :=
  ofNat visit.depth ++ ofText visit.node.identifier ++
    ofDeclarations visit.node.declarations ++ ofNat visit.node.children.length

def ofTree (tree : StyleTree) : List UInt8 :=
  ofText "tree" ++ ofNat tree.roots.length ++ tree.walk.flatMap ofVisit

end Encoding

structure Fingerprint where
  bytes : List UInt8
  deriving DecidableEq, Repr, Inhabited

namespace Fingerprint

def ofContent (content : List UInt8) : Fingerprint := ⟨Sha256.digest content⟩

def hex (fingerprint : Fingerprint) : String := Text.hex fingerprint.bytes

def summary (fingerprint : Fingerprint) : String :=
  "Fingerprint(" ++ Text.hex (fingerprint.bytes.take 8) ++ ")"

end Fingerprint

/-- The fingerprint of the content of a tree; the file it came from does not count. -/
def StyleTree.fingerprint (tree : StyleTree) : Fingerprint :=
  .ofContent (Encoding.ofTree tree)

end Stylebook
