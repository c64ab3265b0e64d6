import Stylebook.Fingerprint

/-!
Signatures of declaration sets. Two nodes declare the same if their declarations are
equal as sets; the canonical list of a set is sorted and has no repetitions.
-/

namespace Stylebook

def withoutRepeats : List Declaration → List Declaration
  | [] => []
  | [last] => [last]
  | first :: second :: rest =>
      if first = second then withoutRepeats (second :: rest)
      else first :: withoutRepeats (second :: rest)

def canonical (declarations : List Declaration) : List Declaration :=
  withoutRepeats (declarations.mergeSort Declaration.le)

structure Signature where
  bytes : List UInt8
  deriving DecidableEq, Repr, Inhabited

namespace Signature

def content (canonical : List Declaration) : List UInt8 :=
  Encoding.ofText "declarations" ++ Encoding.ofDeclarations canonical

def ofCanonical (canonical : List Declaration) : Signature := ⟨Sha256.digest (content canonical)⟩

def ofDeclarations (declarations : List Declaration) : Signature :=
  ofCanonical (canonical declarations)

def text (signature : Signature) : String := Text.hex signature.bytes

def short (signature : Signature) : String := Text.hex (signature.bytes.take 4)

/-- Signatures are ordered by their bytes, which is also the order of their digits. -/
def le (first second : Signature) : Bool :=
  !second.bytes.lex first.bytes

end Signature

end Stylebook
