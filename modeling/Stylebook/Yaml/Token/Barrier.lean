import Stylebook.Yaml.Fault

/-!
Characters that may not occur in a YAML text.

A text is read block by block, and a block with a character that may not occur cannot be
read at all. What stands before such a block is read as usual, up to the point where the
block comes into view.
-/

namespace Stylebook.Yaml

def isPrintable (character : Char) : Bool :=
  let code := character.toNat
  code == 0x09 || code == 0x0A || code == 0x0D || (0x20 ≤ code && code ≤ 0x7E) || code == 0x85 ||
    (0xA0 ≤ code && code ≤ 0xD7FF) || (0xE000 ≤ code && code ≤ 0xFFFD) || 0x10000 ≤ code

/-! ## Blocks -/

/-- The greatest number of bytes in a block. A block holds whole characters only. -/
def blockSize : Nat := 16384

/-- The offset in bytes of the first character that may not occur, after that of its
block. Blocks and characters are counted from the given offsets. -/
def badCharacter? (block offset : Nat) : List Char → Option (Nat × Nat)
  | [] => none
  | character :: rest =>
      let next := offset + character.utf8Size
      let block := if next > block + blockSize then offset else block
      if isPrintable character then badCharacter? block next rest else some (block, offset)

/-! ## Barriers -/

structure Barrier where
  index : Nat
  fault : Fault
  deriving Repr

/-- The number of bytes that have to be in view where a token begins. -/
def lookahead : Nat := 4

def Barrier.isNear (barrier : Barrier) (mark : Mark) : Bool :=
  decide (barrier.index < mark.index + lookahead)

def barrier? (text : List Char) : Option Barrier :=
  (badCharacter? 0 0 text).map fun (block, offset) =>
    ⟨block, ⟨.controlCharacter, {}, offset, none⟩⟩

end Stylebook.Yaml
