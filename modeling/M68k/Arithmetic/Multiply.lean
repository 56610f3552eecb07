import M68k.Word

/-!
# Multiplication

A multiplication forms the long product of two words. Its duration depends on the bits of the
source word.

## Main definitions

* `Multiply.unsigned`, `Multiply.signed`: the products
* `Multiply.unsignedCycles`, `Multiply.signedCycles`: clock cycles taken
-/

namespace M68k.Multiply

/-- The unsigned product. -/
def unsigned (src dst : Word) : Long := src.setWidth 32 * dst.setWidth 32

/-- The signed product. -/
def signed (src dst : Word) : Long := src.signExtend 32 * dst.signExtend 32

/-- The number of set bits. -/
def setBits {n : Nat} (x : BitVec n) : Nat := (List.range n).countP x.getLsbD

/-- An unsigned multiplication takes 38 cycles, and two more for each set bit of the source. -/
def unsignedCycles (source : Word) : Nat := 38 + 2 * setBits source

/-- A signed multiplication takes 38 cycles, and two more for each neighbouring pair of unequal bits
in the source with a zero appended below it. -/
def signedCycles (source : Word) : Nat :=
  let appended := source ++ (0 : BitVec 1)
  38 + 2 * setBits ((appended ^^^ appended >>> 1).setWidth 16)

end M68k.Multiply
