import M68k.Word

/-!
# Operand sizes

An instruction works on a byte, a word or a long word. Operands travel in long words, of which a
size selects the low bits.

## Main definitions

* `Size`: byte, word or long word
* `Size.mask`, `Size.msb`: the selected bits and the sign bit among them
* `Size.signExtend`, `Size.merge`: widening a value, and replacing the low part of a register
-/

namespace M68k

/-- Operand size. -/
inductive Size
  | byte
  | word
  | long
deriving DecidableEq, Repr, Inhabited

namespace Size

/-- The common two-bit size field: 0, 1 and 2 are byte, word and long word, and 3 is no size. -/
def ofField? (bits : Word) : Option Size :=
  match (bits &&& 3).toNat with
  | 0 => some byte
  | 1 => some word
  | 2 => some long
  | _ => none

/-- Bytes in an operand. -/
def bytes : Size → Nat
  | byte => 1
  | word => 2
  | long => 4

/-- Bits in an operand. -/
def bits (size : Size) : Nat := size.bytes * 8

/-- The bits of a long word that belong to the operand. -/
def mask : Size → Long
  | byte => 0xFF
  | word => 0xFFFF
  | long => 0xFFFFFFFF

/-- The operand's sign bit. -/
def msb : Size → Long
  | byte => 0x80
  | word => 0x8000
  | long => 0x80000000

/-- Extend the sign of the low bits of `value` to the whole long word. -/
def signExtend : Size → Long → Long
  | byte, value => (value.setWidth 8).signExtend 32
  | word, value => (value.setWidth 16).signExtend 32
  | long, value => value

/-- Replace the low bits of `target` by those of `value`. -/
def merge (size : Size) (target value : Long) : Long :=
  (target &&& ~~~size.mask) ||| (value &&& size.mask)

/-- How the size is written in a listing. -/
def name : Size → String
  | byte => "Byte"
  | word => "Word"
  | long => "Long"

end Size

end M68k
