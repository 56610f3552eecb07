import M68k.MicroOp
import M68k.Size

/-!
# Addressing modes

The twelve ways an opcode can name an operand, and the actions that resolve them.

## Main definitions

* `AddressMode`: the modes
* `AddressMode.decode?`, `AddressMode.ofField?`: the mode that opcode fields select
* `AddressMode.action`: how the operand's address is computed
* `stride`: how far a register steps past an operand
-/

namespace M68k

/-- An addressing mode. -/
inductive AddressMode
  /-- A data register. -/
  | dataRegister
  /-- An address register. -/
  | addressRegister
  /-- Memory at an address register. -/
  | indirect
  /-- Memory at an address register, which then steps past the operand. -/
  | postIncrement
  /-- Memory just below an address register, which first steps over the operand. -/
  | preDecrement
  /-- Memory at an address register plus a displacement. -/
  | displacement
  /-- Memory at an address register plus an index and a displacement. -/
  | index
  /-- Memory at a word address. -/
  | absoluteShort
  /-- Memory at a long address. -/
  | absoluteLong
  /-- Memory at the program counter plus a displacement. -/
  | pcDisplacement
  /-- Memory at the program counter plus an index and a displacement. -/
  | pcIndex
  /-- The words after the opcode. -/
  | immediate
deriving DecidableEq, Repr

namespace AddressMode

/-- The mode of a mode field and a register field, of each of which the low three bits count. Mode 7
is split by the register field, whose values 5 to 7 mean nothing. -/
def decode? (mode register : Nat) : Option AddressMode :=
  match mode % 8, register % 8 with
  | 0, _ => some dataRegister
  | 1, _ => some addressRegister
  | 2, _ => some indirect
  | 3, _ => some postIncrement
  | 4, _ => some preDecrement
  | 5, _ => some displacement
  | 6, _ => some index
  | 7, 0 => some absoluteShort
  | 7, 1 => some absoluteLong
  | 7, 2 => some pcDisplacement
  | 7, 3 => some pcIndex
  | 7, 4 => some immediate
  | _, _ => none

/-- The mode of the effective-address field in the low six bits of an opcode. -/
def ofField? (opcode : Word) : Option AddressMode := decode? (opcode.toNat / 8) opcode.toNat

/-- The operand is a register. -/
def isRegister : AddressMode → Bool
  | dataRegister | addressRegister => true
  | _ => false

/-- The address is relative to the program counter. -/
def isPcRelative : AddressMode → Bool
  | pcDisplacement | pcIndex => true
  | _ => false

/-- The mode adds an index register, which costs one idle step. -/
def isIndexed : AddressMode → Bool
  | index | pcIndex => true
  | _ => false

/-- Memory that a result can be written back to. -/
def isMemoryAlterable (mode : AddressMode) : Bool :=
  !mode.isRegister && !mode.isPcRelative && mode != immediate

/-- The action that computes the address from a displacement, an index or an absolute address in
the prefetch queue. -/
def action : AddressMode → Action
  | displacement => .address .displacement
  | index => .address .index
  | pcDisplacement => .address .pcDisplacement
  | pcIndex => .address .pcIndex
  | absoluteShort => .address .short
  | absoluteLong => .address .long
  | _ => .none

/-- How a mode is written in a listing. -/
def name : AddressMode → String
  | dataRegister => "DataReg"
  | addressRegister => "AddrReg"
  | indirect => "AddrInd"
  | postIncrement => "AddrIndPostInc"
  | preDecrement => "AddrIndPreDec"
  | displacement => "AddrIndDisp"
  | index => "AddrIndIndex"
  | absoluteShort => "AbsShort"
  | absoluteLong => "AbsLong"
  | pcDisplacement => "PcDisp"
  | pcIndex => "PcIndex"
  | immediate => "Immediate"

end AddressMode

/-- How far address register number `register` steps past an operand of `size`. Bytes step register
7, the stack pointer, by two, which keeps it even. -/
def stride (size : Size) (register : RegisterNumber) : Stride :=
  match size with
  | .long => .four
  | .word => .two
  | .byte => if register = 7 then .two else .one

end M68k
