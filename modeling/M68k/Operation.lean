import M68k.Word

/-!
# Operations

What an instruction does to its operands, independent of their size and of where they live.
Operations are named by their mnemonics; families that differ only in one choice share a
constructor.

## Main definitions

* `BitwiseKind`, `BitKind`, `ShiftKind`, `ListDirection`: the choices within families
* `Operation`: everything an opcode may stand for
* `Operation.name`: how an operation is written in a listing
-/

namespace M68k

/-- The bitwise combinations of two operands. -/
inductive BitwiseKind
  | and
  | or
  | eor
deriving DecidableEq, Repr

/-- Combine two operands bitwise. -/
def BitwiseKind.apply {w : Nat} : BitwiseKind → BitVec w → BitVec w → BitVec w
  | and, x, y => x &&& y
  | or, x, y => x ||| y
  | eor, x, y => x ^^^ y

/-- What happens to a single bit after it has been tested. -/
inductive BitKind
  | test
  | change
  | clear
  | set
deriving DecidableEq, Repr

/-- Apply the change to the bits of `mask` in `value`. -/
def BitKind.apply : BitKind → Long → Long → Long
  | test, value, _ => value
  | change, value, mask => value ^^^ mask
  | clear, value, mask => value &&& ~~~mask
  | set, value, mask => value ||| mask

/-- The shifts and rotates. -/
inductive ShiftKind
  | asl
  | asr
  | lsl
  | lsr
  | rol
  | ror
  | roxl
  | roxr
deriving DecidableEq, Repr

/-- Which way a register list moves. -/
inductive ListDirection
  | toMemory
  | toRegisters
deriving DecidableEq, Repr

/-- The effect of an instruction, independent of addressing mode and operand size. -/
inductive Operation
  | abcd
  | sbcd
  | add
  /-- Addition to an address register. -/
  | adda
  | sub
  /-- Subtraction from an address register. -/
  | suba
  | bitwise (kind : BitwiseKind)
  /-- Combine an immediate with the condition codes. -/
  | bitwiseToCcr (kind : BitwiseKind)
  /-- Combine an immediate with the status register. -/
  | bitwiseToSr (kind : BitwiseKind)
  | cmp
  | cmpa
  | move
  | movea
  | moveq
  | moveToSr
  | moveToCcr
  | moveFromSr
  | moveToUsp
  | moveFromUsp
  | movem (direction : ListDirection)
  | bcc
  | bsr
  | dbcc
  | scc
  | jmp
  | jsr
  | rts
  | rte
  | rtr
  | trap
  | lea
  | bit (kind : BitKind)
  | clr
  | neg
  | negx
  | not
  | tst
  | tas
  | swap
  | ext
  | exg
  | shift (kind : ShiftKind)
  | mulu
  | muls
  | nop
  | reset
deriving DecidableEq, Repr

namespace Operation

/-- The operation belongs to the shift and rotate family. -/
def isShift : Operation → Bool
  | shift _ => true
  | _ => false

/-- How an operation is written in a listing. -/
def name : Operation → String
  | abcd => "Abcd"
  | sbcd => "Sbcd"
  | add => "Add"
  | adda => "Adda"
  | sub => "Sub"
  | suba => "Suba"
  | bitwise .and => "And"
  | bitwise .or => "Or"
  | bitwise .eor => "Eor"
  | bitwiseToCcr .and => "AndiToCcr"
  | bitwiseToCcr .or => "OriToCcr"
  | bitwiseToCcr .eor => "EoriToCcr"
  | bitwiseToSr .and => "AndiToSr"
  | bitwiseToSr .or => "OriToSr"
  | bitwiseToSr .eor => "EoriToSr"
  | cmp => "Cmp"
  | cmpa => "Cmpa"
  | move => "Move"
  | movea => "Movea"
  | moveq => "Moveq"
  | moveToSr => "MoveToSr"
  | moveToCcr => "MoveToCcr"
  | moveFromSr => "MoveFromSr"
  | moveToUsp => "MoveToUsp"
  | moveFromUsp => "MoveFromUsp"
  | movem .toMemory => "MovemToMemory"
  | movem .toRegisters => "MovemToRegisters"
  | bcc => "Bcc"
  | bsr => "Bsr"
  | dbcc => "Dbcc"
  | scc => "Scc"
  | jmp => "Jmp"
  | jsr => "Jsr"
  | rts => "Rts"
  | rte => "Rte"
  | rtr => "Rtr"
  | trap => "Trap"
  | lea => "Lea"
  | bit .test => "Btst"
  | bit .change => "Bchg"
  | bit .clear => "Bclr"
  | bit .set => "Bset"
  | clr => "Clr"
  | neg => "Neg"
  | negx => "Negx"
  | not => "Not"
  | tst => "Tst"
  | tas => "Tas"
  | swap => "Swap"
  | ext => "Ext"
  | exg => "Exg"
  | shift .asl => "Asl"
  | shift .asr => "Asr"
  | shift .lsl => "Lsl"
  | shift .lsr => "Lsr"
  | shift .rol => "Rol"
  | shift .ror => "Ror"
  | shift .roxl => "Roxl"
  | shift .roxr => "Roxr"
  | mulu => "Mulu"
  | muls => "Muls"
  | nop => "Nop"
  | reset => "Reset"

end Operation

end M68k
