import M68k.Operation
import M68k.Side

/-!
# Micro-operations

An instruction is carried out as a chain of micro-operations. Entering a micro-operation fires its
action; then its bus program runs. A micro-operation without a program ends the chain.

## Main definitions

* `AddressForm`: how an effective address is computed
* `Stride`: how far an address register steps
* `Action`: what a micro-operation does when it is entered
* `MicroOp`: an action with the offset of a bus program
-/

namespace M68k

/-- How an effective address is computed from registers and prefetched words. -/
inductive AddressForm
  /-- The address register itself. -/
  | register
  /-- The address register plus a displacement. -/
  | displacement
  /-- The address register plus an index and a displacement. -/
  | index
  /-- The address of the extension word plus a displacement. -/
  | pcDisplacement
  /-- The address of the extension word plus an index and a displacement. -/
  | pcIndex
  /-- The low prefetch word, sign-extended. -/
  | short
  /-- Both prefetch words. -/
  | long
deriving DecidableEq, Repr

/-- How far an address register steps. -/
inductive Stride
  | one
  | two
  | four
deriving DecidableEq, Repr

namespace Stride

/-- The bytes stepped over. -/
def bytes : Stride → Long
  | one => 1
  | two => 2
  | four => 4

/-- The digit of a stride in a listing. -/
def digit : Stride → String
  | one => "1"
  | two => "2"
  | four => "4"

end Stride

/-- What a micro-operation does when it is entered. -/
inductive Action
  | none
  /-- Carry out the instruction's operation. -/
  | operate
  /-- Compute the effective address. -/
  | address (form : AddressForm)
  /-- Take the low prefetch word as the operand. -/
  | immediate
  /-- Take both prefetch words as the operand. -/
  | longImmediate
  /-- Let the address register step up. -/
  | increment (stride : Stride)
  /-- Let the address register step down. -/
  | decrement (stride : Stride)
  /-- Stack the return address of a jump. -/
  | pushJumpReturn
  /-- Stack the return address of a branch. -/
  | pushBranchReturn
  /-- Point the source address at the return address and drop it from the stack. -/
  | popReturn
  /-- Work out the addresses of the frame that a return from an exception pops. -/
  | locateFrame
  /-- Take the low prefetch word as a register list. -/
  | latchList
  /-- Write back the address register of a finished register-list transfer. -/
  | finishList (direction : ListDirection)
deriving DecidableEq, Repr

namespace Action

/-- How an action is written in a listing. -/
def name : Action → String
  | none => "None"
  | operate => "PerformOperation"
  | address .register => "CopyToEffectiveAddress"
  | address .displacement => "CalcD16An"
  | address .index => "CalcD8AnXn"
  | address .pcDisplacement => "CalcD16Pc"
  | address .pcIndex => "CalcD8PcXn"
  | address .short => "AssembleWordAddressFromPrefetch"
  | address .long => "AssembleLongWordAddressFromPrefetch"
  | immediate => "AssembleWordDataFromPrefetch"
  | longImmediate => "AssembleLongWordDataFromPrefetch"
  | increment stride => "Increment" ++ stride.digit
  | decrement stride => "Decrement" ++ stride.digit
  | pushJumpReturn => "PrepareJsr"
  | pushBranchReturn => "PrepareBsr"
  | popReturn => "PrepareRts"
  | locateFrame => "PrepareRteRtr"
  | latchList => "CopyNextWord"
  | finishList .toMemory => "MovemToMemoryComplete"
  | finishList .toRegisters => "MovemToRegistersComplete"

end Action

/-- One link of an instruction's chain. -/
structure MicroOp where
  action : Action
  target : Target
  /-- Offset of the bus program to run, if the chain goes on. -/
  program : Option Nat
deriving DecidableEq, Repr

namespace MicroOp

/-- The link that ends a chain. -/
def terminal : MicroOp := ⟨.none, .nowhere, none⟩

/-- A link without a program ends its chain. -/
def isTerminal (op : MicroOp) : Bool := op.program.isNone

end MicroOp

instance : Inhabited MicroOp := ⟨MicroOp.terminal⟩

end M68k
