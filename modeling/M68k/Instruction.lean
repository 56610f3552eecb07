import M68k.AddressMode

/-!
# Instructions

What the processor needs to know about an opcode when it performs the operation.

## Main definitions

* `Operand`: where an operand lives while the operation is performed
* `Instruction`: operation, size, operands and the registers that address them
* `Instruction.withSource`, `Instruction.withDestination`: operands named by an addressing mode
-/

namespace M68k

/-- Where an operand lives while the operation is performed. -/
inductive Operand
  | none
  | dataRegister (register : RegisterNumber)
  | addressRegister (register : RegisterNumber)
  /-- The source data latch, filled by reads and immediates. -/
  | sourceLatch
  /-- The destination data latch, filled by reads and emptied by writes. -/
  | destinationLatch
  /-- The word at the head of the prefetch queue. -/
  | prefetch
  /-- An effective-address latch. -/
  | effectiveAddress (side : Side)
  /-- Bits 9 to 11 of the opcode, with 0 standing for 8. -/
  | quick
deriving DecidableEq, Repr

namespace Operand

/-- A register operand stays in its register; any memory operand goes through `latch`. -/
def ofMode (mode : AddressMode) (register : RegisterNumber) (latch : Operand) : Operand :=
  match mode with
  | .dataRegister => dataRegister register
  | .addressRegister => addressRegister register
  | _ => latch

/-- The operand is a data register. -/
def isDataRegister : Operand → Bool
  | dataRegister _ => true
  | _ => false

/-- How an operand is written in a listing. -/
def name : Operand → String
  | none => "None"
  | dataRegister register => "DataRegister(" ++ toString register.toNat ++ ")"
  | addressRegister register => "AddressRegister(" ++ toString register.toNat ++ ")"
  | sourceLatch => "SourceLatch"
  | destinationLatch => "DestinationLatch"
  | prefetch => "Prefetch"
  | effectiveAddress side => "EffectiveAddress(" ++ toString side.number.toNat ++ ")"
  | quick => "Quick"

end Operand

/-- Everything the processor needs to know about an opcode. -/
structure Instruction where
  operation : Operation
  size : Size
  source : Operand
  destination : Operand
  /-- Address register of the source side's address actions. -/
  sourceRegister : RegisterNumber
  /-- Address register of the destination side's address actions. -/
  destinationRegister : RegisterNumber
  /-- In user mode the instruction is refused. -/
  requiresSupervisor : Bool
deriving DecidableEq, Repr

namespace Instruction

/-- An instruction without operands. -/
def bare (operation : Operation) (size : Size) : Instruction :=
  ⟨operation, size, .none, .none, .ofField 0, .ofField 0, false⟩

/-- Take the source operand from an addressing mode. -/
def withSource (instruction : Instruction) (mode : AddressMode) (register : RegisterNumber) :
    Instruction :=
  { instruction with source := .ofMode mode register .sourceLatch, sourceRegister := register }

/-- Take the destination operand from an addressing mode. -/
def withDestination (instruction : Instruction) (mode : AddressMode) (register : RegisterNumber) :
    Instruction :=
  { instruction with
    destination := .ofMode mode register .destinationLatch, destinationRegister := register }

/-- The register number of a side. -/
def register (instruction : Instruction) : Side → RegisterNumber
  | .source => instruction.sourceRegister
  | .destination => instruction.destinationRegister

end Instruction

end M68k
