import M68k.Arithmetic.Multiply
import M68k.Arithmetic.PackedDecimal
import M68k.Arithmetic.Shift
import M68k.Condition
import M68k.Processor.Exception

/-!
# Operations

The point at which an instruction does its work. By then its operands are in registers or latches.
A result for memory goes into the destination latch, from which the next bus steps write it.
Branches, loops and register-list transfers also choose the bus program that follows.

## Main definitions

* `Processor.operate`: carry out the operation of the instruction
* `Processor.compute`: the operations that choose no bus program
-/

namespace M68k.Processor

/-- Store a computed result with its condition codes. -/
def finish (p : Processor) (size : Size) (computed : Computed) : Processor :=
  (p.setStatus computed.status).writeDestination size computed.value

/-- Store a value with the condition codes of a logical operation. -/
def finishLogical (p : Processor) (size : Size) (value : Long) : Processor :=
  p.finish size ⟨value, Status.logical p.registers.sr value size⟩

/-- Step the program counter back over an immediate that was taken from the prefetch queue, so that
the closing fetches pick up the next instruction. -/
def rewind (p : Processor) : Processor := p.setPc (p.registers.pc - 2)

/-- The condition in the opcode holds. -/
def conditionHolds (p : Processor) : Bool :=
  (Condition.ofField (p.opcode.toNat / 256)).holds p.registers.sr

/-- The target of a branch with a word displacement, which is the low word of the prefetch queue. It
counts from the word after the opcode. -/
def wordBranchTarget (p : Processor) : Long :=
  p.registers.pc - 2 + Size.word.signExtend p.prefetch

/-- The opcode of a branch has no byte displacement, so that a word follows. -/
def hasWordDisplacement (p : Processor) : Bool := p.opcode &&& 0xFF == 0

/-- The target of a branch: the displacement is in the opcode or in the word that follows. -/
def branchTarget (p : Processor) : Long :=
  if p.hasWordDisplacement then p.wordBranchTarget
  else p.registers.pc - 2 + Size.byte.signExtend (p.opcode.setWidth 32)

/-- Branch if the condition holds. -/
def branch (programs : FixedPrograms) (p : Processor) : Processor × Nat :=
  if p.conditionHolds then (p.setPc p.branchTarget, programs.branchTaken)
  else if p.hasWordDisplacement then (p, programs.branchWordNotTaken)
  else (p, programs.branchByteNotTaken)

/-- Unless the condition holds, count the low word of a data register down and branch; when the
counter has passed zero, go on. -/
def decrementAndBranch (programs : FixedPrograms) (p : Processor) : Processor × Nat :=
  if p.conditionHolds then (p, programs.loopLeft)
  else
    let register := p.instruction.destinationRegister.index
    let old := p.registers.data register
    let counter := Half.low.get old - 1
    let p := { p with registers := p.registers.setData register (Half.low.set old counter) }
    let target := p.wordBranchTarget
    if counter = 0xFFFF then ({ p with expiredTarget := target }, programs.loopExpired)
    else (p.setPc target, programs.loopTaken)

/-- The mode field of the opcode. -/
def modeField (p : Processor) : Nat := p.opcode.toNat / 8 % 8

/-- Begin the transfer of the register list in the source latch. -/
def beginListTransfer (programs : FixedPrograms) (p : Processor) (direction : ListDirection) :
    Processor × Nat :=
  let transfer := ListTransfer.begin (Half.low.get p.data.source) p.effectiveAddress.destination
    (p.instruction.size == .long) (p.modeField == 4)
  let program :=
    match direction with
    | .toMemory => programs.listWrite
    | .toRegisters => programs.listRead
  ({ p with transfer := transfer }, FixedPrograms.listEntry program transfer.words.length)

/-- Test a bit of the destination, and perhaps change it. The bit number counts modulo the width of
the operand. Changing a data register takes longer for the high half, and for clearing. -/
def operateOnBit (p : Processor) (kind : BitKind) : Processor :=
  let size := p.instruction.size
  let bit := p.source.toNat % size.bits
  let mask : Long := 1 <<< bit
  let value := p.destination
  let p := p.setStatus (Status.setIf p.registers.sr Status.zero (value &&& mask == 0))
  if kind == .test then p
  else
    let delay :=
      if p.instruction.destination.isDataRegister then
        (if kind == .clear then 8 else 4) + (if bit ≥ 16 then 4 else 0)
      else p.flexibleLength
    { p with flexibleLength := delay }.writeDestination size (kind.apply value mask)

/-- Shift the destination: memory by one bit, a data register by the content of another one modulo
64 or by the number in the opcode. A data register takes two cycles for each bit. -/
def shift (p : Processor) : Processor :=
  let inRegister := p.instruction.destination.isDataRegister
  let count :=
    if !inRegister then 1
    else if p.instruction.source.isDataRegister then p.source.toNat % 64
    else (p.readOperand .quick).toNat
  let size := p.instruction.size
  let p := p.finish size
    (p.instruction.operation.applyShift p.destination count size p.registers.sr)
  if inRegister then { p with flexibleLength := count * 4 } else p

/-- Multiply two words. Of the cycles taken, four pass during the fetch before. -/
def multiply (p : Processor) (product : Word → Word → Long) (cycles : Word → Nat) : Processor :=
  let src := Half.low.get p.source
  let dst := Half.low.get p.destination
  { p.finishLogical .long (product src dst) with
    flexibleLength := HalfCycles.ofCycles (cycles src - 4) }

/-- Set a byte to all ones if the condition holds, and to zero otherwise. -/
def setOnCondition (p : Processor) : Processor :=
  let holds := p.conditionHolds
  let delay :=
    if p.instruction.destination.isDataRegister && holds then 4 else p.flexibleLength
  { p with flexibleLength := delay }.writeDestination .byte (if holds then 0xFF else 0)

/-- Carry out an operation that chooses no bus program. -/
def compute (p : Processor) : Processor :=
  let size := p.instruction.size
  let sr := p.registers.sr
  let src := p.source
  let dst := p.destination
  match p.instruction.operation with
  | .abcd => p.finish .byte (PackedDecimal.add src dst sr)
  | .sbcd => p.finish .byte (PackedDecimal.sub src dst sr)
  | .add => p.finish size (Arithmetic.add src dst size sr)
  | .sub => p.finish size (Arithmetic.sub src dst size sr)
  | .adda => p.writeDestination .long (dst + size.signExtend src)
  | .suba => p.writeDestination .long (dst - size.signExtend src)
  | .bitwise kind => p.finishLogical size (kind.apply src dst)
  | .bitwiseToCcr kind =>
    let codes := kind.apply p.registers.ccr (src.setWidth 8)
    { p.rewind with registers := p.rewind.registers.setCcr codes }
  | .bitwiseToSr kind => p.rewind.setStatus (kind.apply sr (Half.low.get src))
  | .cmp => p.setStatus (Arithmetic.compare src dst size sr).status
  | .cmpa => p.setStatus (Arithmetic.compare (size.signExtend src) dst .long sr).status
  | .move => p.finishLogical size src
  | .movea => p.writeDestination .long (size.signExtend src)
  | .moveq => p.finishLogical .long (Size.byte.signExtend (p.opcode.setWidth 32))
  | .moveToSr | .rte => p.setStatus (Half.low.get src)
  | .moveToCcr | .rtr => { p with registers := p.registers.setCcr (src.setWidth 8) }
  | .moveFromSr => p.writeDestination .word (sr.setWidth 32)
  | .moveToUsp => { p with registers := p.registers.setUsp src }
  | .moveFromUsp => p.writeDestination .long p.registers.usp
  | .scc => p.setOnCondition
  | .jmp | .jsr | .rts => p.setPc src
  | .lea => p.writeDestination .long src
  | .bit kind => p.operateOnBit kind
  | .clr =>
    let cleared := sr &&& ~~~(Status.negative ||| Status.overflow ||| Status.carry)
    p.finish size ⟨0, cleared ||| Status.zero⟩
  | .neg => p.finish size (Arithmetic.neg dst size sr)
  | .negx => p.finish size (Arithmetic.negx dst size sr)
  | .not => p.finishLogical size (~~~dst)
  | .tst => p.setStatus (Status.logical sr dst size)
  | .tas => p.finish .byte ⟨dst ||| 0x80, Status.logical sr dst .byte⟩
  | .swap => p.finishLogical .long (dst.rotateLeft 16)
  | .ext =>
    let half : Size := if size == .word then .byte else .word
    p.finishLogical size (half.signExtend dst)
  | .exg => (p.writeOperand p.instruction.source .long dst).writeDestination .long src
  | .shift _ => p.shift
  | .mulu => p.multiply Multiply.unsigned Multiply.unsignedCycles
  | .muls => p.multiply Multiply.signed Multiply.signedCycles
  | .nop | .reset | .bcc | .bsr | .dbcc | .trap | .movem _ => p

/-- Carry out the operation of the instruction. The offset is that of the bus program to run next,
if the operation chooses one. A trap enters its exception at once. -/
def operate (tables : Tables) (p : Processor) : Processor × Option Nat :=
  let chosen (r : Processor × Nat) : Processor × Option Nat := (r.1, some r.2)
  match p.instruction.operation with
  | .bcc => chosen (p.branch tables.programs)
  | .bsr => (p.setPc p.branchTarget, some tables.programs.subroutine)
  | .dbcc => chosen (p.decrementAndBranch tables.programs)
  | .movem direction => chosen (p.beginListTransfer tables.programs direction)
  | .trap =>
    (p.beginException tables (32 + (p.opcode &&& 0x000F).setWidth 8) (p.registers.pc - 2), none)
  | _ => (p.compute, none)

/-! ## The position in the chain is kept -/

@[simp] theorem microOp_setStatus (p : Processor) (sr : Status) :
    (p.setStatus sr).microOp = p.microOp := rfl

@[simp] theorem microOp_setPc (p : Processor) (pc : Long) : (p.setPc pc).microOp = p.microOp := rfl

@[simp] theorem microOp_writeOperand (p : Processor) (operand : Operand) (size : Size)
    (value : Long) : (p.writeOperand operand size value).microOp = p.microOp := by
  cases operand <;> rfl

@[simp] theorem microOp_writeDestination (p : Processor) (size : Size) (value : Long) :
    (p.writeDestination size value).microOp = p.microOp := by
  simp [writeDestination]

@[simp] theorem microOp_finish (p : Processor) (size : Size) (computed : Computed) :
    (p.finish size computed).microOp = p.microOp := by
  simp [finish]

@[simp] theorem microOp_compute (p : Processor) : p.compute.microOp = p.microOp := by
  unfold compute
  split <;>
    simp [finishLogical, rewind, setOnCondition, operateOnBit, shift, multiply] <;>
    (repeat' split) <;> simp

@[simp] theorem microOp_operate (tables : Tables) (p : Processor) :
    (p.operate tables).1.microOp = p.microOp := by
  unfold operate
  split <;>
    simp [branch, decrementAndBranch, beginListTransfer, beginException, enterException] <;>
    (repeat' split) <;> simp

end M68k.Processor
