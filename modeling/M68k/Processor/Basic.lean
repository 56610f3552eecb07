import M68k.Bus.Step
import M68k.Processor.RegisterList

/-!
# The processor

The state of a processor: the programmer's registers, the prefetch queue, the latches between bus
and registers, the interrupt inputs, and the position in the tables.

## Main definitions

* `Phase`: what happens when the current bus program ends
* `Processor`: the state
* `Processor.readOperand`, `Processor.writeOperand`: the operands of the instruction
-/

namespace M68k

/-- What the processor is doing, which decides what follows the current bus program. -/
inductive Phase
  /-- The reset sequence. -/
  | reset
  /-- The chain of an instruction. -/
  | instruction
  /-- The sequence of an exception. -/
  | exception
deriving DecidableEq, Repr

/-- The name of a phase. -/
def Phase.name : Phase → String
  | reset => "reset"
  | instruction => "normal"
  | exception => "trap_pending"

/-- A long word for each operand side. -/
structure Latches where
  source : Long
  destination : Long
deriving DecidableEq, Repr

namespace Latches

/-- Both latches zero. -/
def zero : Latches := ⟨0, 0⟩

/-- The latch of a side. -/
def get (latches : Latches) : Side → Long
  | .source => latches.source
  | .destination => latches.destination

/-- Replace the latch of a side. -/
def set (latches : Latches) (side : Side) (value : Long) : Latches :=
  match side with
  | .source => { latches with source := value }
  | .destination => { latches with destination := value }

@[simp] theorem get_set_self (latches : Latches) (side : Side) (value : Long) :
    (latches.set side value).get side = value := by
  cases side <;> rfl

theorem get_set_of_ne (latches : Latches) {side other : Side} (value : Long) (h : other ≠ side) :
    (latches.set side value).get other = latches.get other := by
  cases side <;> cases other <;> simp_all [get, set]

end Latches

/-- The addresses of the words of an exception frame, in the order of their transfer. -/
structure FrameAddresses where
  first : Long
  second : Long
  third : Long
deriving DecidableEq, Repr

/-- The address of a word of the frame. -/
def FrameAddresses.get (frame : FrameAddresses) : FrameSlot → Long
  | .first => frame.first
  | .second => frame.second
  | .third => frame.third

/-- The state of a processor. -/
structure Processor where
  registers : Registers
  /-- Two program words, the next one to use in the high half. -/
  prefetch : Long
  effectiveAddress : Latches
  data : Latches
  /-- Where the exception frame being pushed or popped is in memory. -/
  frame : FrameAddresses
  /-- The branch target of a counted loop that has run out. -/
  expiredTarget : Long
  transfer : ListTransfer
  /-- The interrupt priority inputs. -/
  interruptLevel : Level
  /-- The level has risen to 7, which is not maskable, and the interrupt was not taken yet. -/
  levelSevenRose : Bool
  /-- The level being acknowledged. -/
  acknowledgedLevel : Level
  /-- The vector number latched by the acknowledge. -/
  interruptVector : Word
  phase : Phase
  opcode : Word
  instruction : Instruction
  /-- Offset of the current micro-operation. -/
  microOp : Nat
  /-- Offset of the next bus step. -/
  busStep : Nat
  /-- The length of the next flexible step. -/
  flexibleLength : HalfCycles
  /-- Time run since construction. -/
  clock : HalfCycles
  /-- Time already run beyond the end of the last timed run. -/
  debt : HalfCycles
deriving DecidableEq, Repr

namespace Processor

/-- The address register of an operand side. -/
def sideRegister (p : Processor) (side : Side) : Long :=
  p.registers.address (p.instruction.register side).index

/-- Replace the program counter. -/
def setPc (p : Processor) (pc : Long) : Processor :=
  { p with registers := { p.registers with pc := pc } }

/-- Load the status register. -/
def setStatus (p : Processor) (sr : Status) : Processor :=
  { p with registers := p.registers.setStatus sr }

/-- The value of an operand. -/
def readOperand (p : Processor) : Operand → Long
  | .none => 0
  | .dataRegister register => p.registers.data register.index
  | .addressRegister register => p.registers.address register.index
  | .sourceLatch => p.data.source
  | .destinationLatch => p.data.destination
  | .prefetch => (Half.high.get p.prefetch).setWidth 32
  | .effectiveAddress side => p.effectiveAddress.get side
  | .quick =>
    match p.opcode.toNat / 512 % 8 with
    | 0 => 8
    | n => BitVec.ofNat 32 n

/-- Store a result. Data registers keep the bits above `size`; address registers and latches take
the whole value; nothing else can be stored to. -/
def writeOperand (p : Processor) (operand : Operand) (size : Size) (value : Long) : Processor :=
  match operand with
  | .dataRegister register =>
    let merged := size.merge (p.registers.data register.index) value
    { p with registers := p.registers.setData register.index merged }
  | .addressRegister register => { p with registers := p.registers.setAddress register.index value }
  | .sourceLatch => { p with data := p.data.set .source value }
  | .destinationLatch => { p with data := p.data.set .destination value }
  | .none | .prefetch | .effectiveAddress _ | .quick => p

/-- The source operand of the instruction. -/
def source (p : Processor) : Long := p.readOperand p.instruction.source

/-- The destination operand of the instruction. -/
def destination (p : Processor) : Long := p.readOperand p.instruction.destination

/-- Store a result into the destination operand of the instruction. -/
def writeDestination (p : Processor) (size : Size) (value : Long) : Processor :=
  p.writeOperand p.instruction.destination size value

end Processor

end M68k
