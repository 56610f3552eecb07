import M68k.Bus.Signals
import M68k.Side

/-!
# Bus steps

A bus step has a duration and signals, an address, a place that its word comes from or goes to, and
a side effect that follows it. All but the signals are symbolic: they name latches and registers, so
that one step serves every state of the processor.

## Main definitions

* `AddressSource`, `DataSlot`, `StepAction`: its symbolic parts
* `BusStep`: one step
* `BusStep.sentinel`: the end of a program
* `BusStep.isTerminal`: tells the ends of programs from the steps in them
-/

namespace M68k

/-- One of the three words of an exception frame, in the order of their transfer. -/
inductive FrameSlot
  | first
  | second
  | third
deriving DecidableEq, Repr, Hashable

namespace FrameSlot

/-- The number that names a word of a frame. -/
def number : FrameSlot → Byte
  | first => 0
  | second => 1
  | third => 2

/-- The word that is named: the first two are numbered 0 and 1. -/
def ofNumber (number : Byte) : FrameSlot :=
  if number = 0 then first else if number = 1 then second else third

@[simp] theorem ofNumber_number (slot : FrameSlot) : ofNumber slot.number = slot := by
  cases slot <;> rfl

end FrameSlot

/-- Where a bus step takes its address from. Latches, registers and frame words go by number. -/
inductive AddressSource
  | none
  | programCounter
  /-- An effective-address latch. -/
  | effectiveAddress (number : Byte)
  /-- An address register, of which number 7 is the live stack pointer. -/
  | addressRegister (register : RegisterNumber)
  /-- The address worked out for a word of an exception frame. -/
  | frame (number : Byte)
  /-- Branch target of a counted loop that has just run out. -/
  | expiredTarget
  /-- The current word of a register-list transfer. -/
  | listTransfer
  /-- Acknowledge address of the interrupt level being taken. -/
  | acknowledge
deriving DecidableEq, Repr, Hashable

namespace AddressSource

/-- The effective address of a side. -/
def ofSide (side : Side) : AddressSource := effectiveAddress side.number

/-- The address of a frame word. -/
def ofSlot (slot : FrameSlot) : AddressSource := frame slot.number

/-- How an address source is written in a listing. -/
def name : AddressSource → String
  | none => "None"
  | programCounter => "ProgramCounter"
  | effectiveAddress number => "EffectiveAddress(" ++ toString number.toNat ++ ")"
  | addressRegister register => "AddressRegister(" ++ toString register.toNat ++ ")"
  | frame number => "Precomputed(" ++ toString number.toNat ++ ")"
  | expiredTarget => "DbccFalseAddress"
  | listTransfer => "Movem"
  | acknowledge => "InterruptLevel"

end AddressSource

/-- Where the word of a bus step comes from in a write, and goes to in a read. -/
inductive DataSlot
  | none
  /-- A half of a side's data latch. -/
  | latch (side : Side) (half : Half)
  /-- The low word of the prefetch queue. -/
  | prefetch
  /-- A half of the live stack pointer. -/
  | stackPointer (half : Half)
  | programCounter (half : Half)
  /-- The register word whose turn it is in a register-list transfer. -/
  | listWord
  /-- The vector number of the interrupt being acknowledged. -/
  | interruptVector
deriving DecidableEq, Repr, Hashable

/-- How a data slot is written in a listing. -/
def DataSlot.name : DataSlot → String
  | none => "None"
  | latch .source half => "SourceBusData(" ++ half.name ++ ")"
  | latch .destination half => "DestinationBusData(" ++ half.name ++ ")"
  | prefetch => "PrefetchLow"
  | stackPointer half => "StackPointer(" ++ half.name ++ ")"
  | programCounter half => "ProgramCounter(" ++ half.name ++ ")"
  | listWord => "Movem"
  | interruptVector => "InterruptVector"

/-- What happens once the bus activity of a step is over. -/
inductive StepAction
  | none
  /-- Move the low word of the prefetch queue into the high word. -/
  | advancePrefetch
  | incrementProgramCounter
  /-- Add 2 to an effective-address latch. -/
  | incrementEffectiveAddress (side : Side)
  /-- Subtract 2 from an effective-address latch. -/
  | decrementEffectiveAddress (side : Side)
  /-- Go on to the next word of a register-list transfer. -/
  | advanceList
  /-- Point the source address at the vector just acknowledged. -/
  | vectorFromAcknowledge
  /-- The program is over. -/
  | endProgram
deriving DecidableEq, Repr, Hashable

/-- How a step action is written in a listing. -/
def StepAction.name : StepAction → String
  | none => "None"
  | advancePrefetch => "AdvancePrefetch"
  | incrementProgramCounter => "IncrementProgramCounter"
  | incrementEffectiveAddress side =>
    "IncrementEffectiveAddress(" ++ toString side.number.toNat ++ ")"
  | decrementEffectiveAddress side =>
    "DecrementEffectiveAddress(" ++ toString side.number.toNat ++ ")"
  | advanceList => "AdvanceMovem"
  | vectorFromAcknowledge => "VectorFromAcknowledge"
  | endProgram => "ScheduleNextProgram"

/-- How long a step lasts. -/
inductive StepLength
  | fixed (duration : HalfCycles)
  /-- As long as the operation said that came before. -/
  | flexible
deriving DecidableEq, Repr, Hashable

/-- The width of the data that a transfer moves. -/
inductive Width
  | word
  | byte
deriving DecidableEq, Repr, Hashable

/-- One bus step. -/
structure BusStep where
  length : StepLength
  signals : Signals
  address : AddressSource
  slot : DataSlot
  action : StepAction
deriving DecidableEq, Repr, Hashable

namespace BusStep

/-- The end of a program. -/
def sentinel : BusStep := ⟨.fixed 0, .idle, .none, .none, .endProgram⟩

/-- The step ends its program. -/
def isTerminal (step : BusStep) : Bool := step.action == .endProgram

end BusStep

instance : Inhabited BusStep := ⟨BusStep.sentinel⟩

end M68k
