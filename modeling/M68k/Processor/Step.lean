import M68k.Processor.Action

/-!
# Steps

The processor runs one bus step at a time. Where a bus program ends, the chain of the instruction
goes on; where the chain ends, the next instruction is decoded, or an interrupt or an exception is
entered. Micro-operations without bus activity are fired as soon as the bus program before them has
ended, so that between steps the registers show all of their effects.

## Main definitions

* `Processor.atBoundary`: the processor is between two instructions
* `Processor.start`: what it starts there
* `Processor.settle`: go on to the next bus step
* `Processor.request`, `Processor.receive`: the two sides of a bus step
* `Processor.fireBusFree`: fire the micro-operations without bus activity
-/

namespace M68k

/-- What a processor starts at an instruction boundary. -/
inductive Entry
  | interrupt (level : Level)
  /-- An exception because the opcode cannot be executed. -/
  | exception (vector : Byte)
  | instruction (entry : TableEntry)
deriving DecidableEq, Repr

/-- An entry with the instruction at which it happens. -/
structure Start where
  opcode : Word
  /-- Where the opcode is in memory. -/
  address : Long
  entry : Entry
deriving DecidableEq, Repr

namespace Processor

/-- The next bus step is the end of its program. -/
def programEnded (tables : Tables) (p : Processor) : Bool := (tables.step p.busStep).isTerminal

/-- The processor is between two instructions. -/
def atBoundary (tables : Tables) (p : Processor) : Bool :=
  p.programEnded tables &&
    match p.phase with
    | .reset | .exception => true
    | .instruction => (tables.microOp p.microOp).isTerminal

/-- Fire the current micro-operation and start its bus program, or the one that the operation has
chosen. An exception has already started its own. -/
def enterMicroOp (tables : Tables) (p : Processor) : Processor :=
  let op := tables.microOp p.microOp
  match op.program with
  | none => { p with busStep := tables.programs.empty }
  | some program =>
    let (fired, chosen) := p.act tables op.action op.target
    if fired.phase = .instruction then { fired with busStep := chosen.getD program } else fired

/-- The exception of an opcode that no instruction has: two ranges have vectors of their own. -/
def illegalVector (opcode : Word) : Byte :=
  match opcode.toNat / 4096 with
  | 0xA => 10
  | 0xF => 11
  | _ => 4

/-- The vector of an instruction refused in user mode. -/
def privilegeVector : Byte := 8

/-- What the processor starts at an instruction boundary: a pending interrupt, or the instruction
whose opcode is at the head of the prefetch queue. -/
def start (tables : Tables) (p : Processor) : Start :=
  let opcode := Half.high.get p.prefetch
  { opcode := opcode
    address := p.registers.pc - 4
    entry :=
      match p.pendingInterrupt? with
      | some level => .interrupt level
      | none =>
        match tables.entry? opcode with
        | none => .exception (illegalVector opcode)
        | some entry =>
          if entry.instruction.requiresSupervisor && !p.registers.isSupervisor then
            .exception privilegeVector
          else .instruction entry }

/-- Start an interrupt, an exception or an instruction. -/
def begin (tables : Tables) (p : Processor) (start : Start) : Processor :=
  let p := { p with phase := .instruction }
  match start.entry with
  | .interrupt level => p.beginInterrupt tables level
  | .exception vector =>
    { p with opcode := start.opcode }.beginException tables vector start.address
  | .instruction entry =>
    { p with
      opcode := start.opcode
      instruction := entry.instruction
      microOp := entry.start }.enterMicroOp tables

@[simp] theorem microOp_enterMicroOp (tables : Tables) (p : Processor) :
    (p.enterMicroOp tables).microOp = p.microOp := by
  unfold enterMicroOp
  simp only []
  split
  · rfl
  · split <;> simp

/-- Go on along the chain of the instruction, as long as the bus program has ended and `wanted`
holds of the next micro-operation. -/
def follow (tables : Tables) (wanted : MicroOp → Bool) (p : Processor) : Processor :=
  if p.phase = .instruction ∧ p.programEnded tables ∧ ¬ (tables.microOp p.microOp).isTerminal ∧
      wanted (tables.microOp (p.microOp + 1)) then
    follow tables wanted ({ p with microOp := p.microOp + 1 }.enterMicroOp tables)
  else p
termination_by tables.microOps.size - p.microOp
decreasing_by
  rename_i h
  have bound : p.microOp < tables.microOps.size := by
    by_cases hlt : p.microOp < tables.microOps.size
    · exact hlt
    · simp [Tables.microOp, Array.getD, hlt, MicroOp.terminal, MicroOp.isTerminal] at h
  simp only [microOp_enterMicroOp]
  omega

/-- Go on to the next bus step: along the chain and, if it has ended, into what starts at the
boundary. -/
def settle (tables : Tables) (p : Processor) : Processor × Option Start :=
  let p := p.follow tables fun _ => true
  if p.atBoundary tables then
    let start := p.start tables
    ((p.begin tables start).follow tables fun _ => true, some start)
  else (p, none)

/-- Fire the micro-operations without bus activity that follow an ended bus program, up to the end
of the chain. -/
def fireBusFree (tables : Tables) (p : Processor) : Processor :=
  p.follow tables fun op =>
    match op.program with
    | none => true
    | some program => (tables.step program).isTerminal

/-- The address that a source stands for. -/
def resolve (p : Processor) : AddressSource → Long
  | .none => 0
  | .programCounter => p.registers.pc
  | .effectiveAddress number => p.effectiveAddress.get (.ofNumber number)
  | .addressRegister register => p.registers.address register.index
  | .frame number => p.frame.get (.ofNumber number)
  | .expiredTarget => p.expiredTarget
  | .listTransfer => p.transfer.address
  | .acknowledge => 0x00FFFFF0 ||| p.acknowledgedLevel.setWidth 32 <<< 1

/-- The word in a data slot. -/
def loadSlot (p : Processor) : DataSlot → Word
  | .none => 0
  | .latch side half => half.get (p.data.get side)
  | .prefetch => Half.low.get p.prefetch
  | .stackPointer half => half.get p.registers.sp
  | .programCounter half => half.get p.registers.pc
  | .listWord => p.transfer.value p.registers
  | .interruptVector => p.interruptVector

/-- Put a word that has been read into a data slot. A byte only replaces the low byte, except that
register-list transfers move whole words. -/
def storeSlot (p : Processor) (slot : DataSlot) (value : Word) (byte : Bool) : Processor :=
  let merge (old : Word) : Word :=
    if byte then old.extractLsb' 8 8 ++ value.extractLsb' 0 8 else value
  let replace (half : Half) (x : Long) : Long := half.set x (merge (half.get x))
  match slot with
  | .none => p
  | .latch side half =>
    { p with data := p.data.set side (replace half (p.data.get side)) }
  | .prefetch => { p with prefetch := replace .low p.prefetch }
  | .stackPointer half =>
    { p with registers := p.registers.setSp (replace half p.registers.sp) }
  | .programCounter half => p.setPc (replace half p.registers.pc)
  | .listWord => { p with registers := p.transfer.store p.registers value }
  | .interruptVector => { p with interruptVector := merge p.interruptVector }

/-- Carry out the side effect of a bus step. -/
def applyStepAction (p : Processor) : StepAction → Processor
  | .none | .endProgram => p
  | .advancePrefetch =>
    { p with prefetch := Half.high.set p.prefetch (Half.low.get p.prefetch) }
  | .incrementProgramCounter => p.setPc (p.registers.pc + 2)
  | .incrementEffectiveAddress side =>
    { p with effectiveAddress := p.effectiveAddress.set side (p.effectiveAddress.get side + 2) }
  | .decrementEffectiveAddress side =>
    { p with effectiveAddress := p.effectiveAddress.set side (p.effectiveAddress.get side - 2) }
  | .advanceList => { p with transfer := p.transfer.advance }
  | .vectorFromAcknowledge =>
    { p with
      effectiveAddress :=
        p.effectiveAddress.set .source ((p.interruptVector &&& 0xFF).setWidth 32 <<< 2) }

/-- What the processor puts on the bus in a step. -/
def request (p : Processor) (step : BusStep) : Request :=
  ⟨step.signals, p.resolve step.address, p.loadSlot step.slot⟩

/-- How long a step lasts, without waits. -/
def duration (p : Processor) (step : BusStep) : HalfCycles :=
  match step.length with
  | .fixed length => length
  | .flexible => p.flexibleLength

/-- Take the answer to a bus step, and go on behind it. A flexible step uses up the length that the
operation has set. -/
def receive (p : Processor) (step : BusStep) (reply : Reply) : Processor :=
  let elapsed := p.duration step + reply.wait
  let timed := if step.length = .flexible then { p with flexibleLength := 0 } else p
  let read :=
    if step.signals.isRead then timed.storeSlot step.slot reply.value step.signals.selectByte
    else timed
  let moved := read.applyStepAction step.action
  { moved with busStep := moved.busStep + 1, clock := moved.clock + elapsed }

end Processor

end M68k
