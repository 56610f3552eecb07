import M68k.Processor.Basic
import M68k.Tables.Basic

/-!
# Reset, exceptions and interrupts

Every exception pushes the same frame of three words: from low to high addresses the status register
and the program counter. The addresses are worked out here, and the fixed programs do the bus
work.

## Main definitions

* `Processor.initial`, `Processor.reset`: the reset sequence
* `Processor.beginException`, `Processor.beginInterrupt`: the entries into a handler
* `Processor.pendingInterrupt?`, `Processor.setInterruptLevel`: the interrupt inputs
-/

namespace M68k.Processor

/-- Abandon whatever is in progress and start the reset sequence. -/
def reset (tables : Tables) (p : Processor) : Processor :=
  { p with
    registers := p.registers.setStatus (Status.supervisor ||| Status.interruptMask)
    effectiveAddress := p.effectiveAddress.set .source 0
    flexibleLength := 0
    levelSevenRose := false
    phase := .reset
    busStep := tables.programs.reset }

/-- A new processor, about to run the reset sequence. -/
def initial (tables : Tables) : Processor :=
  reset tables
    { registers := .initial
      prefetch := 0
      effectiveAddress := .zero
      data := .zero
      frame := ⟨0, 0, 0⟩
      expiredTarget := 0
      transfer := .none
      interruptLevel := 0
      levelSevenRose := false
      acknowledgedLevel := 0
      interruptVector := 0
      phase := .reset
      opcode := 0
      instruction := .bare .nop .word
      microOp := 0
      busStep := 0
      flexibleLength := 0
      clock := 0
      debt := 0 }

/-- Drive the interrupt inputs. A rise to level 7 is remembered. -/
def setInterruptLevel (p : Processor) (level : Level) : Processor :=
  { p with
    interruptLevel := level
    levelSevenRose := p.levelSevenRose || (level == 7 && p.interruptLevel != 7) }

/-- The interrupt to take at an instruction boundary: one above the mask, or level 7 after a rise to
it. -/
def pendingInterrupt? (p : Processor) : Option Level :=
  if p.interruptLevel > p.registers.mask || (p.interruptLevel == 7 && p.levelSevenRose) then
    some p.interruptLevel
  else none

/-- Enter supervisor mode and lay out the frame that will hold `returnAddress` and the status
register. -/
def enterException (p : Processor) (returnAddress : Long) : Processor :=
  let entered := p.registers.setSupervisor true
  let untraced := entered.setStatus (entered.sr &&& ~~~Status.trace)
  let sp := untraced.sp
  { p with
    data := p.data.set .destination (p.registers.sr.setWidth 32)
    registers := { untraced with pc := returnAddress }.setSp (sp - 6)
    frame := ⟨sp - 2, sp - 6, sp - 4⟩
    phase := .exception }

/-- Start the sequence of the exception with number `vector`. -/
def beginException (tables : Tables) (p : Processor) (vector : Byte) (returnAddress : Long) :
    Processor :=
  let p := p.enterException returnAddress
  { p with
    effectiveAddress := p.effectiveAddress.set .source (vector.setWidth 32 <<< 2)
    busStep := tables.programs.exception }

/-- Start the sequence of an interrupt. Its vector is the autovector of the level, unless the bus
supplies another one. -/
def beginInterrupt (tables : Tables) (p : Processor) (level : Level) : Processor :=
  let p := p.enterException (p.registers.pc - 4)
  { p with
    levelSevenRose := p.levelSevenRose && level != 7
    registers := p.registers.setMask level
    acknowledgedLevel := level
    interruptVector := 24 + level.setWidth 16
    busStep := tables.programs.interrupt }

end M68k.Processor
