import M68k.Encoding.Operands

/-!
# Encodings of program and system control

Branches, loops, jumps, returns and traps, and the instructions on the status register.

## Main definitions

* `branch`, `setOrLoop`, `jump`, `jumpToSubroutine`, `returnFromSubroutine`, `returnFromException`
* `trap`, `noOperation`, `resetDevices`
* `moveToStatus`, `moveFromStatus`, `moveUserStack`, `immediateToCcr`, `immediateToSr`
* `popFrame`: the bus activity of a return from an exception
-/

namespace M68k.Encoding

/-- `0110 cccc dddd dddd`: branch on a condition, or to a subroutine if the condition is number 1. A
displacement of zero means that a word follows. The rest is settled when the branch is executed. -/
def branch (opcode : Word) : Option Recipe :=
  let performed : Stage := .act .operate .nowhere
  if opcode.toNat / 256 % 16 = 1 then
    some ⟨{ Instruction.bare .bsr .long with source := .effectiveAddress .source },
      [⟨.pushBranchReturn, .nowhere,
          .idle 4 ++ .write .high (some .increment) .word destinationAddress ++
            .write .low none .word destinationAddress⟩,
        performed]⟩
  else some ⟨.bare .bcc .word, [performed]⟩

/-- `0101 cccc 11mm mxxx`: set a byte on a condition or, in mode 1, count a data register down and
branch. Setting a data register takes longer when the condition holds. -/
def setOrLoop (opcode : Word) : Option Recipe := do
  let mode ← AddressMode.ofField? opcode
  let register := lowerRegister opcode
  let instruction := (Instruction.bare .scc .byte).withDestination mode register
  if mode == .addressRegister then
    some ⟨(Instruction.bare .dbcc .word).withDestination .dataRegister register,
      [.act .operate .nowhere]⟩
  else if mode == .dataRegister then some ⟨instruction, [.perform (.fetch ++ .flexible)]⟩
  else if mode.isMemoryAlterable then
    some ⟨instruction, readModifyWrite mode register .byte .store⟩
  else none

/-- A jump whose target is the source address. -/
def jumping (operation : Operation) (opcode : Word) : Instruction :=
  { Instruction.bare operation .long with
    source := .effectiveAddress .source, sourceRegister := lowerRegister opcode }

/-- `0100 1110 11mm mxxx`: jump to an operand. -/
def jump (opcode : Word) : Option Recipe := do
  let mode ← AddressMode.ofField? opcode
  let instruction := jumping .jmp opcode
  let refill : Activity := .fetch ++ .fetch
  match mode with
  | .indirect =>
    some ⟨{ instruction with source := .addressRegister (lowerRegister opcode) },
      [.perform refill]⟩
  | .displacement | .pcDisplacement | .absoluteShort =>
    some ⟨instruction, [.act mode.action .src, .perform (.idle 4 ++ refill)]⟩
  | .index | .pcIndex =>
    some ⟨instruction,
      [.act mode.action .src, .perform (.idle 4 ++ .idle 8 ++ refill)]⟩
  | .absoluteLong =>
    some ⟨instruction, [.bus .fetch, .act mode.action .src, .perform refill]⟩
  | _ => none

/-- `0100 1110 10mm mxxx`: stack the return address and jump to an operand. The target is resolved
before the stack pointer drops. -/
def jumpToSubroutine (opcode : Word) : Option Recipe := do
  let mode ← AddressMode.ofField? opcode
  let pushed : Activity :=
    .fetch ++ .write .high (some .increment) .word destinationAddress ++
      .write .low none .word destinationAddress ++ .fetch
  let (resolved, tail) ← (match mode with
    | .indirect => some ([Stage.act (.address .register) .src], pushed)
    | .displacement | .pcDisplacement | .absoluteShort =>
      some ([Stage.act mode.action .src], Activity.idle 4 ++ pushed)
    | .index | .pcIndex =>
      some ([Stage.act mode.action .src], Activity.idle 4 ++ Activity.idle 8 ++ pushed)
    | .absoluteLong => some ([Stage.bus .fetch, Stage.act mode.action .src], pushed)
    | _ => none)
  some ⟨jumping .jsr opcode, resolved ++ [.act .pushJumpReturn .nowhere, .perform tail]⟩

/-- Pop the program counter and continue there. -/
def returnFromSubroutine (_ : Word) : Option Recipe :=
  some ⟨{ Instruction.bare .rts .long with source := .sourceLatch },
    [⟨.popReturn, .nowhere, .stackRead .high ++ .stackRead .low⟩,
      .perform (.fetch ++ .fetch)]⟩

/-- Pop the frame of an exception: program counter high, status, program counter low. -/
def popFrame : Activity :=
  .transfer true false .word (.ofSlot .first) (.programCounter .high) .none ++
    .read .source .low none .word (.ofSlot .second) ++
    .transfer true false .word (.ofSlot .third) (.programCounter .low) .none

/-- Pop the status register, or the condition codes alone, and the program counter. -/
def returnFromException (operation : Operation) (_ : Word) : Option Recipe :=
  some ⟨{ Instruction.bare operation .word with
      source := .sourceLatch, requiresSupervisor := operation == .rte },
    [⟨.locateFrame, .nowhere, popFrame⟩, .perform (.fetch ++ .fetch)]⟩

/-- `0100 1110 0100 vvvv`: enter an exception. Its sequence takes over. -/
def trap (_ : Word) : Option Recipe :=
  some ⟨.bare .trap .word, [.act .operate .nowhere]⟩

/-- Do nothing but fetch the next word. -/
def noOperation (_ : Word) : Option Recipe :=
  some ⟨.bare .nop .word, [.perform .fetch]⟩

/-- Hold the reset output, which leaves the processor alone. -/
def resetDevices (_ : Word) : Option Recipe :=
  some ⟨{ Instruction.bare .reset .word with requiresSupervisor := true },
    [.perform (.idle 8 ++ .resetHold ++ .fetch)]⟩

/-- `0100 01s0 11mm mxxx`: load the condition codes or, if `s` is set, the status register, from a
word. -/
def moveToStatus (operation : Operation) (opcode : Word) : Option Recipe := do
  let mode ← AddressMode.ofField? opcode
  let register := lowerRegister opcode
  if mode == .addressRegister then none
  else
    some ⟨{ (Instruction.bare operation .word).withSource mode register with
        requiresSupervisor := operation == .moveToSr },
      fetchSource mode register .word ++ stepPast mode register .word .src ++
        [.perform (.idle 8 ++ .idle 8 ++ .fetch)]⟩

/-- `0100 0000 11mm mxxx`: store the status register, in either mode. -/
def moveFromStatus (opcode : Word) : Option Recipe := do
  let mode ← AddressMode.ofField? opcode
  let register := lowerRegister opcode
  let instruction := (Instruction.bare .moveFromSr .word).withDestination mode register
  if mode == .dataRegister then some ⟨instruction, [.perform (.fetch ++ .idle 4)]⟩
  else if mode.isMemoryAlterable then
    some ⟨instruction, readModifyWrite mode register .word .store⟩
  else none

/-- `0100 1110 0110 drrr`: move an address register to the user stack pointer or, if `d` is set, the
other way. -/
def moveUserStack (opcode : Word) : Option Recipe :=
  let register := lowerRegister opcode
  let instruction :=
    if opcode.getLsbD 3 then
      (Instruction.bare .moveFromUsp .long).withDestination .addressRegister register
    else (Instruction.bare .moveToUsp .long).withSource .addressRegister register
  some ⟨{ instruction with requiresSupervisor := true }, [.perform .fetch]⟩

/-- The stages of an operation on the status register, whose immediate is taken from the head of the
prefetch queue. -/
def combineImmediate : List Stage :=
  [.bus (.fetch ++ .idle 8 ++ .idle 8), .perform (.fetch ++ .fetch)]

/-- `0000 oooo 0011 1100`, then the immediate: combine it with the condition codes. -/
def immediateToCcr (kind : BitwiseKind) (_ : Word) : Option Recipe :=
  some ⟨{ Instruction.bare (.bitwiseToCcr kind) .word with source := .prefetch }, combineImmediate⟩

/-- `0000 oooo 0111 1100`, then the immediate: combine it with the status register. -/
def immediateToSr (kind : BitwiseKind) (_ : Word) : Option Recipe :=
  some ⟨{ Instruction.bare (.bitwiseToSr kind) .word with
      source := .prefetch, requiresSupervisor := true }, combineImmediate⟩

end M68k.Encoding
