import M68k.Encoding.ProgramControl
import M68k.Proofs.Decoding.Operands

/-!
# Decoders of program and system control

Branches, loops, jumps, returns and traps, and the instructions on the status register, written down
as they are decoded.

## Main definitions

* `Decoding.branch`, `Decoding.setOrLoop`, `Decoding.jump`, `Decoding.jumpToSubroutine`
* `Decoding.returnFromSubroutine`, `Decoding.returnFromException`, `Decoding.trap`,
  `Decoding.noOperation`, `Decoding.resetDevices`
* `Decoding.moveToStatus`, `Decoding.moveFromStatus`, `Decoding.moveUserStack`,
  `Decoding.immediateToStatus`
* `Encoding.immediateToStatus`: the last of them as an encoding

## Main results

* `Decoding.follows_branch` and its neighbours: each decoder follows the encoding of the same name
-/

namespace M68k

/-- An immediate combined with the condition codes or, if bit 6 is set, with the status register. -/
def Encoding.immediateToStatus (operation : Operation) (opcode : Word) : Option Recipe :=
  some ⟨{ Instruction.bare operation .word with
      source := .prefetch, requiresSupervisor := opcode.getLsbD 6 }, combineImmediate⟩

namespace Decoding

open Encoding (lowerRegister jumping)

/-- `0110 cccc dddd dddd`: branch on a condition, or to a subroutine if its number is 1. -/
def branch (opcode : Word) : Decoding Instruction :=
  if opcode.toNat / 256 % 16 = 1 then do
    opAt .pushBranchReturn .nowhere "n nW+ nw" [.ofSide .destination, .ofSide .destination] .word
    act .operate .nowhere
    return { Instruction.bare .bsr .long with source := .effectiveAddress .source }
  else do
    act .operate .nowhere
    return .bare .bcc .word

/-- `0101 cccc 11mm mxxx`: set a byte on a condition or, in mode 1, count down and branch. -/
def setOrLoop (opcode : Word) : Decoding Instruction := do
  let mode ← demand (AddressMode.ofField? opcode)
  let register := lowerRegister opcode
  let instruction := (Instruction.bare .scc .byte).withDestination mode register
  if mode == .addressRegister then
    act .operate .nowhere
    return (Instruction.bare .dbcc .word).withDestination .dataRegister register
  else if mode == .dataRegister then
    perform "np r"
    return instruction
  else if mode.isMemoryAlterable then
    readModifyWrite mode register .byte .store
    return instruction
  else reject

/-- `0100 1110 11mm mxxx`: jump to an operand. -/
def jump (opcode : Word) : Decoding Instruction := do
  let mode ← demand (AddressMode.ofField? opcode)
  let instruction := jumping .jmp opcode
  match mode with
  | .indirect =>
    perform "np np"
    return { instruction with source := .addressRegister (lowerRegister opcode) }
  | .displacement | .pcDisplacement | .absoluteShort =>
    act mode.action .src
    perform "n np np"
    return instruction
  | .index | .pcIndex =>
    act mode.action .src
    perform "n nn np np"
    return instruction
  | .absoluteLong =>
    bus "np"
    act mode.action .src
    perform "np np"
    return instruction
  | _ => reject

/-- The target of a subroutine is resolved first. What follows is spelled by the pattern that is
returned. -/
def resolveTarget (mode : AddressMode) : Decoding String :=
  match mode with
  | .indirect => do
    act (.address .register) .src
    return "np nW+ nw np"
  | .displacement | .pcDisplacement | .absoluteShort => do
    act mode.action .src
    return "n np nW+ nw np"
  | .index | .pcIndex => do
    act mode.action .src
    return "n nn np nW+ nw np"
  | .absoluteLong => do
    bus "np"
    act mode.action .src
    return "np nW+ nw np"
  | _ => reject

/-- `0100 1110 10mm mxxx`: stack the return address and jump to an operand. -/
def jumpToSubroutine (opcode : Word) : Decoding Instruction := do
  let mode ← demand (AddressMode.ofField? opcode)
  let tail ← resolveTarget mode
  act .pushJumpReturn .nowhere
  opAt .operate .nowhere tail [.ofSide .destination, .ofSide .destination] .word
  return jumping .jsr opcode

/-- Pop the program counter and continue there. -/
def returnFromSubroutine (_ : Word) : Decoding Instruction := do
  op .popReturn .nowhere "nU nu"
  perform "np np"
  return { Instruction.bare .rts .long with source := .sourceLatch }

/-- Pop the status register, or the condition codes alone, and the program counter. The frame is
popped by a fixed program. -/
def returnFromException (operation : Operation) (_ : Word) : Decoding Instruction := do
  popFrame .locateFrame .nowhere
  perform "np np"
  return { Instruction.bare operation .word with
    source := .sourceLatch, requiresSupervisor := operation == .rte }

/-- `0100 1110 0100 vvvv`: enter an exception. -/
def trap (_ : Word) : Decoding Instruction := do
  act .operate .nowhere
  return .bare .trap .word

/-- Do nothing but fetch the next word. -/
def noOperation (_ : Word) : Decoding Instruction := do
  perform "np"
  return .bare .nop .word

/-- Hold the reset output. -/
def resetDevices (_ : Word) : Decoding Instruction := do
  perform "nn _ np"
  return { Instruction.bare .reset .word with requiresSupervisor := true }

/-- `0100 01s0 11mm mxxx`: load the condition codes or the status register from a word. -/
def moveToStatus (operation : Operation) (opcode : Word) : Decoding Instruction := do
  let mode ← demand (AddressMode.ofField? opcode)
  let register := lowerRegister opcode
  if mode == .addressRegister then reject
  else
    fetchSource mode register .word
    stepPast mode register .word .src
    perform "nn nn np"
    return { (Instruction.bare operation .word).withSource mode register with
      requiresSupervisor := operation == .moveToSr }

/-- `0100 0000 11mm mxxx`: store the status register. -/
def moveFromStatus (opcode : Word) : Decoding Instruction := do
  let mode ← demand (AddressMode.ofField? opcode)
  let register := lowerRegister opcode
  let instruction := (Instruction.bare .moveFromSr .word).withDestination mode register
  if mode == .dataRegister then
    perform "np n"
    return instruction
  else if mode.isMemoryAlterable then
    readModifyWrite mode register .word .store
    return instruction
  else reject

/-- `0100 1110 0110 drrr`: move an address register to the user stack pointer, or the other way. -/
def moveUserStack (opcode : Word) : Decoding Instruction := do
  let register := lowerRegister opcode
  let instruction :=
    if opcode.getLsbD 3 then
      (Instruction.bare .moveFromUsp .long).withDestination .addressRegister register
    else (Instruction.bare .moveToUsp .long).withSource .addressRegister register
  perform "np"
  return { instruction with requiresSupervisor := true }

/-- `0000 oooo 0s11 1100`, then the immediate: combine it with the condition codes or, if `s` is
set, with the status register. -/
def immediateToStatus (operation : Operation) (opcode : Word) : Decoding Instruction := do
  bus "np nn nn"
  perform "np np"
  return { Instruction.bare operation .word with
    source := .prefetch, requiresSupervisor := opcode.getLsbD 6 }

/-! ## What is written down -/

theorem follows_branch (opcode : Word) : (branch opcode).Follows (Encoding.branch opcode) := by
  refine .ite (fun _ => ?_) fun _ => ?_
  · exact (records_opAt rfl .pushBranchReturn .nowhere).andThen
      ((records_act .operate .nowhere).last _)
  · exact (records_act .operate .nowhere).last _

theorem follows_setOrLoop (opcode : Word) :
    (setOrLoop opcode).Follows (Encoding.setOrLoop opcode) := by
  refine .demand fun mode _ => .ite (fun _ => ?_) fun _ => .ite (fun _ => ?_) fun _ => ?_
  · exact (records_act .operate .nowhere).last _
  · exact (records_perform rfl).last _
  · exact .ite (fun _ => (records_readModifyWrite mode _ .byte .store nofun).last _)
      fun _ => follows_reject

theorem follows_jump (opcode : Word) : (jump opcode).Follows (Encoding.jump opcode) := by
  refine .demand fun mode _ => ?_
  cases mode with
  | indirect => exact (records_perform rfl).last _
  | displacement | pcDisplacement | absoluteShort | index | pcIndex =>
    exact (records_act _ .src).andThen ((records_perform rfl).last _)
  | absoluteLong =>
    exact (records_bus rfl).andThen ((records_act _ .src).andThen ((records_perform rfl).last _))
  | _ => exact follows_reject

/-- The return address is stacked once the target is known. -/
theorem follows_pushReturn {target : Decoding String} {tail : String} {resolved : List Stage}
    {pushed : Activity} (htarget : target.Records tail resolved)
    (hparse : parsePattern tail [.ofSide .destination, .ofSide .destination] .word =
      .ok pushed.toProgram) (instruction : Instruction) :
    Follows (target >>= fun tail => act .pushJumpReturn .nowhere >>= fun _ =>
        opAt .operate .nowhere tail [.ofSide .destination, .ofSide .destination] .word >>= fun _ =>
          pure instruction)
      (some ⟨instruction, resolved ++ [.act .pushJumpReturn .nowhere, .perform pushed]⟩) :=
  htarget.bind ((records_act .pushJumpReturn .nowhere).andThen
    ((records_opAt hparse .operate .nowhere).last instruction))

theorem follows_jumpToSubroutine (opcode : Word) :
    (jumpToSubroutine opcode).Follows (Encoding.jumpToSubroutine opcode) := by
  refine .demand fun mode _ => ?_
  cases mode with
  | indirect | displacement | pcDisplacement | absoluteShort | index | pcIndex =>
    exact follows_pushReturn ((records_act _ .src).last _) rfl _
  | absoluteLong =>
    exact follows_pushReturn ((records_bus rfl).andThen ((records_act _ .src).last _)) rfl _
  | _ => exact follows_reject

theorem follows_returnFromSubroutine (opcode : Word) :
    (returnFromSubroutine opcode).Follows (Encoding.returnFromSubroutine opcode) :=
  (records_op rfl .popReturn .nowhere).andThen ((records_perform rfl).last _)

theorem follows_returnFromException (operation : Operation) (opcode : Word) :
    (returnFromException operation opcode).Follows
      (Encoding.returnFromException operation opcode) :=
  (records_popFrame .locateFrame .nowhere).andThen ((records_perform rfl).last _)

theorem follows_trap (opcode : Word) : (trap opcode).Follows (Encoding.trap opcode) :=
  (records_act .operate .nowhere).last _

theorem follows_noOperation (opcode : Word) :
    (noOperation opcode).Follows (Encoding.noOperation opcode) :=
  (records_perform rfl).last _

theorem follows_resetDevices (opcode : Word) :
    (resetDevices opcode).Follows (Encoding.resetDevices opcode) :=
  (records_perform rfl).last _

theorem follows_moveToStatus (operation : Operation) (opcode : Word) :
    (moveToStatus operation opcode).Follows (Encoding.moveToStatus operation opcode) := by
  refine .demand fun mode _ => .ite (fun _ => follows_reject) fun _ => ?_
  refine Records.follows ((records_fetchSource mode _ .word).andThen
    ((records_stepPast mode _ .word .src).andThen ((records_perform rfl).last _))) ?_
  exact List.append_assoc ..

theorem follows_moveFromStatus (opcode : Word) :
    (moveFromStatus opcode).Follows (Encoding.moveFromStatus opcode) := by
  refine .demand fun mode _ => .ite (fun _ => ?_) fun _ => ?_
  · exact (records_perform rfl).last _
  · exact .ite (fun _ => (records_readModifyWrite mode _ .word .store nofun).last _)
      fun _ => follows_reject

theorem follows_moveUserStack (opcode : Word) :
    (moveUserStack opcode).Follows (Encoding.moveUserStack opcode) :=
  (records_perform rfl).last _

theorem follows_immediateToStatus (operation : Operation) (opcode : Word) :
    (immediateToStatus operation opcode).Follows (Encoding.immediateToStatus operation opcode) :=
  (records_bus rfl).andThen ((records_perform rfl).last _)

end Decoding

end M68k
