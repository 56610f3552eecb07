import M68k.Encoding.DataMovement
import M68k.Proofs.Decoding.Operands

/-!
# Decoders of data movement

Moves between any two operands, quick moves, exchanges, address loads, and moves of register lists,
written down as they are decoded.

## Main definitions

* `Decoding.move`, `Decoding.moveQuick`, `Decoding.exchange`, `Decoding.loadAddress`,
  `Decoding.moveRegisters`

## Main results

* `Decoding.follows_move` and its neighbours: each decoder follows the encoding of the same name
-/

namespace M68k.Decoding

open Encoding (upperRegister lowerRegister)

/-- Write the destination latch to memory, fetching ahead. A post-increment applies to every side in
`increment`. -/
def storeMoved (mode : AddressMode) (register : RegisterNumber) (size : Size) (increment : Target) :
    Decoding Unit :=
  let latch := [AddressSource.ofSide .destination, AddressSource.ofSide .destination]
  let direct := [AddressSource.addressRegister register]
  let width := Encoding.transferWidth size
  let store := if size == .long then "np nW+ nw np" else "np nw np"
  match mode with
  | .indirect | .postIncrement => do
    (if size == .long then opAt (.address .register) .dst "nW+ nw np" latch .word
      else opAt .none .nowhere "nw np" direct width)
    stepPast mode register size increment
  | .preDecrement =>
    if size == .long then do
      op (.decrement .two) .dst "np"
      opAt (.address .register) .dst "nw- nW" latch .word
      act (.decrement .two) .dst
    else opAt (.decrement (stride size register)) .dst "np nw" direct width
  | .absoluteLong => do
    bus "np"
    opAt mode.action .dst store latch width
  | _ => opAt mode.action .dst (indexed mode store) latch width

/-- The stages of a move. -/
def moveStages (sourceMode : AddressMode) (source : RegisterNumber) (destinationMode : AddressMode)
    (destination : RegisterNumber) (size : Size) : Decoding Unit := do
  let coalesced := Encoding.stepsTogether sourceMode source destinationMode destination size
  fetchSource sourceMode source size
  (if coalesced then pure () else stepPast sourceMode source size .src)
  if destinationMode.isRegister then perform "np"
  else
    act .operate .nowhere
    storeMoved destinationMode destination size (if coalesced then .both else .dst)

/-- `00ss RRRM MMmm mrrr`: move the lower operand to the upper one. -/
def move (opcode : Word) : Decoding Instruction := do
  let size := Encoding.moveSize opcode
  let sourceMode ← demand (AddressMode.ofField? opcode)
  let destinationMode ← demand (AddressMode.decode? (opcode.toNat / 64) (opcode.toNat / 512))
  if destinationMode.isPcRelative || destinationMode == .immediate then reject
  else if size == .byte &&
      (sourceMode == .addressRegister || destinationMode == .addressRegister) then reject
  else
    let source := lowerRegister opcode
    let destination := upperRegister opcode
    let operation : Operation := if destinationMode == .addressRegister then .movea else .move
    moveStages sourceMode source destinationMode destination size
    return ((Instruction.bare operation size).withSource sourceMode source).withDestination
      destinationMode destination

/-- `0111 rrr0 dddd dddd`: load a sign-extended byte into a data register. -/
def moveQuick (opcode : Word) : Decoding Instruction := do
  perform "np"
  return (Instruction.bare .moveq .long).withDestination .dataRegister (upperRegister opcode)

/-- `1100 xxx1 oooo oyyy`: exchange two registers. -/
def exchange (opcode : Word) : Decoding Instruction := do
  let (x, y) ← demand (match opcode.toNat / 8 % 32 with
    | 0x08 => some (AddressMode.dataRegister, AddressMode.dataRegister)
    | 0x09 => some (AddressMode.addressRegister, AddressMode.addressRegister)
    | 0x11 => some (AddressMode.dataRegister, AddressMode.addressRegister)
    | _ => none)
  perform "np n"
  return ((Instruction.bare .exg .long).withSource x (upperRegister opcode)).withDestination y
    (lowerRegister opcode)

/-- `0100 rrr1 11mm mxxx`: load the address of an operand into an address register. -/
def loadAddress (opcode : Word) : Decoding Instruction := do
  let mode ← demand (AddressMode.ofField? opcode)
  let register := lowerRegister opcode
  let instruction :=
    { (Instruction.bare .lea .long).withDestination .addressRegister (upperRegister opcode) with
      source := .effectiveAddress .source, sourceRegister := register }
  match mode with
  | .indirect =>
    perform "np"
    return { instruction with source := .addressRegister register }
  | .displacement | .pcDisplacement | .absoluteShort =>
    op mode.action .src "np np"
    act .operate .nowhere
    return instruction
  | .index | .pcIndex =>
    op mode.action .src "n np n np"
    act .operate .nowhere
    return instruction
  | .absoluteLong =>
    bus "np"
    op mode.action .src "np np"
    act .operate .nowhere
    return instruction
  | _ => reject

/-- Address the memory of a register list. -/
def addressList (mode : AddressMode) : Decoding Unit :=
  match mode with
  | .indirect | .postIncrement | .preDecrement => act (.address .register) .dst
  | .absoluteLong => do
    bus "np"
    op mode.action .dst "np"
  | _ => op mode.action .dst (indexed mode "np")

/-- `0100 1d00 1smm mxxx`, then the register list: move the listed registers. -/
def moveRegisters (direction : ListDirection) (opcode : Word) : Decoding Instruction := do
  let mode ← demand (AddressMode.ofField? opcode)
  if !Encoding.movesRegisters direction mode then reject
  else
    let size : Size := if opcode.getLsbD 6 then .long else .word
    op .latchList .src "np"
    addressList mode
    act .operate .nowhere
    op (.finishList direction) .dst "np"
    return { (Instruction.bare (.movem direction) size).withDestination mode
      (lowerRegister opcode) with source := .sourceLatch }

/-! ## What is written down -/

theorem records_storeMoved (mode : AddressMode) (register : RegisterNumber) (size : Size)
    (increment : Target) :
    (storeMoved mode register size increment).Records ()
      (Encoding.storeMoved mode register size increment) := by
  have hstep := records_stepPast mode register size increment
  cases mode with
  | indirect | postIncrement =>
    refine Records.andThen ?_ hstep
    cases size <;> exact records_opAt rfl _ _
  | preDecrement =>
    cases size with
    | long =>
      exact (records_op rfl (.decrement .two) .dst).andThen
        ((records_opAt rfl (.address .register) .dst).andThen (records_act (.decrement .two) .dst))
    | _ => exact records_opAt rfl _ .dst
  | absoluteLong =>
    refine (records_bus rfl).andThen (records_opAt ?_ _ .dst)
    cases size <;> rfl
  | _ =>
    refine records_opAt ?_ _ .dst
    cases size <;> rfl

theorem records_moveStages (sourceMode : AddressMode) (source : RegisterNumber)
    (destinationMode : AddressMode) (destination : RegisterNumber) (size : Size) :
    (moveStages sourceMode source destinationMode destination size).Records ()
      (Encoding.moveStages sourceMode source destinationMode destination size) := by
  rw [Encoding.moveStages, List.append_assoc]
  refine (records_fetchSource sourceMode source size).andThen (Records.andThen ?_ ?_)
  · split
    · exact records_pure ()
    · exact records_stepPast sourceMode source size .src
  · split
    · exact records_perform rfl
    · exact (records_act .operate .nowhere).andThen
        (records_storeMoved destinationMode destination size _)

theorem follows_move (opcode : Word) : (move opcode).Follows (Encoding.move opcode) := by
  refine .demand fun sourceMode _ => .demand fun destinationMode _ => ?_
  refine .ite (fun _ => follows_reject) fun _ => .ite (fun _ => follows_reject) fun _ => ?_
  exact (records_moveStages sourceMode _ destinationMode _ _).last _

theorem follows_moveQuick (opcode : Word) :
    (moveQuick opcode).Follows (Encoding.moveQuick opcode) :=
  (records_perform rfl).last _

theorem follows_exchange (opcode : Word) :
    (exchange opcode).Follows (Encoding.exchange opcode) := by
  refine .demand fun modes _ => ?_
  exact (records_perform rfl).last _

theorem follows_loadAddress (opcode : Word) :
    (loadAddress opcode).Follows (Encoding.loadAddress opcode) := by
  refine .demand fun mode _ => ?_
  have hperformed := records_act .operate .nowhere
  cases mode with
  | indirect => exact (records_perform rfl).last _
  | displacement | pcDisplacement | absoluteShort | index | pcIndex =>
    exact (records_op rfl _ .src).andThen (hperformed.last _)
  | absoluteLong =>
    exact (records_bus rfl).andThen ((records_op rfl _ .src).andThen (hperformed.last _))
  | _ => exact follows_reject

theorem records_addressList (mode : AddressMode) :
    (addressList mode).Records () (Encoding.addressList mode) := by
  cases mode with
  | indirect | postIncrement | preDecrement => exact records_act (.address .register) .dst
  | absoluteLong => exact (records_bus rfl).andThen (records_op rfl _ .dst)
  | _ => exact records_op rfl _ .dst

theorem follows_moveRegisters (direction : ListDirection) (opcode : Word) :
    (moveRegisters direction opcode).Follows (Encoding.moveRegisters direction opcode) := by
  refine .demand fun mode _ => .ite (fun _ => follows_reject) fun _ => ?_
  exact (records_op rfl .latchList .src).andThen ((records_addressList mode).andThen
    ((records_act .operate .nowhere).andThen
      ((records_op rfl (.finishList direction) .dst).last _)))

end M68k.Decoding
