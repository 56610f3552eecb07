import M68k.Encoding.Operands

/-!
# Encodings of data movement

Moves between any two operands, quick moves, exchanges, address loads, and moves of register lists.

## Main definitions

* `move`, `moveQuick`, `exchange`, `loadAddress`, `moveRegisters`
-/

namespace M68k.Encoding

/-- Write the destination latch to memory, fetching ahead. A post-increment applies to every side in
`increment`. A long word goes out high word first, except to a predecremented address. -/
def storeMoved (mode : AddressMode) (register : RegisterNumber) (size : Size) (increment : Target) :
    List Stage :=
  let latched : Activity :=
    match size with
    | .long =>
      .write .high (some .increment) .word destinationAddress ++
        .write .low none .word destinationAddress
    | _ => .write .low none (transferWidth size) destinationAddress
  let direct : Activity := .write .low none (transferWidth size) (.addressRegister register)
  match mode with
  | .indirect | .postIncrement =>
    (match size with
      | .long => [⟨.address .register, .dst, latched ++ .fetch⟩]
      | _ => [.bus (direct ++ .fetch)]) ++ stepPast mode register size increment
  | .preDecrement =>
    match size with
    | .long =>
      [⟨.decrement .two, .dst, .fetch⟩,
        ⟨.address .register, .dst,
          .write .low (some .decrement) .word destinationAddress ++
            .write .high none .word destinationAddress⟩,
        .act (.decrement .two) .dst]
    | _ => [⟨.decrement (stride size register), .dst, .fetch ++ direct⟩]
  | .absoluteLong => [.bus .fetch, ⟨mode.action, .dst, .fetch ++ latched ++ .fetch⟩]
  | _ => [⟨mode.action, .dst, indexDelay mode ++ .fetch ++ latched ++ .fetch⟩]

/-- The size of a move: lines 1, 3 and 2 are byte, word and long word. -/
def moveSize (opcode : Word) : Size :=
  match opcode.toNat / 4096 % 4 with
  | 1 => .byte
  | 3 => .word
  | _ => .long

/-- Two distinct registers that step by the same amount. -/
def stepsTogether (sourceMode : AddressMode) (source : RegisterNumber)
    (destinationMode : AddressMode) (destination : RegisterNumber) (size : Size) : Bool :=
  sourceMode == .postIncrement && destinationMode == .postIncrement &&
    source != destination && stride size source == stride size destination

/-- The stages of a move. Registers that step together share one increment at the end. Otherwise the
source register steps before the destination is addressed. -/
def moveStages (sourceMode : AddressMode) (source : RegisterNumber)
    (destinationMode : AddressMode) (destination : RegisterNumber) (size : Size) : List Stage :=
  let coalesced := stepsTogether sourceMode source destinationMode destination size
  fetchSource sourceMode source size ++
    (if coalesced then [] else stepPast sourceMode source size .src) ++
    if destinationMode.isRegister then [.perform .fetch]
    else
      .act .operate .nowhere ::
        storeMoved destinationMode destination size (if coalesced then .both else .dst)

/-- `00ss RRRM MMmm mrrr`: move the lower operand to the upper one, whose fields are reversed. A
move to an address register extends the sign and leaves the condition codes alone. -/
def move (opcode : Word) : Option Recipe := do
  let size := moveSize opcode
  let sourceMode ← AddressMode.ofField? opcode
  let destinationMode ← AddressMode.decode? (opcode.toNat / 64) (opcode.toNat / 512)
  if destinationMode.isPcRelative || destinationMode == .immediate then none
  else if size == .byte &&
      (sourceMode == .addressRegister || destinationMode == .addressRegister) then none
  else
    let source := lowerRegister opcode
    let destination := upperRegister opcode
    let operation : Operation := if destinationMode == .addressRegister then .movea else .move
    some
      ⟨((Instruction.bare operation size).withSource sourceMode source).withDestination
        destinationMode destination,
      moveStages sourceMode source destinationMode destination size⟩

/-- `0111 rrr0 dddd dddd`: load a sign-extended byte into a data register. -/
def moveQuick (opcode : Word) : Option Recipe :=
  some ⟨(Instruction.bare .moveq .long).withDestination .dataRegister (upperRegister opcode),
    [.perform .fetch]⟩

/-- `1100 xxx1 oooo oyyy`: exchange two data registers, two address registers, or one of each. -/
def exchange (opcode : Word) : Option Recipe := do
  let (x, y) ← (match opcode.toNat / 8 % 32 with
    | 0x08 => some (AddressMode.dataRegister, AddressMode.dataRegister)
    | 0x09 => some (AddressMode.addressRegister, AddressMode.addressRegister)
    | 0x11 => some (AddressMode.dataRegister, AddressMode.addressRegister)
    | _ => none)
  some ⟨((Instruction.bare .exg .long).withSource x (upperRegister opcode)).withDestination y
    (lowerRegister opcode), [.perform (.fetch ++ .idle 4)]⟩

/-- `0100 rrr1 11mm mxxx`: load the address of an operand into an address register. -/
def loadAddress (opcode : Word) : Option Recipe := do
  let mode ← AddressMode.ofField? opcode
  let register := lowerRegister opcode
  let instruction :=
    { (Instruction.bare .lea .long).withDestination .addressRegister (upperRegister opcode) with
      source := .effectiveAddress .source, sourceRegister := register }
  let performed : Stage := .act .operate .nowhere
  match mode with
  | .indirect =>
    some ⟨{ instruction with source := .addressRegister register }, [.perform .fetch]⟩
  | .displacement | .pcDisplacement | .absoluteShort =>
    some ⟨instruction, [⟨mode.action, .src, .fetch ++ .fetch⟩, performed]⟩
  | .index | .pcIndex =>
    some ⟨instruction,
      [⟨mode.action, .src, .idle 4 ++ .fetch ++ .idle 4 ++ .fetch⟩, performed]⟩
  | .absoluteLong =>
    some ⟨instruction,
      [.bus .fetch, ⟨mode.action, .src, .fetch ++ .fetch⟩, performed]⟩
  | _ => none

/-- A register list can be moved in this direction to or from this mode. -/
def movesRegisters (direction : ListDirection) : AddressMode → Bool
  | .dataRegister | .addressRegister | .immediate => false
  | .postIncrement | .pcDisplacement | .pcIndex => direction == .toRegisters
  | .preDecrement => direction == .toMemory
  | _ => true

/-- Address the memory of a register list. -/
def addressList (mode : AddressMode) : List Stage :=
  match mode with
  | .indirect | .postIncrement | .preDecrement => [.act (.address .register) .dst]
  | .absoluteLong => [.bus .fetch, ⟨mode.action, .dst, .fetch⟩]
  | _ => [⟨mode.action, .dst, indexDelay mode ++ .fetch⟩]

/-- `0100 1d00 1smm mxxx`, then the register list: move the listed registers to memory or, if `d`
is set, from memory, as words or, if `s` is set, as long words. The transfer itself is chosen when
the list is known. -/
def moveRegisters (direction : ListDirection) (opcode : Word) : Option Recipe := do
  let mode ← AddressMode.ofField? opcode
  if !movesRegisters direction mode then none
  else
    let size : Size := if opcode.getLsbD 6 then .long else .word
    let instruction :=
      { (Instruction.bare (.movem direction) size).withDestination mode (lowerRegister opcode) with
        source := .sourceLatch }
    some ⟨instruction,
      ⟨.latchList, .src, .fetch⟩ :: addressList mode ++
        [.act .operate .nowhere, ⟨.finishList direction, .dst, .fetch⟩]⟩

end M68k.Encoding
