import M68k.Encoding.Recipe

/-!
# Operand stages

The processor moves through an operand in a fixed order: extension words and address calculation,
the read, the operation, then for memory destinations the write. Here are those stages for every
addressing mode, so that each encoding only adds what is particular to it.

## Main definitions

* `fetchSource`, `fetchImmediate`: bring a source operand into the source latch
* `readModifyWrite`: read a memory destination, operate, and write it back
* `stepPast`: the trailing step of a register past its operand
-/

namespace M68k.Encoding

/-- The source side's effective address. -/
def sourceAddress : AddressSource := .ofSide .source

/-- The destination side's effective address. -/
def destinationAddress : AddressSource := .ofSide .destination

/-- The width of the transfers that move an operand. -/
def transferWidth : Size → Width
  | .byte => .byte
  | _ => .word

/-- Read an operand of `size` into a side's latch. A long word is read high word first, and the
address moves from one word to the other. -/
def readOperand (side : Side) (size : Size) (address : AddressSource) : Activity :=
  match size with
  | .long =>
    .read side .high (some .increment) .word address ++ .read side .low none .word address
  | _ => .read side .low none (transferWidth size) address

/-- The idle time of the modes that add an index register. -/
def indexDelay (mode : AddressMode) : Activity := if mode.isIndexed then .idle 4 else []

/-- Closing activity of an operation whose result lands in a data register. A long operation on a
register or an immediate cannot hide its second half behind a read. -/
def registerTail (mode : AddressMode) (size : Size) : Activity :=
  match size with
  | .long => .fetch ++ .idle (if mode.isRegister || mode == .immediate then 8 else 4)
  | _ => .fetch

/-- Assemble an immediate operand from the instruction stream into the source latch. -/
def fetchImmediate : Size → List Stage
  | .long => [.bus .fetch, ⟨.longImmediate, .src, .fetch⟩]
  | _ => [⟨.immediate, .src, .fetch⟩]

/-- Address an operand in memory and read it into the latch of `side`, of which `target` is the set.
Byte and word operands at an address register are read there; all others go through the
effective-address latch. -/
def readMemory (side : Side) (target : Target) (mode : AddressMode) (register : RegisterNumber)
    (size : Size) : List Stage :=
  let latched := readOperand side size (.ofSide side)
  let direct := readOperand side size (.addressRegister register)
  match mode with
  | .indirect | .postIncrement =>
    match size with
    | .long => [⟨.address .register, target, latched⟩]
    | _ => [.bus direct]
  | .preDecrement =>
    match size with
    | .long =>
      [.act (.decrement .four) target, ⟨.address .register, target, .idle 4 ++ latched⟩]
    | _ => [⟨.decrement (stride size register), target, .idle 4 ++ direct⟩]
  | .absoluteLong => [.bus .fetch, ⟨mode.action, target, .fetch ++ latched⟩]
  | _ => [⟨mode.action, target, indexDelay mode ++ .fetch ++ latched⟩]

/-- Load a memory or immediate operand into the source latch. Registers need no bus activity. -/
def fetchSource (mode : AddressMode) (register : RegisterNumber) (size : Size) : List Stage :=
  match mode with
  | .dataRegister | .addressRegister => []
  | .immediate => fetchImmediate size
  | _ => readMemory .source .src mode register size

/-- The trailing step of a register past its operand, if the mode has one. -/
def stepPast (mode : AddressMode) (register : RegisterNumber) (size : Size) (target : Target) :
    List Stage :=
  match mode with
  | .postIncrement => [.act (.increment (stride size register)) target]
  | _ => []

/-- What follows the read of a memory destination. -/
inductive Writeback
  /-- Operate, then write the result back. -/
  | store
  /-- Operate only; the operation just looks at its operand. -/
  | discard
  /-- Operate while the bus is held, then write the byte back. -/
  | testAndSet
deriving DecidableEq, Repr

/-- Where a memory destination is written: at the address register if it was read there. -/
def writeAddress (mode : AddressMode) (register : RegisterNumber) : AddressSource :=
  match mode with
  | .indirect | .postIncrement | .preDecrement => .addressRegister register
  | _ => destinationAddress

/-- Operate on the destination latch and finish according to `writeback`. A long word is written
back low word first. -/
def operateAndWrite (mode : AddressMode) (register : RegisterNumber) (size : Size) :
    Writeback → Stage
  | .store =>
    match size with
    | .long =>
      .perform (.fetch ++ .write .low (some .decrement) .word destinationAddress ++
        .write .high none .word destinationAddress)
    | _ =>
      .perform (.fetch ++ .write .low none (transferWidth size) (writeAddress mode register))
  | .discard => .perform .fetch
  | .testAndSet => .perform (.testAndSet (writeAddress mode register) ++ .fetch)

/-- Read a memory destination into the destination latch, operate and finish according to
`writeback`. -/
def readModifyWrite (mode : AddressMode) (register : RegisterNumber) (size : Size)
    (writeback : Writeback) : List Stage :=
  readMemory .destination .dst mode register size ++
    [operateAndWrite mode register size writeback] ++ stepPast mode register size .dst

end M68k.Encoding
