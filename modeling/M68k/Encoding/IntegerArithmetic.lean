import M68k.Encoding.Operands

/-!
# Encodings of integer arithmetic

Additions and subtractions in all their forms, comparisons, multiplications, packed decimal
arithmetic, sign extension, and the operations with a single operand.

## Main definitions

* `addSub`, `addressAddSub`, `quickAddSub`, `immediate`
* `compareRegister`, `compareAddress`, `compareImmediate`, `compareMemory`
* `packedDecimal`, `multiply`, `extendSign`, `swapHalves`
* `singleOperand`, `test`, `testAndSet`
-/

namespace M68k.Encoding

/-- Fetch the source, operate on a data register, and let the source register step. -/
def intoRegister (mode : AddressMode) (register : RegisterNumber) (size : Size) (tail : Activity) :
    List Stage :=
  fetchSource mode register size ++ [.perform tail] ++ stepPast mode register size .src

/-- The last word fetched, with idle time after it if the operation is long. -/
def longDelay (size : Size) : Activity :=
  match size with
  | .long => .fetch ++ .idle 4
  | _ => .fetch

/-- `1x01 rrrd ssmm mxxx`: combine an operand and a data register, into the register or, if `d` is
set, into memory. -/
def addSub (operation : Operation) (opcode : Word) : Option Recipe := do
  let size ← sizeField? opcode
  let mode ← AddressMode.ofField? opcode
  let upper := upperRegister opcode
  let lower := lowerRegister opcode
  let instruction := Instruction.bare operation size
  if opcode.getLsbD 8 then
    if !mode.isMemoryAlterable then none
    else some ⟨(instruction.withSource .dataRegister upper).withDestination mode lower,
      readModifyWrite mode lower size .store⟩
  else if mode == .addressRegister && size == .byte then none
  else some ⟨(instruction.withSource mode lower).withDestination .dataRegister upper,
    intoRegister mode lower size (registerTail mode size)⟩

/-- The size bit of the operations on address registers. -/
def addressSize (opcode : Word) : Size := if opcode.getLsbD 8 then .long else .word

/-- `1x01 rrrs 11mm mxxx`: combine an operand with an address register. Words are sign-extended. -/
def addressAddSub (operation : Operation) (opcode : Word) : Option Recipe := do
  let mode ← AddressMode.ofField? opcode
  let size := addressSize opcode
  let lower := lowerRegister opcode
  let tail : Activity :=
    match size with
    | .long => registerTail mode size
    | _ => .fetch ++ .idle 8
  some ⟨((Instruction.bare operation size).withSource mode lower).withDestination .addressRegister
    (upperRegister opcode), intoRegister mode lower size tail⟩

/-- `0101 dddo ssmm mxxx`: add or subtract a number from 1 to 8. An address register is changed as a
whole and without condition codes. -/
def quickAddSub (operation : Operation) (opcode : Word) : Option Recipe := do
  let size ← sizeField? opcode
  let mode ← AddressMode.ofField? opcode
  let register := lowerRegister opcode
  let instruction :=
    { (Instruction.bare operation size).withDestination mode register with source := .quick }
  match mode with
  | .dataRegister => some ⟨instruction, [.perform (registerTail mode size)]⟩
  | .addressRegister =>
    if size == .byte then none
    else
      let operation : Operation := if operation == .add then .adda else .suba
      some ⟨{ instruction with operation := operation, size := .long },
        [.perform (.fetch ++ .idle 8)]⟩
  | _ =>
    if mode.isMemoryAlterable then
      some ⟨instruction, readModifyWrite mode register size .store⟩
    else none

/-- `0000 ooo0 ssmm mxxx`, then the immediate: combine it with a data register or memory. -/
def immediate (operation : Operation) (opcode : Word) : Option Recipe := do
  let size ← sizeField? opcode
  let mode ← AddressMode.ofField? opcode
  let register := lowerRegister opcode
  let instruction :=
    { (Instruction.bare operation size).withDestination mode register with source := .sourceLatch }
  if mode == .dataRegister then
    let tail : Activity :=
      if operation == .bitwise .and && size == .long then .fetch ++ .idle 4
      else registerTail .immediate size
    some ⟨instruction, fetchImmediate size ++ [.perform tail]⟩
  else if mode.isMemoryAlterable then
    some ⟨instruction, fetchImmediate size ++ readModifyWrite mode register size .store⟩
  else none

/-- `1011 rrr0 ssmm mxxx`: compare an operand with a data register. -/
def compareRegister (opcode : Word) : Option Recipe := do
  let size ← sizeField? opcode
  let mode ← AddressMode.ofField? opcode
  if mode == .addressRegister && size == .byte then none
  else
    let lower := lowerRegister opcode
    some ⟨((Instruction.bare .cmp size).withSource mode lower).withDestination .dataRegister
      (upperRegister opcode), intoRegister mode lower size (longDelay size)⟩

/-- `1011 rrrs 11mm mxxx`: compare an operand with an address register. Words are sign-extended. -/
def compareAddress (opcode : Word) : Option Recipe := do
  let mode ← AddressMode.ofField? opcode
  let size := addressSize opcode
  let lower := lowerRegister opcode
  some ⟨((Instruction.bare .cmpa size).withSource mode lower).withDestination .addressRegister
    (upperRegister opcode), intoRegister mode lower size (.fetch ++ .idle 4)⟩

/-- `0000 1100 ssmm mxxx`, then the immediate: compare it with a data register or memory. -/
def compareImmediate (opcode : Word) : Option Recipe := do
  let size ← sizeField? opcode
  let mode ← AddressMode.ofField? opcode
  let register := lowerRegister opcode
  let instruction :=
    { (Instruction.bare .cmp size).withDestination mode register with source := .sourceLatch }
  if mode == .dataRegister then
    some ⟨instruction, fetchImmediate size ++ [.perform (longDelay size)]⟩
  else if mode.isMemoryAlterable then
    some ⟨instruction, fetchImmediate size ++ readModifyWrite mode register size .discard⟩
  else none

/-- `1011 xxx1 ss00 1yyy`: compare two operands in memory, past which both registers step. The
source register steps before the destination is read. -/
def compareMemory (opcode : Word) : Option Recipe := do
  let size ← sizeField? opcode
  let source := lowerRegister opcode
  let destination := upperRegister opcode
  let instruction :=
    ((Instruction.bare .cmp size).withSource .postIncrement source).withDestination
      .postIncrement destination
  let step : Action := .increment (stride size source)
  let reads : List Stage :=
    match size with
    | .long =>
      [⟨.address .register, .src, readOperand .source size sourceAddress⟩,
        .act step .src,
        ⟨.address .register, .dst,
          readOperand .destination size destinationAddress ++ .fetch⟩]
    | _ =>
      [.bus (readOperand .source size (.addressRegister source)),
        ⟨step, .src,
          readOperand .destination size (.addressRegister destination) ++ .fetch⟩]
  some ⟨instruction,
    reads ++
      [.act .operate .nowhere, .act (.increment (stride size destination)) .dst]⟩

/-- `1c00 xxx1 0000 myyy`: packed decimal addition or subtraction of data registers or, if `m` is
set, of bytes below two address registers. -/
def packedDecimal (operation : Operation) (opcode : Word) : Option Recipe :=
  let source := lowerRegister opcode
  let destination := upperRegister opcode
  let instruction := Instruction.bare operation .byte
  if opcode.getLsbD 3 then
    some ⟨(instruction.withSource .preDecrement source).withDestination .preDecrement destination,
      [⟨.decrement (stride .byte source), .src,
          .idle 4 ++ .read .source .low none .byte (.addressRegister source)⟩,
        ⟨.decrement (stride .byte destination), .dst,
          .read .destination .low none .byte (.addressRegister destination) ++ .fetch⟩,
        .perform (.write .low none .byte (.addressRegister destination))]⟩
  else
    some ⟨(instruction.withSource .dataRegister source).withDestination .dataRegister destination,
      [.perform (.fetch ++ .idle 4)]⟩

/-- `1100 rrrs 11mm mxxx`: multiply a data register by a word. The duration depends on the bits of
the source. -/
def multiply (operation : Operation) (opcode : Word) : Option Recipe := do
  let mode ← AddressMode.ofField? opcode
  if mode == .addressRegister then none
  else
    let lower := lowerRegister opcode
    some ⟨((Instruction.bare operation .word).withSource mode lower).withDestination .dataRegister
        (upperRegister opcode),
      fetchSource mode lower .word ++ [.bus .fetch, .perform .flexible] ++
        stepPast mode lower .word .src⟩

/-- `0100 1000 1s00 0rrr`: extend the sign of a byte to a word or, if `s` is set, of a word to a
long word. -/
def extendSign (opcode : Word) : Option Recipe :=
  let size : Size := if opcode.getLsbD 6 then .long else .word
  some ⟨(Instruction.bare .ext size).withDestination .dataRegister (lowerRegister opcode),
    [.perform .fetch]⟩

/-- `0100 1000 0100 0rrr`: swap the halves of a data register. -/
def swapHalves (opcode : Word) : Option Recipe :=
  some ⟨(Instruction.bare .swap .long).withDestination .dataRegister (lowerRegister opcode),
    [.perform .fetch]⟩

/-- `0100 oooo ssmm mxxx`: clear, negate or complement an operand. Memory is read even when it is
about to be cleared. -/
def singleOperand (operation : Operation) (opcode : Word) : Option Recipe := do
  let size ← sizeField? opcode
  let mode ← AddressMode.ofField? opcode
  let register := lowerRegister opcode
  let instruction := (Instruction.bare operation size).withDestination mode register
  if mode == .dataRegister then some ⟨instruction, [.perform (longDelay size)]⟩
  else if mode.isMemoryAlterable then
    some ⟨instruction, readModifyWrite mode register size .store⟩
  else none

/-- `0100 1010 ssmm mxxx`: set the condition codes from an operand. -/
def test (opcode : Word) : Option Recipe := do
  let size ← sizeField? opcode
  let mode ← AddressMode.ofField? opcode
  let register := lowerRegister opcode
  let instruction := (Instruction.bare .tst size).withDestination mode register
  if mode == .dataRegister then some ⟨instruction, [.perform .fetch]⟩
  else if mode.isMemoryAlterable then
    some ⟨instruction, readModifyWrite mode register size .discard⟩
  else none

/-- `0100 1010 11mm mxxx`: set the condition codes from a byte and then its top bit, in one held bus
cycle. -/
def testAndSet (opcode : Word) : Option Recipe := do
  let mode ← AddressMode.ofField? opcode
  let register := lowerRegister opcode
  let instruction := (Instruction.bare .tas .byte).withDestination mode register
  if mode == .dataRegister then some ⟨instruction, [.perform .fetch]⟩
  else if mode.isMemoryAlterable then
    some ⟨instruction, readModifyWrite mode register .byte .testAndSet⟩
  else none

end M68k.Encoding
