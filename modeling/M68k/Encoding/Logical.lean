import M68k.Encoding.Operands

/-!
# Encodings of logical operations

The bitwise operations on whole operands, the operations on single bits, and the shifts.

## Main definitions

* `logical`, `bit`, `shiftRegister`, `shiftMemory`
-/

namespace M68k.Encoding

/-- `cccc rrrd ssmm mxxx`: combine an operand and a data register bitwise, into the register or, if
`d` is set, into memory. The exclusive or has no form into the register but one from it into another
data register. -/
def logical (kind : BitwiseKind) (opcode : Word) : Option Recipe := do
  let size ← sizeField? opcode
  let mode ← AddressMode.ofField? opcode
  let upper := upperRegister opcode
  let lower := lowerRegister opcode
  let instruction := Instruction.bare (.bitwise kind) size
  if opcode.getLsbD 8 then
    let instruction := (instruction.withSource .dataRegister upper).withDestination mode lower
    if mode == .dataRegister && kind == .eor then
      some ⟨instruction, [.perform (registerTail mode size)]⟩
    else if mode.isMemoryAlterable then
      some ⟨instruction, readModifyWrite mode lower size .store⟩
    else none
  else if kind == .eor || mode == .addressRegister then none
  else
    some ⟨(instruction.withSource mode lower).withDestination .dataRegister upper,
      fetchSource mode lower size ++ [.perform (registerTail mode size)] ++
        stepPast mode lower size .src⟩

/-- A bit of an operand in this mode can be tested or, unless `isTest` is set, changed. -/
def hasBits (isTest : Bool) : AddressMode → Bool
  | .dataRegister => true
  | .pcDisplacement | .pcIndex => isTest
  | mode => mode.isMemoryAlterable

/-- Test and perhaps change one bit of an operand: of all 32 in a data register, of 8 in memory. The
bit number is in a data register or, if `static` is set, in the word after the opcode. -/
def bit (static : Bool) (kind : BitKind) (opcode : Word) : Option Recipe := do
  let mode ← AddressMode.ofField? opcode
  let isTest := kind == .test
  if !hasBits isTest mode then none
  else
    let register := lowerRegister opcode
    let size : Size := if mode == .dataRegister then .long else .byte
    let bare := Instruction.bare (.bit kind) size
    let numbered :=
      if static then { bare with source := .sourceLatch }
      else bare.withSource .dataRegister (upperRegister opcode)
    let stages : List Stage :=
      if mode == .dataRegister then
        if isTest then [.perform (.fetch ++ .idle 4)] else [.bus .fetch, .perform .flexible]
      else readModifyWrite mode register size (if isTest then .discard else .store)
    some ⟨numbered.withDestination mode register,
      (if static then fetchImmediate .word else []) ++ stages⟩

/-- `0000 rrr1 oomm mxxx`: the bit number is in a data register. -/
def bitInRegister : BitKind → Word → Option Recipe := bit false

/-- `0000 1000 oomm mxxx`: the bit number is in the next word. -/
def bitInWord : BitKind → Word → Option Recipe := bit true

/-- `1110 cccd ssit trrr`: shift a data register by a number from 1 to 8 or, if `i` is set, by the
content of a data register. The duration grows with the count. -/
def shiftRegister (kind : ShiftKind) (opcode : Word) : Option Recipe := do
  let size ← sizeField? opcode
  let bare := Instruction.bare (.shift kind) size
  let counted :=
    if opcode.getLsbD 5 then bare.withSource .dataRegister (upperRegister opcode)
    else { bare with source := .quick }
  some ⟨counted.withDestination .dataRegister (lowerRegister opcode),
    [.bus (.fetch ++ .idle (if size == .long then 8 else 4)), .perform .flexible]⟩

/-- `1110 0ttd 11mm mxxx`: shift a word in memory by one bit. -/
def shiftMemory (kind : ShiftKind) (opcode : Word) : Option Recipe := do
  let mode ← AddressMode.ofField? opcode
  let register := lowerRegister opcode
  if mode.isMemoryAlterable then
    some ⟨(Instruction.bare (.shift kind) .word).withDestination mode register,
      readModifyWrite mode register .word .store⟩
  else none

end M68k.Encoding
