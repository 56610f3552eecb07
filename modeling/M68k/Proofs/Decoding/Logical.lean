import M68k.Encoding.Logical
import M68k.Proofs.Decoding.IntegerArithmetic

/-!
# Decoders of logical operations

The bitwise operations on whole operands, the operations on single bits, and the shifts, written
down as they are decoded.

## Main definitions

* `Decoding.logical`, `Decoding.bit`, `Decoding.shiftRegister`, `Decoding.shiftMemory`

## Main results

* `Decoding.follows_logical` and its neighbours: each decoder follows the encoding of the same name
-/

namespace M68k.Decoding

open Encoding (upperRegister lowerRegister sizeField?)

/-- `cccc rrrd ssmm mxxx`: combine an operand and a data register bitwise. The exclusive or has no
form into the register but one from it into another data register. -/
def logical (kind : BitwiseKind) (opcode : Word) : Decoding Instruction := do
  let size ← demand (sizeField? opcode)
  let mode ← demand (AddressMode.ofField? opcode)
  let upper := upperRegister opcode
  let lower := lowerRegister opcode
  let instruction := Instruction.bare (.bitwise kind) size
  if opcode.getLsbD 8 then
    let instruction := (instruction.withSource .dataRegister upper).withDestination mode lower
    if mode == .dataRegister && kind == .eor then
      perform (registerTail mode size)
      return instruction
    else if mode.isMemoryAlterable then
      readModifyWrite mode lower size .store
      return instruction
    else reject
  else if kind == .eor || mode == .addressRegister then reject
  else
    intoRegister mode lower size (registerTail mode size)
    return (instruction.withSource mode lower).withDestination .dataRegister upper

/-- Test and perhaps change one bit of an operand. The bit number is in a data register or, if
`static` is set, in the word after the opcode. -/
def bit (static : Bool) (kind : BitKind) (opcode : Word) : Decoding Instruction := do
  let mode ← demand (AddressMode.ofField? opcode)
  let isTest := kind == .test
  if !Encoding.hasBits isTest mode then reject
  else
    let register := lowerRegister opcode
    let size : Size := if mode == .dataRegister then .long else .byte
    let bare := Instruction.bare (.bit kind) size
    let numbered :=
      if static then { bare with source := .sourceLatch }
      else bare.withSource .dataRegister (upperRegister opcode)
    (if static then fetchImmediate .word else pure ())
    (if mode == .dataRegister then
        if isTest then perform "np n"
        else do
          bus "np"
          perform "r"
      else readModifyWrite mode register size (if isTest then .discard else .store))
    return numbered.withDestination mode register

/-- `1110 cccd ssit trrr`: shift a data register. -/
def shiftRegister (kind : ShiftKind) (opcode : Word) : Decoding Instruction := do
  let size ← demand (sizeField? opcode)
  let bare := Instruction.bare (.shift kind) size
  let counted :=
    if opcode.getLsbD 5 then bare.withSource .dataRegister (upperRegister opcode)
    else { bare with source := .quick }
  bus (if size == .long then "np nn" else "np n")
  perform "r"
  return counted.withDestination .dataRegister (lowerRegister opcode)

/-- `1110 0ttd 11mm mxxx`: shift a word in memory by one bit. -/
def shiftMemory (kind : ShiftKind) (opcode : Word) : Decoding Instruction := do
  let mode ← demand (AddressMode.ofField? opcode)
  let register := lowerRegister opcode
  if mode.isMemoryAlterable then
    readModifyWrite mode register .word .store
    return (Instruction.bare (.shift kind) .word).withDestination mode register
  else reject

/-! ## What is written down -/

theorem follows_logical (kind : BitwiseKind) (opcode : Word) :
    (logical kind opcode).Follows (Encoding.logical kind opcode) := by
  refine .demand fun size _ => .demand fun mode _ => .ite (fun _ => ?_) fun _ => ?_
  · refine .ite (fun _ => ?_) fun _ => ?_
    · exact (records_perform (parse_registerTail mode size)).last _
    · exact .ite (fun _ => (records_readModifyWrite mode _ size .store nofun).last _)
        fun _ => follows_reject
  · refine .ite (fun _ => follows_reject) fun _ => ?_
    exact (records_intoRegister mode _ size (parse_registerTail mode size)).last _

theorem follows_bit (static : Bool) (kind : BitKind) (opcode : Word) :
    (bit static kind opcode).Follows (Encoding.bit static kind opcode) := by
  refine .demand fun mode _ => .ite (fun _ => follows_reject) fun _ => ?_
  refine Records.andThen ?_ (Records.last ?_ _)
  · split
    · exact records_fetchImmediate .word
    · exact records_pure ()
  · split
    · split
      · exact records_perform rfl
      · exact (records_bus rfl).andThen (records_perform rfl)
    · refine records_readModifyWrite mode _ _ _ fun hbyte => ?_
      cases kind <;> cases hbyte

theorem follows_shiftRegister (kind : ShiftKind) (opcode : Word) :
    (shiftRegister kind opcode).Follows (Encoding.shiftRegister kind opcode) := by
  refine .demand fun size _ => (records_bus ?_).andThen ((records_perform rfl).last _)
  cases size <;> rfl

theorem follows_shiftMemory (kind : ShiftKind) (opcode : Word) :
    (shiftMemory kind opcode).Follows (Encoding.shiftMemory kind opcode) := by
  refine .demand fun mode _ => .ite (fun _ => ?_) fun _ => follows_reject
  exact (records_readModifyWrite mode _ .word .store nofun).last _

end M68k.Decoding
