import M68k.Encoding.IntegerArithmetic
import M68k.Proofs.Decoding.Operands

/-!
# Decoders of integer arithmetic

Additions and subtractions in all their forms, comparisons, multiplications, packed decimal
arithmetic, sign extension, and the operations with a single operand, written down as they are
decoded.

## Main definitions

* `Decoding.addSub`, `Decoding.addressAddSub`, `Decoding.quickAddSub`, `Decoding.immediate`
* `Decoding.compareRegister`, `Decoding.compareAddress`, `Decoding.compareImmediate`,
  `Decoding.compareMemory`
* `Decoding.packedDecimal`, `Decoding.multiply`, `Decoding.extendOrSwap`
* `Decoding.singleOperand`, `Decoding.test`, `Decoding.testAndSet`
* `Encoding.extendOrSwap`: two of the encodings in one

## Main results

* `Decoding.follows_addSub` and its neighbours: each decoder follows the encoding of the same name
-/

namespace M68k

/-- The sign of an operand extended, or the halves of a register swapped. Only an extension has a
size. -/
def Encoding.extendOrSwap (operation : Operation) (opcode : Word) : Option Recipe :=
  let size : Size := if operation == .ext && !opcode.getLsbD 6 then .word else .long
  some ⟨(Instruction.bare operation size).withDestination .dataRegister (lowerRegister opcode),
    [.perform .fetch]⟩

namespace Decoding

open Encoding (upperRegister lowerRegister sizeField? addressSize)

/-- Fetch the source, operate on a register, and let the source register step. -/
def intoRegister (mode : AddressMode) (register : RegisterNumber) (size : Size) (tail : String) :
    Decoding Unit := do
  fetchSource mode register size
  perform tail
  stepPast mode register size .src

/-- The last word fetched, with idle time after it if the operation is long. -/
def longDelay (size : Size) : String := if size == .long then "np n" else "np"

/-- `1x01 rrrd ssmm mxxx`: combine an operand and a data register. -/
def addSub (operation : Operation) (opcode : Word) : Decoding Instruction := do
  let size ← demand (sizeField? opcode)
  let mode ← demand (AddressMode.ofField? opcode)
  let upper := upperRegister opcode
  let lower := lowerRegister opcode
  let instruction := Instruction.bare operation size
  if opcode.getLsbD 8 then
    if !mode.isMemoryAlterable then reject
    else
      readModifyWrite mode lower size .store
      return (instruction.withSource .dataRegister upper).withDestination mode lower
  else if mode == .addressRegister && size == .byte then reject
  else
    intoRegister mode lower size (registerTail mode size)
    return (instruction.withSource mode lower).withDestination .dataRegister upper

/-- `1x01 rrrs 11mm mxxx`: combine an operand with an address register. -/
def addressAddSub (operation : Operation) (opcode : Word) : Decoding Instruction := do
  let mode ← demand (AddressMode.ofField? opcode)
  let size := addressSize opcode
  let lower := lowerRegister opcode
  let tail :=
    match size with
    | .long => registerTail mode size
    | _ => "np nn"
  intoRegister mode lower size tail
  return ((Instruction.bare operation size).withSource mode lower).withDestination .addressRegister
    (upperRegister opcode)

/-- `0101 dddo ssmm mxxx`: add or subtract a number from 1 to 8. -/
def quickAddSub (operation : Operation) (opcode : Word) : Decoding Instruction := do
  let size ← demand (sizeField? opcode)
  let mode ← demand (AddressMode.ofField? opcode)
  let register := lowerRegister opcode
  let instruction :=
    { (Instruction.bare operation size).withDestination mode register with source := .quick }
  match mode with
  | .dataRegister =>
    perform (registerTail mode size)
    return instruction
  | .addressRegister =>
    if size == .byte then reject
    else
      perform "np nn"
      let operation : Operation := if operation == .add then .adda else .suba
      return { instruction with operation := operation, size := .long }
  | _ =>
    if mode.isMemoryAlterable then
      readModifyWrite mode register size .store
      return instruction
    else reject

/-- `0000 ooo0 ssmm mxxx`, then the immediate: combine it with a data register or memory. -/
def immediate (operation : Operation) (opcode : Word) : Decoding Instruction := do
  let size ← demand (sizeField? opcode)
  let mode ← demand (AddressMode.ofField? opcode)
  if mode != .dataRegister && !mode.isMemoryAlterable then reject
  else
    let register := lowerRegister opcode
    fetchImmediate size
    (if mode == .dataRegister then
        perform (if operation == .bitwise .and && size == .long then "np n"
          else registerTail .immediate size)
      else readModifyWrite mode register size .store)
    return { (Instruction.bare operation size).withDestination mode register with
      source := .sourceLatch }

/-- `1011 rrr0 ssmm mxxx`: compare an operand with a data register. -/
def compareRegister (opcode : Word) : Decoding Instruction := do
  let size ← demand (sizeField? opcode)
  let mode ← demand (AddressMode.ofField? opcode)
  if mode == .addressRegister && size == .byte then reject
  else
    let lower := lowerRegister opcode
    intoRegister mode lower size (longDelay size)
    return ((Instruction.bare .cmp size).withSource mode lower).withDestination .dataRegister
      (upperRegister opcode)

/-- `1011 rrrs 11mm mxxx`: compare an operand with an address register. -/
def compareAddress (opcode : Word) : Decoding Instruction := do
  let mode ← demand (AddressMode.ofField? opcode)
  let size := addressSize opcode
  let lower := lowerRegister opcode
  intoRegister mode lower size "np n"
  return ((Instruction.bare .cmpa size).withSource mode lower).withDestination .addressRegister
    (upperRegister opcode)

/-- `0000 1100 ssmm mxxx`, then the immediate: compare it with a data register or memory. -/
def compareImmediate (opcode : Word) : Decoding Instruction := do
  let size ← demand (sizeField? opcode)
  let mode ← demand (AddressMode.ofField? opcode)
  if mode != .dataRegister && !mode.isMemoryAlterable then reject
  else
    let register := lowerRegister opcode
    fetchImmediate size
    (if mode == .dataRegister then perform (longDelay size)
      else readModifyWrite mode register size .discard)
    return { (Instruction.bare .cmp size).withDestination mode register with
      source := .sourceLatch }

/-- `1011 xxx1 ss00 1yyy`: compare two operands in memory, past which both registers step. -/
def compareMemory (opcode : Word) : Decoding Instruction := do
  let size ← demand (sizeField? opcode)
  let source := lowerRegister opcode
  let destination := upperRegister opcode
  let step : Action := .increment (stride size source)
  (if size == .long then do
      opAt (.address .register) .src "nR+ nr" [.ofSide .source, .ofSide .source] .word
      act step .src
      opAt (.address .register) .dst "nRd+ nrd np" [.ofSide .destination, .ofSide .destination]
        .word
    else do
      opAt .none .nowhere "nr" [.addressRegister source] (Encoding.transferWidth size)
      opAt step .src "nrd np" [.addressRegister destination] (Encoding.transferWidth size))
  act .operate .nowhere
  act (.increment (stride size destination)) .dst
  return ((Instruction.bare .cmp size).withSource .postIncrement source).withDestination
    .postIncrement destination

/-- `1c00 xxx1 0000 myyy`: packed decimal addition or subtraction. -/
def packedDecimal (operation : Operation) (opcode : Word) : Decoding Instruction := do
  let source := lowerRegister opcode
  let destination := upperRegister opcode
  let instruction := Instruction.bare operation .byte
  if opcode.getLsbD 3 then
    opAt (.decrement (stride .byte source)) .src "n nr" [.addressRegister source] .byte
    opAt (.decrement (stride .byte destination)) .dst "nrd np" [.addressRegister destination] .byte
    opAt .operate .nowhere "nw" [.addressRegister destination] .byte
    return (instruction.withSource .preDecrement source).withDestination .preDecrement destination
  else
    perform "np n"
    return (instruction.withSource .dataRegister source).withDestination .dataRegister destination

/-- `1100 rrrs 11mm mxxx`: multiply a data register by a word. -/
def multiply (operation : Operation) (opcode : Word) : Decoding Instruction := do
  let mode ← demand (AddressMode.ofField? opcode)
  if mode == .addressRegister then reject
  else
    let lower := lowerRegister opcode
    fetchSource mode lower .word
    bus "np"
    perform "r"
    stepPast mode lower .word .src
    return ((Instruction.bare operation .word).withSource mode lower).withDestination .dataRegister
      (upperRegister opcode)

/-- `0100 1000 1s00 0rrr` and `0100 1000 0100 0rrr`: extend a sign, or swap the halves of a data
register. -/
def extendOrSwap (operation : Operation) (opcode : Word) : Decoding Instruction := do
  let size : Size := if operation == .ext && !opcode.getLsbD 6 then .word else .long
  perform "np"
  return (Instruction.bare operation size).withDestination .dataRegister (lowerRegister opcode)

/-- `0100 oooo ssmm mxxx`: clear, negate or complement an operand. -/
def singleOperand (operation : Operation) (opcode : Word) : Decoding Instruction := do
  let size ← demand (sizeField? opcode)
  let mode ← demand (AddressMode.ofField? opcode)
  let register := lowerRegister opcode
  let instruction := (Instruction.bare operation size).withDestination mode register
  if mode == .dataRegister then
    perform (longDelay size)
    return instruction
  else if mode.isMemoryAlterable then
    readModifyWrite mode register size .store
    return instruction
  else reject

/-- `0100 1010 ssmm mxxx`: set the condition codes from an operand. -/
def test (opcode : Word) : Decoding Instruction := do
  let size ← demand (sizeField? opcode)
  let mode ← demand (AddressMode.ofField? opcode)
  let register := lowerRegister opcode
  let instruction := (Instruction.bare .tst size).withDestination mode register
  if mode == .dataRegister then
    perform "np"
    return instruction
  else if mode.isMemoryAlterable then
    readModifyWrite mode register size .discard
    return instruction
  else reject

/-- `0100 1010 11mm mxxx`: set the condition codes from a byte and then its top bit. -/
def testAndSet (opcode : Word) : Decoding Instruction := do
  let mode ← demand (AddressMode.ofField? opcode)
  let register := lowerRegister opcode
  let instruction := (Instruction.bare .tas .byte).withDestination mode register
  if mode == .dataRegister then
    perform "np"
    return instruction
  else if mode.isMemoryAlterable then
    readModifyWrite mode register .byte .testAndSet
    return instruction
  else reject

/-! ## What is written down -/

/-- What closes an operation on a register is spelled like its activity. -/
theorem parse_registerTail (mode : AddressMode) (size : Size) :
    parsePattern (registerTail mode size) [] .word =
      .ok (Encoding.registerTail mode size).toProgram := by
  cases size with
  | long => cases mode <;> rfl
  | _ =>
    change parsePattern "np" [] .word = _
    rfl

theorem parse_longDelay (size : Size) :
    parsePattern (longDelay size) [] .word = .ok (Encoding.longDelay size).toProgram := by
  cases size <;> rfl

theorem records_intoRegister (mode : AddressMode) (register : RegisterNumber) (size : Size)
    {tail : String} {activity : Activity}
    (hparse : parsePattern tail [] .word = .ok activity.toProgram) :
    (intoRegister mode register size tail).Records ()
      (Encoding.intoRegister mode register size activity) := by
  rw [Encoding.intoRegister, List.append_assoc]
  exact (records_fetchSource mode register size).andThen
    ((records_perform hparse).andThen (records_stepPast mode register size .src))

theorem follows_addSub (operation : Operation) (opcode : Word) :
    (addSub operation opcode).Follows (Encoding.addSub operation opcode) := by
  refine .demand fun size _ => .demand fun mode _ => .ite (fun _ => ?_) fun _ => ?_
  · refine .ite (fun _ => follows_reject) fun _ => ?_
    exact (records_readModifyWrite mode _ size .store nofun).last _
  · refine .ite (fun _ => follows_reject) fun _ => ?_
    exact (records_intoRegister mode _ size (parse_registerTail mode size)).last _

theorem follows_addressAddSub (operation : Operation) (opcode : Word) :
    (addressAddSub operation opcode).Follows (Encoding.addressAddSub operation opcode) := by
  refine .demand fun mode _ => ?_
  refine (records_intoRegister mode _ (addressSize opcode) ?_).last _
  cases addressSize opcode with
  | long => exact parse_registerTail mode .long
  | _ =>
    change parsePattern "np nn" [] .word = _
    rfl

theorem follows_quickAddSub (operation : Operation) (opcode : Word) :
    (quickAddSub operation opcode).Follows (Encoding.quickAddSub operation opcode) := by
  refine .demand fun size _ => .demand fun mode _ => ?_
  cases mode with
  | dataRegister => exact (records_perform (parse_registerTail .dataRegister size)).last _
  | addressRegister =>
    exact .ite (fun _ => follows_reject) fun _ => (records_perform rfl).last _
  | _ =>
    exact .ite (fun _ => (records_readModifyWrite _ _ size .store nofun).last _)
      fun _ => follows_reject

theorem follows_compareRegister (opcode : Word) :
    (compareRegister opcode).Follows (Encoding.compareRegister opcode) := by
  refine .demand fun size _ => .demand fun mode _ => .ite (fun _ => follows_reject) fun _ => ?_
  exact (records_intoRegister mode _ size (parse_longDelay size)).last _

theorem follows_compareAddress (opcode : Word) :
    (compareAddress opcode).Follows (Encoding.compareAddress opcode) := by
  refine .demand fun mode _ => ?_
  exact (records_intoRegister mode _ (addressSize opcode) rfl).last _

/-- A decoder that checks the mode first follows an encoding that chooses by it. -/
theorem Follows.inPlace {mode : AddressMode} {lead emission : Decoding Unit}
    {instruction : Instruction} {front register memory : List Stage}
    (hlead : lead.Records () front)
    (hregister : mode = .dataRegister → emission.Records () register)
    (hmemory : mode ≠ .dataRegister → emission.Records () memory) :
    Follows (if mode != .dataRegister && !mode.isMemoryAlterable then reject
      else lead >>= fun _ => emission >>= fun _ => pure instruction)
      (if mode == .dataRegister then some ⟨instruction, front ++ register⟩
        else if mode.isMemoryAlterable then some ⟨instruction, front ++ memory⟩ else none) := by
  by_cases hdirect : mode = .dataRegister
  · subst hdirect
    exact hlead.andThen ((hregister rfl).last _)
  · cases mode.isMemoryAlterable with
    | false => simpa [hdirect] using follows_reject
    | true => simpa [hdirect, Follows] using hlead.andThen ((hmemory hdirect).last instruction)

theorem follows_immediate (operation : Operation) (opcode : Word) :
    (immediate operation opcode).Follows (Encoding.immediate operation opcode) := by
  refine .demand fun size _ => .demand fun mode _ => ?_
  refine .inPlace (records_fetchImmediate size) (fun hdirect => ?_) fun hmemory => ?_
  · rw [hdirect]
    refine records_perform ?_
    split
    · rfl
    · exact parse_registerTail .immediate size
  · rw [if_neg (by simpa using hmemory)]
    exact records_readModifyWrite mode _ size .store nofun

theorem follows_compareImmediate (opcode : Word) :
    (compareImmediate opcode).Follows (Encoding.compareImmediate opcode) := by
  refine .demand fun size _ => .demand fun mode _ => ?_
  refine .inPlace (records_fetchImmediate size) (fun hdirect => ?_) fun hmemory => ?_
  · rw [hdirect]
    exact records_perform (parse_longDelay size)
  · rw [if_neg (by simpa using hmemory)]
    exact records_readModifyWrite mode _ size .discard nofun

theorem follows_compareMemory (opcode : Word) :
    (compareMemory opcode).Follows (Encoding.compareMemory opcode) := by
  refine .demand fun size _ => ?_
  refine Records.andThen ?_ ((records_act .operate .nowhere).andThen ((records_act _ .dst).last _))
  cases size with
  | long =>
    exact (records_opAt rfl _ .src).andThen ((records_act _ .src).andThen (records_opAt rfl _ .dst))
  | _ => exact (records_opAt rfl _ _).andThen (records_opAt rfl _ .src)

theorem follows_packedDecimal (operation : Operation) (opcode : Word) :
    (packedDecimal operation opcode).Follows (Encoding.packedDecimal operation opcode) := by
  refine .ite (fun _ => ?_) fun _ => ?_
  · exact (records_opAt rfl _ .src).andThen
      ((records_opAt rfl _ .dst).andThen ((records_opAt rfl .operate .nowhere).last _))
  · exact (records_perform rfl).last _

theorem follows_multiply (operation : Operation) (opcode : Word) :
    (multiply operation opcode).Follows (Encoding.multiply operation opcode) := by
  refine .demand fun mode _ => .ite (fun _ => follows_reject) fun _ => ?_
  refine Records.follows ((records_fetchSource mode _ .word).andThen ((records_bus rfl).andThen
    ((records_perform rfl).andThen ((records_stepPast mode _ .word .src).last _)))) ?_
  exact List.append_assoc ..

theorem follows_extendOrSwap (operation : Operation) (opcode : Word) :
    (extendOrSwap operation opcode).Follows (Encoding.extendOrSwap operation opcode) :=
  (records_perform rfl).last _

theorem follows_singleOperand (operation : Operation) (opcode : Word) :
    (singleOperand operation opcode).Follows (Encoding.singleOperand operation opcode) := by
  refine .demand fun size _ => .demand fun mode _ => .ite (fun _ => ?_) fun _ => ?_
  · exact (records_perform (parse_longDelay size)).last _
  · exact .ite (fun _ => (records_readModifyWrite mode _ size .store nofun).last _)
      fun _ => follows_reject

theorem follows_test (opcode : Word) : (test opcode).Follows (Encoding.test opcode) := by
  refine .demand fun size _ => .demand fun mode _ => .ite (fun _ => ?_) fun _ => ?_
  · exact (records_perform rfl).last _
  · exact .ite (fun _ => (records_readModifyWrite mode _ size .discard nofun).last _)
      fun _ => follows_reject

theorem follows_testAndSet (opcode : Word) :
    (testAndSet opcode).Follows (Encoding.testAndSet opcode) := by
  refine .demand fun mode _ => .ite (fun _ => ?_) fun _ => ?_
  · exact (records_perform rfl).last _
  · exact .ite (fun _ => (records_readModifyWrite mode _ .byte .testAndSet fun _ => rfl).last _)
      fun _ => follows_reject

end Decoding

end M68k
