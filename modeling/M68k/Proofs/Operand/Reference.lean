import M68k.AddressMode
import M68k.Proofs.Memory.Transfers

/-!
# Operands as the programmer sees them

Where an operand is, and what it takes to get there, without latches, queues and bus steps. Between
two instructions the program counter is two words ahead, so that the next word of the program to be
taken is always the one before it.

## Main definitions

* `Size.truncate`: the bits of an operand
* `Memory.read`, `Memory.write`: operands in memory, high word first
* `Place`, `Place.read`, `Place.write`, `Place.addresses`: where an operand can be
* `locate`: the place that an addressing mode names, and the registers when it is known
* `stepPast`: the step of a register past its operand
-/

namespace M68k

/-- The bits of a long word that belong to an operand. -/
def Size.truncate (size : Size) (value : Long) : Long := value &&& size.mask

namespace Memory

/-- An operand in memory. -/
def read (memory : Memory) : Size → Long → Long
  | .byte, address => (memory.byteAt address).setWidth 32
  | .word, address => (memory.wordAt address).setWidth 32
  | .long, address => memory.wordAt address ++ memory.wordAt (address + 2)

/-- Replace an operand in memory. -/
def write (memory : Memory) : Size → Long → Long → Memory
  | .byte, address, value => memory.storeAt address (value.setWidth 8)
  | .word, address, value => memory.storeWordAt address (Half.low.get value)
  | .long, address, value =>
    (memory.storeWordAt address (Half.high.get value)).storeWordAt (address + 2) (Half.low.get value)

end Memory

namespace Reference

/-- A machine as the programmer sees it. -/
structure Machine where
  registers : Registers
  memory : Memory

/-- Where an operand is. -/
inductive Place
  | dataRegister (n : RegisterIndex)
  | addressRegister (n : RegisterIndex)
  | memory (address : Long)
  /-- In the program itself. -/
  | constant (value : Long)

/-- The operand at a place, with zeros above its size. -/
def Place.read (machine : Machine) (size : Size) : Place → Long
  | dataRegister n => size.truncate (machine.registers.data n)
  | addressRegister n => size.truncate (machine.registers.address n)
  | memory address => machine.memory.read size address
  | constant value => size.truncate value

/-- Store an operand. A data register keeps the bits above its size, and an address register takes
its sign there. -/
def Place.write (machine : Machine) (size : Size) (value : Long) : Place → Machine
  | dataRegister n =>
    let merged := size.merge (machine.registers.data n) value
    { machine with registers := machine.registers.setData n merged }
  | addressRegister n =>
    { machine with registers := machine.registers.setAddress n (size.signExtend value) }
  | memory address => { machine with memory := machine.memory.write size address value }
  | constant _ => machine

/-- The addresses at which an operand in memory is transferred. A long word takes two words. -/
def operandAddresses : Size → Long → List Long
  | .long, address => [address, address + 2]
  | _, address => [address]

/-- The addresses at which the operand at a place is transferred. -/
def Place.addresses (size : Size) : Place → List Long
  | memory address => operandAddresses size address
  | _ => []

/-- The next word of the program. -/
def nextWord (memory : Memory) (r : Registers) : Word := memory.wordAt (r.pc - 2)

/-- The registers when it has been taken. -/
def skipWord (r : Registers) : Registers := { r with pc := r.pc + 2 }

/-- How far a register steps past an operand. Bytes step the stack pointer by two. -/
def stepLength (size : Size) (n : RegisterIndex) : Long :=
  if size = .byte ∧ n = stackPointer then 2 else BitVec.ofNat 32 size.bytes

/-- The offset that an extension word stands for: a register, all of it or its low word, and a
displacement of eight bits. -/
def indexOffset (r : Registers) (extension : Word) : Long :=
  let n := RegisterIndex.ofField (extension.toNat / 4096)
  let register := if extension.getLsbD 15 then r.address n else r.data n
  let index := if extension.getLsbD 11 then register else (Half.low.get register).signExtend 32
  index + (extension.setWidth 8).signExtend 32

/-- The place that an addressing mode names, and the registers when it is known: extension words
have been taken, and a register that steps before the operand has done so. -/
def locate (memory : Memory) (mode : AddressMode) (n : RegisterIndex) (size : Size)
    (r : Registers) : Place × Registers :=
  let word := nextWord memory r
  let base := r.address n
  let here := r.pc - 2
  match mode with
  | .dataRegister => (.dataRegister n, r)
  | .addressRegister => (.addressRegister n, r)
  | .indirect | .postIncrement => (.memory base, r)
  | .preDecrement =>
    (.memory (base - stepLength size n), r.setAddress n (base - stepLength size n))
  | .displacement => (.memory (base + word.signExtend 32), skipWord r)
  | .index => (.memory (base + indexOffset r word), skipWord r)
  | .absoluteShort => (.memory (word.signExtend 32), skipWord r)
  | .absoluteLong =>
    (.memory (word ++ nextWord memory (skipWord r)), skipWord (skipWord r))
  | .pcDisplacement => (.memory (here + word.signExtend 32), skipWord r)
  | .pcIndex => (.memory (here + indexOffset r word), skipWord r)
  | .immediate =>
    match size with
    | .long => (.constant (word ++ nextWord memory (skipWord r)), skipWord (skipWord r))
    | _ => (.constant (word.setWidth 32), skipWord r)

/-- The step of a register past its operand, if the mode has one. -/
def stepPast (mode : AddressMode) (n : RegisterIndex) (size : Size) (r : Registers) : Registers :=
  match mode with
  | .postIncrement => r.setAddress n (r.address n + stepLength size n)
  | _ => r

/-- The program counter takes no part in that. -/
theorem stepPast_skipWord (mode : AddressMode) (n : RegisterIndex) (size : Size) (r : Registers) :
    stepPast mode n size (skipWord r) = skipWord (stepPast mode n size r) := by
  cases mode <;> rfl

end Reference

end M68k
