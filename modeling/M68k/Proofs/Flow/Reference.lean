import M68k.Condition
import M68k.Proofs.Operand.Locate

/-!
# Control flow as the programmer sees it

Branches, loops and jumps go to an address. Displacements count from the word after the opcode, and
a branch to a subroutine leaves the address of the next instruction on the stack.

## Main definitions

* `Reference.here`, `Reference.goTo`: the address of an instruction
* `Reference.push`: a long word goes onto the stack
* `Reference.branch`, `Reference.loop`, `Reference.jump`: the instructions
* `Reference.flow?`: what an opcode makes of a machine, if it is one of these
* `Reference.Subroutine`, `Reference.subroutine?`: where a call goes and comes back to
-/

namespace M68k

/-- The mode names a place in memory that can be jumped to. -/
def AddressMode.isControl (mode : AddressMode) : Bool := mode == indirect || mode.isExtended

namespace Reference

/-- The address of the instruction, which the program counter is two words ahead of. -/
def here (r : Registers) : Long := r.pc - 4

/-- The registers of a program that goes on at an address. -/
def goTo (address : Long) (r : Registers) : Registers := { r with pc := address + 4 }

@[simp] theorem here_goTo (address : Long) (r : Registers) : here (goTo address r) = address := by
  simp only [here, goTo]
  bv_omega

/-- Where a program goes on if it stays. -/
theorem goTo_of_here {address : Long} {r : Registers} (h : here r = address) :
    goTo address r = r := by
  have hpc : address + 4 = r.pc := by
    rw [← h, here]
    bv_omega
  rw [goTo, hpc]

/-- Push a long word. -/
def push (value : Long) (machine : Machine) : Machine :=
  let sp := machine.registers.sp - 4
  ⟨machine.registers.setSp sp, machine.memory.write .long sp value⟩

/-- The condition of an opcode holds. -/
def conditionHolds (opcode : Word) (r : Registers) : Bool :=
  (Condition.ofField (opcode.toNat / 256)).holds r.sr

/-- The displacement in the low byte of the opcode. If that is zero, a word follows. -/
def shortDisplacement (opcode : Word) : Byte := opcode.setWidth 8

/-- The target of a branch. -/
def branchTarget (opcode : Word) (memory : Memory) (r : Registers) : Long :=
  here r + 2 +
    if shortDisplacement opcode = 0 then (nextWord memory r).signExtend 32
    else (shortDisplacement opcode).signExtend 32

/-- The address behind a branch. -/
def branchEnd (opcode : Word) (r : Registers) : Long :=
  here r + if shortDisplacement opcode = 0 then 4 else 2

/-- `0110 cccc dddd dddd`: branch if the condition holds. In place of condition number 1, which never
holds, there is the branch to a subroutine. -/
def branch (opcode : Word) (machine : Machine) : Machine :=
  let r := machine.registers
  let target := branchTarget opcode machine.memory r
  if opcode.toNat / 256 % 16 = 1 then
    let pushed := push (branchEnd opcode r) machine
    { pushed with registers := goTo target pushed.registers }
  else
    { machine with
      registers := goTo (if conditionHolds opcode r then target else branchEnd opcode r) r }

/-- `0101 cccc 1100 1rrr`: unless the condition holds, count the low word of a data register down,
and branch if it has not passed zero. -/
def loop (opcode : Word) (machine : Machine) : Machine :=
  let r := machine.registers
  let n := RegisterIndex.ofField opcode.toNat
  let counter := Half.low.get (r.data n) - 1
  let counted := r.setData n (Half.high.get (r.data n) ++ counter)
  let target := here r + 2 + (nextWord machine.memory r).signExtend 32
  { machine with
    registers :=
      if conditionHolds opcode r then goTo (here r + 4) r
      else if counter = 0xFFFF then goTo (here r + 4) counted
      else goTo target counted }

/-- `0100 1110 11mm mxxx`: jump to an operand. -/
def jump (mode : AddressMode) (n : RegisterIndex) (machine : Machine) : Machine :=
  match locate machine.memory mode n .long machine.registers with
  | (.memory address, _) => { machine with registers := goTo address machine.registers }
  | _ => machine

/-- What an opcode makes of a machine, if it is a branch, a loop or a jump. -/
def flow? (opcode : Word) (machine : Machine) : Option Machine :=
  if opcode.toNat / 4096 = 6 then some (branch opcode machine)
  else if opcode &&& 0xF0F8 = 0x50C8 then some (loop opcode machine)
  else if opcode &&& 0xFFC0 = 0x4EC0 then
    match AddressMode.ofField? opcode with
    | some mode =>
      if mode.isControl then some (jump mode (.ofField opcode.toNat) machine) else none
    | none => none
  else none

/-! ## Subroutines -/

/-- Where a subroutine begins, and where its caller goes on. -/
structure Subroutine where
  entry : Long
  returnAddress : Long

/-- The subroutine at an operand. The caller goes on behind the words of the operand. -/
def subroutineAt? (mode : AddressMode) (n : RegisterIndex) (machine : Machine) :
    Option Subroutine :=
  match locate machine.memory mode n .long machine.registers with
  | (.memory entry, _) =>
    some ⟨entry, here machine.registers + 2 + 2 * BitVec.ofNat 32 (mode.extensionWords .long)⟩
  | _ => none

/-- The subroutine that an opcode calls: `0110 0001 dddd dddd` is a branch, and
`0100 1110 10mm mxxx` a jump to an operand. -/
def subroutine? (opcode : Word) (machine : Machine) : Option Subroutine :=
  let r := machine.registers
  if opcode.toNat / 256 = 0x61 then
    some ⟨branchTarget opcode machine.memory r, branchEnd opcode r⟩
  else if opcode &&& 0xFFC0 = 0x4E80 then
    match AddressMode.ofField? opcode with
    | some mode =>
      if mode.isControl then subroutineAt? mode (.ofField opcode.toNat) machine else none
    | none => none
  else none

/-- Call a subroutine. -/
def Subroutine.enter (subroutine : Subroutine) (machine : Machine) : Machine :=
  let pushed := push subroutine.returnAddress machine
  { pushed with registers := goTo subroutine.entry pushed.registers }

/-- Return from a subroutine, to the address on top of the stack. -/
def leave (machine : Machine) : Machine :=
  let r := machine.registers
  { machine with registers := goTo (machine.memory.read .long r.sp) (r.setSp (r.sp + 4)) }

end Reference

end M68k
