import M68k.Instruction
import M68k.Status

/-!
# Registers

The programmer's registers: eight data registers, eight address registers, the program counter and
the status register. Register A7 is the live stack pointer. User and supervisor mode each have a
stack pointer of their own: a mode change banks the outgoing one and loads the other. The bank of
the mode in force may be stale, so stack pointers are read with `Registers.usp` and `Registers.ssp`.

## Main definitions

* `Registers`: the register file
* `Registers.data`, `Registers.address`: the content of a register
* `Registers.setStatus`, `Registers.setSupervisor`: status changes that switch banks
* `Registers.usp`, `Registers.ssp`: the two stack pointers, live or banked
-/

namespace M68k

/-- An interrupt priority, from 0 for none to 7. -/
abbrev Level := BitVec 3

/-- The register file. -/
structure Registers where
  d : Vector Long 8
  a : Vector Long 8
  pc : Long
  /-- Where the user stack pointer is kept in supervisor mode. -/
  userBank : Long
  /-- Where the supervisor stack pointer is kept in user mode. -/
  supervisorBank : Long
  sr : Status
deriving DecidableEq, Repr

namespace Registers

/-- The power-on state: supervisor mode, all interrupts masked. -/
def initial : Registers where
  d := .replicate 8 0
  a := .replicate 8 0
  pc := 0
  userBank := 0
  supervisorBank := 0
  sr := Status.supervisor ||| Status.interruptMask

/-- The content of a data register. -/
def data (r : Registers) (n : RegisterIndex) : Long := r.d[n]

/-- Replace a data register. -/
def setData (r : Registers) (n : RegisterIndex) (value : Long) : Registers :=
  { r with d := r.d.set n value }

/-- The content of an address register. -/
def address (r : Registers) (n : RegisterIndex) : Long := r.a[n]

/-- Replace an address register. -/
def setAddress (r : Registers) (n : RegisterIndex) (value : Long) : Registers :=
  { r with a := r.a.set n value }

@[simp] theorem data_setData_self (r : Registers) (n : RegisterIndex) (value : Long) :
    (r.setData n value).data n = value := by
  simp [data, setData]

theorem data_setData_of_ne (r : Registers) {n m : RegisterIndex} (h : m ≠ n) (value : Long) :
    (r.setData n value).data m = r.data m := by
  simp [data, setData, Fin.val_ne_of_ne h.symm]

@[simp] theorem address_setAddress_self (r : Registers) (n : RegisterIndex) (value : Long) :
    (r.setAddress n value).address n = value := by
  simp [address, setAddress]

theorem address_setAddress_of_ne (r : Registers) {n m : RegisterIndex} (h : m ≠ n)
    (value : Long) : (r.setAddress n value).address m = r.address m := by
  simp [address, setAddress, Fin.val_ne_of_ne h.symm]

@[simp] theorem data_setAddress (r : Registers) (n m : RegisterIndex) (value : Long) :
    (r.setAddress n value).data m = r.data m := rfl

@[simp] theorem address_setData (r : Registers) (n m : RegisterIndex) (value : Long) :
    (r.setData n value).address m = r.address m := rfl

/-- The live stack pointer. -/
def sp (r : Registers) : Long := r.address stackPointer

/-- Replace the live stack pointer. -/
def setSp (r : Registers) (value : Long) : Registers := r.setAddress stackPointer value

/-- Supervisor mode is in force. -/
def isSupervisor (r : Registers) : Bool := Status.has r.sr Status.supervisor

/-- Trace mode is in force. -/
def isTrace (r : Registers) : Bool := Status.has r.sr Status.trace

/-- Bring the bank of the mode in force up to date. -/
def writeBack (r : Registers) : Registers :=
  if r.isSupervisor then { r with supervisorBank := r.sp } else { r with userBank := r.sp }

/-- Enter or leave supervisor mode. The live stack pointer is banked and the other one loaded. -/
def setSupervisor (r : Registers) (supervisor : Bool) : Registers :=
  if supervisor = r.isSupervisor then r
  else
    let r := r.writeBack
    let r := { r with sr := Status.setIf r.sr Status.supervisor supervisor }
    r.setSp (if supervisor then r.supervisorBank else r.userBank)

/-- Load the status register, of which only the implemented bits exist, and switch banks if the mode
changes. -/
def setStatus (r : Registers) (value : Status) : Registers :=
  let value := value &&& Status.implemented
  { r.setSupervisor (Status.has value Status.supervisor) with sr := value }

/-- The condition codes as a byte. -/
def ccr (r : Registers) : Byte := (r.sr &&& Status.conditionCodes).setWidth 8

/-- Load the condition codes. -/
def setCcr (r : Registers) (value : Byte) : Registers :=
  { r with
    sr := (r.sr &&& ~~~Status.conditionCodes) ||| (value.setWidth 16 &&& Status.conditionCodes) }

/-- The interrupt mask. -/
def mask (r : Registers) : Level := r.sr.extractLsb' 8 3

/-- Replace the interrupt mask. -/
def setMask (r : Registers) (level : Level) : Registers :=
  { r with sr := (r.sr &&& ~~~Status.interruptMask) ||| (level.setWidth 16 <<< 8) }

/-- The user stack pointer, live or banked. -/
def usp (r : Registers) : Long := if r.isSupervisor then r.userBank else r.sp

/-- Replace the user stack pointer, live or banked. -/
def setUsp (r : Registers) (value : Long) : Registers :=
  if r.isSupervisor then { r with userBank := value } else r.setSp value

/-- The supervisor stack pointer, live or banked. -/
def ssp (r : Registers) : Long := if r.isSupervisor then r.sp else r.supervisorBank

/-- Replace the supervisor stack pointer, live or banked. -/
def setSsp (r : Registers) (value : Long) : Registers :=
  if r.isSupervisor then r.setSp value else { r with supervisorBank := value }

end Registers

end M68k
