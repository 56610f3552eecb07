import M68k.Proofs.Operand.Source
import M68k.Proofs.Privilege.Status
import M68k.Proofs.Size

/-!
# Moves as the programmer sees them

A move takes the operand from its source and puts it at its destination, one after the other: the
source is found and read, a register steps past it, the condition codes are set, and only then is
the destination found.

## Main definitions

* `Reference.moveStatus`: the condition codes of a move
* `Reference.deliver`, `Reference.move`: a move

## Main results

* `Registers.setStatus_logical`: the processor sets these condition codes
* `Size.merge_truncate` and its kin: bits above the size of an operand do not matter
-/

namespace M68k

open Status

namespace Reference

/-- The status register after a move: N and Z describe the operand, V and C are cleared, and X is
kept. Only the implemented bits exist. -/
def moveStatus (sr : Status) (size : Size) (value : Long) : Status :=
  let kept := sr &&& ~~~(negative ||| zero ||| overflow ||| carry)
  let sign := if value.getLsbD (size.bits - 1) then negative else 0
  let vanishing := if value = 0 then zero else 0
  (kept ||| sign ||| vanishing) &&& implemented

/-- Put an operand at its destination, and go on to the next instruction. A move to an address
register leaves the condition codes alone. -/
def deliver (size : Size) (value : Long) (mode : AddressMode) (n : RegisterIndex)
    (machine : Machine) : Machine :=
  let r := machine.registers
  let r :=
    if mode = .addressRegister then r else { r with sr := moveStatus r.sr size value }
  let (place, r) := locate machine.memory mode n size r
  let stored := place.write ⟨r, machine.memory⟩ size value
  { stored with registers := skipWord (stepPast mode n size stored.registers) }

/-- Move an operand. -/
def move (size : Size) (sourceMode : AddressMode) (source : RegisterIndex)
    (destinationMode : AddressMode) (destination : RegisterIndex) (machine : Machine) : Machine :=
  let (place, r) := locate machine.memory sourceMode source size machine.registers
  let value := place.read ⟨r, machine.memory⟩ size
  deliver size value destinationMode destination ⟨stepPast sourceMode source size r, machine.memory⟩

end Reference

open Reference

/-! ## Condition codes -/

theorem Size.getLsbD_truncate (size : Size) (value : Long) :
    (size.truncate value).getLsbD (size.bits - 1) = value.getLsbD (size.bits - 1) := by
  rw [← and_msb_ne_zero, ← and_msb_ne_zero, truncate, BitVec.and_assoc]
  cases size <;> rfl

/-- The condition codes of the processor are those of a move. -/
theorem logical_and_implemented (sr : Status) (size : Size) (value : Long) :
    Status.logical sr value size &&& implemented = moveStatus sr size (size.truncate value) := by
  have hzero : (value &&& size.mask == 0) = decide (size.truncate value = 0) := rfl
  rw [Status.logical, setNZ, size.and_msb_ne_zero, hzero, moveStatus, size.getLsbD_truncate]
  generalize value.getLsbD (size.bits - 1) = sign
  generalize size.truncate value = operand
  by_cases hoperand : operand = 0 <;> cases sign <;>
    simp only [hoperand, decide_true, decide_false, if_true, if_false, setIf] <;>
    ext i hi <;> interval_cases i <;> simp [negative, zero, overflow, carry, implemented]

/-- The processor sets the condition codes of a move and nothing else. -/
theorem Registers.setStatus_logical (r : Registers) (size : Size) (value : Long) :
    r.setStatus (Status.logical r.sr value size) =
      { r with sr := moveStatus r.sr size (size.truncate value) } := by
  rw [← logical_and_implemented]
  refine setStatus_of_mode ?_
  rw [← has_supervisor_system, system_logical, has_supervisor_system, isSupervisor]

/-! ## Bits above the size of an operand -/

namespace Size

theorem setWidth_truncate_byte (value : Long) :
    (byte.truncate value).setWidth 8 = value.setWidth 8 := by
  rw [truncate_byte, BitVec.setWidth_setWidth_of_le _ (by decide), BitVec.setWidth_eq]

theorem low_truncate_word (value : Long) :
    Half.low.get (word.truncate value) = Half.low.get value := by
  rw [truncate_word, ← setWidth_eq_low, BitVec.setWidth_setWidth_of_le _ (by decide),
    BitVec.setWidth_eq]

theorem merge_long (target value : Long) : long.merge target value = value := by
  have hmask : long.mask = BitVec.allOnes 32 := rfl
  rw [merge, hmask, BitVec.not_allOnes, BitVec.and_zero, BitVec.and_allOnes, BitVec.zero_or]

@[simp] theorem merge_truncate (size : Size) (target value : Long) :
    size.merge target (size.truncate value) = size.merge target value := by
  rw [merge, truncate, BitVec.and_assoc, BitVec.and_self, merge]

@[simp] theorem signExtend_truncate (size : Size) (value : Long) :
    size.signExtend (size.truncate value) = size.signExtend value := by
  cases size with
  | byte => rw [signExtend, setWidth_truncate_byte, signExtend]
  | word => rw [signExtend_word, low_truncate_word, signExtend_word]
  | long => rw [truncate_long]

end Size

@[simp] theorem Memory.write_truncate (memory : Memory) (size : Size) (address value : Long) :
    memory.write size address (size.truncate value) = memory.write size address value := by
  cases size with
  | byte => rw [write, Size.setWidth_truncate_byte, write]
  | word => rw [write, Size.low_truncate_word, write]
  | long => rw [Size.truncate_long]

end M68k
