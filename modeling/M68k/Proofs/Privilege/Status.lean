import M68k.Arithmetic.PackedDecimal
import M68k.Arithmetic.Shift
import M68k.Processor.RegisterList
import Mathlib.Tactic.IntervalCases

/-!
# The system part of the registers

The system part is what only a supervisor may change: the status register but for the condition
codes, and the banked supervisor stack pointer. Arithmetic touches condition codes only, and so does
every register update but those that load the whole status register.

## Main definitions

* `Status.system`: a status register without its condition codes
* `Registers.Implemented`: no bit is set that the status register does not have
* `Registers.SameSystem`: two register files with the same system part

## Main results

* `Registers.SameSystem.setStatus`: loading a status with the same system part changes nothing else
-/

namespace M68k

/-! ## Arithmetic -/

namespace Status

/-- The status register without its condition codes. -/
def system (sr : Status) : Status := sr &&& ~~~conditionCodes

variable {sr : Status}

theorem system_or {flag : Status} (h : flag.system = 0) : system (sr ||| flag) = system sr := by
  simp only [system] at h ⊢
  rw [BitVec.and_or_distrib_right, h]
  exact BitVec.or_zero

theorem system_clear {flag : Status} (h : flag.system = 0) :
    system (sr &&& ~~~flag) = system sr := by
  ext i hi
  have hbit := congrArg (·.getLsbD i) h
  simp [system, BitVec.getLsbD_eq_getElem hi] at hbit ⊢
  grind

theorem system_setIf {flag : Status} (h : flag.system = 0) (holds : Bool) :
    system (setIf sr flag holds) = system sr := by
  cases holds
  · exact system_clear h
  · exact system_or h

theorem system_and_implemented : system (sr &&& implemented) = sr.system &&& implemented := by
  simp only [system, BitVec.and_assoc, BitVec.and_comm implemented]

theorem has_supervisor_system : has sr.system supervisor = has sr supervisor := by
  simp only [has, system, BitVec.and_assoc]
  rfl

/-- A flag of one bit is set if its bit is. -/
theorem has_twoPow (n : Nat) (hn : n < 16) : has sr (BitVec.twoPow 16 n) = sr.getLsbD n := by
  rw [has, BitVec.and_twoPow]
  have hne : ¬ BitVec.twoPow 16 n = 0#16 := by
    intro h
    have hbit := congrArg (·.getLsbD n) h
    simp [hn] at hbit
  cases hbit : sr.getLsbD n <;> simp [hne]

theorem has_supervisor : has sr supervisor = sr.getLsbD 13 := has_twoPow 13 (by decide)

theorem has_setIf_supervisor (holds : Bool) :
    has (setIf sr supervisor holds) supervisor = holds := by
  rw [has_supervisor]
  cases holds <;> simp [setIf, supervisor]

@[simp] theorem system_setNZ (value : Long) (size : Size) :
    system (setNZ sr value size) = system sr := by
  rw [setNZ, system_setIf (by decide), system_setIf (by decide)]

@[simp] theorem system_logical (value : Long) (size : Size) :
    system (logical sr value size) = system sr := by
  rw [logical, system_setNZ, system_clear (by decide)]

end Status

open Status

namespace Arithmetic

variable (src dst : Long) (size : Size) (sr : Status)

@[simp] theorem system_add : system (add src dst size sr).status = system sr := by
  simp only [add]
  rw [system_setIf (by decide), system_setIf (by decide), system_setNZ]

@[simp] theorem system_compare : system (compare src dst size sr).status = system sr := by
  simp only [compare]
  rw [system_setIf (by decide), system_setIf (by decide), system_setNZ]

@[simp] theorem system_sub : system (sub src dst size sr).status = system sr := by
  simp only [sub]
  rw [system_setIf (by decide), system_compare]

@[simp] theorem system_subx : system (subx src dst size sr).status = system sr := by
  simp only [subx]
  rw [system_setIf (by decide), system_setIf (by decide), apply_ite system,
    system_clear (by decide), system_setIf (by decide), ite_self]

end Arithmetic

theorem PackedDecimal.system_finish (binary result : Long) (carry : Bool) (sr : Status) :
    system (finish binary result carry sr).status = system sr := by
  simp only [finish]
  split
  · rw [system_setIf (by decide), system_setIf (by decide), system_setIf (by decide)]
  · rw [system_clear (by decide), system_setIf (by decide), system_setIf (by decide),
      system_setIf (by decide)]

theorem ShiftKind.system_statusAfter (result : Long) (out overflow keepExtend : Bool) (size : Size)
    (sr : Status) : system (statusAfter result out overflow keepExtend size sr) = system sr := by
  simp only [statusAfter]
  split
  · rw [system_setIf (by decide), system_setIf (by decide), system_setNZ]
  · rw [system_setIf (by decide), system_setIf (by decide), system_setIf (by decide), system_setNZ]

theorem ShiftKind.system_statusUnmoved (value : Long) (carry : Bool) (size : Size) (sr : Status) :
    system (statusUnmoved value carry size sr) = system sr := by
  rw [statusUnmoved, system_setIf (by decide), system_clear (by decide), system_setNZ]

@[simp] theorem Operation.system_applyShift (operation : Operation) (value : Long) (count : Nat)
    (size : Size) (sr : Status) :
    system (operation.applyShift value count size sr).status = system sr := by
  unfold applyShift
  split
  · simp only [ShiftKind.apply]
    split
    · exact ShiftKind.system_statusUnmoved _ _ _ _
    · exact ShiftKind.system_statusAfter _ _ _ _ _ _
  · dsimp only []
    split
    · exact ShiftKind.system_statusUnmoved _ _ _ _
    · exact ShiftKind.system_statusAfter _ _ _ _ _ _

/-! ## Registers -/

namespace Registers

/-- No bit is set that the status register does not have. -/
def Implemented (r : Registers) : Prop := r.sr &&& Status.implemented = r.sr

/-- Two register files with the same system part. -/
structure SameSystem (old new : Registers) : Prop where
  status : new.sr.system = old.sr.system
  bank : new.supervisorBank = old.supervisorBank

variable {r old new : Registers}

theorem isSupervisor_eq_of_system (h : new.sr.system = old.sr.system) :
    new.isSupervisor = old.isSupervisor := by
  rw [isSupervisor, isSupervisor, ← Status.has_supervisor_system, h, Status.has_supervisor_system]

theorem implemented_iff :
    r.Implemented ↔ r.sr.system &&& Status.implemented = r.sr.system := by
  simp only [Implemented, Status.system, Status.implemented, Status.conditionCodes]
  generalize r.sr = sr
  constructor
  · intro h
    rw [BitVec.and_assoc, BitVec.and_comm (~~~_), ← BitVec.and_assoc, h]
  · intro h
    ext i hi
    have hbit := congrArg (·.getLsbD i) h
    simp [BitVec.getLsbD_eq_getElem hi] at hbit ⊢
    interval_cases i <;> simp_all

namespace SameSystem

@[refl] theorem refl (r : Registers) : SameSystem r r := ⟨rfl, rfl⟩

theorem trans {mid : Registers} (h : SameSystem old mid) (h' : SameSystem mid new) :
    SameSystem old new :=
  ⟨h'.status.trans h.status, h'.bank.trans h.bank⟩

/-- What is not implemented belongs to the system part. -/
theorem implemented (h : SameSystem old new) (hold : old.Implemented) : new.Implemented := by
  rw [implemented_iff] at hold ⊢
  rw [h.status, hold]

/-- The mode is the same. -/
theorem isSupervisor (h : SameSystem old new) : new.isSupervisor = old.isSupervisor :=
  isSupervisor_eq_of_system h.status

/-- In user mode the supervisor stack pointer is the banked one. -/
theorem ssp (h : SameSystem old new) (huser : old.isSupervisor = false) : new.ssp = old.ssp := by
  simp only [Registers.ssp, h.isSupervisor, huser, Bool.false_eq_true, if_false, h.bank]

/-- The system byte is the same. -/
theorem systemByte (h : SameSystem old new) : new.sr &&& 0xFF00 = old.sr &&& 0xFF00 := by
  have hmask (sr : Status) : sr &&& 0xFF00 = sr.system &&& 0xFF00 := by
    rw [Status.system, BitVec.and_assoc]
    rfl
  rw [hmask, hmask old.sr, h.status]

/-- So is the trace bit. -/
theorem isTrace (h : SameSystem old new) : new.isTrace = old.isTrace := by
  have htrace (sr : Status) : Status.has sr Status.trace = Status.has sr.system Status.trace := by
    simp only [Status.has, Status.system, BitVec.and_assoc]
    rfl
  rw [Registers.isTrace, Registers.isTrace, htrace, h.status, ← htrace]

/-- So is the interrupt mask. -/
theorem mask (h : SameSystem old new) : new.mask = old.mask := by
  have hmask (sr : Status) : sr.extractLsb' 8 3 = sr.system.extractLsb' 8 3 := by
    ext i hi
    interval_cases i <;> simp [Status.system, Status.conditionCodes]
  rw [Registers.mask, Registers.mask, hmask, h.status, ← hmask]

end SameSystem

/-! ### Updates -/

theorem sameSystem_setListed (n : ListedRegister) (value : Long) :
    SameSystem r (r.setListed n value) := by
  unfold setListed
  split <;> exact ⟨rfl, rfl⟩

theorem sameSystem_setCcr (value : Byte) : SameSystem r (r.setCcr value) := by
  refine ⟨?_, rfl⟩
  simp only [setCcr]
  rw [Status.system_or, Status.system_clear (by decide)]
  rw [Status.system, BitVec.and_assoc]
  simp

/-- A status that keeps the mode does not switch banks. -/
theorem setStatus_of_mode {value : Status} (h : Status.has value Status.supervisor = r.isSupervisor) :
    r.setStatus value = { r with sr := value &&& Status.implemented } := by
  have hmode : Status.has (value &&& Status.implemented) Status.supervisor = r.isSupervisor := by
    rw [← h]
    simp only [Status.has, BitVec.and_assoc]
    rfl
  simp only [setStatus, setSupervisor, hmode, if_true]

/-- Loading a status with the same system part changes the condition codes only. -/
theorem SameSystem.setStatus {value : Status} (hr : r.Implemented)
    (h : value.system = r.sr.system) : SameSystem r (r.setStatus value) := by
  have hsystem : (value &&& Status.implemented).system = r.sr.system := by
    rw [Status.system_and_implemented, h, ← Status.system_and_implemented, hr]
  have hmode : Status.has value Status.supervisor = r.isSupervisor := by
    rw [← Status.has_supervisor_system, h, Status.has_supervisor_system, Registers.isSupervisor]
  rw [setStatus_of_mode hmode]
  exact ⟨hsystem, rfl⟩

theorem implemented_setStatus (value : Status) : (r.setStatus value).Implemented := by
  simp only [Implemented, Registers.setStatus, BitVec.and_assoc, BitVec.and_self]

theorem implemented_setMask (h : r.Implemented) (level : Level) : (r.setMask level).Implemented := by
  have hlevel : (level.setWidth 16 <<< 8 : Status) &&& Status.implemented =
      level.setWidth 16 <<< 8 := by
    revert level
    decide
  simp only [Implemented, setMask] at h ⊢
  rw [BitVec.and_or_distrib_right, hlevel, BitVec.and_assoc, BitVec.and_comm (~~~_),
    ← BitVec.and_assoc, h]

/-! ### Mode -/

theorem isSupervisor_setSupervisor (supervisor : Bool) :
    (r.setSupervisor supervisor).isSupervisor = supervisor := by
  unfold setSupervisor
  split
  · exact Eq.symm ‹_›
  · change Status.has (Status.setIf _ Status.supervisor supervisor) Status.supervisor = supervisor
    exact Status.has_setIf_supervisor supervisor

theorem isSupervisor_setStatus (value : Status) :
    (r.setStatus value).isSupervisor = Status.has value Status.supervisor := by
  change Status.has (value &&& Status.implemented) Status.supervisor = _
  simp only [Status.has, BitVec.and_assoc]
  rfl

theorem isSupervisor_setMask (level : Level) : (r.setMask level).isSupervisor = r.isSupervisor := by
  simp only [isSupervisor, setMask, Status.has_supervisor, Status.interruptMask]
  simp

end Registers

end M68k
