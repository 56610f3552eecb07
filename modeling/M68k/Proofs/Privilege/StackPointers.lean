import M68k.Proofs.Exception.Banks
import M68k.Proofs.Registers

/-!
# The stack pointers as two registers

The register file keeps one stack pointer live in A7 and the other one in a bank, and lets the bank
of the mode in force go stale. None of this can be seen from the outside: whatever a host does to
the register file, the stack pointers behave as two registers of their own, of which the supervisor
bit says which one is A7.

## Main definitions

* `StackPointers`: two stack pointers and the status
* `Registers.stackPointers`: what a register file stands for
* `StackUpdate`: what may be done to stack pointers and status
* `Registers.update`, `StackPointers.update`: how the register file does it, and what is meant
* `Registers.SameElsewhere`: all other registers are the same

## Main results

* `Registers.stackPointers_update`: an update of the register file is what is meant by it
* `Registers.stackPointers_of_updates`: any number of updates from power-on
-/

namespace M68k

open Status

/-- The two stack pointers, each a register of its own, and the status. -/
structure StackPointers where
  user : Long
  supervisor : Long
  sr : Status
deriving DecidableEq, Repr

namespace StackPointers

/-- Both stack pointers are zero in supervisor mode with all interrupts masked. -/
def initial : StackPointers := ⟨0, 0, 0x2700⟩

/-- Supervisor mode is in force. -/
def isSupervisor (s : StackPointers) : Bool := has s.sr Status.supervisor

/-- The stack pointer that A7 is. -/
def live (s : StackPointers) : Long := if s.isSupervisor then s.supervisor else s.user

/-- Replace the stack pointer that A7 is. -/
def setLive (s : StackPointers) (value : Long) : StackPointers :=
  if s.isSupervisor then { s with supervisor := value } else { s with user := value }

end StackPointers

/-- What may be done to the stack pointers and the status register. -/
inductive StackUpdate
  | setStatus (value : Status)
  | setCcr (value : Byte)
  | setSupervisor (mode : Bool)
  /-- Of the level, three bits count. -/
  | setMask (level : Byte)
  | setUsp (value : Long)
  | setSsp (value : Long)
  | writeBack
  /-- Write to A7. -/
  | setSp (value : Long)
deriving DecidableEq, Repr

/-- What is meant by an update: a stack pointer or some bits of the status, and nothing else. -/
def StackPointers.update (s : StackPointers) : StackUpdate → StackPointers
  | .setStatus value => { s with sr := value &&& 0xA71F }
  | .setCcr value => { s with sr := (s.sr &&& 0xFFE0) ||| (value.setWidth 16 &&& 0x001F) }
  | .setSupervisor mode => { s with sr := setIf s.sr Status.supervisor mode }
  | .setMask level => { s with sr := (s.sr &&& 0xF8FF) ||| ((level &&& 7).setWidth 16 <<< 8) }
  | .setUsp value => { s with user := value }
  | .setSsp value => { s with supervisor := value }
  | .writeBack => s
  | .setSp value => s.setLive value

namespace Registers

/-- Update a register file. -/
def update (r : Registers) : StackUpdate → Registers
  | .setStatus value => r.setStatus value
  | .setCcr value => r.setCcr value
  | .setSupervisor mode => r.setSupervisor mode
  | .setMask level => r.setMask (level.setWidth 3)
  | .setUsp value => r.setUsp value
  | .setSsp value => r.setSsp value
  | .writeBack => r.writeBack
  | .setSp value => r.setSp value

/-- The stack pointers and the status that a register file stands for. -/
def stackPointers (r : Registers) : StackPointers := ⟨r.usp, r.ssp, r.sr⟩

/-- All registers but the stack pointers and the status are the same. -/
structure SameElsewhere (old new : Registers) : Prop where
  data : ∀ n, new.data n = old.data n
  address : ∀ n, n ≠ stackPointer → new.address n = old.address n
  pc : new.pc = old.pc

variable {r old new : Registers}

theorem SameFile.sameElsewhere (h : SameFile old new) (hpc : new.pc = old.pc) :
    SameElsewhere old new :=
  ⟨h.data, h.address, hpc⟩

theorem SameFile.stackPointers (h : SameFile old new) :
    new.stackPointers = { old.stackPointers with sr := new.sr } := by
  simp only [Registers.stackPointers, h.usp, h.ssp]

theorem sp_eq_live (r : Registers) : r.sp = r.stackPointers.live := by
  change r.sp = if r.isSupervisor then r.ssp else r.usp
  cases hmode : r.isSupervisor <;> simp [usp, ssp, hmode]

/-! ## Single updates -/

/-- The bank of the mode in force is not read. -/
theorem sameFile_writeBack (r : Registers) : SameFile r r.writeBack := by
  unfold writeBack
  split
  · rename_i hmode
    exact ⟨fun _ => rfl, fun _ _ => rfl, rfl, by simp_all [ssp, isSupervisor, sp, address]⟩
  · rename_i hmode
    exact ⟨fun _ => rfl, fun _ _ => rfl, by simp_all [usp, isSupervisor, sp, address], rfl⟩

/-- A write to A7 goes to the stack pointer of the mode in force. -/
theorem stackPointers_setSp (r : Registers) (value : Long) :
    (r.setSp value).stackPointers = r.stackPointers.setLive value := by
  have hmode : (r.setSp value).isSupervisor = r.isSupervisor := rfl
  have hstacks : r.stackPointers.isSupervisor = r.isSupervisor := rfl
  rw [stackPointers, usp, ssp, StackPointers.setLive, hmode, hstacks]
  cases h : r.isSupervisor <;> simp [stackPointers, usp, ssp, h, sp, setSp] <;> exact ⟨rfl, rfl⟩

/-- The user stack pointer may be set in either mode, and the other one stays. -/
theorem stackPointers_setUsp (r : Registers) (value : Long) :
    (r.setUsp value).stackPointers = { r.stackPointers with user := value } := by
  unfold setUsp
  split
  · rename_i hmode
    simp_all [stackPointers, usp, ssp, isSupervisor, sp, address]
  · rename_i hmode
    exact (r.stackPointers_setSp value).trans (if_neg hmode)

/-- The supervisor stack pointer may be set in either mode, and the other one stays. -/
theorem stackPointers_setSsp (r : Registers) (value : Long) :
    (r.setSsp value).stackPointers = { r.stackPointers with supervisor := value } := by
  unfold setSsp
  split
  · rename_i hmode
    exact (r.stackPointers_setSp value).trans (if_pos hmode)
  · rename_i hmode
    simp_all [stackPointers, usp, ssp, isSupervisor, sp, address]

theorem sr_setMask (r : Registers) (level : Byte) :
    (r.setMask (level.setWidth 3)).sr =
      (r.sr &&& 0xF8FF) ||| ((level &&& 7).setWidth 16 <<< 8) := by
  have hlevel : (level.setWidth 3).setWidth 16 = (level &&& 7).setWidth 16 := by
    revert level
    decide
  rw [setMask, hlevel]
  rfl

/-- **An update of the register file is what is meant by it**, whichever mode is in force and
whatever the banks hold. -/
theorem stackPointers_update (r : Registers) (update : StackUpdate) :
    (r.update update).stackPointers = r.stackPointers.update update := by
  cases update with
  | setStatus value => exact (sameFile_setStatus value).stackPointers
  | setCcr value =>
    have hmode : (r.setCcr value).isSupervisor = r.isSupervisor :=
      (sameSystem_setCcr value).isSupervisor
    exact (sameFile_of_mode _ r.pc hmode).stackPointers
  | setSupervisor mode =>
    exact (sameFile_setSupervisor mode).stackPointers.trans (by rw [sr_setSupervisor]; rfl)
  | setMask level =>
    exact (sameFile_of_mode _ r.pc (isSupervisor_setMask _)).stackPointers.trans
      (congrArg (StackPointers.mk _ _) (r.sr_setMask level))
  | setUsp value => exact r.stackPointers_setUsp value
  | setSsp value => exact r.stackPointers_setSsp value
  | writeBack => exact r.sameFile_writeBack.stackPointers.trans (by rw [sr_writeBack]; rfl)
  | setSp value => exact r.stackPointers_setSp value

/-- No update reaches any other register. -/
theorem sameElsewhere_update (r : Registers) (update : StackUpdate) :
    SameElsewhere r (r.update update) := by
  have hset (value : Long) : SameElsewhere r (r.setSp value) :=
    ⟨fun _ => rfl, fun _ hn => address_setAddress_of_ne r hn value, rfl⟩
  cases update with
  | setStatus value => exact (sameFile_setStatus value).sameElsewhere (r.pc_setStatus value)
  | setSupervisor mode =>
    exact (sameFile_setSupervisor mode).sameElsewhere (r.pc_setSupervisor mode)
  | setCcr | setMask => exact ⟨fun _ => rfl, fun _ _ => rfl, rfl⟩
  | setUsp value =>
    change SameElsewhere r (r.setUsp value)
    unfold setUsp
    split
    · exact ⟨fun _ => rfl, fun _ _ => rfl, rfl⟩
    · exact hset value
  | setSsp value =>
    change SameElsewhere r (r.setSsp value)
    unfold setSsp
    split
    · exact hset value
    · exact ⟨fun _ => rfl, fun _ _ => rfl, rfl⟩
  | writeBack =>
    refine r.sameFile_writeBack.sameElsewhere ?_
    unfold writeBack
    split <;> rfl
  | setSp value => exact hset value

/-- No update sets a bit that the status register does not have. -/
theorem implemented_update (h : r.Implemented) (update : StackUpdate) :
    (r.update update).Implemented := by
  have hsr : (r.update update).sr = (r.stackPointers.update update).sr :=
    congrArg StackPointers.sr (r.stackPointers_update update)
  cases update with
  | setStatus value => exact implemented_setStatus value
  | setCcr value => exact (sameSystem_setCcr value).implemented h
  | setSupervisor mode =>
    rw [Implemented, hsr]
    change setIf r.sr supervisor mode &&& implemented = setIf r.sr supervisor mode
    cases mode
    · change r.sr &&& ~~~supervisor &&& implemented = r.sr &&& ~~~supervisor
      rw [BitVec.and_assoc, BitVec.and_comm (~~~_), ← BitVec.and_assoc, h]
    · change (r.sr ||| supervisor) &&& implemented = r.sr ||| supervisor
      rw [BitVec.and_or_distrib_right, h]
      rfl
  | setMask level => exact implemented_setMask h _
  | setUsp | setSsp | writeBack =>
    rw [Implemented, hsr]
    exact h
  | setSp => exact h

/-! ## Many updates -/

theorem implemented_updates (updates : List StackUpdate) (h : r.Implemented) :
    (updates.foldl update r).Implemented := by
  induction updates generalizing r with
  | nil => exact h
  | cons next updates ih => exact ih (implemented_update h next)

/-- However often and in whichever order the modes are switched. -/
theorem stackPointers_updates (updates : List StackUpdate) (r : Registers) :
    (updates.foldl update r).stackPointers =
      updates.foldl StackPointers.update r.stackPointers := by
  induction updates generalizing r with
  | nil => rfl
  | cons next updates ih =>
    rw [List.foldl_cons, List.foldl_cons, ih, stackPointers_update]

/-- **The stack pointers are two registers.** After any updates from power-on the register file
shows what the same updates make of two stack pointers and a status: `usp` and `ssp` read them, and
A7 is the one that the supervisor bit selects. One more update is seen there only, be it to a banked
stack pointer, to the live one or to the status. -/
theorem stackPointers_of_updates (updates : List StackUpdate) :
    let r := updates.foldl update initial
    let s := updates.foldl StackPointers.update .initial
    (r.usp = s.user ∧ r.ssp = s.supervisor ∧ r.sp = s.live ∧ r.sr = s.sr) ∧
      r.sr &&& ~~~(0xA71F : Status) = 0 ∧
      (∀ next, (r.update next).stackPointers = s.update next ∧ r.SameElsewhere (r.update next)) ∧
      (∀ value, (r.setCcr value).sr &&& 0xFF00 = r.sr &&& 0xFF00) ∧
      ∀ level : Byte, (r.setMask (level.setWidth 3)).sr &&& 0xF8FF = r.sr &&& 0xF8FF := by
  intro r s
  have hstack : r.stackPointers = s := stackPointers_updates updates initial
  have himplemented : r.Implemented := implemented_updates updates rfl
  refine ⟨⟨congrArg StackPointers.user hstack, congrArg StackPointers.supervisor hstack,
    r.sp_eq_live.trans (congrArg StackPointers.live hstack), congrArg StackPointers.sr hstack⟩,
    ?_, fun next => ⟨?_, r.sameElsewhere_update next⟩, fun value => ?_, fun level => ?_⟩
  · rw [← himplemented, BitVec.and_assoc]
    exact BitVec.and_zero
  · rw [← hstack, stackPointers_update]
  · exact (sameSystem_setCcr value).systemByte
  · ext i hi
    interval_cases i <;> simp [setMask, interruptMask]

end Registers

end M68k
