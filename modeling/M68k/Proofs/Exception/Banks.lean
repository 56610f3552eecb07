import M68k.Proofs.Exception.Cause
import M68k.Proofs.Privilege.Status

/-!
# Registers across the mode switch

The live stack pointer changes places with the banked one when the mode changes, but the user and
the supervisor stack pointer stay what they are, wherever they are kept. So a handler finds all
registers as the program has left them, except for its stack pointer and the system byte.

## Main definitions

* `Registers.SameFile`: two register files that differ in status and program counter only
* `Cause.mask`: the interrupt mask under which a handler runs
* `Registers.Handling`: the registers of a handler

## Main results

* `Registers.sameFile_setStatus`: loading a status keeps both stack pointers
* `Cause.handling_registers`: the registers once an exception has been entered
-/

namespace M68k

open Status

namespace Registers

/-- The registers that a program works with are the same, both stack pointers included. -/
structure SameFile (old new : Registers) : Prop where
  data : ∀ n, new.data n = old.data n
  address : ∀ n, n ≠ stackPointer → new.address n = old.address n
  usp : new.usp = old.usp
  ssp : new.ssp = old.ssp

variable {r old new : Registers}

theorem sp_of_isSupervisor (h : r.isSupervisor) : r.sp = r.ssp := by
  rw [ssp, if_pos h]

@[refl] theorem SameFile.refl (r : Registers) : SameFile r r :=
  ⟨fun _ => rfl, fun _ _ => rfl, rfl, rfl⟩

theorem SameFile.trans {mid : Registers} (h : SameFile old mid) (h' : SameFile mid new) :
    SameFile old new where
  data n := (h'.data n).trans (h.data n)
  address n hn := (h'.address n hn).trans (h.address n hn)
  usp := h'.usp.trans h.usp
  ssp := h'.ssp.trans h.ssp

/-- Another status of the same mode, at another place in the program. -/
theorem sameFile_of_mode (sr : Status) (pc : Long) (h : has sr supervisor = r.isSupervisor) :
    SameFile r { r with sr := sr, pc := pc } := by
  have hmode : isSupervisor { r with sr := sr, pc := pc } = r.isSupervisor := h
  exact ⟨fun _ => rfl, fun _ _ => rfl, by simp only [usp, hmode]; rfl,
    by simp only [ssp, hmode]; rfl⟩

/-- **A mode switch keeps both stack pointers.** -/
theorem sameFile_setSupervisor (mode : Bool) : SameFile r (r.setSupervisor mode) := by
  have hmode : (r.setSupervisor mode).isSupervisor = mode := isSupervisor_setSupervisor mode
  unfold setSupervisor at hmode ⊢
  split
  · exact .refl r
  · rename_i hswitch
    rw [if_neg hswitch] at hmode
    refine ⟨fun n => ?_, fun n hn => ?_, ?_, ?_⟩
    · cases hold : r.isSupervisor <;> simp [writeBack, hold] <;> rfl
    · rw [setSp, address_setAddress_of_ne _ hn]
      cases hold : r.isSupervisor <;> simp [writeBack, hold] <;> rfl
    · rw [usp, hmode]
      cases mode <;> cases hold : r.isSupervisor <;> simp_all [writeBack, usp, sp, setSp]
      rfl
    · rw [ssp, hmode]
      cases mode <;> cases hold : r.isSupervisor <;> simp_all [writeBack, ssp, sp, setSp]
      rfl

/-- Loading a status keeps both stack pointers. -/
theorem sameFile_setStatus (value : Status) : SameFile r (r.setStatus value) := by
  refine (sameFile_setSupervisor (has (value &&& implemented) supervisor)).trans ?_
  exact sameFile_of_mode _ _ (isSupervisor_setSupervisor _).symm

theorem usp_setSp (h : r.isSupervisor) (value : Long) : (r.setSp value).usp = r.usp := by
  have hmode : (r.setSp value).isSupervisor := h
  rw [usp, usp, if_pos hmode, if_pos h]
  rfl

theorem ssp_setSp (h : r.isSupervisor) (value : Long) : (r.setSp value).ssp = value := by
  have hmode : (r.setSp value).isSupervisor := h
  rw [← sp_of_isSupervisor hmode, sp, setSp, address_setAddress_self]

theorem sr_writeBack : r.writeBack.sr = r.sr := by
  unfold writeBack
  split <;> rfl

theorem sr_setSupervisor (mode : Bool) :
    (r.setSupervisor mode).sr = setIf r.sr supervisor mode := by
  unfold setSupervisor
  split
  · rename_i hmode
    have hbit : r.sr.getLsbD 13 = mode := by rw [hmode, isSupervisor, has_supervisor]
    ext i hi
    cases mode <;> interval_cases i <;> simp_all [setIf, supervisor]
  · exact congrArg (setIf · supervisor mode) sr_writeBack

end Registers

/-! ## Handlers -/

/-- The interrupt mask under which a handler runs: an interrupt raises it to its level. -/
def Cause.mask (old : Level) : Cause → Level
  | interrupt level => level
  | refused _ | trap _ => old

/-- The registers of a handler at its first instruction, under an interrupt mask. -/
structure Registers.Handling (old : Registers) (mask : Level) (new : Registers) : Prop where
  isSupervisor : new.isSupervisor
  isTrace : new.isTrace = false
  mask : new.mask = mask
  ccr : new.ccr = old.ccr
  /-- Six bytes of the supervisor stack are taken. -/
  sp : new.sp = old.ssp - 6
  usp : new.usp = old.usp
  data : ∀ n, new.data n = old.data n
  address : ∀ n, n ≠ stackPointer → new.address n = old.address n

namespace Registers

variable {old new : Registers} {mask : Level}

/-- Wherever the handler is. -/
theorem Handling.withPc (h : old.Handling mask new) (pc : Long) :
    old.Handling mask { new with pc := pc } :=
  { h with }

theorem isTrace_setMask (r : Registers) (level : Level) :
    (r.setMask level).isTrace = r.isTrace := by
  have htrace (sr : Status) : has sr trace = sr.getLsbD 15 := has_twoPow 15 (by decide)
  simp only [isTrace, setMask, htrace, interruptMask]
  simp

theorem ccr_setMask (r : Registers) (level : Level) : (r.setMask level).ccr = r.ccr := by
  have hmask : (r.setMask level).sr &&& conditionCodes = r.sr &&& conditionCodes := by
    ext i hi
    interval_cases i <;> simp [setMask, interruptMask, conditionCodes]
  rw [ccr, hmask, ccr]

theorem mask_setMask (r : Registers) (level : Level) : (r.setMask level).mask = level := by
  ext i hi
  interval_cases i <;> simp [mask, setMask, interruptMask]

/-- An interrupt goes on to raise the mask. -/
theorem Handling.setMask (h : old.Handling mask new) (level : Level) :
    old.Handling level (new.setMask level) where
  isSupervisor := (isSupervisor_setMask level).trans h.isSupervisor
  isTrace := (isTrace_setMask new level).trans h.isTrace
  mask := mask_setMask new level
  ccr := (ccr_setMask new level).trans h.ccr
  sp := h.sp
  usp := (sameFile_of_mode _ _ (isSupervisor_setMask level)).usp.trans h.usp
  data := h.data
  address := h.address

end Registers

namespace Status

/-- The status under which a handler runs, but for the mask. -/
def entered (sr : Status) : Status := (sr ||| supervisor) &&& ~~~trace &&& implemented

variable (sr : Status)

theorem has_supervisor_entered : has sr.entered supervisor := by
  rw [has_supervisor]
  simp [entered, supervisor, trace, implemented]

theorem has_trace_entered : has sr.entered trace = false := by
  have htrace : has sr.entered trace = sr.entered.getLsbD 15 := has_twoPow 15 (by decide)
  rw [htrace]
  simp [entered, trace]

theorem conditionCodes_entered : sr.entered &&& conditionCodes = sr &&& conditionCodes := by
  ext i hi
  interval_cases i <;> simp [entered, supervisor, trace, implemented, conditionCodes]

theorem mask_entered : sr.entered.extractLsb' 8 3 = sr.extractLsb' 8 3 := by
  ext i hi
  interval_cases i <;> simp [entered, supervisor, trace, implemented]

end Status

/-- Entering an exception is a mode switch, the status of a handler, and room for a frame. -/
theorem Processor.enterException_eq (p : Processor) (returnAddress : Long) :
    p.enterException returnAddress =
      { p with
        data := p.data.set .destination (p.registers.sr.setWidth 32)
        registers :=
          { p.registers.setSupervisor true with
            sr := p.registers.sr.entered, pc := returnAddress }.setSp (p.registers.ssp - 6)
        frame := ⟨p.registers.ssp - 2, p.registers.ssp - 6, p.registers.ssp - 4⟩
        phase := .exception } := by
  have hmode : (p.registers.setSupervisor true).isSupervisor :=
    Registers.isSupervisor_setSupervisor true
  have hstatus : has ((p.registers.setSupervisor true).sr &&& ~~~trace) supervisor =
      (p.registers.setSupervisor true).isSupervisor := by
    rw [Registers.isSupervisor, has_supervisor, has_supervisor]
    simp [trace]
  have hsp : (p.registers.setSupervisor true).sp = p.registers.ssp :=
    (Registers.sp_of_isSupervisor hmode).trans (Registers.sameFile_setSupervisor true).ssp
  rw [enterException]
  dsimp only
  rw [Registers.setStatus_of_mode hstatus, Registers.sr_setSupervisor]
  rw [← hsp]
  rfl

theorem Processor.handling_enterException (p : Processor) (returnAddress : Long) :
    p.registers.Handling p.registers.mask (p.enterException returnAddress).registers := by
  have hswitch : p.registers.SameFile (p.registers.setSupervisor true) :=
    Registers.sameFile_setSupervisor true
  have hsame := hswitch.trans (Registers.sameFile_of_mode p.registers.sr.entered returnAddress
    ((has_supervisor_entered _).trans (Registers.isSupervisor_setSupervisor true).symm))
  rw [enterException_eq]
  dsimp only
  generalize hroomy : ({ p.registers.setSupervisor true with
    sr := p.registers.sr.entered, pc := returnAddress } : Registers) = roomy at hsame ⊢
  have hstatus : roomy.sr = p.registers.sr.entered := by rw [← hroomy]
  have hmode : roomy.isSupervisor := by
    rw [Registers.isSupervisor, hstatus]
    exact has_supervisor_entered _
  exact
    { isSupervisor := hmode
      isTrace := (congrArg (has · trace) hstatus).trans (has_trace_entered _)
      mask := (congrArg (·.extractLsb' 8 3) hstatus).trans (mask_entered _)
      ccr := congrArg (BitVec.setWidth 8)
        ((congrArg (· &&& conditionCodes) hstatus).trans (conditionCodes_entered _))
      sp := Registers.address_setAddress_self _ _ _
      usp := (Registers.usp_setSp hmode _).trans hsame.usp
      data := hsame.data
      address := fun n hn => (Registers.address_setAddress_of_ne _ hn _).trans (hsame.address n hn) }

/-- **What a handler finds in the registers** once its exception has been entered. -/
theorem Cause.handling_registers (p : Processor) (cause : Cause) :
    p.registers.Handling (cause.mask p.registers.mask) (cause.registers p) := by
  have hentered := p.handling_enterException (cause.returnAddress p.registers.pc)
  cases cause with
  | interrupt level => exact hentered.setMask level
  | refused | trap => exact hentered

end M68k
