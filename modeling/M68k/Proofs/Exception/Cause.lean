import M68k.Proofs.Exception.Vector
import Mathlib.Tactic.IntervalCases

/-!
# Causes of exceptions

At a boundary the processor leaves the instruction stream because of an interrupt, because the
opcode is illegal or refused in user mode, or because it is a trap. Whatever the cause, it then
performs one fixed sequence, with the vector and the return address of the cause.

## Main definitions

* `Cause`, `Processor.cause?`: why the processor leaves the instruction stream
* `Cause.Entered`: the processor is about to perform the sequence

## Main results

* `Processor.exists_entered`: an instruction run performs the sequence of the cause
-/

namespace M68k

open Encoding

/-- Why the processor leaves the instruction stream at a boundary. -/
inductive Cause
  | interrupt (level : Level)
  /-- The opcode is illegal, or refused in user mode. -/
  | refused (vector : Byte)
  | trap (number : BitVec 4)
deriving DecidableEq, Repr

namespace Cause

/-- The vector number, unless the bus supplies it. -/
def vector? : Cause → Option Byte
  | interrupt _ => none
  | refused vector => some vector
  | trap number => some (32 + number.setWidth 8)

/-- Where the instruction stream goes on: at the instruction that was not executed, or behind a
trap. The opcode is two words before the program counter. -/
def returnAddress (pc : Long) : Cause → Long
  | interrupt _ | refused _ => pc - 4
  | trap _ => pc - 2

/-- The sequence of bus steps. -/
def activity : Cause → Activity
  | interrupt _ => FixedPrograms.interruptActivity
  | refused _ | trap _ => FixedPrograms.exceptionActivity

/-- The registers once the exception has been entered: an interrupt raises the mask to its level. -/
def registers (p : Processor) (cause : Cause) : Registers :=
  let entered := (p.enterException (cause.returnAddress p.registers.pc)).registers
  match cause with
  | interrupt level => entered.setMask level
  | refused _ | trap _ => entered

/-- The processor `q` is about to perform the sequence with which `p` leaves the instruction
stream. -/
structure Entered (cause : Cause) (p q : Processor) : Prop where
  registers : q.registers = cause.registers p
  /-- The status register goes into the frame. -/
  status : q.data.destination = p.registers.sr.setWidth 32
  frame : q.frame = (p.enterException (cause.returnAddress p.registers.pc)).frame
  vector : ∀ number, cause.vector? = some number →
    q.effectiveAddress.source = number.setWidth 32 <<< 2
  /-- The autovector is offered to the bus. -/
  autovector : ∀ level, cause = interrupt level →
    q.acknowledgedLevel = level ∧ q.interruptVector = 24 + level.setWidth 16

end Cause

/-- A trap performs the sequence of its exception. -/
theorem Run.execute_trap {β : Type} {tables : Tables} (bus : Bus β)
    (hrealizes : tables.Realizes forms) {run : Run β} {stage : Stage} {stages : List Stage}
    (haction : stage.action = .operate)
    (hoperation : run.processor.instruction.operation = .trap) :
    run.execute bus tables (stage :: stages) =
      (run.withProcessor (run.processor.beginException tables
        (32 + (run.processor.opcode &&& 0x000F).setWidth 8)
        (run.processor.registers.pc - 2))).perform bus FixedPrograms.exceptionActivity := by
  rw [Run.execute, haction, Processor.act_of_trap _ _ _ hoperation, ← hrealizes.exception]
  rfl

namespace Processor

/-- Why the processor leaves the instruction stream, if it does. -/
def cause? (p : Processor) : Option Cause :=
  match p.pendingInterrupt? with
  | some level => some (.interrupt level)
  | none =>
    let opcode := Half.high.get p.prefetch
    if opcode &&& 0xFFF0 = 0x4E40 then some (.trap (opcode.extractLsb' 0 4))
    else
      match decode? forms opcode with
      | none => some (.refused (illegalVector opcode))
      | some recipe =>
        if recipe.instruction.requiresSupervisor && !p.registers.isSupervisor then
          some (.refused privilegeVector)
        else none

/-- The number of a trap is the last digit of its opcode. -/
theorem setWidth_and_fifteen (opcode : Word) :
    (opcode &&& 0x000F).setWidth 8 = (opcode.extractLsb' 0 4).setWidth 8 := by
  ext i hi
  interval_cases i <;> simp [BitVec.getElem_setWidth]

/-- The opcodes of traps. -/
theorem decode?_trap {opcode : Word} (h : opcode &&& 0xFFF0 = 0x4E40) :
    decode? forms opcode = some ⟨.bare .trap .word, [.act .operate .nowhere]⟩ := by
  have hopcode : opcode = 0x4E40 ||| (opcode.extractLsb' 0 4).setWidth 16 := by
    rw [← h]
    ext i hi
    interval_cases i <;> simp [BitVec.getElem_setWidth]
  generalize opcode.extractLsb' 0 4 = number at hopcode
  subst hopcode
  revert number
  decide

section

variable (tables : Tables) (p : Processor)

/-- An interrupt that is accepted is about to perform its sequence. -/
theorem entered_accept (level : Level) :
    (Cause.interrupt level).Entered p (({ p with debt := 0 } : Processor).accept level) where
  registers := rfl
  status := rfl
  frame := rfl
  vector _ h := by cases h
  autovector _ h := by
    cases h
    exact ⟨rfl, rfl⟩

/-- So is an opcode that is refused, -/
theorem entered_refuse (vector : Byte) :
    (Cause.refused vector).Entered p
      (({ p with debt := 0 } : Processor).refuse (p.start tables) vector) where
  registers := rfl
  status := rfl
  frame := rfl
  vector _ h := by
    cases h
    rfl
  autovector _ h := by cases h

/-- and so is a trap that has been decoded. -/
theorem entered_trap (opcode : Word) (instruction : Instruction) :
    (Cause.trap (opcode.extractLsb' 0 4)).Entered p
      ((({ p with debt := 0 } : Processor).dispatch opcode instruction).beginException tables
        (32 + (opcode &&& 0x000F).setWidth 8) (p.registers.pc - 2)) where
  registers := rfl
  status := rfl
  frame := rfl
  vector _ h := by
    cases h
    rw [← setWidth_and_fifteen]
    rfl
  autovector _ h := by cases h

end

variable {β : Type} {tables : Tables} (bus : Bus β)

/-- **Leaving the instruction stream** is to perform the sequence of the cause. -/
theorem exists_entered (hrealizes : tables.Realizes forms) {p : Processor}
    (hboundary : p.atBoundary tables) {cause : Cause} (hcause : p.cause? = some cause) (b : β) :
    ∃ q, cause.Entered p q ∧
      (p.runInstruction tables bus b).unplaced =
        ((Run.begin q b).perform bus cause.activity).unplaced := by
  have hfinal := (runInstruction_atBoundary bus hrealizes hboundary b).2
  unfold cause? at hcause
  cases hinterrupt : p.pendingInterrupt? with
  | some level =>
    obtain rfl : .interrupt level = cause := by simpa [hinterrupt] using hcause
    have hentry : (p.start tables).entry = .interrupt level := by simp [start, hinterrupt]
    rw [Run.fromStart_interrupt bus hentry] at hfinal
    exact ⟨_, p.entered_accept level, hfinal⟩
  | none =>
    have hrefused {vector : Byte} (hentry : (p.start tables).entry = .exception vector) :
        ∃ q, (Cause.refused vector).Entered p q ∧
          (p.runInstruction tables bus b).unplaced =
            ((Run.begin q b).perform bus (Cause.refused vector).activity).unplaced := by
      rw [Run.fromStart_exception bus hentry] at hfinal
      exact ⟨_, entered_refuse tables p vector, hfinal⟩
    simp only [hinterrupt] at hcause
    split at hcause
    · rename_i hopcode
      obtain rfl := Option.some.inj hcause
      obtain ⟨entry, hentry, hinstruction, hstages⟩ :=
        start_of_decode? hrealizes hinterrupt (decode?_trap hopcode) fun h => by cases h
      rw [Run.fromStart_instruction bus hentry, hstages, hinstruction,
        Run.execute_trap bus hrealizes rfl (by rfl)] at hfinal
      exact ⟨_, entered_trap tables p (Half.high.get p.prefetch) _, hfinal⟩
    · cases hdecode : decode? forms (Half.high.get p.prefetch) with
      | none =>
        rw [hdecode] at hcause
        obtain rfl := Option.some.inj hcause
        exact hrefused (start_of_decode?_none hrealizes hinterrupt hdecode)
      | some recipe =>
        simp only [hdecode] at hcause
        split at hcause
        · rename_i hrequires
          obtain rfl := Option.some.inj hcause
          exact hrefused (start_of_refused hrealizes hinterrupt hdecode hrequires)
        · cases hcause

end Processor

end M68k
