import M68k.Proofs.Prefetch.Queue

/-!
# Where control is sent

Branches that are taken, loops that have not run out, jumps and returns send control to an address.
So do vectors and popped frames, whose words are read into the program counter. Everything else
moves the program counter from word to word. A session is followed together with the addresses that
control has been sent to.

## Main definitions

* `Processor.operationTarget?`, `BusStep.sendsControl`: what sends control somewhere
* `Run.Sent`: a session, with the addresses that control was sent to

## Main results

* `Run.Leads.exists_sent`: each session can be followed
* `Run.Sent.exists_last`: at a boundary control has been sent somewhere
-/

namespace M68k

open Encoding

/-! ## Single events -/

/-- The step reads the low word of the program counter. The high word is always read before. -/
def BusStep.sendsControl (step : BusStep) : Bool :=
  step.signals.isRead && step.slot == .programCounter .low

namespace Processor

/-- The loop in progress goes back: its condition does not hold, and its counter does not run out. -/
def loops (p : Processor) : Bool :=
  !p.conditionHolds &&
    Half.low.get (p.registers.data p.instruction.destinationRegister.index) - 1 != 0xFFFF

/-- Where the operation of the instruction sends control. -/
def operationTarget? (p : Processor) : Option Long :=
  match p.instruction.operation with
  | .bcc => if p.conditionHolds then some p.branchTarget else none
  | .bsr => some p.branchTarget
  | .dbcc => if p.loops then some p.wordBranchTarget else none
  | .jmp | .jsr | .rts => some p.source
  | _ => none

/-- Where an action sends control. -/
def actionTarget? (p : Processor) (action : Action) : Option Long :=
  if action = .operate then p.operationTarget? else none

variable (tables : Tables) (p : Processor)

/-- Where entering the current micro-operation sends control. -/
def enteredTarget? : Option Long :=
  let op := tables.microOp p.microOp
  if op.program.isSome then p.actionTarget? op.action else none

/-- Where control is sent by what starts at a boundary. Exceptions and interrupts read a vector
first. -/
def startedTarget? (start : Start) : Option Long :=
  match start.entry with
  | .interrupt _ | .exception _ => none
  | .instruction entry =>
    { p.dispatch start.opcode entry.instruction with microOp := entry.start }.enteredTarget? tables

end Processor

/-! ## Sessions -/

namespace Run

variable {β : Type} (tables : Tables) (bus : Bus β)

/-- Where the next bus step sends control. -/
def steppedTarget? (start : Option Start) (run : Run β) : Option Long :=
  let step := tables.step run.processor.busStep
  if step.sendsControl then some (run.transact bus start step).processor.registers.pc else none

/-- A session from a reset on in which control was sent to some addresses, the last one first. The
host leaves the program counter alone. -/
inductive Sent : Run β → List Long → Prop
  | begin (p : Processor) (b : β) : Sent (.begin (p.reset tables) b) []
  /-- Something starts at a boundary. -/
  | start {run : Run β} {targets : List Long} (h : Sent run targets)
    (hboundary : run.processor.atBoundary tables) :
    Sent (run.modify fun p => p.begin tables (p.start tables))
      ((run.processor.startedTarget? tables (run.processor.start tables)).toList ++ targets)
  /-- The chain goes on. -/
  | enter {run : Run β} {targets : List Long} (h : Sent run targets)
    (hphase : run.processor.phase = .instruction) (hended : run.processor.programEnded tables)
    (hterminal : (tables.microOp run.processor.microOp).isTerminal = false) :
    Sent (run.modify fun p => { p with microOp := p.microOp + 1 }.enterMicroOp tables)
      (({ run.processor with microOp := run.processor.microOp + 1 }.enteredTarget? tables).toList ++
        targets)
  /-- A step is run. -/
  | transact {run : Run β} {targets : List Long} (h : Sent run targets) (start : Option Start)
    (hended : run.processor.programEnded tables = false) :
    Sent (run.transact bus start (tables.step run.processor.busStep))
      ((run.steppedTarget? tables bus start).toList ++ targets)
  | setInterruptLevel {run : Run β} {targets : List Long} (h : Sent run targets) (level : Level) :
    Sent (run.modify (·.setInterruptLevel level)) targets
  | reset {run : Run β} {targets : List Long} (h : Sent run targets) :
    Sent (run.modify (·.reset tables)) targets
  | edit {run : Run β} {targets : List Long} (h : Sent run targets) (registers : Registers)
    (allowed : keepsCounter run.processor registers) :
    Sent (run.modify fun p => { p with registers := registers }) targets
  | owe {run : Run β} {targets : List Long} (h : Sent run targets) (debt : HalfCycles) :
    Sent (run.modify fun p => { p with debt := debt }) targets

variable {tables bus} {run : Run β}

/-- Each part of a step can be followed. -/
theorem kept_exists_sent : Kept tables bus fun run => ∃ targets, Sent tables bus run targets where
  start _ h hboundary := h.elim fun _ hsent => ⟨_, hsent.start hboundary⟩
  enter _ h hphase hended hterminal := h.elim fun _ hsent =>
    ⟨_, hsent.enter hphase hended hterminal⟩
  transact _ start h hended := h.elim fun _ hsent => ⟨_, hsent.transact start hended⟩

/-- **Each session can be followed.** -/
theorem Leads.exists_sent (hrealizes : tables.Realizes forms) {p : Processor} {b : β}
    (h : Leads tables bus keepsCounter (.begin (p.reset tables) b) run) :
    ∃ targets, Sent tables bus run targets := by
  refine h.induct hrealizes (Processor.orderly_reset hrealizes p) ⟨[], .begin p b⟩
    kept_exists_sent ?_ ?_ ?_ ?_
  · rintro run level ⟨targets, hsent⟩
    exact ⟨targets, hsent.setInterruptLevel level⟩
  · rintro run ⟨targets, hsent⟩
    exact ⟨targets, hsent.reset⟩
  · rintro run registers allowed ⟨targets, hsent⟩
    exact ⟨targets, hsent.edit registers allowed⟩
  · rintro run debt ⟨targets, hsent⟩
    exact ⟨targets, hsent.owe debt⟩

/-! ## At a boundary -/

/-- As long as control has not been sent anywhere, the reset sequence is going to do so. -/
theorem Sent.exists_sendsControl (hrealizes : tables.Realizes forms) {targets : List Long}
    (h : Sent tables bus run targets) (hnone : targets = []) :
    ∃ step ∈ run.processor.activity tables, step.sendsControl := by
  have hreset (p : Processor) : ∃ step ∈ (p.reset tables).activity tables, step.sendsControl := by
    rw [Processor.activity_reset hrealizes]
    decide
  induction h with
  | begin p b => exact hreset p
  | reset _ _ => exact hreset _
  | start _ hboundary ih =>
    obtain ⟨step, hmem, -⟩ := ih (List.append_eq_nil_iff.mp hnone).2
    rw [Processor.activity_eq_nil tables (Processor.programEnded_of_atBoundary tables hboundary)]
      at hmem
    cases hmem
  | enter _ _ hended _ ih =>
    obtain ⟨step, hmem, -⟩ := ih (List.append_eq_nil_iff.mp hnone).2
    rw [Processor.activity_eq_nil tables hended] at hmem
    cases hmem
  | @transact run targets _ start hended ih =>
    obtain ⟨hstep, htargets⟩ := List.append_eq_nil_iff.mp hnone
    obtain ⟨step, hmem, hsends⟩ := ih htargets
    rw [activity_transact bus tables run start hended] at hmem
    rcases List.mem_cons.mp hmem with rfl | hlater
    · simp [steppedTarget?, hsends] at hstep
    · exact ⟨step, hlater, hsends⟩
  | setInterruptLevel _ _ ih | edit _ _ _ ih | owe _ _ ih => exact ih hnone

/-- At a boundary control has been sent somewhere. -/
theorem Sent.exists_last (hrealizes : tables.Realizes forms) {targets : List Long}
    (h : Sent tables bus run targets) (hboundary : run.processor.atBoundary tables) :
    ∃ last earlier, targets = last :: earlier := by
  refine List.exists_cons_of_ne_nil fun hnone => ?_
  obtain ⟨step, hmem, -⟩ := h.exists_sendsControl hrealizes hnone
  rw [Processor.activity_eq_nil tables (Processor.programEnded_of_atBoundary tables hboundary)]
    at hmem
  cases hmem

end Run

end M68k
