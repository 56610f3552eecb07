import M68k.Proofs.Execution.Boundary
import M68k.Proofs.Prefetch.Counter
import M68k.Proofs.RegisterList

/-!
# The length of an instruction

An instruction that is no control transfer moves the program counter on by its own length: by the
opcode and by the extension words that the opcode asks for.

## Main definitions

* `Run.Advances`: what a stage does to the program counter

## Main results

* `Run.exists_advances`: each stage moves it on by the words that it fetches
* `Run.pc_execute`: what the stages of an instruction do to the program counter
* `Processor.pc_runInstruction`: what an instruction run does to it
-/

namespace M68k

open Encoding

variable {β : Type} {tables : Tables} (bus : Bus β)

namespace Activity

theorem linear_listTransfers (read : Bool) (count : Nat) :
    (FixedPrograms.listTransfers read count).Linear :=
  (Steady.listTransfers read count).linear

@[simp] theorem fetches_listTransfers (read : Bool) (count : Nat) :
    (FixedPrograms.listTransfers read count).fetches = 0 := by
  simp [fetches, FixedPrograms.listTransfers, transfer, List.countP_flatten]

end Activity

namespace Processor

/-- A move of a register list begins to transfer it, and chooses the transfers of its words. -/
theorem act_moveList (hrealizes : tables.Realizes forms) {p : Processor} (target : Target)
    {direction : ListDirection} (h : p.instruction.operation = .movem direction) :
    let transfer := ListTransfer.begin (Half.low.get p.data.source)
      p.effectiveAddress.destination (p.instruction.size == .long) (p.modeField == 4)
    ∃ offset, p.act tables .operate target = ({ p with transfer := transfer }, some offset) ∧
      tables.activityAt offset =
        FixedPrograms.listActivity transfer.words.length direction := by
  intro transfer
  have hroom : transfer.words.length ≤ FixedPrograms.maxListWords :=
    ListTransfer.length_words_begin_le _ _ _ _
  simp only [act, operate, h, beginListTransfer]
  cases direction with
  | toMemory => exact ⟨_, rfl, hrealizes.listWrite_entry hroom⟩
  | toRegisters => exact ⟨_, rfl, hrealizes.listRead_entry hroom⟩

/-- It leaves all registers alone. -/
theorem act_of_list (hrealizes : tables.Realizes forms) {p : Processor} (target : Target)
    {direction : ListDirection} (h : p.instruction.operation = .movem direction) :
    ∃ transfer offset read count,
      p.act tables .operate target = ({ p with transfer := transfer }, some offset) ∧
        tables.activityAt offset = FixedPrograms.listTransfers read count := by
  obtain ⟨offset, hact, hactivity⟩ := act_moveList hrealizes target h
  cases direction <;> exact ⟨_, offset, _, _, hact, hactivity⟩

end Processor

namespace Run

/-- Each fetch of an activity moves the program counter on by one word. -/
theorem pc_perform {activity : Activity} (h : activity.Linear) (run : Run β) :
    (run.perform bus activity).processor.registers.pc =
      run.processor.registers.pc + BitVec.ofNat 32 (2 * activity.fetches) := by
  induction activity generalizing run with
  | nil => simp
  | cons step activity ih =>
    have hstep : (run.transact bus none step).processor.registers.pc =
        if step.action = .incrementProgramCounter then run.processor.registers.pc + 2
        else run.processor.registers.pc :=
      run.processor.pc_receive _ (h step (by simp))
    rw [perform_cons, ih fun step hstep => h step (by simp [hstep]), hstep]
    by_cases haction : step.action = .incrementProgramCounter
    · simp only [haction, if_true, Activity.fetches, List.countP_cons, beq_self_eq_true]
      bv_omega
    · have hne : (step.action == .incrementProgramCounter) = false := by simpa using haction
      rw [if_neg haction]
      simp only [Activity.fetches, List.countP_cons, hne, Bool.false_eq_true, if_false,
        Nat.add_zero]

variable (tables) in
/-- A stage leads from one run to the next, and moves the program counter on by the words that it
fetches, less those over which its operation steps back. -/
structure Advances (stage : Stage) (run next : Run β) : Prop where
  execute : ∀ stages, run.execute bus tables (stage :: stages) = next.execute bus tables stages
  phase : next.processor.phase = .instruction
  instruction : next.processor.instruction = run.processor.instruction
  pc : next.processor.registers.pc +
      BitVec.ofNat 32 (2 * Stage.rewound run.processor.instruction.operation [stage]) =
    run.processor.registers.pc + BitVec.ofNat 32 (2 * stage.activity.fetches)

section

variable {run : Run β}

/-- The counter after an operation, which may step back over words that are fetched a second
time. -/
theorem pc_compute_rewound (target : Target) (activity : Activity)
    (hsequential : run.processor.instruction.operation.isSequential) :
    run.processor.compute.registers.pc +
        BitVec.ofNat 32 (2 * Stage.rewound run.processor.instruction.operation
          [⟨.operate, target, activity⟩]) =
      run.processor.registers.pc := by
  cases hrewinds : run.processor.instruction.operation.rewinds with
  | true =>
    rw [run.processor.pc_compute_of_rewinds hrewinds]
    simp only [Stage.rewound, Stage.operations, hrewinds, if_true, List.countP_singleton,
      beq_self_eq_true]
    bv_omega
  | false =>
    have hcounter : run.processor.instruction.operation.setsCounter = false := by
      revert hrewinds hsequential
      cases run.processor.instruction.operation <;>
        simp [Operation.rewinds, Operation.isSequential, Operation.setsCounter]
    rw [run.processor.pc_compute hcounter]
    simp [Stage.rewound, hrewinds]

variable {target : Target} {activity : Activity} (hphase : run.processor.phase = .instruction)
include hphase

theorem advances_prepare {action : Action} (haction : action ≠ .operate)
    (hlinear : activity.Linear) :
    Advances tables bus ⟨action, target, activity⟩ run
      ((run.withProcessor (run.processor.prepare action target)).perform bus activity) where
  execute stages := execute_prepare bus tables target activity stages haction hphase
  phase := by
    rw [phase_perform]
    exact (congrArg Control.phase (run.processor.control_prepare action target)).trans hphase
  instruction := by
    rw [instruction_perform]
    exact congrArg Control.instruction (run.processor.control_prepare action target)
  pc := by
    rw [pc_perform bus hlinear, processor_withProcessor, Processor.pc_prepare]
    simp [Stage.rewound, Stage.operations, haction]

variable (hsequential : run.processor.instruction.operation.isSequential)
include hsequential

theorem advances_compute (hplain : run.processor.instruction.operation.redirects = false)
    (hlinear : activity.Linear) :
    Advances tables bus ⟨.operate, target, activity⟩ run
      ((run.withProcessor run.processor.compute).perform bus activity) where
  execute stages := execute_operate bus tables target activity stages hplain hphase
  phase := by
    rw [phase_perform]
    exact (congrArg Control.phase run.processor.control_compute).trans hphase
  instruction := by
    rw [instruction_perform]
    exact congrArg Control.instruction run.processor.control_compute
  pc := by
    have hcounter := pc_compute_rewound target activity hsequential
    rw [pc_perform bus hlinear, processor_withProcessor]
    bv_omega

/-- Of the operations that redirect, only moves of register lists are no control transfers. -/
theorem exists_advances_list (hrealizes : tables.Realizes forms)
    (hredirects : run.processor.instruction.operation.redirects) :
    ∃ next : Run β, Advances tables bus ⟨.operate, target, []⟩ run next := by
  obtain ⟨direction, hlist⟩ :
      ∃ direction, run.processor.instruction.operation = .movem direction := by
    revert hredirects hsequential
    cases run.processor.instruction.operation <;>
      simp [Operation.redirects, Operation.isSequential]
  obtain ⟨transfer, offset, read, count, hact, hactivity⟩ :=
    Processor.act_of_list hrealizes target hlist
  exact
    ⟨(run.withProcessor { run.processor with transfer := transfer }).perform bus
      (FixedPrograms.listTransfers read count),
      { execute := fun stages => by
          simp only [Run.execute, hact, hphase, if_true, Option.map_some, Option.getD_some,
            hactivity]
        phase := by
          rw [phase_perform]
          exact hphase
        instruction := by
          rw [instruction_perform]
          rfl
        pc := by
          rw [pc_perform bus (Activity.linear_listTransfers read count)]
          simp [Stage.rewound, hlist, Operation.rewinds] }⟩

/-- **One stage of an instruction** that is no control transfer. -/
theorem exists_advances (hrealizes : tables.Realizes forms) {stage : Stage}
    (horderly : stage.Orderly run.processor.instruction.operation)
    (hlinear : stage.activity.Linear) : ∃ next : Run β, Advances tables bus stage run next := by
  obtain ⟨action, target, activity⟩ := stage
  by_cases haction : action = .operate
  · subst haction
    by_cases hredirects : run.processor.instruction.operation.redirects
    · obtain rfl : activity = [] := horderly rfl hredirects
      exact exists_advances_list bus hphase hsequential hrealizes hredirects
    · have hplain : run.processor.instruction.operation.redirects = false := by
        simpa using hredirects
      exact ⟨_, advances_compute bus hphase hsequential hplain hlinear⟩
  · exact ⟨_, advances_prepare bus hphase haction hlinear⟩

end

/-- The stages of an instruction that is no control transfer move the program counter on by the
words they fetch, less those over which the operation steps back. -/
theorem pc_execute (hrealizes : tables.Realizes forms) {stages : List Stage} {run : Run β}
    (hphase : run.processor.phase = .instruction)
    (hsequential : run.processor.instruction.operation.isSequential)
    (horderly : ∀ stage ∈ stages, stage.Orderly run.processor.instruction.operation)
    (hlinear : ∀ stage ∈ stages, stage.activity.Linear) :
    (run.execute bus tables stages).processor.registers.pc +
        BitVec.ofNat 32 (2 * Stage.rewound run.processor.instruction.operation stages) =
      run.processor.registers.pc + BitVec.ofNat 32 (2 * Stage.words stages) := by
  induction stages generalizing run with
  | nil => simp [Stage.rewound, Stage.operations]
  | cons stage stages ih =>
    obtain ⟨next, hexecute, hnext, hinstruction, hpc⟩ :=
      exists_advances bus hphase hsequential hrealizes (horderly stage (by simp))
        (hlinear stage (by simp))
    have hrest := ih hnext (by rwa [hinstruction])
      (fun stage hstage => by
        rw [hinstruction]
        exact horderly stage (by simp [hstage]))
      (fun stage hstage => hlinear stage (by simp [hstage]))
    rw [hinstruction] at hrest
    have hrewound := Stage.rewound_cons run.processor.instruction.operation stage stages
    rw [hexecute, hrewound, Stage.words_cons]
    bv_omega

end Run

namespace Processor

/-- **An instruction that is no control transfer moves the program counter on by its length**, on
every bus. -/
theorem pc_runInstruction (hrealizes : tables.Realizes forms) {p : Processor}
    (hboundary : p.atBoundary tables) {entry : TableEntry}
    (hentry : (p.start tables).entry = .instruction entry)
    (hsequential : entry.instruction.operation.isSequential) (b : β) :
    (p.runInstruction tables bus b).processor.registers.pc =
      p.registers.pc +
        BitVec.ofNat 32 (2 * (1 + extensionWords (Half.high.get p.prefetch))) := by
  have hwellFormed := wellFormed_of_entry hrealizes (entry_of_start hentry)
  set run : Run β := (Run.begin { p with debt := 0 } b).withProcessor
    (({ p with debt := 0 } : Processor).dispatch (p.start tables).opcode entry.instruction)
    with hrun
  have hpc : (run.execute bus tables (tables.stagesAt entry.start)).processor.registers.pc +
      BitVec.ofNat 32 (2 * Stage.rewound entry.instruction.operation
        (tables.stagesAt entry.start)) =
        p.registers.pc + BitVec.ofNat 32 (2 * Stage.words (tables.stagesAt entry.start)) :=
    Run.pc_execute bus hrealizes rfl hsequential hwellFormed.orderly
      (hwellFormed.linear hsequential)
  have hfinal := (runInstruction_atBoundary bus hrealizes hboundary b).2
  rw [Run.fromStart_instruction bus hentry] at hfinal
  have hwords := hwellFormed.words hsequential
  rw [Run.registers_of_unplaced hfinal]
  change (run.execute bus tables (tables.stagesAt entry.start)).processor.registers.pc = _
  simp only [] at hwords
  rw [hwords] at hpc
  bv_omega

end Processor

end M68k
