import M68k.Proofs.Latches.Execute
import M68k.Proofs.Operand.Locate

/-!
# Chosen programs

A branch ends its chain at the point of the operation, which knows how the branch turns out and
chooses one of the fixed programs. All of them fetch from where the program goes on.

## Main definitions

* `Processor.turn`: what a branch or a loop makes of the processor, and the activity it chooses
* `Snapshot.Settled`: the program goes on with other registers

## Main results

* `Processor.unplaced_runInstruction_turn`: a run of a branch performs the activity it chooses
-/

namespace M68k

open Encoding Reference

namespace Operation

/-- The operation is a branch or a loop, which chooses where the program goes on. -/
def turns : Operation → Bool
  | bcc | bsr | dbcc => true
  | _ => false

end Operation

namespace Processor

variable {β : Type} {tables : Tables}

/-- What a branch makes of the processor, and the activity that it chooses. -/
def turnBranch (p : Processor) : Processor × Activity :=
  if p.conditionHolds then (p.setPc p.branchTarget, .idle 4 ++ (.fetch ++ .fetch))
  else if p.hasWordDisplacement then (p, .idle 8 ++ (.fetch ++ .fetch))
  else (p, .idle 8 ++ .fetch)

/-- What a loop makes of the processor, and the activity that it chooses. -/
def turnLoop (p : Processor) : Processor × Activity :=
  let register := p.instruction.destinationRegister.index
  let old := p.registers.data register
  let counter := Half.low.get old - 1
  let counted := { p with registers := p.registers.setData register (Half.low.set old counter) }
  if p.conditionHolds then (p, .idle 8 ++ (.fetch ++ .fetch))
  else if counter = 0xFFFF then
    ({ counted with expiredTarget := p.wordBranchTarget },
      .idle 4 ++ FixedPrograms.expiredLoopRead ++ (.fetch ++ .fetch))
  else (counted.setPc p.wordBranchTarget, .idle 4 ++ (.fetch ++ .fetch))

/-- What an operation that chooses where the program goes on makes of the processor, and the
activity that it chooses. -/
def turn (p : Processor) : Processor × Activity :=
  match p.instruction.operation with
  | .bcc => p.turnBranch
  | .bsr => (p.setPc p.branchTarget, .fetch ++ .fetch)
  | .dbcc => p.turnLoop
  | _ => (p, [])

/-- The fixed program that is chosen holds that activity. -/
theorem act_turn (hrealizes : tables.Realizes forms) {p : Processor}
    (h : p.instruction.operation.turns) (target : Target) :
    ∃ offset, p.act tables .operate target = (p.turn.1, some offset) ∧
      tables.activityAt offset = p.turn.2 := by
  simp only [act, operate, turn]
  cases hcase : p.instruction.operation <;> rw [hcase] at h <;> try cases h
  case bcc =>
    simp only [branch, turnBranch]
    split
    · exact ⟨_, rfl, hrealizes.branchTaken⟩
    · split
      · exact ⟨_, rfl, hrealizes.branchWordNotTaken⟩
      · exact ⟨_, rfl, hrealizes.branchByteNotTaken⟩
  case bsr => exact ⟨_, rfl, hrealizes.subroutine⟩
  case dbcc =>
    simp only [decrementAndBranch, turnLoop]
    split
    · exact ⟨_, rfl, hrealizes.loopLeft⟩
    · split
      · exact ⟨_, rfl, hrealizes.loopExpired⟩
      · exact ⟨_, rfl, hrealizes.loopTaken⟩

/-- Time has no part in the choice. -/
theorem turn_timeless (p : Processor) : p.timeless.turn = (p.turn.1.timeless, p.turn.2) := by
  have hholds : p.timeless.conditionHolds = p.conditionHolds := rfl
  have hlong : p.timeless.hasWordDisplacement = p.hasWordDisplacement := rfl
  have hinstruction : p.timeless.instruction = p.instruction := rfl
  simp only [turn, hinstruction]
  cases p.instruction.operation
  case bcc =>
    simp only [turnBranch, hholds, hlong]
    split
    · rfl
    · split <;> rfl
  case dbcc =>
    simp only [turnLoop, hholds, hinstruction, registers_timeless]
    split
    · rfl
    · split <;> rfl
  all_goals rfl

/-- Stages in front of the operation are plain. -/
theorem plain_dispatchedRun (p : Processor) (instruction : Instruction) {front : List Stage}
    (hfront : ∀ stage ∈ front, stage.action ≠ .operate) (b : β) :
    (p.dispatchedRun instruction b).Plain front :=
  ⟨rfl, fun stage hstage haction => absurd haction (hfront stage hstage)⟩

section

variable (bus : Bus β) (hrealizes : tables.Realizes forms) {p : Processor}
  {instruction : Instruction} {front : List Stage} (hboundary : p.atBoundary tables)
  (hinterrupt : p.pendingInterrupt? = none)
  (hdecode : decode? forms (Half.high.get p.prefetch) =
    some ⟨instruction, front ++ [.act .operate .nowhere]⟩)
  (hturns : instruction.operation.turns) (hunprivileged : instruction.requiresSupervisor = false)
  (hfront : ∀ stage ∈ front, stage.action ≠ .operate)
include hrealizes hboundary hinterrupt hdecode hturns hunprivileged hfront

/-- **A run of a branch performs the activity that it chooses**, behind the stages in front. -/
theorem unplaced_runInstruction_turn (b : β) :
    let run := (p.dispatchedRun instruction b).execute bus tables front
    (p.runInstruction tables bus b).unplaced =
      ((run.withProcessor run.processor.turn.1).perform bus run.processor.turn.2).unplaced := by
  intro run
  have hfinal := unplaced_runInstruction bus hrealizes hboundary hinterrupt hdecode
    (by rw [hunprivileged]; nofun) b
  have hplain := p.plain_dispatchedRun instruction hfront b
  have hcontrol : run.processor.control = (p.dispatchedRun instruction b).processor.control :=
    Run.control_execute bus tables hplain
  have hinstruction : run.processor.instruction = instruction :=
    congrArg Control.instruction hcontrol
  have hphase : run.processor.phase = .instruction := congrArg Control.phase hcontrol
  obtain ⟨offset, hact, hactivity⟩ :=
    act_turn hrealizes (p := run.processor) (by rwa [hinstruction]) .nowhere
  have htrap : run.processor.instruction.operation ≠ .trap := by
    rw [hinstruction]
    intro htrap
    rw [htrap] at hturns
    cases hturns
  have hexecute : (p.dispatchedRun instruction b).execute bus tables
      (front ++ [.act .operate .nowhere]) = run.execute bus tables [.act .operate .nowhere] :=
    Run.execute_append bus tables hplain _
  rw [hfinal, hexecute, Stage.act, Run.execute_of_stays (fun _ => htrap) hphase, Run.execute_nil,
    hact, Option.map_some, Option.getD_some, hactivity]

/-- Time can be disregarded there. -/
theorem snapshot_runInstruction_turn (b : β) :
    let s := (p.dispatched instruction b).execute bus front
    (p.runInstruction tables bus b).snapshot =
      (s.withProcessor s.processor.turn.1).perform bus s.processor.turn.2 := by
  intro s
  have hplain := p.plain_dispatchedRun instruction hfront b
  have hsnapshot := Run.snapshot_execute bus tables hplain
  have hunplaced := unplaced_runInstruction_turn bus hrealizes hboundary hinterrupt hdecode hturns
    hunprivileged hfront b
  rw [Run.snapshot_of_unplaced hunplaced, Run.snapshot_perform]
  generalize (p.dispatchedRun instruction b).execute bus tables front = run at hsnapshot ⊢
  have hs : s = run.snapshot := hsnapshot.symm
  have hturn : s.processor.turn = (run.processor.turn.1.timeless, run.processor.turn.2) := by
    rw [hs]
    exact turn_timeless run.processor
  rw [hturn, hs]
  rfl

end

end Processor

/-! ## Where the program goes on -/

namespace Snapshot

/-- The program goes on with these registers and on this bench, from a filled queue. -/
structure Settled (r : Registers) (bench : TestBench) (s : Snapshot TestBench) : Prop where
  registers : s.processor.registers = r
  coherent : s.Coherent
  bus : s.bus = bench

variable {s : Snapshot TestBench}

/-- The two words at a new place are fetched. -/
theorem settled_refill (s : Snapshot TestBench) :
    Settled (skipWord (skipWord s.processor.registers)) s.bus
      (s.perform TestBench.access (.fetch ++ .fetch)) := by
  refine ⟨?_, .refill s, ?_⟩ <;> rw [perform_append, perform_fetch, perform_fetch] <;> rfl

/-- The next word is fetched. -/
theorem settled_fetch (h : s.Coherent) :
    Settled (skipWord s.processor.registers) s.bus (s.perform TestBench.access .fetch) := by
  refine ⟨?_, h.fetch, ?_⟩ <;> rw [perform_fetch] <;> rfl

/-- Idle time comes first. -/
theorem Settled.idle_append {r : Registers} {bench : TestBench} {activity : Activity}
    (duration : HalfCycles)
    (h : Settled r bench (s.timeless.perform TestBench.access activity)) :
    Settled r bench (s.perform TestBench.access (.idle duration ++ activity)) := by
  rw [perform_append, perform_idle]
  exact h

/-- The stray read of a loop that has run out only leaves a word in a latch. -/
theorem perform_expiredLoopRead (s : Snapshot TestBench) :
    ∃ data, s.perform TestBench.access FixedPrograms.expiredLoopRead =
      s.withProcessor ({ s.processor with data := data } : Processor).timeless := by
  exact ⟨_, perform_readWord s true .expiredTarget (.latch .source .low) .none⟩

end Snapshot

end M68k
