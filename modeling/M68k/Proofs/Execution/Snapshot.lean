import M68k.Proofs.Execution.Boundary

/-!
# Snapshots

What an instruction does to registers and memory has nothing to do with time. A snapshot of a run is
its processor and its bus without offsets, clock and history. While stages do not redirect, to
execute them is a fold over snapshots, and the tables are out of the picture.

## Main definitions

* `Snapshot`, `Run.snapshot`: a run when time is disregarded
* `Snapshot.perform`, `Snapshot.execute`: activities and stages
* `Run.Plain`: stages that do not redirect a run

## Main results

* `Run.snapshot_perform`, `Run.snapshot_execute`: time can be disregarded from the beginning
* `Processor.unplaced_runInstruction`, `Processor.snapshot_runInstruction`: an instruction run
  executes the stages of its recipe
-/

namespace M68k

/-- A processor out of place and time, with the state of its bus. -/
structure Snapshot (β : Type) where
  processor : Processor
  bus : β

/-- Fire an action when the operation does not redirect. -/
def Processor.fire (p : Processor) (action : Action) (target : Target) : Processor :=
  match action with
  | .operate => p.compute
  | action => p.prepare action target

namespace Processor

variable (p : Processor)

theorem act_eq_fire (tables : Tables) (action : Action) (target : Target)
    (h : action = .operate → p.instruction.operation.redirects = false) :
    p.act tables action target = (p.fire action target, none) := by
  cases action with
  | operate => exact p.act_of_plain tables target (h rfl)
  | _ => rfl

theorem control_fire (action : Action) (target : Target) :
    (p.fire action target).control = p.control := by
  cases action with
  | operate => exact p.control_compute
  | _ => exact p.control_prepare _ target

theorem timeless_fire (action : Action) (target : Target) :
    (p.fire action target).timeless = p.timeless.fire action target := by
  cases action with
  | operate => exact indifferent_compute.oblivious.timeless p
  | _ => exact (indifferent_prepare _ target).oblivious.timeless p

@[simp] theorem timeless_timeless : p.timeless.timeless = p.timeless := rfl

@[simp] theorem registers_timeless : p.timeless.registers = p.registers := rfl

@[simp] theorem prefetch_timeless : p.timeless.prefetch = p.prefetch := rfl

@[simp] theorem effectiveAddress_timeless : p.timeless.effectiveAddress = p.effectiveAddress := rfl

@[simp] theorem data_timeless : p.timeless.data = p.data := rfl

theorem opcode_fire (action : Action) (target : Target) :
    (p.fire action target).opcode = p.opcode :=
  congrArg Control.opcode (p.control_fire action target)

theorem instruction_fire (action : Action) (target : Target) :
    (p.fire action target).instruction = p.instruction :=
  congrArg Control.instruction (p.control_fire action target)

end Processor

namespace Snapshot

variable {β : Type} (bus : Bus β)

/-- Run one bus step. -/
def transact (step : BusStep) (s : Snapshot β) : Snapshot β :=
  let (reply, b) := bus s.bus (s.processor.request step)
  ⟨(s.processor.receive step ⟨reply.value, 0⟩).timeless, b⟩

/-- Run the steps of an activity. -/
def perform (activity : Activity) (s : Snapshot β) : Snapshot β :=
  activity.foldl (fun s step => s.transact bus step) s

/-- Go on with another processor. -/
def withProcessor (s : Snapshot β) (p : Processor) : Snapshot β := { s with processor := p }

/-- Fire the action of a stage. -/
def fire (stage : Stage) (s : Snapshot β) : Snapshot β :=
  s.withProcessor (s.processor.fire stage.action stage.target)

/-- Execute stages in order. -/
def execute (stages : List Stage) (s : Snapshot β) : Snapshot β :=
  stages.foldl (fun s stage => (s.fire stage).perform bus stage.activity) s

@[simp] theorem perform_nil (s : Snapshot β) : s.perform bus [] = s := rfl

@[simp] theorem perform_append (first second : Activity) (s : Snapshot β) :
    s.perform bus (first ++ second) = (s.perform bus first).perform bus second :=
  List.foldl_append

@[simp] theorem execute_nil (s : Snapshot β) : s.execute bus [] = s := rfl

@[simp] theorem execute_cons (stage : Stage) (stages : List Stage) (s : Snapshot β) :
    s.execute bus (stage :: stages) =
      ((s.fire stage).perform bus stage.activity).execute bus stages := rfl

@[simp] theorem execute_append (first second : List Stage) (s : Snapshot β) :
    s.execute bus (first ++ second) = (s.execute bus first).execute bus second :=
  List.foldl_append

/-! ## What is executed -/

section Kept

variable {α : Type} {f : Processor → α}
  (hreceive : ∀ (p : Processor) (step : BusStep) (reply : Reply),
    f (p.receive step reply).timeless = f p)
include hreceive

/-- What bus steps leave alone is left alone by an activity. -/
theorem kept_perform (activity : Activity) (s : Snapshot β) :
    f (s.perform bus activity).processor = f s.processor := by
  induction activity generalizing s with
  | nil => rfl
  | cons step activity ih => exact (ih (s.transact bus step)).trans (hreceive _ _ _)

/-- What bus steps and actions leave alone is left alone by stages. -/
theorem kept_execute (stages : List Stage)
    (hfire : ∀ p : Processor, ∀ stage ∈ stages, f (p.fire stage.action stage.target) = f p)
    (s : Snapshot β) : f (s.execute bus stages).processor = f s.processor := by
  induction stages generalizing s with
  | nil => rfl
  | cons stage stages ih =>
    rw [execute_cons, ih fun p other hother => hfire p other (List.mem_cons_of_mem _ hother),
      kept_perform bus hreceive]
    exact hfire s.processor stage List.mem_cons_self

end Kept

@[simp] theorem instruction_perform (activity : Activity) (s : Snapshot β) :
    (s.perform bus activity).processor.instruction = s.processor.instruction :=
  kept_perform bus Processor.instruction_receive activity s

@[simp] theorem instruction_execute (stages : List Stage) (s : Snapshot β) :
    (s.execute bus stages).processor.instruction = s.processor.instruction :=
  kept_execute bus Processor.instruction_receive stages
    (fun p stage _ => p.instruction_fire stage.action stage.target) s

@[simp] theorem opcode_execute (stages : List Stage) (s : Snapshot β) :
    (s.execute bus stages).processor.opcode = s.processor.opcode :=
  kept_execute bus Processor.opcode_receive stages
    (fun p stage _ => p.opcode_fire stage.action stage.target) s

end Snapshot

namespace Run

variable {β : Type} (bus : Bus β) (tables : Tables)

/-- The run when time is disregarded. -/
def snapshot (run : Run β) : Snapshot β := ⟨run.processor.timeless, run.bus⟩

@[simp] theorem registers_snapshot (run : Run β) :
    run.snapshot.processor.registers = run.processor.registers := rfl

@[simp] theorem bus_snapshot (run : Run β) : run.snapshot.bus = run.bus := rfl

theorem snapshot_transact (start : Option Start) (step : BusStep) (run : Run β) :
    (run.transact bus start step).snapshot = run.snapshot.transact bus step := by
  simp only [snapshot, transact, Snapshot.transact, Processor.request_timeless,
    run.processor.timeless_receive]

/-- **Time can be disregarded** in activities. -/
theorem snapshot_perform (activity : Activity) (run : Run β) :
    (run.perform bus activity).snapshot = run.snapshot.perform bus activity := by
  induction activity generalizing run with
  | nil => rfl
  | cons step activity ih =>
    rw [perform_cons, ih, snapshot_transact]
    rfl

/-- A stage that does not redirect fires, and performs its own activity. -/
theorem execute_of_plain (stage : Stage) {run : Run β}
    (hphase : run.processor.phase = .instruction)
    (hplain : stage.action = .operate →
      run.processor.instruction.operation.redirects = false) :
    ∃ fired : Run β,
      (∀ stages, run.execute bus tables (stage :: stages) =
        (fired.perform bus stage.activity).execute bus tables stages) ∧
      fired.snapshot = run.snapshot.fire stage ∧ fired.history = run.history ∧
      fired.processor.control = run.processor.control := by
  have hact := run.processor.act_eq_fire tables stage.action stage.target hplain
  have hcontrol := run.processor.control_fire stage.action stage.target
  have hfired : (run.processor.fire stage.action stage.target).phase = .instruction :=
    (congrArg Control.phase hcontrol).trans hphase
  refine ⟨run.withProcessor (run.processor.fire stage.action stage.target), fun stages => ?_, ?_,
    rfl, hcontrol⟩
  · rw [execute_cons bus tables (by rw [hact]; exact hfired) (by rw [hact]), hact]
  · simp only [snapshot, Snapshot.fire, processor_withProcessor, run.processor.timeless_fire]
    rfl

/-- The stages do not redirect: they carry out no operation, or one that chooses no program. -/
def Plain (run : Run β) (stages : List Stage) : Prop :=
  run.processor.phase = .instruction ∧
    ∀ stage ∈ stages, stage.action = .operate →
      run.processor.instruction.operation.redirects = false

theorem Plain.of_control {run other : Run β} {stages others : List Stage}
    (h : run.Plain stages) (hcontrol : other.processor.control = run.processor.control)
    (hstages : ∀ stage ∈ others, stage ∈ stages) : other.Plain others := by
  have hphase : other.processor.phase = run.processor.phase := congrArg Control.phase hcontrol
  have hinstruction : other.processor.instruction = run.processor.instruction :=
    congrArg Control.instruction hcontrol
  refine ⟨hphase.trans h.1, fun stage hstage haction => ?_⟩
  rw [hinstruction]
  exact h.2 stage (hstages stage hstage) haction

/-- The first of some plain stages fires, and performs its own activity, before the others. -/
theorem Plain.step {stage : Stage} {stages : List Stage} {run : Run β}
    (h : run.Plain (stage :: stages)) :
    ∃ fired : Run β,
      (∀ rest, run.execute bus tables (stage :: rest) =
        (fired.perform bus stage.activity).execute bus tables rest) ∧
      fired.snapshot = run.snapshot.fire stage ∧ fired.history = run.history ∧
      (fired.perform bus stage.activity).processor.control = run.processor.control ∧
      (fired.perform bus stage.activity).Plain stages := by
  obtain ⟨fired, hexecute, hsnapshot, hhistory, hcontrol⟩ :=
    execute_of_plain bus tables stage h.1 (h.2 stage List.mem_cons_self)
  have hperformed := (control_perform bus stage.activity fired).trans hcontrol
  exact ⟨fired, hexecute, hsnapshot, hhistory, hperformed,
    h.of_control hperformed fun _ hmem => List.mem_cons_of_mem _ hmem⟩

/-- **Time can be disregarded** in stages that do not redirect. -/
theorem snapshot_execute {stages : List Stage} {run : Run β} (h : run.Plain stages) :
    (run.execute bus tables stages).snapshot = run.snapshot.execute bus stages := by
  induction stages generalizing run with
  | nil => rfl
  | cons stage stages ih =>
    obtain ⟨fired, hexecute, hsnapshot, -, -, hrest⟩ := h.step bus tables
    rw [hexecute, ih hrest, snapshot_perform, hsnapshot, Snapshot.execute_cons]

/-- Stages that do not redirect leave what bus steps leave alone. -/
theorem control_execute {stages : List Stage} {run : Run β} (h : run.Plain stages) :
    (run.execute bus tables stages).processor.control = run.processor.control := by
  induction stages generalizing run with
  | nil => rfl
  | cons stage stages ih =>
    obtain ⟨fired, hexecute, -, -, hcontrol, hrest⟩ := h.step bus tables
    rw [hexecute, ih hrest, hcontrol]

/-- Stages that do not redirect are executed before those that might. -/
theorem execute_append {front : List Stage} {run : Run β} (h : run.Plain front)
    (stages : List Stage) :
    run.execute bus tables (front ++ stages) =
      (run.execute bus tables front).execute bus tables stages := by
  induction front generalizing run with
  | nil => rfl
  | cons stage front ih =>
    obtain ⟨fired, hexecute, -, -, -, hrest⟩ := h.step bus tables
    rw [List.cons_append, hexecute, hexecute, ih hrest]

theorem snapshot_of_unplaced {run other : Run β} (h : run.unplaced = other.unplaced) :
    run.snapshot = other.snapshot := by
  have hprocessor : run.processor.timeless = other.processor.timeless :=
    (congrArg Processor.timeless (processor_of_unplaced h) :)
  rw [snapshot, snapshot, hprocessor, bus_of_unplaced h]

end Run

namespace Processor

variable {β : Type} (bus : Bus β)

/-- The run in which the stages of an instruction are executed. -/
def dispatchedRun (p : Processor) (instruction : Instruction) (b : β) : Run β :=
  .begin ({ p with debt := 0 }.dispatch (Half.high.get p.prefetch) instruction) b

/-- The snapshot in which the stages of an instruction are executed. -/
def dispatched (p : Processor) (instruction : Instruction) (b : β) : Snapshot β :=
  ⟨({ p with debt := 0 }.dispatch (Half.high.get p.prefetch) instruction).timeless, b⟩

/-- The first run of a new processor performs the reset sequence. -/
theorem snapshot_runInstruction_initial {tables : Tables} (hrealizes : tables.Realizes forms)
    (b : β) :
    ((initial tables).runInstruction tables bus b).processor.atBoundary tables ∧
      ((initial tables).runInstruction tables bus b).snapshot =
        (Run.begin { initial tables with debt := 0 } b).snapshot.perform bus
          FixedPrograms.resetActivity := by
  obtain ⟨hboundary, hreset⟩ := runInstruction_initial bus hrealizes b
  have hsnapshot := Run.snapshot_of_unplaced hreset
  rw [Run.snapshot_perform] at hsnapshot
  exact ⟨hboundary, hsnapshot⟩

section

variable {tables : Tables} (hrealizes : tables.Realizes forms) {p : Processor} {recipe : Recipe}
  (hboundary : p.atBoundary tables) (hinterrupt : p.pendingInterrupt? = none)
  (hdecode : decode? forms (Half.high.get p.prefetch) = some recipe)
  (hprivilege : recipe.instruction.requiresSupervisor → p.registers.isSupervisor)
include hrealizes hboundary hinterrupt hdecode hprivilege

/-- **An instruction run executes the stages of its recipe.** -/
theorem unplaced_runInstruction (b : β) :
    (p.runInstruction tables bus b).unplaced =
      ((p.dispatchedRun recipe.instruction b).execute bus tables recipe.stages).unplaced := by
  obtain ⟨entry, hentry, hinstruction, hstages⟩ :=
    start_of_decode? hrealizes hinterrupt hdecode hprivilege
  have hfinal := (runInstruction_atBoundary bus hrealizes hboundary b).2
  rw [Run.fromStart_instruction bus hentry, hinstruction, hstages] at hfinal
  exact hfinal

/-- Unless the operation redirects, time can be disregarded there. -/
theorem snapshot_runInstruction (hplain : recipe.instruction.operation.redirects = false) (b : β) :
    (p.runInstruction tables bus b).snapshot =
      (p.dispatched recipe.instruction b).execute bus recipe.stages := by
  have hfinal := unplaced_runInstruction bus hrealizes hboundary hinterrupt hdecode hprivilege b
  rw [Run.snapshot_of_unplaced hfinal]
  exact Run.snapshot_execute bus tables ⟨rfl, fun _ _ _ => hplain⟩

end

end Processor

end M68k
