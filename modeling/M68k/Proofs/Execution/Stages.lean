import M68k.Proofs.Execution.Control
import M68k.Proofs.Execution.Unplaced
import M68k.Proofs.Tables.ReadBack

/-!
# Executing stages

The processor finds its way through the tables by two offsets. What it does there is to execute the
stages of a chain in order: each fires its action and then performs its bus activity, unless the
operation redirects it. Executing stages is a function of its own, and wherever the processor stands
in its chain, the rest of the chain is executed by the steps to come.

## Main definitions

* `Run.perform`: the steps of an activity
* `Run.execute`: a list of stages
* `Run.conclude`: what is left of the chain in progress
* `Run.unplaced`: a run without offsets and without the marks of boundaries

## Main results

* `Run.unplaced_conclude_follow`: going along the chain leaves the conclusion as it is
* `Run.unplaced_conclude_transact`: so does each step that is run
-/

namespace M68k

/-- A record without its mark of what was started. -/
def StepRecord.unmarked (record : StepRecord) : StepRecord := { record with start := none }

namespace Run

variable {β : Type} (bus : Bus β) (tables : Tables)

/-- Go on with another processor. -/
def withProcessor (run : Run β) (p : Processor) : Run β := { run with processor := p }

@[simp] theorem processor_withProcessor (run : Run β) (p : Processor) :
    (run.withProcessor p).processor = p := rfl

@[simp] theorem history_withProcessor (run : Run β) (p : Processor) :
    (run.withProcessor p).history = run.history := rfl

@[simp] theorem bus_withProcessor (run : Run β) (p : Processor) :
    (run.withProcessor p).bus = run.bus := rfl

@[simp] theorem withProcessor_withProcessor (run : Run β) (p q : Processor) :
    (run.withProcessor p).withProcessor q = run.withProcessor q := rfl

@[simp] theorem withProcessor_processor (run : Run β) : run.withProcessor run.processor = run := rfl

/-- Run the steps of an activity. -/
def perform (activity : Activity) (run : Run β) : Run β :=
  activity.foldl (fun run step => run.transact bus none step) run

@[simp] theorem perform_nil (run : Run β) : run.perform bus [] = run := rfl

@[simp] theorem perform_cons (step : BusStep) (activity : Activity) (run : Run β) :
    run.perform bus (step :: activity) = (run.transact bus none step).perform bus activity := rfl

@[simp] theorem perform_append (first second : Activity) (run : Run β) :
    run.perform bus (first ++ second) = (run.perform bus first).perform bus second :=
  List.foldl_append

/-- Execute stages in order. An exception that an operation enters takes over. -/
def execute : List Stage → Run β → Run β
  | [], run => run
  | stage :: stages, run =>
    let acted := run.processor.act tables stage.action stage.target
    let run := run.withProcessor acted.1
    if acted.1.phase = .instruction then
      execute stages (run.perform bus ((acted.2.map tables.activityAt).getD stage.activity))
    else run.perform bus (tables.activityAt tables.programs.exception)

/-! ## What is executed -/

@[simp] theorem control_perform (activity : Activity) (run : Run β) :
    (run.perform bus activity).processor.control = run.processor.control := by
  induction activity generalizing run with
  | nil => rfl
  | cons step activity ih => exact (ih _).trans (Processor.control_receive _ _ _)

@[simp] theorem instruction_perform (activity : Activity) (run : Run β) :
    (run.perform bus activity).processor.instruction = run.processor.instruction :=
  congrArg Control.instruction (control_perform bus activity run)

@[simp] theorem phase_perform (activity : Activity) (run : Run β) :
    (run.perform bus activity).processor.phase = run.processor.phase :=
  congrArg Control.phase (control_perform bus activity run)

@[simp] theorem length_history_perform (activity : Activity) (run : Run β) :
    (run.perform bus activity).history.length = run.history.length + activity.length := by
  induction activity generalizing run with
  | nil => rfl
  | cons step activity ih =>
    rw [perform_cons, ih, List.length_cons]
    simp only [transact, List.length_cons]
    omega

@[simp] theorem execute_nil (run : Run β) : run.execute bus tables [] = run := rfl

/-- A stage that does not redirect acts and performs its own activity. -/
theorem execute_cons {stage : Stage} {stages : List Stage} {run : Run β}
    (hphase : (run.processor.act tables stage.action stage.target).1.phase = .instruction)
    (hchosen : (run.processor.act tables stage.action stage.target).2 = none) :
    run.execute bus tables (stage :: stages) =
      ((run.withProcessor (run.processor.act tables stage.action stage.target).1).perform bus
        stage.activity).execute bus tables stages := by
  simp only [execute]
  rw [if_pos hphase, hchosen]
  rfl

/-- A stage that prepares the operation. -/
theorem execute_prepare {action : Action} (target : Target) (activity : Activity)
    (stages : List Stage) {run : Run β} (haction : action ≠ .operate)
    (hphase : run.processor.phase = .instruction) :
    run.execute bus tables (⟨action, target, activity⟩ :: stages) =
      ((run.withProcessor (run.processor.prepare action target)).perform bus activity).execute
        bus tables stages := by
  have hact := run.processor.act_of_ne_operate tables target haction
  rw [execute_cons]
  · simp only [hact]
  · rw [hact]
    exact (congrArg Control.phase (run.processor.control_prepare action target)).trans hphase
  · simp only [hact]

/-- The stage that carries out an operation that does not redirect. -/
theorem execute_operate (target : Target) (activity : Activity) (stages : List Stage)
    {run : Run β} (hplain : run.processor.instruction.operation.redirects = false)
    (hphase : run.processor.phase = .instruction) :
    run.execute bus tables (⟨.operate, target, activity⟩ :: stages) =
      ((run.withProcessor run.processor.compute).perform bus activity).execute bus tables
        stages := by
  have hact := run.processor.act_of_plain tables target hplain
  rw [execute_cons]
  · simp only [hact]
  · rw [hact]
    exact (congrArg Control.phase run.processor.control_compute).trans hphase
  · simp only [hact]

/-! ## Executing does not depend on offsets -/

/-- The run without the offsets of its processor and without the marks of boundaries. -/
def unplaced (run : Run β) : Run β :=
  { run with processor := run.processor.unplaced, history := run.history.map .unmarked }

variable {run other : Run β}

theorem registers_of_unplaced (h : run.unplaced = other.unplaced) :
    run.processor.registers = other.processor.registers :=
  congrArg (·.processor.registers) h

theorem bus_of_unplaced (h : run.unplaced = other.unplaced) : run.bus = other.bus :=
  congrArg (·.bus) h

theorem processor_of_unplaced (h : run.unplaced = other.unplaced) :
    run.processor.unplaced = other.processor.unplaced :=
  congrArg (·.processor) h

theorem unmarked_of_unplaced (h : run.unplaced = other.unplaced) :
    run.history.map StepRecord.unmarked = other.history.map .unmarked :=
  congrArg (·.history) h

/-- What does not depend on marks is the same of all records. -/
theorem map_history_of_unplaced (h : run.unplaced = other.unplaced) {α : Type}
    {view : StepRecord → α} (hview : ∀ record, view record.unmarked = view record) :
    run.history.map view = other.history.map view := by
  have hmap (run : Run β) : (run.history.map StepRecord.unmarked).map view =
      run.history.map view := by
    rw [List.map_map]
    exact List.map_congr_left fun record _ => hview record
  rw [← hmap, unmarked_of_unplaced h, hmap]

theorem length_history_of_unplaced (h : run.unplaced = other.unplaced) :
    run.history.length = other.history.length := by
  simpa [unplaced] using congrArg (·.history.length) h

theorem unplaced_withProcessor (h : run.unplaced = other.unplaced) {p q : Processor}
    (hp : p.unplaced = q.unplaced) :
    (run.withProcessor p).unplaced = (other.withProcessor q).unplaced := by
  have hbus : run.bus = other.bus := congrArg (·.bus) h
  have hspent : run.spent = other.spent := congrArg (·.spent) h
  have hhistory := unmarked_of_unplaced h
  simp only [unplaced, withProcessor, hp, hbus, hspent, hhistory]

theorem unplaced_transact (h : run.unplaced = other.unplaced) (start start' : Option Start)
    (step : BusStep) :
    (run.transact bus start step).unplaced = (other.transact bus start' step).unplaced := by
  have hp := processor_of_unplaced h
  have hbus : run.bus = other.bus := congrArg (·.bus) h
  have hspent : run.spent = other.spent := congrArg (·.spent) h
  have hhistory := unmarked_of_unplaced h
  have hrequest : run.processor.request step = other.processor.request step := by
    rw [← Processor.request_unplaced, hp, Processor.request_unplaced]
  have hduration : run.processor.duration step = other.processor.duration step := by
    rw [← Processor.duration_unplaced, hp, Processor.duration_unplaced]
  have hreceive (reply : Reply) :
      (run.processor.receive step reply).unplaced =
        (other.processor.receive step reply).unplaced := by
    rw [Processor.unplaced_receive, hp, ← Processor.unplaced_receive]
  simp only [unplaced, transact, List.map_cons, hbus, hspent, hhistory, hrequest, hduration,
    hreceive, StepRecord.unmarked]

theorem unplaced_perform (h : run.unplaced = other.unplaced) (activity : Activity) :
    (run.perform bus activity).unplaced = (other.perform bus activity).unplaced := by
  induction activity generalizing run other with
  | nil => exact h
  | cons step activity ih => exact ih (unplaced_transact bus h none none step)

/-- **Executing does not depend on offsets.** -/
theorem unplaced_execute (h : run.unplaced = other.unplaced) (stages : List Stage) :
    (run.execute bus tables stages).unplaced = (other.execute bus tables stages).unplaced := by
  induction stages generalizing run other with
  | nil => exact h
  | cons stage stages ih =>
    have hp := processor_of_unplaced h
    have hrun := run.processor.unplaced_act tables stage.action stage.target
    have hother := other.processor.unplaced_act tables stage.action stage.target
    have hacted : (run.processor.act tables stage.action stage.target).1.unplaced =
        (other.processor.act tables stage.action stage.target).1.unplaced := by
      rw [hrun.1, hp, ← hother.1]
    have hchosen : (run.processor.act tables stage.action stage.target).2 =
        (other.processor.act tables stage.action stage.target).2 := by
      rw [hrun.2, hp, ← hother.2]
    have hphase : (run.processor.act tables stage.action stage.target).1.phase =
        (other.processor.act tables stage.action stage.target).1.phase :=
      congrArg (·.phase) hacted
    have hwith := unplaced_withProcessor h hacted
    simp only [execute, hphase, hchosen]
    split
    · exact ih (unplaced_perform bus hwith _)
    · exact unplaced_perform bus hwith _

end Run

namespace Processor

variable (tables : Tables)

/-- What is left of the bus program in progress. -/
def activity (p : Processor) : Activity := tables.activityAt p.busStep

/-- The stages behind the one in progress. -/
def stages (p : Processor) : List Stage :=
  match p.phase with
  | .instruction => (tables.stagesAt p.microOp).tail
  | .reset | .exception => []

theorem stages_of_phase_ne {p : Processor} (h : p.phase ≠ .instruction) : p.stages tables = [] := by
  unfold stages
  split
  · exact absurd ‹_› h
  · rfl
  · rfl

theorem stages_of_instruction {p : Processor} (h : p.phase = .instruction) :
    p.stages tables = (tables.stagesAt p.microOp).tail := by
  rw [stages, h]

theorem activity_isEmpty (p : Processor) :
    (p.activity tables).isEmpty = p.programEnded tables :=
  tables.activityAt_isEmpty _

theorem activity_eq_nil {p : Processor} (h : p.programEnded tables) : p.activity tables = [] :=
  tables.activityAt_eq_nil h

theorem activity_eq_cons {p : Processor} (h : p.programEnded tables = false) :
    p.activity tables = tables.step p.busStep :: tables.activityAt (p.busStep + 1) :=
  tables.activityAt_eq_cons h

/-- At a boundary nothing is left. -/
theorem stages_of_atBoundary {p : Processor} (h : p.atBoundary tables) : p.stages tables = [] := by
  cases hphase : p.phase with
  | reset | exception => exact stages_of_phase_ne tables (by simp [hphase])
  | instruction =>
    rw [stages_of_instruction tables hphase, tables.stagesAt_eq_nil, List.tail_nil]
    simp only [atBoundary, hphase, Bool.and_eq_true] at h
    exact h.2

theorem programEnded_of_atBoundary {p : Processor} (h : p.atBoundary tables) :
    p.programEnded tables := by
  simp only [atBoundary, Bool.and_eq_true] at h
  exact h.1

/-- What entering the current micro-operation leads to. -/
inductive Entered (p q : Processor) : Prop
  /-- The chain has come to its end. -/
  | ended (hstages : tables.stagesAt p.microOp = [])
    (hq : q = { p with busStep := tables.programs.empty })
  /-- The action of a stage has been fired, and its activity or the one that is chosen is next. -/
  | acted (stage : Stage) (stages : List Stage) (offset : Nat)
    (hstages : tables.stagesAt p.microOp = stage :: stages)
    (hq : q = { (p.act tables stage.action stage.target).1 with busStep := offset })
    (hphase : q.phase = .instruction)
    (hactivity : q.activity tables =
      ((p.act tables stage.action stage.target).2.map tables.activityAt).getD stage.activity)
    (hrest : q.stages tables = stages)
  /-- A trap has entered its exception. -/
  | trapped (stage : Stage) (stages : List Stage)
    (hstages : tables.stagesAt p.microOp = stage :: stages)
    (hq : q = (p.act tables stage.action stage.target).1)
    (hphase : q.phase = .exception) (hstep : q.busStep = tables.programs.exception)

theorem entered_enterMicroOp {p : Processor} (hphase : p.phase = .instruction) :
    Entered tables p (p.enterMicroOp tables) := by
  cases hterminal : (tables.microOp p.microOp).isTerminal with
  | true =>
    have hprogram : (tables.microOp p.microOp).program = none := by
      simpa [MicroOp.isTerminal] using hterminal
    exact .ended (tables.stagesAt_eq_nil hterminal) (by simp only [enterMicroOp, hprogram])
  | false =>
    obtain ⟨program, hprogram⟩ : ∃ program, (tables.microOp p.microOp).program = some program := by
      simpa [MicroOp.isTerminal, Option.isSome_iff_exists] using hterminal
    have hstages := tables.stagesAt_eq_cons hterminal
    obtain ⟨⟨action, target, program'⟩, hop⟩ : ∃ op, tables.microOp p.microOp = op := ⟨_, rfl⟩
    obtain rfl : program' = some program := by simpa [hop] using hprogram
    simp only [hop, Tables.stageOf, Option.getD_some] at hstages
    have henter : p.enterMicroOp tables =
        if (p.act tables action target).1.phase = .instruction then
          { (p.act tables action target).1 with
            busStep := (p.act tables action target).2.getD program }
        else (p.act tables action target).1 := by
      simp only [enterMicroOp, hop]
    rw [henter]
    split
    · rename_i hfired
      refine .acted _ _ _ hstages rfl hfired ?_ ?_
      · simp only [activity]
        cases (p.act tables action target).2 <;> rfl
      · rw [stages_of_instruction tables (by exact hfired)]
        simp only [microOp_act, hstages, List.tail_cons]
    · rename_i hfired
      obtain ⟨hexception, hstep⟩ : (p.act tables action target).1.phase = .exception ∧
          (p.act tables action target).1.busStep = tables.programs.exception :=
        (p.phase_act tables action target).elim
          (fun hkept => absurd (hkept.trans hphase) hfired) id
      exact .trapped _ _ hstages rfl hexception hstep

end Processor

namespace Run

variable {β : Type} (bus : Bus β) (tables : Tables)

/-- Run to the end of the chain in progress. -/
def conclude (run : Run β) : Run β :=
  (run.perform bus (run.processor.activity tables)).execute bus tables
    (run.processor.stages tables)

theorem conclude_of_atBoundary {run : Run β} (h : run.processor.atBoundary tables) :
    run.conclude bus tables = run := by
  rw [conclude, Processor.stages_of_atBoundary tables h, execute_nil,
    Processor.activity_eq_nil tables (Processor.programEnded_of_atBoundary tables h), perform_nil]

theorem stages_transact (run : Run β) (start : Option Start) (step : BusStep) :
    (run.transact bus start step).processor.stages tables = run.processor.stages tables := by
  simp only [transact, Processor.stages, Processor.phase_receive, Processor.microOp_receive]

theorem activity_transact (run : Run β) (start : Option Start)
    (h : run.processor.programEnded tables = false) :
    run.processor.activity tables =
      tables.step run.processor.busStep ::
        (run.transact bus start
          (tables.step run.processor.busStep)).processor.activity tables := by
  rw [Processor.activity_eq_cons tables h]
  simp only [transact, Processor.activity, Processor.busStep_receive]

/-- A step that is run is one of those to come. -/
theorem unplaced_conclude_transact (run : Run β) (start : Option Start)
    (h : run.processor.programEnded tables = false) :
    ((run.transact bus start (tables.step run.processor.busStep)).conclude bus tables).unplaced =
      (run.conclude bus tables).unplaced := by
  rw [conclude, conclude, stages_transact, activity_transact bus tables run start h, perform_cons]
  exact unplaced_execute bus tables
    (unplaced_perform bus (unplaced_transact bus rfl start none _) _) _

/-- Entering the next micro-operation executes the action of its stage. -/
theorem unplaced_conclude_enterMicroOp
    (hempty : tables.activityAt tables.programs.empty = []) (run : Run β) {p : Processor}
    (hphase : p.phase = .instruction) :
    ((run.withProcessor (p.enterMicroOp tables)).conclude bus tables).unplaced =
      ((run.withProcessor p).execute bus tables (tables.stagesAt p.microOp)).unplaced := by
  cases Processor.entered_enterMicroOp tables hphase with
  | ended hstages hq =>
    have hrest : (p.enterMicroOp tables).stages tables = [] := by
      rw [hq, Processor.stages_of_instruction tables (by exact hphase)]
      simp only [hstages, List.tail_nil]
    rw [conclude, processor_withProcessor, hrest, hstages, execute_nil, execute_nil,
      Processor.activity, hq]
    simp only [hempty, perform_nil]
    exact unplaced_withProcessor rfl rfl
  | acted stage stages offset hstages hq hfired hactivity hrest =>
    have hacted : (p.act tables stage.action stage.target).1.phase = .instruction := by
      rwa [hq] at hfired
    rw [conclude, processor_withProcessor, hactivity, hrest, hstages, execute,
      processor_withProcessor, if_pos hacted, hq]
    refine unplaced_execute bus tables (unplaced_perform bus ?_ _) _
    exact unplaced_withProcessor rfl rfl
  | trapped stage stages hstages hq hfired hstep =>
    have hacted : (p.act tables stage.action stage.target).1.phase ≠ .instruction := by
      rw [← hq, hfired]
      exact Phase.noConfusion
    rw [conclude, processor_withProcessor, Processor.stages_of_phase_ne tables (by simp [hfired]),
      execute_nil, Processor.activity, hstep, hstages, execute, processor_withProcessor,
      if_neg hacted, hq]
    rfl

/-- **Going along the chain leaves the conclusion as it is.** -/
theorem unplaced_conclude_follow
    (hempty : tables.activityAt tables.programs.empty = []) (wanted : MicroOp → Bool)
    (run : Run β) (p : Processor) :
    ((run.withProcessor (p.follow tables wanted)).conclude bus tables).unplaced =
      ((run.withProcessor p).conclude bus tables).unplaced := by
  fun_induction Processor.follow tables wanted p with
  | case1 p h ih =>
    obtain ⟨hphase, hended, hterminal, -⟩ := h
    have htail : p.stages tables = tables.stagesAt (p.microOp + 1) := by
      rw [Processor.stages_of_instruction tables hphase,
        tables.stagesAt_eq_cons (by simpa using hterminal), List.tail_cons]
    rw [ih, unplaced_conclude_enterMicroOp bus tables hempty run (by exact hphase), conclude,
      processor_withProcessor, Processor.activity_eq_nil tables hended, perform_nil, htail]
    refine unplaced_execute bus tables ?_ _
    exact unplaced_withProcessor rfl rfl
  | case2 p h => rfl

end Run

end M68k
