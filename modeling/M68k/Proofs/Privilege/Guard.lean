import M68k.Proofs.Privilege.System
import M68k.Proofs.Session.Reachable

/-!
# The guard of privileged operations

Whether a privileged instruction may start is looked at once, at its boundary. From there on up to
the operation the mode does not change, so that no privileged operation is carried out in user mode.

## Main definitions

* `Processor.Guarded`: no privileged operation is to come in user mode
* `Run.EnteredException`: an exception has been entered in the step just run

## Main results

* `Run.kept_guarded`: the parts of a step keep the guard
* `Run.step_of_user`: in user mode a step enters an exception or leaves the system part alone
-/

namespace M68k

open Encoding

namespace Processor

variable {tables : Tables}

variable (tables) in
/-- A privileged operation is carried out once at most and, in user mode, not at all. -/
structure Guarded (p : Processor) : Prop where
  implemented : p.registers.Implemented
  once : p.phase = .instruction → p.instruction.operation.isPrivileged →
    Stage.operations (p.stages tables) ≤ 1
  user : p.phase = .instruction → p.instruction.operation.isPrivileged →
    p.registers.isSupervisor = false → Stage.operations (p.stages tables) = 0

/-- Outside of instructions there is nothing to guard. -/
theorem Guarded.of_phase_ne {p : Processor} (h : p.phase ≠ .instruction)
    (himplemented : p.registers.Implemented) : p.Guarded tables :=
  ⟨himplemented, fun hphase => absurd hphase h, fun hphase => absurd hphase h⟩

/-- At a boundary neither. -/
theorem Guarded.of_atBoundary {p : Processor} (h : p.atBoundary tables)
    (himplemented : p.registers.Implemented) : p.Guarded tables := by
  have hstages := stages_of_atBoundary tables h
  exact ⟨himplemented, fun _ _ => by simp [hstages, Stage.operations],
    fun _ _ _ => by simp [hstages, Stage.operations]⟩

theorem phase_begin_of_ne {p : Processor} {start : Start}
    (h : ∀ entry, start.entry ≠ .instruction entry) :
    (p.begin tables start).phase = .exception := by
  cases hentry : start.entry with
  | interrupt level =>
    rw [begin_interrupt _ hentry]
    rfl
  | exception vector =>
    rw [begin_exception _ hentry]
    rfl
  | instruction entry => exact absurd hentry (h entry)

/-- Only a trap enters an exception while the chain of an instruction is executed. -/
theorem trap_of_act {p : Processor} {stage : Stage} (hphase : p.phase = .instruction)
    (h : (p.act tables stage.action stage.target).1.phase = .exception) :
    p.instruction.operation = .trap := by
  by_contra htrap
  have hcontrol := p.control_act tables stage.action stage.target fun _ => htrap
  have hkept : (p.act tables stage.action stage.target).1.phase = p.phase :=
    congrArg Control.phase hcontrol
  rw [hkept, hphase] at h
  cases h

/-- An action is no trap, if the chain goes on. -/
theorem ne_trap_of_act {p : Processor} {stage : Stage}
    (h : (p.act tables stage.action stage.target).1.phase = .instruction)
    (haction : stage.action = .operate) : p.instruction.operation ≠ .trap := by
  intro htrap
  rw [haction, act_of_trap p tables _ htrap] at h
  cases h

/-- Without a trap the chain goes on. -/
theorem enterMicroOp_of_ne_trap {p : Processor} (hphase : p.phase = .instruction)
    (h : p.instruction.operation ≠ .trap) :
    (p.enterMicroOp tables).phase = .instruction ∧
      (p.enterMicroOp tables).instruction.operation ≠ .trap := by
  refine ⟨?_, by rwa [instruction_enterMicroOp]⟩
  cases entered_enterMicroOp tables hphase with
  | ended _ hq => rw [hq, hphase]
  | acted _ _ _ _ _ hfired _ _ => exact hfired
  | trapped stage stages _ hq hfired _ =>
    rw [hq] at hfired
    exact absurd (trap_of_act hphase hfired) h

theorem implemented_enterMicroOp {p : Processor} (h : p.registers.Implemented) :
    (p.enterMicroOp tables).registers.Implemented := by
  unfold enterMicroOp
  dsimp only []
  split
  · exact h
  · split <;> exact implemented_act h tables _ _

/-- Nothing that starts sets a bit that is not implemented. -/
theorem implemented_begin {p : Processor} (h : p.registers.Implemented) (start : Start) :
    (p.begin tables start).registers.Implemented := by
  cases hentry : start.entry with
  | interrupt level =>
    rw [begin_interrupt _ hentry]
    exact Registers.implemented_setMask (implemented_enterException _) level
  | exception vector =>
    rw [begin_exception _ hentry]
    exact implemented_enterException _
  | instruction entry =>
    rw [begin_instruction _ hentry]
    exact implemented_enterMicroOp h

/-- Going on with stages that are guarded. -/
theorem guarded_enterMicroOp {p : Processor} (hphase : p.phase = .instruction)
    (himplemented : p.registers.Implemented)
    (honce : p.instruction.operation.isPrivileged →
      Stage.operations (tables.stagesAt p.microOp) ≤ 1)
    (huser : p.instruction.operation.isPrivileged → p.registers.isSupervisor = false →
      Stage.operations (tables.stagesAt p.microOp) = 0) :
    (p.enterMicroOp tables).Guarded tables := by
  have hinstruction : (p.enterMicroOp tables).instruction = p.instruction :=
    p.instruction_enterMicroOp
  have hnext : (p.enterMicroOp tables).registers.Implemented :=
    implemented_enterMicroOp himplemented
  cases entered_enterMicroOp tables hphase with
  | ended hstages hq =>
    have hnil : (p.enterMicroOp tables).stages tables = [] := by
      rw [hq, stages_of_instruction tables (by exact hphase)]
      simp only [hstages, List.tail_nil]
    exact ⟨hnext, fun _ _ => by simp [hnil, Stage.operations],
      fun _ _ _ => by simp [hnil, Stage.operations]⟩
  | acted stage stages offset hstages hq hfired _ hrest =>
    have hregisters : (p.enterMicroOp tables).registers =
        (p.act tables stage.action stage.target).1.registers := by rw [hq]
    rw [hstages, Stage.operations_cons] at honce huser
    refine ⟨hnext, fun _ hprivileged => ?_, fun _ hprivileged hmode => ?_⟩
    · rw [hrest]
      have := honce (hinstruction ▸ hprivileged)
      omega
    · rw [hrest]
      rw [hinstruction] at hprivileged
      have := honce hprivileged
      by_cases haction : stage.action = .operate
      · rw [if_pos haction] at this
        omega
      · have hsame := sameSystem_act himplemented tables stage.action stage.target
          fun h => absurd h haction
        rw [hregisters, hsame.isSupervisor] at hmode
        have := huser hprivileged hmode
        omega
  | trapped _ _ _ _ hfired _ => exact .of_phase_ne (by simp [hfired]) hnext

/-- In user mode, going on leaves the system part alone or enters the exception of a trap. -/
theorem sameSystem_enterMicroOp {p : Processor} (hphase : p.phase = .instruction)
    (himplemented : p.registers.Implemented)
    (huser : p.instruction.operation.isPrivileged →
      Stage.operations (tables.stagesAt p.microOp) = 0) :
    (p.enterMicroOp tables).phase = .exception ∧ p.instruction.operation = .trap ∨
      p.registers.SameSystem (p.enterMicroOp tables).registers := by
  cases entered_enterMicroOp tables hphase with
  | ended hstages hq =>
    rw [hq]
    exact .inr (.refl _)
  | acted stage stages offset hstages hq hfired _ hrest =>
    rw [hstages, Stage.operations_cons] at huser
    have hacted : (p.act tables stage.action stage.target).1.phase = .instruction := by
      rwa [hq] at hfired
    rw [hq]
    refine .inr (sameSystem_act himplemented tables stage.action stage.target fun haction => ?_)
    refine ⟨?_, ne_trap_of_act hacted haction⟩
    by_contra hprivileged
    have := huser (by simpa using hprivileged)
    rw [if_pos haction] at this
    omega
  | trapped stage stages _ hq hfired _ =>
    rw [hq] at hfired
    exact .inl ⟨by rw [hq, hfired], trap_of_act hphase hfired⟩

end Processor

namespace Run

variable {β : Type} {tables : Tables} {bus : Bus β}

/-- Only instructions that the mode allows are started. -/
theorem guarded_start (hrealizes : tables.Realizes forms) {run : Run β}
    (h : run.processor.registers.Implemented) :
    (run.processor.begin tables (run.processor.start tables)).Guarded tables := by
  by_cases hexception : ∀ entry, (run.processor.start tables).entry ≠ .instruction entry
  · exact .of_phase_ne (by simp [Processor.phase_begin_of_ne hexception])
      (Processor.implemented_begin h _)
  · obtain ⟨entry, hentry⟩ := by simpa using hexception
    have hprivileged := (Processor.wellFormed_of_entry hrealizes
      (Processor.entry_of_start hentry)).privileged
    rw [Processor.begin_instruction _ hentry]
    refine Processor.guarded_enterMicroOp rfl h (fun h => (hprivileged h).2) fun h hmode => ?_
    have hsupervisor := Processor.isSupervisor_of_start hentry (hprivileged h).1
    change run.processor.registers.isSupervisor = false at hmode
    rw [hsupervisor] at hmode
    cases hmode

/-- **Single moves keep the guard.** -/
theorem kept_guarded (bus : Bus β) (hrealizes : tables.Realizes forms) :
    Kept tables bus fun run => run.processor.Guarded tables where
  enter run h hphase hended hterminal := by
    have hstages := Processor.stages_eq_of_follow hphase hterminal
    have honce := h.once hphase
    have huser := h.user hphase
    rw [hstages] at honce huser
    exact Processor.guarded_enterMicroOp hphase h.implemented honce huser
  start run h _ := guarded_start hrealizes h.implemented
  transact run start h _ := by
    have hsame : run.processor.registers.SameSystem
        (run.transact bus start (tables.step run.processor.busStep)).processor.registers :=
      run.processor.sameSystem_receive _ _
    have hphase : (run.transact bus start (tables.step run.processor.busStep)).processor.phase =
        run.processor.phase :=
      run.processor.phase_receive _ _
    have hinstruction :
        (run.transact bus start (tables.step run.processor.busStep)).processor.instruction =
          run.processor.instruction :=
      run.processor.instruction_receive _ _
    refine ⟨hsame.implemented h.implemented, ?_, ?_⟩
    · rw [hphase, hinstruction, stages_transact]
      exact h.once
    · rw [hphase, hinstruction, stages_transact, hsame.isSupervisor]
      exact h.user

/-- An exception has been entered in the step just run: it was started at a boundary, or by a
trap. -/
def EnteredException (run : Run β) : Prop :=
  run.processor.phase = .exception ∧
    (run.processor.instruction.operation = .trap ∨
      ∃ record earlier start, run.history = record :: earlier ∧ record.start = some start ∧
        ∀ entry, start.entry ≠ .instruction entry)

variable (tables) in
/-- Since some register file was there, a trap has been entered or the system part has been left
alone. -/
def Confined (old : Registers) (run : Run β) : Prop :=
  run.processor.phase = .exception ∧ run.processor.instruction.operation = .trap ∨
    old.SameSystem run.processor.registers ∧ run.processor.Guarded tables

/-- In user mode, going on keeps to this. -/
theorem carried_confined (hrealizes : tables.Realizes forms) {old : Registers}
    (hold : old.isSupervisor = false) : Carried tables bus (Confined tables old) where
  enter run h hphase hended hterminal := by
    rcases h with ⟨hexception, -⟩ | ⟨hsame, hguarded⟩
    · simp [hphase] at hexception
    have hnext := (kept_guarded bus hrealizes).enter run hguarded hphase hended hterminal
    have huser := hguarded.user hphase
    rw [Processor.stages_eq_of_follow hphase hterminal, hsame.isSupervisor] at huser
    rcases Processor.sameSystem_enterMicroOp
      (p := { run.processor with microOp := run.processor.microOp + 1 }) hphase
      hguarded.implemented fun h => huser h hold with htrap | hentered
    · exact .inl ⟨htrap.1, (congrArg _ (Processor.instruction_enterMicroOp _)).trans htrap.2⟩
    · exact .inr ⟨hsame.trans hentered, hnext⟩
  transact run start h hended := by
    rcases h with ⟨hexception, htrap⟩ | ⟨hsame, hguarded⟩
    · refine .inl ⟨(run.processor.phase_receive _ _).trans hexception, ?_⟩
      exact (congrArg _ (run.processor.instruction_receive _ _)).trans htrap
    · exact .inr ⟨hsame.trans (run.processor.sameSystem_receive _ _),
        (kept_guarded bus hrealizes).transact run start hguarded hended⟩

/-- So does the start of an instruction. -/
theorem confined_start (hrealizes : tables.Realizes forms) {run : Run β} {entry : TableEntry}
    (himplemented : run.processor.registers.Implemented)
    (huser : run.processor.registers.isSupervisor = false)
    (hentry : (run.processor.start tables).entry = .instruction entry) :
    Confined tables run.processor.registers
      (run.modify fun p => p.begin tables (p.start tables)) := by
  have hguarded := guarded_start hrealizes himplemented
  have hprivileged := (Processor.wellFormed_of_entry hrealizes
    (Processor.entry_of_start hentry)).privileged
  change Confined tables run.processor.registers
    (run.withProcessor (run.processor.begin tables (run.processor.start tables)))
  rw [Processor.begin_instruction _ hentry] at hguarded ⊢
  set p : Processor :=
    { run.processor.dispatch (run.processor.start tables).opcode entry.instruction with
      microOp := entry.start }
  have hentered : (p.enterMicroOp tables).phase = .exception ∧ p.instruction.operation = .trap ∨
      p.registers.SameSystem (p.enterMicroOp tables).registers := by
    refine Processor.sameSystem_enterMicroOp rfl himplemented fun h => ?_
    have hsupervisor := Processor.isSupervisor_of_start hentry (hprivileged h).1
    rw [huser] at hsupervisor
    cases hsupervisor
  refine hentered.imp (fun htrap => ⟨htrap.1, ?_⟩) fun hsame => ⟨hsame, hguarded⟩
  exact (congrArg _ p.instruction_enterMicroOp).trans htrap.2

variable (tables bus) in
/-- The record of a step says what was started. -/
theorem exists_record_step (run : Run β) :
    ∃ record, (run.step tables bus).history = record :: run.history ∧
      record.start = (run.processor.settle tables).2 :=
  ⟨_, rfl, rfl⟩

/-- An exception goes on being one up to its end. -/
theorem carried_exception : Carried tables bus fun run => run.processor.phase = .exception where
  enter run h hphase _ _ := by simp [hphase] at h
  transact run _ h _ := (run.processor.phase_receive _ _).trans h

/-- An instruction that is no trap goes on being one. -/
theorem carried_instruction :
    Carried tables bus fun run =>
      run.processor.phase = .instruction ∧ run.processor.instruction.operation ≠ .trap where
  enter run h hphase _ _ :=
    Processor.enterMicroOp_of_ne_trap (p := { run.processor with microOp := _ }) hphase h.2
  transact run start h _ := by
    have hinstruction :
        (run.transact bus start (tables.step run.processor.busStep)).processor.instruction =
          run.processor.instruction :=
      run.processor.instruction_receive _ _
    rw [hinstruction]
    exact ⟨(run.processor.phase_receive _ _).trans h.1, h.2⟩

/-- The first step of an instruction that is no trap. -/
theorem phase_step_of_instruction (bus : Bus β) (hrealizes : tables.Realizes forms) {run : Run β}
    (hboundary : run.processor.atBoundary tables) {entry : TableEntry}
    (hentry : (run.processor.start tables).entry = .instruction entry)
    (htrap : entry.instruction.operation ≠ .trap) :
    (run.step tables bus).processor.phase = .instruction := by
  obtain ⟨horderly, hsettled⟩ := orderly_of_atBoundary hboundary
  refine (carried_instruction.step hrealizes horderly hsettled (fun _ => ?_) fun h => ?_).1
  · change (run.processor.begin tables (run.processor.start tables)).phase = _ ∧
      (run.processor.begin tables (run.processor.start tables)).instruction.operation ≠ _
    rw [Processor.begin_instruction _ hentry]
    exact Processor.enterMicroOp_of_ne_trap rfl htrap
  · rw [hboundary] at h
    cases h

/-- **In user mode a step enters an exception or leaves the system part alone.** -/
theorem step_of_user (hrealizes : tables.Realizes forms) {run : Run β}
    (horderly : run.processor.Orderly tables ∧ run.processor.Settled tables)
    (hguarded : run.processor.Guarded tables)
    (huser : run.processor.registers.isSupervisor = false) :
    (run.step tables bus).EnteredException ∨
      run.processor.registers.SameSystem (run.step tables bus).processor.registers := by
  by_cases hexception : run.processor.atBoundary tables ∧
      ∀ entry, (run.processor.start tables).entry ≠ .instruction entry
  · obtain ⟨hboundary, hentry⟩ := hexception
    obtain ⟨record, hhistory, hstart⟩ := exists_record_step tables bus run
    rw [Processor.settle_of_atBoundary hboundary] at hstart
    refine .inl ⟨?_, .inr ⟨record, run.history, _, hhistory, hstart, hentry⟩⟩
    refine carried_exception.step hrealizes horderly.1 horderly.2 (fun _ => ?_) fun h => ?_
    · exact Processor.phase_begin_of_ne hentry
    · rw [hboundary] at h
      cases h
  · have hconfined : Confined tables run.processor.registers (run.step tables bus) := by
      refine (carried_confined hrealizes huser).step hrealizes horderly.1 horderly.2
        (fun hboundary => ?_) fun _ => .inr ⟨.refl _, hguarded⟩
      obtain ⟨entry, hentry⟩ : ∃ entry,
          (run.processor.start tables).entry = .instruction entry := by
        by_contra hnone
        exact hexception ⟨hboundary, fun entry h => hnone ⟨entry, h⟩⟩
      exact confined_start hrealizes hguarded.implemented huser hentry
    rcases hconfined with ⟨hphase, htrap⟩ | ⟨hsame, -⟩
    · exact .inl ⟨hphase, .inl htrap⟩
    · exact .inr hsame

end Run

end M68k
