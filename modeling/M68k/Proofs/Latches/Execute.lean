import M68k.Proofs.Execution.Boundary
import M68k.Proofs.Latches.Action

/-!
# Agreement through the stages of an instruction

Two processors that execute one instruction, and agree on all that is live in front of its stages,
agree on all that a programmer sees when it is over, and could not be told apart meanwhile.

## Main definitions

* `Processor.Together`: both processors execute one instruction

## Main results

* `Processor.Agree.act`: the action of a stage leaves two processors in agreement
* `Run.Agree.execute`: the stages of an instruction leave two runs in agreement
-/

namespace M68k

variable {β : Type} {bus : Bus β} {tables : Tables} {instruction : Instruction}

/-- Both processors execute one instruction. -/
structure Processor.Together (instruction : Instruction) (p q : Processor) : Prop where
  phase : p.phase = .instruction
  phase_other : q.phase = .instruction
  opcode : p.opcode = q.opcode
  executes : p.instruction = instruction
  executes_other : q.instruction = instruction

namespace Processor.Together

variable {p q : Processor}

theorem same (h : Together instruction p q) : p.instruction = q.instruction :=
  h.executes.trans h.executes_other.symm

/-- What leaves the control part alone keeps them together. -/
theorem of_control (h : Together instruction p q) {p' q' : Processor}
    (hp : p'.control = p.control) (hq : q'.control = q.control) : Together instruction p' q' where
  phase := (congrArg Control.phase hp).trans h.phase
  phase_other := (congrArg Control.phase hq).trans h.phase_other
  opcode :=
    ((congrArg Control.opcode hp).trans h.opcode).trans (congrArg Control.opcode hq).symm
  executes := (congrArg Control.instruction hp).trans h.executes
  executes_other := (congrArg Control.instruction hq).trans h.executes_other

end Processor.Together

/-! ## Actions -/

namespace Processor.Agree

variable {p q : Processor} {live : Live}

/-- A trap reads no latch. -/
theorem trap (tables : Tables) (htogether : p.Together instruction q)
    (htrap : instruction.operation = .trap) (h : p.Agree (live.beforeOperate instruction) q)
    (target : Target) :
    (p.act tables .operate target).1.Agree (FixedPrograms.exceptionActivity.liveBefore .nothing)
      (q.act tables .operate target).1 := by
  have hnothing : p.Agree .nothing q := by
    simpa only [Live.beforeOperate, htrap] using h
  rw [act_of_trap p tables target (htogether.executes ▸ htrap),
    act_of_trap q tables target (htogether.executes_other ▸ htrap)]
  exact hnothing.beginException tables
    (congrArg (fun opcode : Word => 32 + (opcode &&& 0x000F).setWidth 8) htogether.opcode)
    (congrArg (fun pc : Long => pc - 2) hnothing.registers.pc)

/-- **The action of a stage** does the same in both processors, and chooses the same program, or
none. -/
theorem act (hrealizes : tables.Realizes forms) {stage : Stage}
    (htogether : p.Together instruction q) (horderly : stage.Orderly instruction.operation)
    (hstays : stage.action = .operate → instruction.operation ≠ .trap)
    (h : p.Agree (stage.before instruction live) q) :
    (p.act tables stage.action stage.target).2 = (q.act tables stage.action stage.target).2 ∧
      (p.act tables stage.action stage.target).1.Agree
        ((((p.act tables stage.action stage.target).2.map tables.activityAt).getD
          stage.activity).liveBefore live)
        (q.act tables stage.action stage.target).1 := by
  obtain ⟨action, target, activity⟩ := stage
  obtain rfl := htogether.executes
  by_cases haction : action = .operate
  · subst haction
    cases hredirects : p.instruction.operation.redirects with
    | true =>
      obtain rfl : activity = [] := horderly rfl hredirects
      obtain ⟨offset, hfirst, hsecond, hagree⟩ :=
        redirect hrealizes h htogether.opcode htogether.same hredirects (hstays rfl) target
      dsimp only
      rw [hfirst, hsecond]
      exact ⟨rfl, hagree⟩
    | false =>
      simp only [Stage.before, Live.beforeAct, Live.beforeOperate_of_plain _ hredirects] at h
      rw [act_of_plain p tables target hredirects,
        act_of_plain q tables target (htogether.same ▸ hredirects)]
      exact ⟨rfl, h.compute htogether.opcode htogether.same⟩
  · have hprepared : p.Agree ((activity.liveBefore live).beforePrepare action target) q := by
      cases action <;> first | exact h | exact absurd rfl haction
    rw [act_of_ne_operate p tables target haction, act_of_ne_operate q tables target haction]
    exact ⟨rfl, hprepared.prepare htogether.opcode htogether.same⟩

end Processor.Agree

/-! ## Stages -/

namespace Run

/-- A stage that does not trap fires its action, and performs its own activity or the one that the
action chooses. -/
theorem execute_of_stays {stage : Stage} {stages : List Stage} {run : Run β}
    (hstays : stage.action = .operate → run.processor.instruction.operation ≠ .trap)
    (hphase : run.processor.phase = .instruction) :
    run.execute bus tables (stage :: stages) =
      ((run.withProcessor (run.processor.act tables stage.action stage.target).1).perform bus
        (((run.processor.act tables stage.action stage.target).2.map tables.activityAt).getD
          stage.activity)).execute bus tables stages := by
  have hkept : (run.processor.act tables stage.action stage.target).1.phase = .instruction :=
    (congrArg Control.phase
      (run.processor.control_act tables stage.action stage.target hstays)).trans hphase
  simp only [execute]
  rw [if_pos hkept]

namespace Agree

variable {run other : Run β}

/-- **The stages of an instruction leave the runs in agreement.** -/
theorem execute (hrealizes : tables.Realizes forms) {stages : List Stage}
    (horderly : ∀ stage ∈ stages, stage.Orderly instruction.operation)
    (htogether : run.processor.Together instruction other.processor)
    (h : Agree (Stage.liveBefore instruction stages) bus run other) :
    Agree .nothing bus (run.execute bus tables stages) (other.execute bus tables stages) := by
  induction stages generalizing run other with
  | nil => exact h
  | cons stage stages ih =>
    have hbefore : run.processor.Agree
        (stage.before instruction (Stage.liveBefore instruction stages)) other.processor :=
      h.processor
    have hexecutes := htogether.executes
    have hexecutes' := htogether.executes_other
    rcases run.processor.traps_or_stays stage.action with ⟨haction, htrap⟩ | hstays
    · -- a trap drops the rest of the chain
      obtain ⟨action, target, activity⟩ := stage
      obtain rfl : action = .operate := haction
      rw [hexecutes] at htrap
      have hentered := hbefore.trap tables htogether htrap target
      rw [Processor.act_of_trap _ tables target (by rwa [hexecutes]),
        Processor.act_of_trap _ tables target (by rwa [hexecutes'])] at hentered
      rw [execute_trap bus hrealizes rfl (by rwa [hexecutes]),
        execute_trap bus hrealizes rfl (by rwa [hexecutes'])]
      exact (h.withProcessor hentered).perform
    · obtain ⟨hchosen, hacted⟩ :=
        hbefore.act hrealizes htogether (horderly stage List.mem_cons_self) (hexecutes ▸ hstays)
      have hstays' : stage.action = .operate →
          other.processor.instruction.operation ≠ .trap := htogether.same ▸ hstays
      rw [execute_of_stays hstays htogether.phase, execute_of_stays hstays' htogether.phase_other,
        ← hchosen]
      have hnext := htogether.of_control
        (run.processor.control_act tables stage.action stage.target hstays)
        (other.processor.control_act tables stage.action stage.target hstays')
      refine ih (fun stage hstage => horderly stage (List.mem_cons_of_mem _ hstage)) ?_
        (h.withProcessor hacted).perform
      exact hnext.of_control (control_perform bus _ _) (control_perform bus _ _)

end Agree

end Run

end M68k
