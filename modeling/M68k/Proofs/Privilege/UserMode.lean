import M68k.Proofs.Privilege.Guard

/-!
# User mode

From a boundary in user mode on, nothing but an exception, a reset or the host changes the system
part of the registers, however the bus answers and whatever is executed. Supervisor mode is only
entered in these ways.

## Main definitions

* `Run.Quiet`: moves of the host without an edit, a reset or the entry into an exception

## Main results

* `Run.sameSystem_of_quiet`: quiet moves from user mode leave the system part alone
* `Run.Reachable.raised`: how supervisor mode is entered
-/

namespace M68k

open Encoding

/-- The host puts in register files that exist. -/
def implementedEdits : Edit := fun _ new => new.Implemented

/-- The host changes the mode between instructions only. -/
def modeKeptEdits (tables : Tables) : Edit := fun p new =>
  new.Implemented ∧ (p.atBoundary tables ∨ new.isSupervisor = p.registers.isSupervisor)

namespace Run

variable {β : Type} (tables : Tables) (bus : Bus β)

/-- A move of the host that neither edits the registers nor resets the processor, and in which no
exception is entered. -/
inductive Quiet : Run β → Run β → Prop
  | step (run : Run β) (h : ¬ (run.step tables bus).EnteredException) :
    Quiet run (run.step tables bus)
  | setInterruptLevel (run : Run β) (level : Level) :
    Quiet run (run.modify (·.setInterruptLevel level))
  | owe (run : Run β) (debt : HalfCycles) : Quiet run (run.modify fun p => { p with debt := debt })

variable {tables bus}

/-- **Quiet moves from a boundary in user mode leave the system part alone.** -/
theorem sameSystem_of_quiet (hrealizes : tables.Realizes forms) {run next : Run β}
    (hboundary : run.processor.atBoundary tables)
    (himplemented : run.processor.registers.Implemented)
    (huser : run.processor.registers.isSupervisor = false)
    (h : Relation.ReflTransGen (Quiet tables bus) run next) :
    run.processor.registers.SameSystem next.processor.registers := by
  suffices run.processor.registers.SameSystem next.processor.registers ∧
      next.processor.Guarded tables ∧ next.processor.Orderly tables ∧
        next.processor.Settled tables from this.1
  induction h with
  | refl =>
    exact ⟨.refl _, .of_atBoundary hboundary himplemented, orderly_of_atBoundary hboundary⟩
  | @tail next _ _ hquiet ih =>
    obtain ⟨hsame, hguarded, horderly⟩ := ih
    cases hquiet with
    | step h =>
      have hstep := (step_of_user hrealizes horderly hguarded
        (hsame.isSupervisor.trans huser)).resolve_left h
      exact ⟨hsame.trans hstep,
        (kept_guarded bus hrealizes).step hrealizes horderly.1 horderly.2 hguarded,
        orderly_step bus hrealizes horderly.1 horderly.2⟩
    | setInterruptLevel | owe =>
      exact ⟨hsame, ⟨hguarded.implemented, hguarded.once, hguarded.user⟩, horderly⟩

/-- In every session all bits that are set are implemented. -/
theorem Reachable.implemented {run : Run β} (hrealizes : tables.Realizes forms)
    (h : run.Reachable tables bus implementedEdits) : run.processor.registers.Implemented := by
  refine h.induct (I := fun run => run.processor.registers.Implemented) hrealizes
    (fun b => Registers.implemented_setStatus _) ?_ (fun _ _ hrun => hrun)
    (fun _ _ => Registers.implemented_setStatus _) (fun _ _ hedit _ => hedit) fun _ _ hrun => hrun
  exact
    { enter := fun run hrun _ _ _ => Processor.implemented_enterMicroOp hrun
      start := fun run hrun _ => Processor.implemented_begin hrun _
      transact := fun run _ hrun _ => (run.processor.sameSystem_receive _ _).implemented hrun }

/-- Privileged operations stay guarded, as long as the host changes the mode between instructions
only. -/
theorem Reachable.guarded {run : Run β} (hrealizes : tables.Realizes forms)
    (h : run.Reachable tables bus (modeKeptEdits tables)) : run.processor.Guarded tables := by
  refine h.induct hrealizes (fun b => ?_) (kept_guarded bus hrealizes) (fun run level hrun => ?_)
    (fun run hrun => ?_) (fun run registers hedit hrun => ?_) fun run debt hrun => ?_
  · exact .of_phase_ne Phase.noConfusion (Registers.implemented_setStatus _)
  · exact ⟨hrun.implemented, hrun.once, hrun.user⟩
  · exact .of_phase_ne Phase.noConfusion (Registers.implemented_setStatus _)
  · obtain ⟨himplemented, hboundary | hmode⟩ := hedit
    · exact .of_atBoundary (by exact hboundary) himplemented
    · refine ⟨himplemented, hrun.once, fun hphase hprivileged huser => ?_⟩
      exact hrun.user hphase hprivileged (hmode.symm.trans huser)
  · exact ⟨hrun.implemented, hrun.once, hrun.user⟩

/-- **How supervisor mode is entered**: by a reset, by an exception or by the host. -/
theorem Reachable.raised {run next : Run β} (hrealizes : tables.Realizes forms)
    (h : run.Reachable tables bus (modeKeptEdits tables))
    (huser : run.processor.registers.isSupervisor = false)
    (hmove : Move tables bus (fun _ _ => False) run next)
    (hraised : next.processor.registers.isSupervisor) :
    next = run.modify (·.reset tables) ∨ next = run.step tables bus ∧ next.EnteredException := by
  cases hmove with
  | step =>
    refine .inr ⟨rfl, (step_of_user hrealizes (h.orderly hrealizes) (h.guarded hrealizes)
      huser).resolve_right fun hsame => ?_⟩
    rw [hsame.isSupervisor, huser] at hraised
    cases hraised
  | reset => exact .inl rfl
  | edit _ hallowed => exact hallowed.elim
  | setInterruptLevel | owe =>
    change run.processor.registers.isSupervisor at hraised
    rw [huser] at hraised
    cases hraised

end Run

end M68k
