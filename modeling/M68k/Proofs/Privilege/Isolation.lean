import M68k.Proofs.Exception.Cause
import M68k.Proofs.Privilege.UserMode
import M68k.Proofs.Tables.Compile

/-!
# Isolation

What user mode cannot do, and how it is left. Exceptions and resets, which alone lead to supervisor
mode, go on at their vectors.

## Main results

* `Processor.supervisor_of_cause`: an exception leads to supervisor mode and to its vector
* `Processor.supervisor_of_reset`: so does a reset
* `Run.isolation`: user mode cannot touch supervisor state
-/

namespace M68k

open Encoding

variable {β : Type} {tables : Tables}

/-- Bus steps leave the system part alone. -/
theorem Run.sameSystem_perform (bus : Bus β) (activity : Activity) (run : Run β) :
    run.processor.registers.SameSystem (run.perform bus activity).processor.registers := by
  induction activity generalizing run with
  | nil => exact .refl _
  | cons step activity ih =>
    exact (run.processor.sameSystem_receive _ _).trans (ih (run.transact bus none step))

/-- The vector number with which an exception goes on: its own or, for an interrupt, the one that
the bus answers when the interrupt is acknowledged. -/
def Cause.IsVector (cause : Cause) (number : Byte) (history : List StepRecord) : Prop :=
  match cause with
  | .interrupt level =>
    ∃ record ∈ history, record.Acknowledges level ∧ number = record.value.extractLsb' 0 8
  | .refused vector => number = vector
  | .trap n => number = 32 + n.setWidth 8

namespace Processor

variable (bus : Bus β)

theorem isSupervisor_enterException (p : Processor) (returnAddress : Long) :
    (p.enterException returnAddress).registers.isSupervisor := by
  have hentered : (p.registers.setSupervisor true).isSupervisor :=
    Registers.isSupervisor_setSupervisor true
  have huntraced : ((p.registers.setSupervisor true).setStatus
      ((p.registers.setSupervisor true).sr &&& ~~~Status.trace)).isSupervisor := by
    rw [Registers.isSupervisor, Status.has_supervisor] at hentered
    rw [Registers.isSupervisor_setStatus, Status.has_supervisor]
    simpa [Status.trace] using hentered
  exact huntraced

theorem isSupervisor_of_entered {p q : Processor} {cause : Cause} (h : cause.Entered p q) :
    q.registers.isSupervisor := by
  rw [h.registers]
  cases cause with
  | interrupt level =>
    exact (Registers.isSupervisor_setMask level).trans (isSupervisor_enterException _ _)
  | refused | trap => exact isSupervisor_enterException _ _

/-- **An exception leads to supervisor mode and to its vector.** -/
theorem supervisor_of_cause (hrealizes : tables.Realizes forms) {p : Processor}
    (hboundary : p.atBoundary tables) {cause : Cause} (hcause : p.cause? = some cause) (b : β) :
    let final := p.runInstruction tables bus b
    final.processor.registers.isSupervisor ∧
      ∃ number, cause.IsVector number final.history ∧
        final.EntersThrough (number.setWidth 32 <<< 2) := by
  obtain ⟨q, hentered, hfinal⟩ := exists_entered bus hrealizes hboundary hcause b
  have hregisters := Run.registers_of_unplaced hfinal
  have hsame := Run.sameSystem_perform bus cause.activity (Run.begin q b)
  refine ⟨?_, ?_⟩
  · rw [hregisters, hsame.isSupervisor]
    exact isSupervisor_of_entered hentered
  · cases cause with
    | interrupt level =>
      obtain ⟨record, hmem, hacknowledges, henters, -⟩ :=
        Run.entersThrough_interrupt bus (Run.begin q b) (hentered.autovector level rfl).2
      obtain ⟨found, hfound, heq⟩ := Run.exists_record_of_unplaced hfinal hmem
      have hvalue : found.value = record.value := congrArg (·.value) heq
      exact ⟨_, ⟨found, hfound, hacknowledges.of_unmarked heq, rfl⟩,
        hvalue ▸ henters.of_unplaced hfinal⟩
    | refused vector | trap number =>
      refine ⟨_, rfl, ?_⟩
      rw [← hentered.vector _ rfl]
      exact (Run.entersThrough_exception bus (Run.begin q b)).1.of_unplaced hfinal

/-- **A reset leads to supervisor mode and to its vector.** -/
theorem supervisor_of_reset (hrealizes : tables.Realizes forms) (p : Processor) (b : β) :
    let final := (p.reset tables).runInstruction tables bus b
    final.processor.registers.isSupervisor ∧ final.EntersThrough 4 := by
  have hfinal := (runInstruction_reset bus hrealizes p b).2
  have hregisters := Run.registers_of_unplaced hfinal
  have hsame := Run.sameSystem_perform bus FixedPrograms.resetActivity
    (Run.begin { p.reset tables with debt := 0 } b)
  refine ⟨?_, ?_⟩
  · rw [hregisters, hsame.isSupervisor]
    exact Registers.isSupervisor_setStatus _
  · exact (Run.entersThrough_reset bus (Run.begin { p.reset tables with debt := 0 } b)).of_unplaced
      hfinal

end Processor

namespace Run

/-- The host has put the processor into user mode, where the next instruction is a `NOP`. -/
def userNop (tables : Tables) : Run Unit :=
  (resetNop tables).modify fun p => { p with registers := { p.registers with sr := 0 } }

theorem boundary_userNop (hrealizes : tables.Realizes forms) :
    (userNop tables).processor.atBoundary tables ∧
      (userNop tables).processor.registers.isSupervisor = false :=
  ⟨(processor_resetNop hrealizes).1, by
    change Status.has 0 Status.supervisor = false
    decide⟩

theorem reachable_userNop (hrealizes : tables.Realizes forms) :
    (userNop tables).Reachable tables (Bus.constant 0x4E71) implementedEdits ∧
      (userNop tables).Reachable tables (Bus.constant 0x4E71) (modeKeptEdits tables) := by
  have himplemented : Registers.Implemented
      { (resetNop tables).processor.registers with sr := 0 } := by
    simp [Registers.Implemented]
  exact ⟨(reachable_resetNop tables).move (.edit _ _ himplemented),
    (reachable_resetNop tables).move
      (.edit _ _ ⟨himplemented, .inl (processor_resetNop hrealizes).1⟩)⟩

theorem quiet_userNop (hrealizes : tables.Realizes forms) :
    Relation.ReflTransGen (Quiet tables (Bus.constant 0x4E71)) (userNop tables)
      ((userNop tables).step tables (Bus.constant 0x4E71)) := by
  obtain ⟨hboundary, hprefetch, hlevel⟩ := processor_resetNop hrealizes
  have hopcode : Half.high.get (userNop tables).processor.prefetch = 0x4E71 := by
    change Half.high.get (resetNop tables).processor.prefetch = 0x4E71
    rw [hprefetch]
    rfl
  have hdecode : decode? forms (Half.high.get (userNop tables).processor.prefetch) =
      some ⟨.bare .nop .word, [.perform .fetch]⟩ := by
    rw [hopcode]
    rfl
  have hinterrupt : (userNop tables).processor.pendingInterrupt? = none :=
    Processor.pendingInterrupt?_of_level hlevel
  obtain ⟨entry, hentry, hinstruction, -⟩ := Processor.start_of_decode? hrealizes hinterrupt hdecode
    (by simp [Instruction.bare])
  refine .single (.step _ fun h => ?_)
  have hphase := phase_step_of_instruction (Bus.constant 0x4E71) hrealizes
    (boundary_userNop hrealizes).1 hentry (by rw [hinstruction]; exact Operation.noConfusion)
  rw [h.1] at hphase
  cases hphase

/-- A processor in front of an illegal opcode. -/
def facingIllegal (tables : Tables) : Processor :=
  { Processor.initial tables with prefetch := 0x4AFC0000 }.atRest tables

theorem cause?_facingIllegal (tables : Tables) :
    (facingIllegal tables).cause? = some (.refused 4) := by
  have hopcode : Half.high.get (facingIllegal tables).prefetch = 0x4AFC := by
    change Half.high.get 0x4AFC0000 = 0x4AFC
    decide
  have hdecode : decode? forms 0x4AFC = none := rfl
  have hinterrupt : (facingIllegal tables).pendingInterrupt? = none :=
    Processor.pendingInterrupt?_of_level rfl
  simp only [Processor.cause?, hinterrupt, hopcode, hdecode]
  rfl

/-- **User mode cannot touch supervisor state.** From every boundary of a session in user mode on,
as long as no exception is entered, the mode, the system byte and the supervisor stack pointer stay
as they are. Only a reset or the entry into an exception raises the mode, if the host does not do so
itself, and both go on at the vector. -/
theorem isolation (bus : Bus β) :
    (∀ run next : Run β, run.Reachable (.compile forms) bus implementedEdits →
      run.processor.atBoundary (.compile forms) →
      run.processor.registers.isSupervisor = false →
      Relation.ReflTransGen (Quiet (.compile forms) bus) run next →
        next.processor.registers.isSupervisor = false ∧
          next.processor.registers.isTrace = run.processor.registers.isTrace ∧
          next.processor.registers.mask = run.processor.registers.mask ∧
          next.processor.registers.sr &&& 0xFF00 = run.processor.registers.sr &&& 0xFF00 ∧
          next.processor.registers.ssp = run.processor.registers.ssp) ∧
    (∀ run next : Run β, run.Reachable (.compile forms) bus (modeKeptEdits (.compile forms)) →
      run.processor.registers.isSupervisor = false →
      Move (.compile forms) bus (fun _ _ => False) run next →
      next.processor.registers.isSupervisor →
        next = run.modify (·.reset (.compile forms)) ∨
          next = run.step (.compile forms) bus ∧ next.EnteredException) ∧
    (∀ (p : Processor) (b : β) (cause : Cause), p.atBoundary (.compile forms) →
      p.cause? = some cause →
        let final := p.runInstruction (.compile forms) bus b
        final.processor.registers.isSupervisor ∧
          ∃ number, cause.IsVector number final.history ∧
            final.EntersThrough (number.setWidth 32 <<< 2)) ∧
    ∀ (p : Processor) (b : β),
      let final := (p.reset (.compile forms)).runInstruction (.compile forms) bus b
      final.processor.registers.isSupervisor ∧ final.EntersThrough 4 := by
  have hrealizes := Tables.realizes_compile
  refine ⟨fun run next hreachable hboundary huser hquiet => ?_,
    fun run next hreachable => hreachable.raised hrealizes,
    fun p b cause hboundary hcause => Processor.supervisor_of_cause bus hrealizes hboundary hcause b,
    fun p b => Processor.supervisor_of_reset bus hrealizes p b⟩
  have hsame := sameSystem_of_quiet hrealizes hboundary (hreachable.implemented hrealizes) huser
    hquiet
  exact ⟨hsame.isSupervisor.trans huser, hsame.isTrace, hsame.mask, hsame.systemByte,
    hsame.ssp huser⟩

/-- With a `NOP` next, a step in user mode is confined, and the host leaves user mode by a reset. In
front of an illegal opcode vector 4 is taken. -/
theorem isolation_nop :
    let tables := Tables.compile forms
    let bus := Bus.constant 0x4E71
    let stepped := (userNop tables).step tables bus
    let reset := (userNop tables).modify (·.reset tables)
    let refused := (facingIllegal tables).runInstruction tables bus ()
    stepped.processor.registers.ssp = (userNop tables).processor.registers.ssp ∧
      reset.processor.registers.isSupervisor ∧
      (reset = (userNop tables).modify (·.reset tables) ∨
        reset = (userNop tables).step tables bus ∧ reset.EnteredException) ∧
      (∃ number, (Cause.refused 4).IsVector number refused.history ∧
        refused.EntersThrough (number.setWidth 32 <<< 2)) ∧
      (((Processor.initial tables).reset tables).runInstruction tables bus ()).EntersThrough 4 := by
  have hrealizes := Tables.realizes_compile
  obtain ⟨hquiet, hraised, hcause, hreset⟩ := isolation (Bus.constant 0x4E71)
  obtain ⟨hboundary, huser⟩ := boundary_userNop hrealizes
  obtain ⟨hreachable, hkept⟩ := reachable_userNop hrealizes
  have hsupervisor : ((userNop (.compile forms)).modify
      (·.reset (.compile forms))).processor.registers.isSupervisor :=
    Registers.isSupervisor_setStatus _
  exact ⟨(hquiet _ _ hreachable hboundary huser (quiet_userNop hrealizes)).2.2.2.2, hsupervisor,
    hraised _ _ hkept huser (.reset _) hsupervisor,
    (hcause _ () _ (Processor.atBoundary_atRest hrealizes _) (cause?_facingIllegal _)).2,
    (hreset _ ()).2⟩

end Run

end M68k
