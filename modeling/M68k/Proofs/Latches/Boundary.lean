import M68k.Proofs.Interrupt.LevelSeven
import M68k.Proofs.Latches.Execute
import M68k.Proofs.Latches.Flexible

/-!
# Nothing is live at a boundary

What starts at an instruction boundary depends on what a programmer sees, and so does all that comes
of it: two sessions that look alike at a boundary cannot be told apart by a discreet machine from
there on, whatever they have left in their latches.

## Main definitions

* `Visible`, `Processor.visible`: what a programmer sees of a processor
* `Call`, `Outcome`, `Processor.outcomes`: what a host does at boundaries, and what comes of it
* `Run.recalled`: a session that looks like another one, with something else in its latches

## Main results

* `Run.Agree.fromStart`: whatever starts at a boundary
* `Processor.Agree.runInstruction`: an instruction run leaves two processors in agreement
* `Run.outcomes_of_visible`: two sessions that look alike have the same outcomes
-/

namespace M68k

open Encoding

variable {β : Type} {bus : Bus β} {tables : Tables}

/-! ## What starts at a boundary -/

namespace Processor.Agree

variable {p q : Processor}

/-- What starts depends on what a programmer sees. -/
theorem start (h : Agree .nothing p q) : p.start tables = q.start tables := by
  have hpending : p.pendingInterrupt? = q.pendingInterrupt? := by
    rw [pendingInterrupt?, pendingInterrupt?, h.interruptLevel, h.levelSevenRose, Registers.mask,
      Registers.mask, h.registers.sr]
  simp only [Processor.start, hpending, h.prefetch, h.registers.pc, h.registers.isSupervisor]

/-- An interrupt fills all that its sequence uses. -/
theorem accept (h : Agree .nothing p q) (level : Level) :
    Agree (FixedPrograms.interruptActivity.liveBefore .nothing) (p.accept level)
      (q.accept level) := by
  have hbefore : FixedPrograms.interruptActivity.liveBefore .nothing =
      { Live.entered with acknowledge := true } := by decide
  have hphase : Agree .nothing { p with phase := .instruction } { q with phase := .instruction } :=
    { h with }
  have hentered := hphase.enterException (congrArg (· - 4) h.registers.pc)
  rw [hbefore]
  exact
    { hentered with
      registers := hentered.registers.setMask level
      levelSevenRose := congrArg (· && level != 7) h.levelSevenRose
      acknowledge := fun _ => ⟨rfl, rfl⟩ }

/-- So does an exception. -/
theorem refuse (tables : Tables) (h : Agree .nothing p q) (start : Start) (vector : Byte) :
    Agree (FixedPrograms.exceptionActivity.liveBefore .nothing) (p.refuse start vector)
      (q.refuse start vector) := by
  have hphase : Agree .nothing { p with phase := .instruction, opcode := start.opcode }
      { q with phase := .instruction, opcode := start.opcode } := { h with }
  exact { hphase.beginException tables (Eq.refl vector) (Eq.refl start.address) with }

end Processor.Agree

/-- What can be seen of a run has nothing to do with offsets and marks. -/
theorem Run.observed_of_unplaced {run other : Run β} (h : run.unplaced = other.unplaced) :
    run.observed = other.observed :=
  map_history_of_unplaced h fun _ => rfl

namespace Run.Agree

variable {run other : Run β}

/-- **Whatever starts at a boundary** leaves two runs that agree on nothing but what a programmer
sees in this agreement. -/
theorem fromStart (hrealizes : tables.Realizes forms) (h : Agree .nothing bus run other) :
    Agree .nothing bus (run.fromStart tables bus (run.processor.start tables))
      (other.fromStart tables bus (other.processor.start tables)) := by
  have hstart : run.processor.start tables = other.processor.start tables := h.processor.start
  rw [← hstart]
  cases hentry : (run.processor.start tables).entry with
  | interrupt level =>
    rw [fromStart_interrupt bus hentry, fromStart_interrupt bus hentry]
    exact (h.withProcessor (h.processor.accept level)).perform
  | exception vector =>
    rw [fromStart_exception bus hentry, fromStart_exception bus hentry]
    exact (h.withProcessor (h.processor.refuse tables _ vector)).perform
  | instruction entry =>
    rw [fromStart_instruction bus hentry, fromStart_instruction bus hentry]
    have hwellFormed := Processor.wellFormed_of_entry hrealizes (Processor.entry_of_start hentry)
    have htidy := Processor.tidy_of_entry hrealizes (Processor.entry_of_start hentry)
    have hdead : Stage.liveBefore entry.instruction (tables.stagesAt entry.start) = .nothing :=
      htidy.dead
    refine execute hrealizes hwellFormed.orderly ⟨rfl, rfl, rfl, rfl, rfl⟩ ?_
    rw [hdead]
    exact h.withProcessor { h.processor with }

/-- Offsets and marks do not matter. -/
theorem of_unplaced {live : Live} {run' other' : Run β} (h : Agree live bus run other)
    (hrun : run'.unplaced = run.unplaced) (hother : other'.unplaced = other.unplaced) :
    Agree live bus run' other' where
  processor := by
    have hunplaced : Processor.Agree live run.processor.unplaced other.processor.unplaced :=
      { h.processor with }
    rw [← processor_of_unplaced hrun, ← processor_of_unplaced hother] at hunplaced
    exact { hunplaced with }
  bus := by
    rw [bus_of_unplaced hrun, bus_of_unplaced hother]
    exact h.bus
  spent := (congrArg (·.spent) hrun).trans (h.spent.trans (congrArg (·.spent) hother).symm)
  observed := by
    rw [observed_of_unplaced hrun, observed_of_unplaced hother]
    exact h.observed

end Run.Agree

/-- **An instruction run** leaves two processors that look alike in agreement, at a boundary. -/
theorem Processor.Agree.runInstruction (hrealizes : tables.Realizes forms) {p q : Processor}
    {b c : β} (h : p.Agree .nothing q) (hbus : bus.Alike b c) (hp : p.atBoundary tables)
    (hq : q.atBoundary tables) :
    (p.runInstruction tables bus b).Agree .nothing bus (q.runInstruction tables bus c) := by
  have hbegun : Run.Agree .nothing bus (.begin { p with debt := 0 } b)
      (.begin { q with debt := 0 } c) :=
    { processor := { h with }, bus := hbus, spent := rfl, observed := rfl }
  exact (hbegun.fromStart hrealizes).of_unplaced
    (runInstruction_atBoundary bus hrealizes hp b).2
    (runInstruction_atBoundary bus hrealizes hq c).2

/-! ## What a programmer sees -/

/-- What a programmer sees of a processor. -/
structure Visible where
  data : Vector Long 8
  address : Vector Long 8
  pc : Long
  sr : Status
  usp : Long
  ssp : Long
  prefetch : Long
  interruptLevel : Level
  levelSevenRose : Bool
deriving DecidableEq

namespace Processor

/-- What a programmer sees of a processor. -/
def visible (p : Processor) : Visible where
  data := p.registers.d
  address := p.registers.a
  pc := p.registers.pc
  sr := p.registers.sr
  usp := p.registers.usp
  ssp := p.registers.ssp
  prefetch := p.prefetch
  interruptLevel := p.interruptLevel
  levelSevenRose := p.levelSevenRose

variable {p q : Processor}

/-- **Agreement on nothing else** is agreement on what a programmer sees. -/
theorem agree_nothing_iff :
    p.Agree .nothing q ↔ p.visible = q.visible ∧ p.flexibleLength = q.flexibleLength := by
  constructor
  · intro h
    obtain ⟨hd, ha, hpc, hsr, husp, hssp⟩ := Registers.alike_iff.1 h.registers
    refine ⟨?_, h.flexibleLength⟩
    simp only [visible, hd, ha, hpc, hsr, husp, hssp, h.prefetch, h.interruptLevel,
      h.levelSevenRose]
  · rintro ⟨hvisible, hlength⟩
    simp only [visible, Visible.mk.injEq] at hvisible
    obtain ⟨hd, ha, hpc, hsr, husp, hssp, hprefetch, hlevel, hrose⟩ := hvisible
    exact
      { registers := Registers.alike_iff.2 ⟨hd, ha, hpc, hsr, husp, hssp⟩
        prefetch := hprefetch
        interruptLevel := hlevel
        levelSevenRose := hrose
        flexibleLength := hlength
        data := fun side => by cases side <;> exact BitVec.and_zero.trans BitVec.and_zero.symm
        address := fun side h => by cases side <;> cases h
        frame := nofun
        expiredTarget := nofun
        transfer := nofun
        acknowledge := nofun }

end Processor

/-! ## What comes of calls -/

/-- What a host does with a processor at an instruction boundary. -/
inductive Call
  | runInstruction
  | setInterruptLevel (level : Level)
deriving DecidableEq

namespace Call

/-- What a call does, as a run of its own. -/
def run (tables : Tables) (bus : Bus β) (call : Call) (p : Processor) (b : β) : Run β :=
  match call with
  | runInstruction => p.runInstruction tables bus b
  | setInterruptLevel level => .begin (p.setInterruptLevel level) b

/-- **A call** leaves two processors that look alike in agreement, at a boundary. -/
theorem agree_run (hrealizes : tables.Realizes forms) (call : Call) {p q : Processor} {b c : β}
    (h : p.Agree .nothing q) (hbus : bus.Alike b c) (hp : p.atBoundary tables)
    (hq : q.atBoundary tables) :
    (call.run tables bus p b).Agree .nothing bus (call.run tables bus q c) ∧
      (call.run tables bus p b).processor.atBoundary tables ∧
      (call.run tables bus q c).processor.atBoundary tables := by
  cases call with
  | runInstruction =>
    exact ⟨h.runInstruction hrealizes hbus hp hq,
      (Processor.runInstruction_atBoundary bus hrealizes hp b).1,
      (Processor.runInstruction_atBoundary bus hrealizes hq c).1⟩
  | setInterruptLevel level =>
    have hset : (p.setInterruptLevel level).Agree .nothing (q.setInterruptLevel level) :=
      { h with
        interruptLevel := rfl
        levelSevenRose := by
          simp only [Processor.setInterruptLevel, h.interruptLevel, h.levelSevenRose] }
    exact ⟨⟨hset, hbus, rfl, rfl⟩, hp, hq⟩

end Call

/-- What comes of a call: the steps that were run, as far as they can be seen, and what a programmer
sees afterwards. -/
structure Outcome where
  observed : List Observed
  spent : HalfCycles
  visible : Visible
  /-- The processor is at an instruction boundary again. -/
  atBoundary : Bool
deriving DecidableEq

namespace Processor

/-- What comes of calls in a row. -/
def outcomes (tables : Tables) (bus : Bus β) : List Call → Processor → β → List Outcome
  | [], _, _ => []
  | call :: calls, p, b =>
    let run := call.run tables bus p b
    ⟨run.observed, run.spent, run.processor.visible, run.processor.atBoundary tables⟩ ::
      outcomes tables bus calls run.processor run.bus

/-- Processors that look alike have the same outcomes, and are always left at a boundary. -/
theorem Agree.outcomes_eq (hrealizes : tables.Realizes forms) (calls : List Call) {p q : Processor}
    {b c : β} (h : p.Agree .nothing q) (hbus : bus.Alike b c) (hp : p.atBoundary tables)
    (hq : q.atBoundary tables) :
    outcomes tables bus calls p b = outcomes tables bus calls q c ∧
      ∀ outcome ∈ outcomes tables bus calls p b, outcome.atBoundary := by
  induction calls generalizing p q b c with
  | nil => exact ⟨rfl, by simp [outcomes]⟩
  | cons call calls ih =>
    obtain ⟨hrun, hp, hq⟩ := call.agree_run hrealizes h hbus hp hq
    obtain ⟨hsame, hrest⟩ := ih hrun.processor hrun.bus hp hq
    have hvisible := (agree_nothing_iff.1 hrun.processor).1
    simp only [outcomes, List.forall_mem_cons]
    refine ⟨?_, hp, hrest⟩
    rw [hrun.observed, hrun.spent, hvisible, hp, hq, hsame]

end Processor

namespace Run

/-- **Nothing is live at a boundary.** Two sessions that look alike at an instruction boundary have
the same outcomes on a discreet bus from there on, whatever they have left in their latches. -/
theorem outcomes_of_visible {γ δ : Type} {busOfRun : Bus γ} {busOfOther : Bus δ}
    {edit editOther : Edit} {run : Run γ} {other : Run δ}
    (hrun : run.Reachable (.compile forms) busOfRun edit)
    (hother : other.Reachable (.compile forms) busOfOther editOther)
    (hboundary : run.processor.atBoundary (.compile forms))
    (hboundary' : other.processor.atBoundary (.compile forms))
    (hvisible : run.processor.visible = other.processor.visible) {b : β}
    (hdiscreet : bus.Discreet b) (calls : List Call) :
    run.processor.outcomes (.compile forms) bus calls b =
        other.processor.outcomes (.compile forms) bus calls b ∧
      ∀ outcome ∈ run.processor.outcomes (.compile forms) bus calls b, outcome.atBoundary := by
  have hrealizes := Tables.realizes_compile
  have hlength := hrun.flexibleLength_eq_zero hrealizes hboundary
  have hlength' := hother.flexibleLength_eq_zero hrealizes hboundary'
  have hagree := Processor.agree_nothing_iff.2 ⟨hvisible, hlength.trans hlength'.symm⟩
  exact hagree.outcomes_eq hrealizes calls hdiscreet hboundary hboundary'

/-! ### Two sessions that look alike -/

/-- The session that has taken an interrupt, after the host has let go of its level and given it
the registers that it had before. -/
def recalled (tables : Tables) : Run Unit :=
  ((handling tables).modify (·.setInterruptLevel 0)).modify fun p =>
    { p with registers := (resetReturn tables).processor.registers }

theorem reachable_resetReturn {edit : Edit} :
    (resetReturn tables).Reachable tables (.constant 0x4E73) edit :=
  reachable_booted ()

theorem reachable_recalled :
    (recalled tables).Reachable tables (.constant 0x4E73) fun _ _ => True := by
  have hraised : (raised tables).Reachable tables (.constant 0x4E73) fun _ _ => True :=
    reachable_resetReturn.move (.setInterruptLevel _ 7)
  have hlowered := hraised.runInstruction.move (.setInterruptLevel _ 0)
  exact hlowered.move (.edit _ _ trivial)

theorem atBoundary_recalled (hrealizes : tables.Realizes forms) :
    (recalled tables).processor.atBoundary tables :=
  (snapshot_handling hrealizes).1

/-- The interrupt has left the status behind that it has put on the stack. -/
theorem visible_recalled (hrealizes : tables.Realizes forms) :
    (resetReturn tables).processor.visible = (recalled tables).processor.visible ∧
      (resetReturn tables).processor.data.destination = 0 ∧
      (recalled tables).processor.data.destination = 0x2700 := by
  have hreset : (resetReturn tables).processor.timeless = (resetSnapshot tables).processor :=
    congrArg (·.processor) (snapshot_resetReturn hrealizes).2
  have hhandling : (handling tables).processor.timeless = (handlingSnapshot tables).processor :=
    congrArg (·.processor) (snapshot_handling hrealizes).2
  have hvisible (p q : Processor) :
      ({ q.setInterruptLevel 0 with registers := p.registers } : Processor).visible =
        ({ q.timeless.setInterruptLevel 0 with registers := p.timeless.registers } :
          Processor).visible := rfl
  have hdata (p : Processor) : p.data.destination = p.timeless.data.destination := rfl
  refine ⟨?_, ?_, ?_⟩
  · have hsame : (resetReturn tables).processor.visible =
        (resetReturn tables).processor.timeless.visible := rfl
    rw [recalled, modify, modify, processor_withProcessor, processor_withProcessor, hvisible, hsame,
      hreset, hhandling]
    cbv
  · rw [hdata, hreset]
    cbv
  · have hkept : (recalled tables).processor.data = (handling tables).processor.data := rfl
    rw [hkept, hdata, hhandling]
    cbv

/-- A status that an interrupt has left in a latch does not come out. -/
theorem outcomes_of_visible_recalled :
    let tables := Tables.compile forms
    let run := (resetReturn tables).processor
    let other := (recalled tables).processor
    let bench : TestBench := ⟨.blank (.constant 0x4E), 0, 0, none, 0⟩
    let calls : List Call := [.runInstruction, .setInterruptLevel 5, .runInstruction]
    run.data ≠ other.data ∧
      run.outcomes tables TestBench.access calls bench =
        other.outcomes tables TestBench.access calls bench ∧
      ∀ outcome ∈ run.outcomes tables TestBench.access calls bench, outcome.atBoundary := by
  obtain ⟨hvisible, hempty, hleft⟩ := visible_recalled Tables.realizes_compile
  refine ⟨?_, ?_⟩
  · intro hsame
    rw [hsame, hleft] at hempty
    exact absurd hempty (by decide)
  · have hreachable : (resetReturn (.compile forms)).Reachable (.compile forms) (.constant 0x4E73)
        fun _ _ => True := reachable_resetReturn
    exact outcomes_of_visible hreachable reachable_recalled
      (snapshot_resetReturn Tables.realizes_compile).1
      (atBoundary_recalled Tables.realizes_compile) hvisible (TestBench.discreet_access _) _

end Run

end M68k
