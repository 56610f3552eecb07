import M68k.Proofs.Execution.Boundary
import Mathlib

/-!
# Sessions

From construction on, a host runs the processor for a while or to a boundary, drives its inputs,
resets it and edits its registers, in any order. A session is all of this up to some bus step, with
the history of all steps since construction. What holds in every session is proved from what single
moves keep.

## Main definitions

* `Run.Move`: what a host can do between two bus steps, for the register edits that are allowed
* `Run.Leads`, `Run.Reachable`: what moves lead to, from some run and from construction
* `Run.Carried`, `Run.Kept`: properties that the parts of a step keep

## Main results

* `Run.Kept.step`: such a property is kept by steps
* `Run.Leads.induct`, `Run.Reachable.induct`: what holds in every session
* `Run.Reachable.runFor`, `Run.Reachable.runInstruction`: runs lead from session to session
-/

namespace M68k

open Encoding

/-- Which register files a host may give to a processor. -/
abbrev Edit := Processor → Registers → Prop

namespace Run

variable {β : Type} {tables : Tables} {bus : Bus β} {edit : Edit}

/-- Change the processor between two steps. -/
def modify (run : Run β) (f : Processor → Processor) : Run β := run.withProcessor (f run.processor)

variable (tables bus edit)

/-- A move of the host: a bus step, or a change between two steps. -/
inductive Move : Run β → Run β → Prop
  | step (run : Run β) : Move run (run.step tables bus)
  | setInterruptLevel (run : Run β) (level : Level) :
    Move run (run.modify (·.setInterruptLevel level))
  | reset (run : Run β) : Move run (run.modify (·.reset tables))
  /-- The host replaces the registers. -/
  | edit (run : Run β) (registers : Registers) (allowed : edit run.processor registers) :
    Move run (run.modify fun p => { p with registers := registers })
  /-- The overrun of timed runs is noted or dropped. -/
  | owe (run : Run β) (debt : HalfCycles) : Move run (run.modify fun p => { p with debt := debt })

/-- Moves of the host lead from one run to another. -/
def Leads : Run β → Run β → Prop := Relation.ReflTransGen (Move tables bus edit)

/-- The sessions of a processor on a bus. -/
def Reachable (run : Run β) : Prop :=
  ∃ b, Leads tables bus edit (.begin (.initial tables) b) run

variable {tables bus edit}

theorem Reachable.move {run next : Run β} (h : run.Reachable tables bus edit)
    (hmove : Move tables bus edit run next) : next.Reachable tables bus edit :=
  h.imp fun _ hleads => hleads.tail hmove

/-! ## Steps -/

variable (tables bus) in
/-- A property that going along a chain and running a step keep. -/
structure Carried (I : Run β → Prop) : Prop where
  /-- The chain goes on. -/
  enter : ∀ run, I run → run.processor.phase = .instruction → run.processor.programEnded tables →
    (tables.microOp run.processor.microOp).isTerminal = false →
      I (run.modify fun p => { p with microOp := p.microOp + 1 }.enterMicroOp tables)
  /-- A step is run. -/
  transact : ∀ run start, I run → run.processor.programEnded tables = false →
    I (run.transact bus start (tables.step run.processor.busStep))

namespace Carried

variable {I : Run β → Prop}

theorem follow (h : Carried tables bus I) (wanted : MicroOp → Bool) {run : Run β} (hrun : I run) :
    I (run.modify (·.follow tables wanted)) := by
  suffices ∀ p, I (run.withProcessor p) → I (run.withProcessor (p.follow tables wanted)) from
    this run.processor hrun
  intro p hp
  -- the run itself stands still, so that the induction is on its processor
  fun_induction Processor.follow tables wanted p with
  | case1 p hfollow ih =>
    obtain ⟨hphase, hended, hterminal, -⟩ := hfollow
    exact ih (h.enter _ hp hphase hended (by simpa using hterminal))
  | case2 p => exact hp

theorem advance (h : Carried tables bus I) (start : Option Start) {run : Run β} (hrun : I run)
    (hended : run.processor.programEnded tables = false) :
    I (run.advance tables bus start) :=
  h.follow _ (h.transact run start hrun hended)

/-- A step has what is carried along from where it begins: from the start of something new if it
comes after a boundary. -/
theorem step (h : Carried tables bus I) (hrealizes : tables.Realizes forms) {run : Run β}
    (horderly : run.processor.Orderly tables) (hsettled : run.processor.Settled tables)
    (hstart : run.processor.atBoundary tables →
      I (run.modify fun p => p.begin tables (p.start tables)))
    (hunderway : run.processor.atBoundary tables = false → I run) : I (run.step tables bus) := by
  rw [step_eq]
  cases hboundary : run.processor.atBoundary tables with
  | true =>
    rw [Processor.settle_of_atBoundary hboundary]
    exact h.advance _ (h.follow _ (hstart hboundary))
      (Processor.programEnded_begin hrealizes run.processor)
  | false =>
    have hended :=
      Processor.programEnded_follow_of_settled hrealizes horderly hsettled hboundary
    rw [Processor.settle_underway hrealizes horderly hsettled hboundary]
    exact h.advance _ (h.follow _ (hunderway hboundary)) hended

end Carried

variable (tables bus) in
/-- A property that starting, going along a chain and running a step keep. -/
structure Kept (I : Run β → Prop) : Prop extends Carried tables bus I where
  /-- Something starts at a boundary. -/
  start : ∀ run, I run → run.processor.atBoundary tables →
    I (run.modify fun p => p.begin tables (p.start tables))

/-- **A step keeps what its parts keep.** -/
theorem Kept.step {I : Run β → Prop} (h : Kept tables bus I) (hrealizes : tables.Realizes forms)
    {run : Run β} (horderly : run.processor.Orderly tables)
    (hsettled : run.processor.Settled tables) (hrun : I run) : I (run.step tables bus) :=
  h.toCarried.step hrealizes horderly hsettled (h.start run hrun) fun _ => hrun

/-! ## Every session is in order -/

/-- A step leaves the chain in order. -/
theorem orderly_step (bus : Bus β) (hrealizes : tables.Realizes forms) {run : Run β}
    (horderly : run.processor.Orderly tables) (hsettled : run.processor.Settled tables) :
    (run.step tables bus).processor.Orderly tables ∧
      (run.step tables bus).processor.Settled tables := by
  cases hboundary : run.processor.atBoundary tables with
  | true =>
    have hadvance := underway_advance bus hrealizes (some (run.processor.start tables))
      (run.withProcessor
        ((run.processor.begin tables (run.processor.start tables)).follow tables fun _ => true))
      ((Processor.orderly_begin hrealizes run.processor).follow _)
      (Processor.programEnded_begin hrealizes run.processor)
    rw [step_eq, Processor.settle_of_atBoundary hboundary]
    exact ⟨hadvance.orderly, hadvance.settled⟩
  | false =>
    have hstep := underway_step bus hrealizes horderly hsettled hboundary
    exact ⟨hstep.orderly, hstep.settled⟩

theorem orderly_of_atBoundary {run : Run β} (h : run.processor.atBoundary tables) :
    run.processor.Orderly tables ∧ run.processor.Settled tables := by
  refine ⟨fun stage hstage => ?_, fun _ hboundary => ?_⟩
  · rw [Processor.stages_of_atBoundary tables h] at hstage
    cases hstage
  · rw [h] at hboundary
    cases hboundary

/-- Many steps keep what one step keeps. -/
theorem Kept.untilStop {I : Run β → Prop} (h : Kept tables bus I)
    (hrealizes : tables.Realizes forms) (stop : Run β → Bool) (limit : Nat) {run : Run β}
    (horderly : run.processor.Orderly tables) (hsettled : run.processor.Settled tables)
    (hrun : I run) : I (run.untilStop tables bus stop limit) := by
  induction limit generalizing run with
  | zero => exact hrun
  | succ limit ih =>
    unfold Run.untilStop
    split
    · exact hrun
    · obtain ⟨horderly', hsettled'⟩ := orderly_step bus hrealizes horderly hsettled
      exact ih horderly' hsettled' (h.step hrealizes horderly hsettled hrun)

/-- Moves keep a run in order. -/
theorem Leads.orderly (hrealizes : tables.Realizes forms) {first run : Run β}
    (h : Leads tables bus edit first run)
    (hfirst : first.processor.Orderly tables ∧ first.processor.Settled tables) :
    run.processor.Orderly tables ∧ run.processor.Settled tables := by
  -- along the moves: only steps and resets touch the chain
  induction h with
  | refl => exact hfirst
  | tail _ hmove ih =>
    cases hmove with
    | step => exact orderly_step bus hrealizes ih.1 ih.2
    | reset => exact Processor.orderly_reset hrealizes _
    | setInterruptLevel | edit | owe => exact ih

/-- Every session is in order. -/
theorem Reachable.orderly (hrealizes : tables.Realizes forms) {run : Run β}
    (h : run.Reachable tables bus edit) :
    run.processor.Orderly tables ∧ run.processor.Settled tables := by
  obtain ⟨b, h⟩ := h
  exact h.orderly hrealizes (Processor.orderly_reset hrealizes _)

/-- A property that moves keep holds of all that they lead to. -/
theorem Leads.induct (hrealizes : tables.Realizes forms) {I : Run β → Prop} {first run : Run β}
    (h : Leads tables bus edit first run)
    (horderly : first.processor.Orderly tables ∧ first.processor.Settled tables)
    (hfirst : I first) (hkept : Kept tables bus I)
    (hlevel : ∀ run level, I run → I (run.modify (·.setInterruptLevel level)))
    (hreset : ∀ run, I run → I (run.modify (·.reset tables)))
    (hedit : ∀ run registers, edit run.processor registers → I run →
      I (run.modify fun p => { p with registers := registers }))
    (howe : ∀ run debt, I run → I (run.modify fun p => { p with debt := debt })) : I run := by
  induction h with
  | refl => exact hfirst
  | tail hleads hmove ih =>
    cases hmove with
    | step =>
      obtain ⟨horderly, hsettled⟩ := Leads.orderly hrealizes hleads horderly
      exact hkept.step hrealizes horderly hsettled ih
    | setInterruptLevel level => exact hlevel _ level ih
    | reset => exact hreset _ ih
    | edit registers allowed => exact hedit _ registers allowed ih
    | owe debt => exact howe _ debt ih

/-- **What holds in every session**: it holds at construction, and every move keeps it. -/
theorem Reachable.induct (hrealizes : tables.Realizes forms) {I : Run β → Prop}
    (hinitial : ∀ b, I (.begin (.initial tables) b)) (hkept : Kept tables bus I)
    (hlevel : ∀ run level, I run → I (run.modify (·.setInterruptLevel level)))
    (hreset : ∀ run, I run → I (run.modify (·.reset tables)))
    (hedit : ∀ run registers, edit run.processor registers → I run →
      I (run.modify fun p => { p with registers := registers }))
    (howe : ∀ run debt, I run → I (run.modify fun p => { p with debt := debt }))
    {run : Run β} (h : run.Reachable tables bus edit) : I run := by
  obtain ⟨b, h⟩ := h
  exact h.induct hrealizes (Processor.orderly_reset hrealizes _) (hinitial b) hkept hlevel hreset
    hedit howe

/-! ## Runs lead from session to session -/

/-- Put the time and the steps of an earlier run before those of a run. -/
def after (run earlier : Run β) : Run β :=
  { run with
    spent := run.spent + earlier.spent
    history := run.history ++ earlier.history }

theorem after_step (run earlier : Run β) :
    (run.step tables bus).after earlier = (run.after earlier).step tables bus := by
  simp only [after, step, transact, List.cons_append, Nat.add_right_comm]

/-- A run that goes on from a session step by step leads to a session. -/
theorem Reachable.untilStop {earlier run : Run β} (stop : Run β → Bool) (limit : Nat)
    (h : (run.after earlier).Reachable tables bus edit) :
    ((run.untilStop tables bus stop limit).after earlier).Reachable tables bus edit := by
  induction limit generalizing run with
  | zero => exact h
  | succ limit ih =>
    unfold Run.untilStop
    split
    · exact h
    · refine ih ?_
      rw [after_step]
      exact h.move (.step _)

theorem after_begin (earlier : Run β) (p : Processor) :
    (Run.begin p earlier.bus).after earlier = earlier.withProcessor p := by
  simp [after, Run.begin, withProcessor]

/-- Timed runs lead from session to session. -/
theorem Reachable.runFor {run : Run β} (duration : HalfCycles)
    (h : run.Reachable tables bus edit) :
    ((run.processor.runFor tables bus duration run.bus).after run).Reachable tables bus edit := by
  unfold Processor.runFor
  split
  · rw [after_begin]
    exact h.move (.owe run _)
  · have hbegun : ((Run.begin run.processor run.bus).after run).Reachable tables bus edit := by
      rw [after_begin]
      exact h
    exact (hbegun.untilStop _ _).move (.owe _ _)

/-- Instruction runs lead from session to session. -/
theorem Reachable.runInstruction {run : Run β} (h : run.Reachable tables bus edit) :
    ((run.processor.runInstruction tables bus run.bus).after run).Reachable tables bus edit := by
  unfold Processor.runInstruction
  refine Reachable.untilStop _ _ ?_
  rw [after_step, after_begin]
  exact (h.move (.owe run 0)).move (.step _)

/-- An instruction run always ends at a boundary. -/
theorem Reachable.atBoundary_runInstruction (hrealizes : tables.Realizes forms) {run : Run β}
    (h : run.Reachable tables bus edit) :
    (run.processor.runInstruction tables bus run.bus).processor.atBoundary tables := by
  obtain ⟨horderly, hsettled⟩ := h.orderly hrealizes
  cases hboundary : run.processor.atBoundary tables with
  | true => exact (Processor.runInstruction_atBoundary bus hrealizes hboundary run.bus).1
  | false =>
    exact (Processor.runInstruction_underway bus hrealizes horderly hsettled hboundary run.bus).1

/-! ## First sessions -/

/-- A new processor after its reset sequence. -/
def booted (tables : Tables) (bus : Bus β) (b : β) : Run β :=
  ((Processor.initial tables).runInstruction tables bus b).after (begin (.initial tables) b)

theorem reachable_booted (b : β) : (booted tables bus b).Reachable tables bus edit := by
  have hbegun : (begin (.initial tables) b).Reachable tables bus edit := ⟨b, .refl⟩
  exact hbegun.runInstruction

/-- A new processor after its reset sequence, on a bus that answers with the opcode of `NOP` all the
time. -/
def resetNop (tables : Tables) : Run Unit :=
  ((Processor.initial tables).runInstruction tables (Bus.constant 0x4E71) ()).after
    (begin (.initial tables) ())

theorem reachable_resetNop (tables : Tables) :
    (resetNop tables).Reachable tables (Bus.constant 0x4E71) edit :=
  reachable_booted ()

theorem processor_resetNop (hrealizes : tables.Realizes forms) :
    (resetNop tables).processor.atBoundary tables ∧
      (resetNop tables).processor.prefetch = 0x4E714E71 ∧
      (resetNop tables).processor.interruptLevel = 0 := by
  obtain ⟨hboundary, hreset⟩ :=
    Processor.runInstruction_initial (Bus.constant 0x4E71) hrealizes ()
  have hprocessor := processor_of_unplaced hreset
  exact ⟨hboundary, (congrArg (·.prefetch) hprocessor).trans (by cbv),
    (congrArg (·.interruptLevel) hprocessor).trans (by cbv)⟩

end Run

end M68k
