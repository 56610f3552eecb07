import M68k.Proofs.Session.Pacing

/-!
# Processors that hosts lead to

A host may drive a processor with one bus now and with another one later. Whatever the buses are,
and whatever the host does between two steps, the processor stays ready for the next step.

## Main definitions

* `Processor.Reached`: what moves lead to from construction, each on a bus of its own

## Main results

* `Processor.Reached.ready`: such a processor is ready
* `Processor.Reached.runFor`, `Processor.Reached.runInstruction`: runs lead from one to another
* `Run.Reachable.reached`: sessions on a single bus are among them
-/

namespace M68k

open Encoding

variable {β : Type} {tables : Tables}

namespace Processor

variable {p : Processor}

/-- What moves of hosts lead to from construction. Each move may be made on a bus of its own, and
all registers may be edited. -/
inductive Reached (tables : Tables) : Processor → Prop
  | initial : Reached tables (.initial tables)
  | move {β : Type} {bus : Bus β} {run next : Run β} (h : Reached tables run.processor)
    (hmove : Run.Move tables bus (fun _ _ => True) run next) : Reached tables next.processor

/-- A step keeps a processor ready, on every bus. -/
theorem Ready.step (hrealizes : tables.Realizes forms) (h : p.Ready tables) (bus : Bus β) (b : β) :
    ((Run.begin p b).step tables bus).processor.Ready tables := by
  have hpaced := (Run.kept_paced bus hrealizes).step hrealizes h.orderly h.settled
    (Run.paced_begin h b)
  obtain ⟨horderly, hsettled⟩ : ((Run.begin p b).step tables bus).processor.Orderly tables ∧
      ((Run.begin p b).step tables bus).processor.Settled tables :=
    Run.orderly_step bus hrealizes h.orderly h.settled
  obtain ⟨lasted, hupcoming, -⟩ := hpaced.upcoming
  refine ⟨horderly, hsettled, ?_⟩
  cases lasted with
  | true => exact hupcoming
  | false => exact hupcoming.mono

theorem ready_reset (hrealizes : tables.Realizes forms) (p : Processor) :
    (p.reset tables).Ready tables where
  orderly := (orderly_reset hrealizes p).1
  settled := (orderly_reset hrealizes p).2
  paced := Run.paced_reset hrealizes p true

/-- What a step does to the processor depends on the processor and the bus alone. -/
theorem processor_step (bus : Bus β) (run : Run β) :
    (run.step tables bus).processor =
      ((Run.begin run.processor run.bus).step tables bus).processor := rfl

/-- **Whatever hosts do, the processor is ready** for the next step. -/
theorem Reached.ready (hrealizes : tables.Realizes forms) (h : p.Reached tables) :
    p.Ready tables := by
  induction h with
  | initial => exact ready_reset hrealizes _
  | move _ hmove ih =>
    cases hmove with
    | step =>
      rw [processor_step]
      exact ih.step hrealizes _ _
    | reset => exact ready_reset hrealizes _
    | setInterruptLevel | edit | owe => exact ⟨ih.orderly, ih.settled, ih.paced⟩

/-! ## Runs -/

theorem Reached.step (h : p.Reached tables) (bus : Bus β) (b : β) :
    ((Run.begin p b).step tables bus).processor.Reached tables :=
  .move h (.step (.begin p b))

theorem Reached.owe (h : p.Reached tables) (debt : HalfCycles) :
    { p with debt := debt }.Reached tables :=
  have hmove : Run.Move tables (Bus.constant 0) (fun _ _ => True) (.begin p ())
      (.begin { p with debt := debt } ()) :=
    .owe (.begin p ()) debt
  .move h hmove

theorem Reached.setInterruptLevel (h : p.Reached tables) (level : Level) :
    (p.setInterruptLevel level).Reached tables :=
  have hmove : Run.Move tables (Bus.constant 0) (fun _ _ => True) (.begin p ())
      (.begin (p.setInterruptLevel level) ()) :=
    .setInterruptLevel (.begin p ()) level
  .move h hmove

theorem Reached.untilStop {run : Run β} (h : run.processor.Reached tables) (bus : Bus β)
    (stop : Run β → Bool) (limit : Nat) :
    (run.untilStop tables bus stop limit).processor.Reached tables := by
  induction limit generalizing run with
  | zero => exact h
  | succ limit ih =>
    unfold Run.untilStop
    split
    · exact h
    · exact ih (h.step bus run.bus)

/-- Timed runs lead from one to another. -/
theorem Reached.runFor (h : p.Reached tables) (bus : Bus β) (b : β) (duration : HalfCycles) :
    (p.runFor tables bus duration b).processor.Reached tables := by
  unfold Processor.runFor
  split
  · exact h.owe _
  · have hbegun : (Run.begin p b).processor.Reached tables := h
    exact (hbegun.untilStop bus _ _).owe _

/-- Instruction runs lead from one to another. -/
theorem Reached.runInstruction (h : p.Reached tables) (bus : Bus β) (b : β) :
    (p.runInstruction tables bus b).processor.Reached tables :=
  .untilStop ((h.owe 0).step bus b) bus _ _

end Processor

namespace Run

/-- A move that keeps some registers is one of those that may edit all of them. -/
theorem Move.free {bus : Bus β} {edit : Edit} {run next : Run β}
    (h : Move tables bus edit run next) : Move tables bus (fun _ _ => True) run next := by
  cases h with
  | step => exact .step run
  | setInterruptLevel level => exact .setInterruptLevel run level
  | reset => exact .reset run
  | edit registers allowed => exact .edit run registers trivial
  | owe debt => exact .owe run debt

/-- The processor of a session on a single bus is one of these. -/
theorem Reachable.reached {bus : Bus β} {edit : Edit} {run : Run β}
    (h : run.Reachable tables bus edit) : run.processor.Reached tables := by
  obtain ⟨b, hleads⟩ := h
  induction hleads with
  | refl => exact .initial
  | tail _ hmove ih => exact .move ih hmove.free

/-- So is a new processor after its reset sequence. -/
theorem reached_resetNop (tables : Tables) : (resetNop tables).processor.Reached tables := by
  have hreachable : (resetNop tables).Reachable tables (Bus.constant 0x4E71) (fun _ _ => True) :=
    reachable_resetNop tables
  exact hreachable.reached

end Run

end M68k
