import M68k.Proofs.Session.Reached
import M68k.Proofs.Tables.Compile

/-!
# Termination

The processor has loops without a limit: the search for the next bus step, the firing of
micro-operations without bus activity, and the two kinds of runs. Whatever a host has done before,
all of them end. An instruction run ends at a boundary, and starts something only if it has begun at
one.

## Main definitions

* `Run.starts`: what was started in a run
* `Processor.Terminates`: all loops of a processor end

## Main results

* `Processor.Reached.terminates`: whatever hosts do, all loops end
-/

namespace M68k

open Encoding

variable {β : Type} {tables : Tables}

namespace Run

/-- What was started in a run, the last one first. -/
def starts (run : Run β) : List Start := run.history.filterMap (·.start)

theorem starts_step (bus : Bus β) (run : Run β) :
    (run.step tables bus).starts = (run.processor.settle tables).2.toList ++ run.starts := by
  rw [step_eq, starts]
  change List.filterMap (·.start) (_ :: run.history) = _
  rw [List.filterMap_cons]
  cases (run.processor.settle tables).2 <;> rfl

/-- On the way to the next boundary nothing is started. -/
theorem starts_of_loop {bus : Bus β} (hrealizes : tables.Realizes forms) {n : Nat}
    {run final : Run β}
    (h : Loop (fun run => run.processor.atBoundary tables) (step tables bus) n run final)
    (horderly : run.processor.Orderly tables) (hsettled : run.processor.Settled tables) :
    final.starts = run.starts := by
  induction h with
  | done => rfl
  | again hgoes _ ih =>
    obtain ⟨horderly', hsettled'⟩ := orderly_step bus hrealizes horderly hsettled
    rw [ih horderly' hsettled', starts_step,
      Processor.settle_underway hrealizes horderly hsettled hgoes]
    rfl

theorem length_history_of_loop {bus : Bus β} {stop : Run β → Bool} {n : Nat} {run final : Run β}
    (h : Loop stop (step tables bus) n run final) :
    final.history.length = run.history.length + n := by
  induction h with
  | done => rfl
  | @again n run final _ _ ih =>
    rw [ih]
    simp only [step, transact, List.length_cons]
    omega

end Run

namespace Processor

variable (bus : Bus β)

/-- An instruction run goes round until it comes to a boundary. -/
theorem Ready.loop_runInstruction (hrealizes : tables.Realizes forms) {p : Processor}
    (h : p.Ready tables) (b : β) :
    (p.runInstruction tables bus b).processor.atBoundary tables ∧
      ∃ n ≤ tables.stepLimit,
        Loop (fun run => run.processor.atBoundary tables) (Run.step tables bus) n
          ((Run.begin { p with debt := 0 } b).step tables bus) (p.runInstruction tables bus b) := by
  have hboundary : (p.runInstruction tables bus b).processor.atBoundary tables := by
    cases hbegun : p.atBoundary tables with
    | true => exact (runInstruction_atBoundary bus hrealizes hbegun b).1
    | false =>
      exact (runInstruction_underway bus hrealizes h.orderly h.settled hbegun b).1
  exact ⟨hboundary, Run.exists_loop_of_untilStop hboundary⟩

/-- An instruction run starts what comes at its boundary, and nothing if it begins in the midst of a
chain. -/
theorem Ready.starts_runInstruction (hrealizes : tables.Realizes forms) {p : Processor}
    (h : p.Ready tables) (b : β) :
    (p.runInstruction tables bus b).starts =
      if p.atBoundary tables then [p.start tables] else [] := by
  obtain ⟨-, n, -, hloop⟩ := h.loop_runInstruction bus hrealizes b
  set run : Run β := Run.begin { p with debt := 0 } b with hrun
  obtain ⟨horderly, hsettled⟩ : (run.step tables bus).processor.Orderly tables ∧
      (run.step tables bus).processor.Settled tables :=
    Run.orderly_step bus hrealizes h.orderly h.settled
  rw [Run.starts_of_loop hrealizes hloop horderly hsettled, Run.starts_step]
  have hnothing : run.starts = [] := rfl
  rw [hnothing, List.append_nil]
  cases hboundary : p.atBoundary tables with
  | true =>
    rw [settle_of_atBoundary (show run.processor.atBoundary tables from hboundary)]
    rfl
  | false =>
    have hunderway :
        run.processor.settle tables = (run.processor.follow tables fun _ => true, none) :=
      settle_underway hrealizes h.orderly h.settled hboundary
    rw [hunderway]
    rfl

variable (tables) in
/-- All loops of a processor end, on a bus in some state. -/
structure Terminates (p : Processor) (b : β) : Prop where
  /-- The search for the next bus step, from wherever, which starts one thing at most. -/
  search : ∀ q : Processor, ∃ n ≤ 2 * tables.microOps.size + 1,
    Loop (fun s => !s.1.programEnded tables) (schedule tables) n (q, [])
      ((q.settle tables).1, (q.settle tables).2.toList)
  /-- The firing of micro-operations without bus activity, after whatever step. -/
  firing : ∀ q : Processor, ∃ n ≤ tables.microOps.size,
    Loop (fun q => !q.isBusFree tables) (proceed tables) n q (q.fireBusFree tables)
  /-- An instruction run goes round until it comes to a boundary. -/
  instruction : ∃ n ≤ tables.stepLimit,
    Loop (fun run => run.processor.atBoundary tables) (Run.step tables bus) n
      ((Run.begin { p with debt := 0 } b).step tables bus) (p.runInstruction tables bus b)
  boundary : (p.runInstruction tables bus b).processor.atBoundary tables
  length : (p.runInstruction tables bus b).history.length ≤ tables.stepLimit + 1
  /-- It starts one thing at a boundary, and nothing in the midst of a chain. -/
  starts : (p.runInstruction tables bus b).starts =
    if p.atBoundary tables then [p.start tables] else []
  /-- It does all of what it starts, and all that is left of a chain. -/
  executes : (p.runInstruction tables bus b).unplaced =
    if p.atBoundary tables then
      ((Run.begin { p with debt := 0 } b).fromStart tables bus (p.start tables)).unplaced
    else ((Run.begin { p with debt := 0 } b).conclude bus tables).unplaced
  /-- A timed run goes round until its time is spent. -/
  timed : ∀ duration, p.debt < duration → ∃ n ≤ 2 * (duration - p.debt) + 2, ∃ final,
    Loop (fun run => decide (duration - p.debt ≤ run.spent)) (Run.step tables bus) n
      (.begin p b) final ∧
    p.runFor tables bus duration b =
      final.modify fun q => { q with debt := final.spent - (duration - p.debt) }

theorem terminates_of_ready (hrealizes : tables.Realizes forms) {p : Processor} (h : p.Ready tables)
    (b : β) : p.Terminates tables bus b := by
  obtain ⟨hboundary, n, hlimit, hloop⟩ := h.loop_runInstruction bus hrealizes b
  refine
    { search := loop_settle hrealizes
      firing := loop_fireBusFree tables
      instruction := ⟨n, hlimit, hloop⟩
      boundary := hboundary
      length := ?_
      starts := h.starts_runInstruction bus hrealizes b
      executes := ?_
      timed := fun duration hdebt => ?_ }
  · rw [Run.length_history_of_loop hloop]
    have hone : ((Run.begin { p with debt := 0 } b).step tables bus).history.length = 1 := rfl
    omega
  · -- at a boundary all of what starts, in the midst of a chain what is left of it
    cases hbegun : p.atBoundary tables with
    | true => exact (runInstruction_atBoundary bus hrealizes hbegun b).2
    | false => exact (runInstruction_underway bus hrealizes h.orderly h.settled hbegun b).2
  · obtain ⟨n, hlimit, hloop⟩ := h.loop_runFor hrealizes bus b (duration - p.debt)
    exact ⟨n, hlimit, _, hloop, runFor_of_debt_lt bus b hdebt⟩

/-- **Whatever hosts do, all loops end**, on every bus: an instruction run at a boundary, having
started something only if it has begun at one, and a timed run when its time is spent. -/
theorem Reached.terminates {p : Processor} (h : p.Reached (.compile forms)) (b : β) :
    p.Terminates (.compile forms) bus b :=
  terminates_of_ready bus Tables.realizes_compile (h.ready Tables.realizes_compile) b

/-- A new processor after its reset sequence is one of those. -/
theorem terminates_resetNop :
    (Run.resetNop (.compile forms)).processor.Reached (.compile forms) ∧
      (Run.resetNop (.compile forms)).processor.Terminates (.compile forms)
        (Bus.constant 0x4E71) () :=
  ⟨Run.reached_resetNop _, Reached.terminates _ (Run.reached_resetNop _) ()⟩

end Processor

end M68k
