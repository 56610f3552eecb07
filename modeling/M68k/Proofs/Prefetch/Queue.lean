import M68k.Proofs.Prefetch.Length
import M68k.Proofs.Session.Reachable

/-!
# The prefetch queue

At every instruction boundary the prefetch queue holds the two words that were fetched last, from
the two word addresses before the program counter. In between, what is known about the queue is
tracked step by step, and the stages to come lead back to a full queue.

## Main definitions

* `Fetched`, `Run.fetched`: the words fetched into the queue
* `QueueState.Holds`: what a state of the queue means
* `Run.Refilling`: the rest of the chain fills the queue

## Main results

* `Run.kept_refilling`: single moves keep this up
* `Run.Reachable.refilling`: it holds in every session
-/

namespace M68k

open Encoding

/-- A word fetched into the prefetch queue. -/
structure Fetched where
  address : Long
  value : Word

/-- The word that a step fetches into the prefetch queue. -/
def StepRecord.fetched? (record : StepRecord) : Option Fetched :=
  if record.step.signals.isRead && record.step.slot == .prefetch then
    some ⟨record.request.address, record.value⟩
  else none

namespace Run

variable {β : Type}

/-- The words fetched into the prefetch queue, the last one first. -/
def fetched (run : Run β) : List Fetched := run.history.filterMap (·.fetched?)

end Run

namespace QueueState

/-- What is known about the prefetch queue is so. -/
def Holds (fetched : List Fetched) (p : Processor) : QueueState → Prop
  | stale => True
  | single =>
    ∃ last rest, fetched = last :: rest ∧ Half.low.get p.prefetch = last.value ∧
      last.address = p.registers.pc - 2
  | shifted =>
    ∃ last rest, fetched = last :: rest ∧ Half.high.get p.prefetch = last.value ∧
      last.address = p.registers.pc - 2
  | full =>
    ∃ last before rest, fetched = last :: before :: rest ∧
      p.prefetch = before.value ++ last.value ∧
      before.address = p.registers.pc - 4 ∧ last.address = p.registers.pc - 2

/-- Only the queue and the program counter matter. -/
theorem Holds.congr {fetched : List Fetched} {p q : Processor} {queue : QueueState}
    (h : queue.Holds fetched p) (hpc : q.registers.pc = p.registers.pc)
    (hprefetch : q.prefetch = p.prefetch) : queue.Holds fetched q := by
  cases queue with
  | stale => exact trivial
  | single | shifted | full =>
    rw [Holds, hpc, hprefetch]
    exact h

/-- A step action moves the queue as expected. -/
theorem Holds.moved {fetched : List Fetched} {p q : Processor} {queue : QueueState}
    {action : StepAction} (h : queue.Holds fetched p)
    (hpc : q.registers.pc =
      if action = .incrementProgramCounter then p.registers.pc + 2 else p.registers.pc)
    (hprefetch : q.prefetch =
      if action = .advancePrefetch then Half.high.set p.prefetch (Half.low.get p.prefetch)
      else p.prefetch) :
    (after.moved queue action).Holds fetched q := by
  cases action with
  | incrementProgramCounter => exact trivial
  | advancePrefetch =>
    simp only [reduceCtorEq, if_false, if_true] at hpc hprefetch
    cases queue with
    | stale | shifted => exact trivial
    | single =>
      obtain ⟨last, rest, hfetched, hlow, haddress⟩ := h
      exact ⟨last, rest, hfetched, by rw [hprefetch, Half.get_set_self, hlow], by rw [hpc, haddress]⟩
    | full =>
      obtain ⟨last, before, rest, hfetched, hwords, -, haddress⟩ := h
      refine ⟨last, before :: rest, hfetched, ?_, by rw [hpc, haddress]⟩
      rw [hprefetch, Half.get_set_self, hwords]
      exact BitVec.extractLsb'_append_eq_right
  | _ =>
    simp only [reduceCtorEq, if_false] at hpc hprefetch
    exact h.congr hpc hprefetch

end QueueState

/-! ## Bus steps -/

namespace Run

variable {β : Type} (bus : Bus β)

theorem fetched_transact (start : Option Start) (step : BusStep) (run : Run β) :
    (run.transact bus start step).fetched =
      if step.signals.isRead && step.slot == .prefetch then
        ⟨run.processor.resolve step.address,
          (bus run.bus (run.processor.request step)).1.value⟩ :: run.fetched
      else run.fetched := by
  simp only [fetched, transact, List.filterMap_cons, StepRecord.fetched?]
  split <;> split <;> simp_all [Processor.request]

/-- **A fetch** fills a queue that has been shifted, and starts any other anew. -/
theorem holds_fetch (start : Option Start) {step : BusStep} {run : Run β} {queue : QueueState}
    (h : queue.Holds run.fetched run.processor) (hfetch : step.isFetch) :
    (queue.after step).Holds (run.transact bus start step).fetched
      (run.transact bus start step).processor := by
  set reply := (bus run.bus (run.processor.request step)).1 with hreply
  have hprocessor :
      (run.transact bus start step).processor = run.processor.receive step reply := rfl
  rw [fetched_transact, hprocessor, ← hreply]
  have hparts := hfetch
  simp only [BusStep.isFetch, Bool.and_eq_true, Bool.not_eq_true', beq_iff_eq] at hparts
  obtain ⟨⟨⟨⟨hread, -⟩, hslot⟩, haddress⟩, haction⟩ := hparts
  have hcounter : step.loadsCounter = false := by simp [BusStep.loadsCounter, hslot]
  have hpc := run.processor.pc_receive reply hcounter
  have hprefetch := run.processor.prefetch_receive_fetch reply hfetch
  simp only [haction, if_true] at hpc
  simp only [QueueState.after, hread, hslot, hfetch, haddress, if_true, Processor.resolve,
    beq_self_eq_true, Bool.and_self]
  split
  · -- shifted before: the word joins the last one at its address
    rename_i hshifted
    subst hshifted
    obtain ⟨last, rest, hfetched, hhigh, hlast⟩ := h
    refine ⟨_, last, rest, congrArg _ hfetched, ?_, ?_, ?_⟩
    · rw [hprefetch, ← hhigh]
      rfl
    · rw [hpc, hlast]
      bv_omega
    · rw [hpc]
      bv_omega
  · -- not shifted: what stands in the other half is not next to it
    refine ⟨_, run.fetched, rfl, ?_, ?_⟩
    · rw [hprefetch, Half.get_set_self]
    · rw [hpc]
      bv_omega

/-- A bus step changes the queue as expected. -/
theorem holds_transact (start : Option Start) {step : BusStep} {run : Run β} {queue : QueueState}
    (h : queue.Holds run.fetched run.processor) :
    (queue.after step).Holds (run.transact bus start step).fetched
      (run.transact bus start step).processor := by
  by_cases hfetch : step.isFetch
  · exact holds_fetch bus start h hfetch
  · set reply := (bus run.bus (run.processor.request step)).1 with hreply
    have hprocessor :
        (run.transact bus start step).processor = run.processor.receive step reply := rfl
    rw [fetched_transact, hprocessor, ← hreply]
    have hmoved (hfetched : (step.signals.isRead && step.slot == .prefetch) = false)
        (hcounter : step.loadsCounter = false) :
        (QueueState.after.moved queue step.action).Holds
          (if step.signals.isRead && step.slot == .prefetch then
            ⟨run.processor.resolve step.address, reply.value⟩ :: run.fetched
          else run.fetched) (run.processor.receive step reply) := by
      rw [hfetched]
      refine h.moved (run.processor.pc_receive reply hcounter)
        (run.processor.prefetch_receive reply fun hread hslot => ?_)
      simp [hread, hslot] at hfetched
    cases hread : step.signals.isRead with
    | false =>
      simp only [QueueState.after, hread, Bool.false_eq_true, if_false]
      simpa [hread] using hmoved (by simp [hread]) (by simp [BusStep.loadsCounter, hread])
    | true =>
      simp only [hread, Bool.true_and] at hmoved
      simp only [QueueState.after, hread, hfetch, if_true, Bool.true_and]
      cases hslot : step.slot with
      | prefetch | programCounter => exact trivial
      | none | latch | stackPointer | listWord | interruptVector =>
        rw [hslot] at hmoved
        exact hmoved rfl (by simp [BusStep.loadsCounter, hslot])

end Run

/-! ## Chains -/

namespace Processor

variable {tables : Tables}

/-- An operation that redirects chooses a program that fills the queue. -/
theorem holds_redirect (hrealizes : tables.Realizes forms) {fetched : List Fetched}
    {p : Processor} (target : Target) (h : QueueState.full.Holds fetched p)
    (hredirects : p.instruction.operation.redirects)
    (hfired : (p.act tables .operate target).1.phase = .instruction) (activity : Activity) :
    ∃ queue : QueueState, queue.Holds fetched (p.act tables .operate target).1 ∧
      queue.afterAll
        (((p.act tables .operate target).2.map tables.activityAt).getD activity) = .full := by
  cases hoperation : p.instruction.operation with
  | bcc =>
    refine ⟨if p.conditionHolds then .stale else .full, ?_⟩
    simp only [act, operate, hoperation, branch]
    cases p.conditionHolds with
    | true => exact ⟨trivial, by simp [hrealizes.branchTaken]; rfl⟩
    | false =>
      cases p.hasWordDisplacement with
      | true => exact ⟨h, by simp [hrealizes.branchWordNotTaken]; rfl⟩
      | false => exact ⟨h, by simp [hrealizes.branchByteNotTaken]; rfl⟩
  | bsr =>
    refine ⟨.stale, trivial, ?_⟩
    simp only [act, operate, hoperation, Option.map_some, Option.getD_some, hrealizes.subroutine]
    rfl
  | dbcc =>
    refine ⟨.stale, trivial, ?_⟩
    simp only [act, operate, hoperation, decrementAndBranch]
    split
    · simp only [Option.map_some, Option.getD_some, hrealizes.loopLeft]
      rfl
    · split
      · simp only [Option.map_some, Option.getD_some, hrealizes.loopExpired]
        rfl
      · simp only [Option.map_some, Option.getD_some, hrealizes.loopTaken]
        rfl
  | movem direction =>
    obtain ⟨transfer, offset, read, count, hact, hactivity⟩ :=
      act_of_list hrealizes target hoperation
    rw [hact]
    refine ⟨.full, h, ?_⟩
    simp only [Option.map_some, Option.getD_some, hactivity]
    exact (Activity.Steady.listTransfers read count).full
  | trap =>
    rw [act_of_trap p tables target hoperation] at hfired
    cases hfired
  | _ => simp [hoperation, Operation.redirects] at hredirects

/-- **An action leaves the queue to be filled** by the activity that follows it and by the stages
behind. -/
theorem holds_act (hrealizes : tables.Realizes forms) {fetched : List Fetched} {p : Processor}
    {queue : QueueState} {action : Action} {target : Target} {activity : Activity}
    {stages : List Stage} (h : queue.Holds fetched p)
    (hfired : (p.act tables action target).1.phase = .instruction)
    (hrefill : Stage.Refill p.instruction.operation queue
      (⟨action, target, activity⟩ :: stages)) :
    ∃ queue : QueueState, queue.Holds fetched (p.act tables action target).1 ∧
      Stage.Refill p.instruction.operation
        (queue.afterAll (((p.act tables action target).2.map tables.activityAt).getD activity))
        stages := by
  unfold Stage.Refill at hrefill
  dsimp only [] at hrefill
  split at hrefill
  · rename_i haction
    subst haction
    split at hrefill
    · rename_i hredirects
      obtain ⟨rfl, hrefill⟩ := hrefill
      obtain ⟨queue, hholds, hfull⟩ :=
        holds_redirect hrealizes target h hredirects hfired activity
      exact ⟨queue, hholds, by rw [hfull]; exact hrefill⟩
    · rename_i hplain
      rw [p.act_of_plain tables target (by simpa using hplain)]
      split at hrefill
      · exact ⟨.stale, trivial, hrefill⟩
      · rename_i hcounter
        exact ⟨queue, h.congr (p.pc_compute (by simpa using hcounter)) p.prefetch_compute, hrefill⟩
  · rename_i haction
    rw [p.act_of_ne_operate tables target haction]
    exact ⟨queue, h.congr (p.pc_prepare _ _) (p.prefetch_prepare _ _), hrefill⟩

end Processor

namespace Run

variable {β : Type} (tables : Tables)

/-- The rest of the chain fills the queue. -/
def Refilling (run : Run β) : Prop :=
  ∃ queue : QueueState, queue.Holds run.fetched run.processor ∧
    Stage.Refill run.processor.instruction.operation
      (queue.afterAll (run.processor.activity tables)) (run.processor.stages tables)

variable {tables} {run : Run β}

/-- An activity that fills the queue from any state, with no stages behind it. -/
theorem refilling_of_stale {p : Processor}
    (hactivity : QueueState.stale.afterAll (p.activity tables) = .full)
    (hstages : p.stages tables = []) : (run.withProcessor p).Refilling tables :=
  ⟨.stale, trivial, by rw [processor_withProcessor, hstages]; exact hactivity⟩

/-- Entering the next micro-operation goes on to fill the queue. -/
theorem refilling_enterMicroOp (hrealizes : tables.Realizes forms) {queue : QueueState}
    {p : Processor} (hphase : p.phase = .instruction) (hqueue : queue.Holds run.fetched p)
    (hrefill : Stage.Refill p.instruction.operation queue (tables.stagesAt p.microOp)) :
    (run.withProcessor (p.enterMicroOp tables)).Refilling tables := by
  cases Processor.entered_enterMicroOp tables hphase with
  | ended hstages hq =>
    refine ⟨queue, hqueue.congr (by rw [processor_withProcessor, hq])
      (by rw [processor_withProcessor, hq]), ?_⟩
    rw [hstages] at hrefill
    rw [processor_withProcessor, hq, Processor.stages_of_instruction tables (by exact hphase)]
    simp only [Processor.activity, hrealizes.empty, hstages, QueueState.afterAll_nil,
      List.tail_nil]
    exact hrefill
  | acted stage stages offset hstages hq hfired hactivity hrest =>
    obtain ⟨action, target, activity⟩ := stage
    have hinstruction := p.instruction_act tables action target
    rw [hstages] at hrefill
    have hoperation : (p.enterMicroOp tables).instruction.operation = p.instruction.operation := by
      rw [hq]
      exact congrArg Instruction.operation hinstruction
    rw [hq] at hfired
    obtain ⟨queue, hholds, hrefill⟩ := Processor.holds_act hrealizes hqueue hfired hrefill
    refine ⟨queue, ?_, ?_⟩
    · rw [processor_withProcessor, hq]
      exact hholds.congr rfl rfl
    · rw [processor_withProcessor, hoperation, hactivity, hrest]
      exact hrefill
  | trapped stage stages hstages hq hfired hstep =>
    refine refilling_of_stale ?_ (Processor.stages_of_phase_ne tables (by simp [hfired]))
    simp only [Processor.activity, hstep, hrealizes.exception]
    rfl

/-- At a boundary the queue is full. -/
theorem Refilling.full (h : run.Refilling tables) (hboundary : run.processor.atBoundary tables) :
    QueueState.full.Holds run.fetched run.processor := by
  obtain ⟨queue, hqueue, hrefill⟩ := h
  rw [Processor.stages_of_atBoundary tables hboundary,
    Processor.activity_eq_nil tables (Processor.programEnded_of_atBoundary tables hboundary)]
    at hrefill
  obtain rfl : queue = .full := hrefill
  exact hqueue

theorem refilling_start (hrealizes : tables.Realizes forms) (h : run.Refilling tables)
    (hboundary : run.processor.atBoundary tables) :
    (run.modify fun p => p.begin tables (p.start tables)).Refilling tables := by
  change (run.withProcessor
    (run.processor.begin tables (run.processor.start tables))).Refilling tables
  cases hentry : (run.processor.start tables).entry with
  | interrupt level =>
    rw [Processor.begin_interrupt _ hentry]
    refine refilling_of_stale ?_ (Processor.stages_of_phase_ne tables Phase.noConfusion)
    simp only [Processor.activity, hrealizes.interrupt]
    rfl
  | exception vector =>
    rw [Processor.begin_exception _ hentry]
    refine refilling_of_stale ?_ (Processor.stages_of_phase_ne tables Phase.noConfusion)
    simp only [Processor.activity, hrealizes.exception]
    rfl
  | instruction entry =>
    have hwellFormed := Processor.wellFormed_of_entry hrealizes
      (Processor.entry_of_start hentry)
    rw [Processor.begin_instruction _ hentry]
    exact refilling_enterMicroOp hrealizes rfl ((h.full hboundary).congr rfl rfl)
      hwellFormed.refill

/-- **The rest of the chain fills the queue**, at every step. -/
theorem kept_refilling (bus : Bus β) (hrealizes : tables.Realizes forms) :
    Kept tables bus (Refilling tables) where
  enter run h hphase hended hterminal := by
    obtain ⟨queue, hqueue, hrefill⟩ := h
    rw [Processor.activity_eq_nil tables hended, QueueState.afterAll_nil,
      Processor.stages_of_instruction tables hphase, tables.stagesAt_eq_cons hterminal,
      List.tail_cons] at hrefill
    exact refilling_enterMicroOp hrealizes hphase (hqueue.congr rfl rfl) hrefill
  start run h hboundary := refilling_start hrealizes h hboundary
  transact run start h hended := by
    obtain ⟨queue, hqueue, hrefill⟩ := h
    refine ⟨_, holds_transact bus start hqueue, ?_⟩
    rw [activity_transact bus tables run start hended, QueueState.afterAll_cons] at hrefill
    rw [stages_transact]
    simpa only [transact, Processor.instruction_receive] using hrefill

/-- The program counter is left to the processor. -/
def keepsCounter : Edit := fun p new => new.pc = p.registers.pc

/-- **In every session whose host leaves the program counter alone, the rest of the chain fills the
queue.** -/
theorem Reachable.refilling {bus : Bus β} (hrealizes : tables.Realizes forms)
    (h : run.Reachable tables bus keepsCounter) : run.Refilling tables := by
  have hreset (run : Run β) : (run.modify (·.reset tables)).Refilling tables := by
    refine refilling_of_stale ?_ (Processor.stages_of_phase_ne tables Phase.noConfusion)
    have hactivity : (run.processor.reset tables).activity tables =
        FixedPrograms.resetActivity := hrealizes.reset
    rw [hactivity]
    rfl
  refine Reachable.induct hrealizes ?_ (kept_refilling bus hrealizes) ?_ ?_ ?_ ?_ h
  · exact fun b => hreset (.begin _ b)
  · rintro run level ⟨queue, hqueue, hrefill⟩
    exact ⟨queue, hqueue.congr rfl rfl, hrefill⟩
  · exact fun run _ => hreset run
  · rintro run registers hpc ⟨queue, hqueue, hrefill⟩
    exact ⟨queue, hqueue.congr hpc rfl, hrefill⟩
  · rintro run debt ⟨queue, hqueue, hrefill⟩
    exact ⟨queue, hqueue.congr rfl rfl, hrefill⟩

end Run

end M68k
