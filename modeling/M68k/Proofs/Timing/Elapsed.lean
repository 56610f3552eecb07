import M68k.Proofs.Encoding.Measured
import M68k.Proofs.Execution.Snapshot
import M68k.Proofs.Execution.Upcoming
import M68k.Proofs.Lanes.Tandem
import M68k.Proofs.Latches.Flexible

/-!
# Time

An activity takes the time of its steps of fixed length, the length that the operation has set if
there is a flexible step among them, and the waits of the bus. That length is a whole number of cycle
pairs, as all others are. So on a bus without waits whatever starts at an instruction boundary takes
such a number.

## Main definitions

* `Bus.Waitless`: a bus without waits
* `Activity.isFlexible`, `Activity.elapsed`: the time that an activity takes
* `Stage.IsRigid`: no operation, and no flexible step

## Main results

* `Run.exists_requests_perform`: the time that goes by while an activity is performed
* `Run.spent_execute_operation`: the time of stages that operate once
* `Processor.spent_runInstruction`: the time of an instruction
* `Processor.four_dvd_spent`: whatever starts takes a whole number of cycle pairs
-/

namespace M68k

variable {β : Type} {bus : Bus β} {tables : Tables}

/-- No step has to wait. -/
def Bus.Waitless (bus : Bus β) : Prop := ∀ b request, (bus b request).1.wait = 0

theorem Bus.Waitless.waits (hbus : bus.Waitless) (b : β) (requests : List Request) :
    bus.waits b requests = 0 := by
  induction requests generalizing b with
  | nil => rfl
  | cons request requests ih => rw [Bus.waits, hbus, ih]

/-- One of the steps is flexible. -/
def Activity.isFlexible (activity : Activity) : Bool := activity.any (·.length == .flexible)

/-- The time that an activity takes, if `length` is set for its flexible step. -/
def Activity.elapsed (activity : Activity) (length : HalfCycles) : HalfCycles :=
  activity.time + if activity.isFlexible then length else 0

/-- A flexible step takes the length that is set. -/
theorem Activity.elapsed_flexible (length : HalfCycles) :
    Activity.flexible.elapsed length = length :=
  Nat.zero_add length

/-! ## Activities -/

namespace Run

/-- Runs that differ in offsets and marks take the same time. -/
theorem spent_of_unplaced {run other : Run β} (h : run.unplaced = other.unplaced) :
    run.spent = other.spent :=
  (congrArg Run.spent h :)

/-- They ask for the same. -/
theorem requests_of_unplaced {run other : Run β} (h : run.unplaced = other.unplaced) :
    run.requests = other.requests := by
  have hmap : run.history.map (·.request) = other.history.map (·.request) :=
    map_history_of_unplaced h fun _ => rfl
  rw [requests, requests, List.map_reverse, hmap, List.map_reverse]

theorem flexibleLength_transact (start : Option Start) (step : BusStep) (run : Run β) :
    (run.transact bus start step).processor.flexibleLength =
      if step.length = .flexible then 0 else run.processor.flexibleLength :=
  Processor.flexibleLength_receive _ _ _

theorem flexibleLength_perform (activity : Activity) (run : Run β) :
    (run.perform bus activity).processor.flexibleLength =
      if activity.isFlexible then 0 else run.processor.flexibleLength := by
  induction activity generalizing run with
  | nil => rfl
  | cons step activity ih =>
    rw [perform_cons, ih, flexibleLength_transact]
    by_cases hstep : step.length = .flexible <;> simp [Activity.isFlexible, hstep]

/-- **An activity takes its time**, the length that is set for its flexible step, and the waits for
what it asks of the bus. -/
theorem exists_requests_perform (bus : Bus β) (activity : Activity) (run : Run β) :
    ∃ requests, (run.perform bus activity).requests = run.requests ++ requests ∧
      (run.perform bus activity).bus = bus.follow run.bus requests ∧
      (run.perform bus activity).spent = run.spent +
        activity.elapsed run.processor.flexibleLength + bus.waits run.bus requests := by
  induction activity generalizing run with
  | nil => exact ⟨[], (List.append_nil _).symm, rfl, rfl⟩
  | cons step activity ih =>
    set next := run.transact bus none step
    set wait := (bus run.bus (run.processor.request step)).1.wait
    obtain ⟨requests, hrequests, hbus, hspent⟩ := ih next
    have htime : next.spent = run.spent + (run.processor.duration step + wait) := rfl
    have helapsed : run.processor.duration step +
          Activity.elapsed activity next.processor.flexibleLength =
        Activity.elapsed (step :: activity) run.processor.flexibleLength := by
      rw [flexibleLength_transact]
      obtain ⟨length, signals, address, slot, action⟩ := step
      cases length with
      | fixed duration =>
        simp [Activity.elapsed, Activity.time, Activity.isFlexible, Processor.duration,
          BusStep.time, Nat.add_assoc]
      | flexible =>
        simp [Activity.elapsed, Activity.time, Activity.isFlexible, Processor.duration,
          BusStep.time, Nat.add_comm]
    refine ⟨run.processor.request step :: requests, ?_, hbus, ?_⟩
    · rw [perform_cons, hrequests, requests_transact, List.append_assoc]
      rfl
    · have hadd (spent duration wait elapsed waits : Nat) :
          spent + (duration + wait) + elapsed + waits =
            spent + (duration + elapsed) + (wait + waits) := by omega
      rw [perform_cons, hspent, htime, ← helapsed]
      exact hadd _ _ _ _ _

/-- Where there are no waits this is all. -/
theorem spent_perform (hbus : bus.Waitless) (activity : Activity) (run : Run β) :
    (run.perform bus activity).spent =
      run.spent + activity.elapsed run.processor.flexibleLength := by
  obtain ⟨requests, -, -, hspent⟩ := exists_requests_perform bus activity run
  rw [hspent, hbus.waits]
  rfl

end Run

/-! ## Stages -/

/-- The stage neither operates nor waits for the operation. -/
structure Stage.IsRigid (stage : Stage) : Prop where
  prepares : stage.action ≠ .operate
  fixed : stage.activity.isFlexible = false

instance (stage : Stage) : Decidable stage.IsRigid :=
  decidable_of_iff (stage.action ≠ .operate ∧ stage.activity.isFlexible = false)
    ⟨fun h => ⟨h.1, h.2⟩, fun h => ⟨h.prepares, h.fixed⟩⟩

/-- The time of stages without flexible steps. -/
def Stage.times (stages : List Stage) : HalfCycles := (stages.map (·.activity.time)).sum

namespace Run

theorem plain_of_rigid {stages : List Stage} (h : ∀ stage ∈ stages, stage.IsRigid) {run : Run β}
    (hphase : run.processor.phase = .instruction) : run.Plain stages :=
  ⟨hphase, fun stage hstage haction => absurd haction (h stage hstage).prepares⟩

/-- Rigid stages take their time. -/
theorem spent_execute_rigid (hbus : bus.Waitless) {stages : List Stage}
    (h : ∀ stage ∈ stages, stage.IsRigid) {run : Run β}
    (hphase : run.processor.phase = .instruction) :
    (run.execute bus tables stages).spent = run.spent + Stage.times stages ∧
      (run.execute bus tables stages).processor.flexibleLength =
        run.processor.flexibleLength := by
  induction stages generalizing run with
  | nil => exact ⟨rfl, rfl⟩
  | cons stage stages ih =>
    obtain ⟨⟨hprepares, hfixed⟩, hrest⟩ := List.forall_mem_cons.1 h
    have hcontrol := run.processor.control_prepare stage.action stage.target
    have hkept : (run.processor.prepare stage.action stage.target).phase = .instruction :=
      (congrArg Control.phase hcontrol).trans hphase
    rw [execute, Processor.act_of_ne_operate _ tables _ hprepares]
    simp only [hkept, if_true, Option.map_none, Option.getD_none]
    set fired := run.withProcessor (run.processor.prepare stage.action stage.target)
    have hfired : fired.processor.flexibleLength = run.processor.flexibleLength :=
      run.processor.flexibleLength_prepare stage.action stage.target
    have hphase' : (fired.perform bus stage.activity).processor.phase = .instruction :=
      (congrArg Control.phase (control_perform bus stage.activity fired)).trans hkept
    obtain ⟨hspent, hlength⟩ := ih hrest hphase'
    rw [hspent, hlength, spent_perform hbus, flexibleLength_perform, Activity.elapsed, hfixed]
    refine ⟨?_, hfired⟩
    exact Nat.add_assoc run.spent stage.activity.time (Stage.times stages)

/-- **Stages that operate once** take their time, the time of what the operation chooses to do, and
the length that it sets. -/
theorem spent_execute_operation (hbus : bus.Waitless) {front rest : List Stage}
    (hfront : ∀ stage ∈ front, stage.IsRigid) (hrest : ∀ stage ∈ rest, stage.IsRigid)
    {run : Run β} (hphase : run.processor.phase = .instruction)
    (hoperation : run.processor.instruction.operation ≠ .trap) (activity : Activity) :
    let acted := (run.execute bus tables front).processor.act tables .operate .nowhere
    (run.execute bus tables (front ++ .perform activity :: rest)).spent =
      run.spent + Stage.times front +
        ((acted.2.map tables.activityAt).getD activity).elapsed acted.1.flexibleLength +
          Stage.times rest := by
  intro acted
  have hplain : run.Plain front := plain_of_rigid hfront hphase
  have hcontrol := control_execute bus tables hplain
  set middle := run.execute bus tables front with hmiddle
  have hinstruction : middle.processor.instruction = run.processor.instruction :=
    congrArg Control.instruction hcontrol
  have hstays : middle.processor.instruction.operation ≠ .trap := hinstruction ▸ hoperation
  have hkept : acted.1.phase = .instruction :=
    (congrArg Control.phase (Processor.control_act _ tables .operate .nowhere
      fun _ => hstays)).trans ((congrArg Control.phase hcontrol).trans hphase)
  rw [execute_append bus tables hplain, execute]
  simp only [Stage.perform, ← hmiddle, show middle.processor.act tables .operate .nowhere = acted
    from rfl, hkept, if_true]
  set chosen := (acted.2.map tables.activityAt).getD activity
  set performed := (middle.withProcessor acted.1).perform bus chosen
  have hphase' : performed.processor.phase = .instruction :=
    (congrArg Control.phase (control_perform bus chosen _)).trans hkept
  have hspent : performed.spent = middle.spent + chosen.elapsed acted.1.flexibleLength :=
    spent_perform hbus chosen (middle.withProcessor acted.1)
  rw [(spent_execute_rigid hbus hrest hphase').1, hspent,
    (spent_execute_rigid hbus hfront hphase).1]

end Run

/-! ## Instruction runs -/

namespace Processor

section

variable (hbus : bus.Waitless) (hrealizes : tables.Realizes forms) {p : Processor}
  (hboundary : p.atBoundary tables) (hinterrupt : p.pendingInterrupt? = none)
include hbus hrealizes hboundary hinterrupt

/-- **An instruction run takes the time of its stages**, of what the operation chooses to do, and
the length that it sets. -/
theorem spent_runInstruction {instruction : Instruction} {front rest : List Stage}
    {activity : Activity}
    (hdecode : decode? forms (Half.high.get p.prefetch) =
      some ⟨instruction, front ++ .perform activity :: rest⟩)
    (hunprivileged : instruction.requiresSupervisor = false)
    (hoperation : instruction.operation ≠ .trap) (hfront : ∀ stage ∈ front, stage.IsRigid)
    (hrest : ∀ stage ∈ rest, stage.IsRigid) (b : β) :
    let q := ((p.dispatchedRun instruction b).execute bus tables front).processor
    let acted := q.act tables .operate .nowhere
    (p.runInstruction tables bus b).spent =
      Stage.times front +
        ((acted.2.map tables.activityAt).getD activity).elapsed acted.1.flexibleLength +
          Stage.times rest := by
  intro q acted
  have hfinal := unplaced_runInstruction bus hrealizes hboundary hinterrupt hdecode
    (by rw [hunprivileged]; nofun) b
  have hphase : (p.dispatchedRun instruction b).processor.phase = .instruction := rfl
  rw [Run.spent_of_unplaced hfinal,
    Run.spent_execute_operation hbus hfront hrest hphase hoperation activity]
  exact congrArg (· + _ + _) (Nat.zero_add (Stage.times front))

/-- An operation that chooses nothing to do sets the length of the activity behind it. -/
theorem spent_runInstruction_compute {instruction : Instruction} {front rest : List Stage}
    {activity : Activity}
    (hdecode : decode? forms (Half.high.get p.prefetch) =
      some ⟨instruction, front ++ .perform activity :: rest⟩)
    (hunprivileged : instruction.requiresSupervisor = false)
    (hplain : instruction.operation.redirects = false) (hfront : ∀ stage ∈ front, stage.IsRigid)
    (hrest : ∀ stage ∈ rest, stage.IsRigid) (b : β) :
    let q := ((p.dispatchedRun instruction b).execute bus tables front).processor
    (p.runInstruction tables bus b).spent =
      Stage.times front + activity.elapsed q.compute.flexibleLength + Stage.times rest := by
  intro q
  have htrap : instruction.operation ≠ .trap := by
    intro htrap
    rw [htrap] at hplain
    cases hplain
  have hfrontPlain : (p.dispatchedRun instruction b).Plain front := Run.plain_of_rigid hfront rfl
  have hcontrol := Run.control_execute bus tables hfrontPlain
  have hinstruction : q.instruction = instruction := congrArg Control.instruction hcontrol
  have hact : q.act tables .operate .nowhere = (q.compute, none) :=
    q.act_of_plain tables .nowhere (by rw [hinstruction]; exact hplain)
  have hspent := spent_runInstruction hbus hrealizes hboundary hinterrupt hdecode hunprivileged
    htrap hfront hrest b
  simp only [show ((p.dispatchedRun instruction b).execute bus tables front).processor = q from rfl,
    hact] at hspent
  exact hspent

end

end Processor

/-! ## Lengths that operations set -/

namespace Processor

variable {p : Processor}

theorem flexibleLength_setOnCondition (p : Processor) :
    p.setOnCondition.flexibleLength =
      if p.instruction.destination.isDataRegister && p.conditionHolds then 4
      else p.flexibleLength :=
  flexibleLength_writeDestination _ _ _

/-- By how many bits a data register is shifted. -/
def shiftCount (p : Processor) : Nat :=
  if p.instruction.source.isDataRegister then p.source.toNat % 64 else (p.readOperand .quick).toNat

theorem flexibleLength_shift (h : p.instruction.destination.isDataRegister) :
    p.shift.flexibleLength = p.shiftCount * 4 := by
  simp only [shift, h, if_true, Bool.not_true, Bool.false_eq_true, if_false, shiftCount]

/-- The bit of a data register that an operation is about. -/
def bitNumber (p : Processor) : Nat := p.source.toNat % p.instruction.size.bits

theorem flexibleLength_changeBit {kind : BitKind} (hkind : kind ≠ .test)
    (h : p.instruction.destination.isDataRegister) :
    (p.operateOnBit kind).flexibleLength =
      (if kind = .clear then 8 else 4) + if p.bitNumber ≥ 16 then 4 else 0 := by
  have htest : (kind == .test) = false := by simpa using hkind
  simp only [operateOnBit, htest, Bool.false_eq_true, if_false, flexibleLength_writeDestination]
  refine (if_pos h).trans ?_
  cases kind <;> rfl

/-- **Operations set lengths of whole cycle pairs.** -/
theorem four_dvd_flexibleLength_compute (h : 4 ∣ p.flexibleLength) :
    4 ∣ p.compute.flexibleLength := by
  cases hlengthens : p.instruction.lengthens with
  | false => rwa [flexibleLength_compute p hlengthens]
  | true =>
    have hcycles (n : Nat) : 4 ∣ HalfCycles.ofCycles (38 + 2 * n - 4) := ⟨17 + n, by
      rw [HalfCycles.ofCycles]
      omega⟩
    unfold Instruction.lengthens at hlengthens
    simp only [compute]
    cases hoperation : p.instruction.operation with
    | scc =>
      simp only [flexibleLength_setOnCondition]
      split
      · exact Nat.dvd_refl 4
      · exact h
    | shift kind =>
      simp only [hoperation] at hlengthens
      simp only [flexibleLength_shift hlengthens]
      exact Nat.dvd_mul_left 4 _
    | bit kind =>
      simp only [hoperation, Bool.and_eq_true, bne_iff_ne] at hlengthens
      simp only [flexibleLength_changeBit hlengthens.1 hlengthens.2]
      refine Nat.dvd_add ?_ ?_ <;> split <;> decide
    | mulu => exact hcycles _
    | muls => exact hcycles _
    | _ => simp [hoperation] at hlengthens

theorem four_dvd_flexibleLength_act (h : 4 ∣ p.flexibleLength) (tables : Tables) (action : Action)
    (target : Target) : 4 ∣ (p.act tables action target).1.flexibleLength := by
  by_cases hlengthens : action = .operate → p.instruction.lengthens = false
  · rwa [flexibleLength_act p tables action target hlengthens]
  · obtain ⟨rfl, hset⟩ : action = .operate ∧ p.instruction.lengthens := by
      simpa using hlengthens
    have hplain := Instruction.redirects_of_lengthens hset
    rw [act_eq_fire p tables .operate target fun _ => hplain]
    exact four_dvd_flexibleLength_compute h

end Processor

/-! ## Whole cycle pairs -/

theorem Activity.Measured.four_dvd_elapsed {activity : Activity} (h : activity.Measured)
    {length : HalfCycles} (hlength : 4 ∣ length) : 4 ∣ activity.elapsed length := by
  refine Nat.dvd_add h.time ?_
  split
  · exact hlength
  · exact Nat.dvd_zero 4

/-- What an operation chooses to do is measured. -/
theorem Tables.Realizes.measured_chosen (hrealizes : tables.Realizes forms) {offset : Nat}
    (h : tables.programs.Chosen offset) : (tables.activityAt offset).Measured := by
  cases h with
  | listRead hroom =>
    rw [hrealizes.listRead_entry hroom]
    exact FixedPrograms.measured_listTransfers _ _
  | listWrite hroom =>
    rw [hrealizes.listWrite_entry hroom]
    exact FixedPrograms.measured_listTransfers _ _
  | branchTaken => rw [hrealizes.branchTaken]; decide
  | branchByteNotTaken => rw [hrealizes.branchByteNotTaken]; decide
  | branchWordNotTaken => rw [hrealizes.branchWordNotTaken]; decide
  | subroutine => rw [hrealizes.subroutine]; decide
  | loopLeft => rw [hrealizes.loopLeft]; decide
  | loopExpired => rw [hrealizes.loopExpired]; decide
  | loopTaken => rw [hrealizes.loopTaken]; decide

namespace Run

theorem four_dvd_perform (hbus : bus.Waitless) {activity : Activity} (h : activity.Measured)
    (run : Run β) (hspent : 4 ∣ run.spent) (hlength : 4 ∣ run.processor.flexibleLength) :
    4 ∣ (run.perform bus activity).spent ∧
      4 ∣ (run.perform bus activity).processor.flexibleLength := by
  rw [spent_perform hbus, flexibleLength_perform]
  refine ⟨Nat.dvd_add hspent (h.four_dvd_elapsed hlength), ?_⟩
  split
  · exact Nat.dvd_zero 4
  · exact hlength

/-- Measured stages take whole cycle pairs. -/
theorem four_dvd_execute (hbus : bus.Waitless) (hrealizes : tables.Realizes forms)
    {stages : List Stage} (h : AllMeasured stages) {run : Run β} (hspent : 4 ∣ run.spent)
    (hlength : 4 ∣ run.processor.flexibleLength) :
    4 ∣ (run.execute bus tables stages).spent := by
  induction stages generalizing run with
  | nil => exact hspent
  | cons stage stages ih =>
    obtain ⟨hstage, hrest⟩ := allMeasured_cons.1 h
    have hacted := Processor.four_dvd_flexibleLength_act hlength tables stage.action stage.target
    rw [execute]
    split
    · -- the activity is that of the stage, or one that the operation has chosen
      have hactivity : (((run.processor.act tables stage.action stage.target).2.map
          tables.activityAt).getD stage.activity).Measured := by
        cases hchosen : (run.processor.act tables stage.action stage.target).2 with
        | none => exact hstage
        | some offset => exact hrealizes.measured_chosen (Processor.chosen_act hchosen)
      obtain ⟨hspent', hlength'⟩ := four_dvd_perform hbus hactivity
        (run.withProcessor (run.processor.act tables stage.action stage.target).1) hspent hacted
      exact ih hrest hspent' hlength'
    · -- a trap goes on with the exception sequence, and the stages are over
      rw [hrealizes.exception]
      exact (four_dvd_perform hbus FixedPrograms.measured_exception
        (run.withProcessor (run.processor.act tables stage.action stage.target).1) hspent hacted).1

end Run

/-- **Whatever starts at a boundary takes a whole number of cycle pairs.** -/
theorem Processor.four_dvd_spent (hbus : bus.Waitless) (hrealizes : tables.Realizes forms)
    {p : Processor} (hboundary : p.atBoundary tables) (hlength : p.flexibleLength = 0) (b : β) :
    4 ∣ (p.runInstruction tables bus b).spent := by
  have hlength' : 4 ∣ p.flexibleLength := hlength ▸ Nat.dvd_zero 4
  rw [Run.spent_of_unplaced (runInstruction_atBoundary bus hrealizes hboundary b).2]
  cases hentry : (p.start tables).entry with
  | interrupt level =>
    rw [Run.fromStart_interrupt bus hentry]
    exact (Run.four_dvd_perform hbus FixedPrograms.measured_interrupt _ (Nat.dvd_zero 4) hlength').1
  | exception vector =>
    rw [Run.fromStart_exception bus hentry]
    exact (Run.four_dvd_perform hbus FixedPrograms.measured_exception _ (Nat.dvd_zero 4) hlength').1
  | instruction entry =>
    rw [Run.fromStart_instruction bus hentry]
    have hdecode := recipe_of_entry hrealizes (entry_of_start hentry)
    exact Run.four_dvd_execute hbus hrealizes (measured_of_decode? hdecode) (Nat.dvd_zero 4)
      hlength'

end M68k
