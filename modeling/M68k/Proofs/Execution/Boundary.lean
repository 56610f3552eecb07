import M68k.Proofs.Encoding.Forms
import M68k.Proofs.Execution.Stages

/-!
# From boundary to boundary

An instruction run starts something at a boundary and runs until the next one. The measure of what
is left drops with each bus step, and what is left never runs out between two steps without a
boundary being reached. So the run ends at a boundary, and does what the stages of the chain say.

## Main definitions

* `Processor.remaining`: a bound on the bus steps to come
* `Processor.Orderly`, `Processor.Settled`: between two steps more is to come, or there is a
  boundary

## Main results

* `Run.untilStop_atBoundary`: a run in progress goes on to the end of its chain
* `Processor.runInstruction_atBoundary`: an instruction run executes what starts at the boundary
-/

namespace M68k

open Encoding

variable {β : Type} {tables : Tables} (bus : Bus β)

/-! ## Executing takes time -/

namespace Processor

/-- A conditional branch and a counted loop choose a program that takes time. -/
theorem exists_chosen (hrealizes : tables.Realizes forms) (p : Processor) (target : Target)
    (h : p.instruction.operation = .bcc ∨ p.instruction.operation = .dbcc) :
    ∃ offset, (p.act tables .operate target).2 = some offset ∧
      tables.activityAt offset ≠ [] := by
  rcases h with h | h
  · simp only [act, operate, h, branch]
    split
    · exact ⟨_, rfl, by rw [hrealizes.branchTaken]; decide⟩
    · split
      · exact ⟨_, rfl, by rw [hrealizes.branchWordNotTaken]; decide⟩
      · exact ⟨_, rfl, by rw [hrealizes.branchByteNotTaken]; decide⟩
  · simp only [act, operate, h, decrementAndBranch]
    split
    · exact ⟨_, rfl, by rw [hrealizes.loopLeft]; decide⟩
    · split
      · exact ⟨_, rfl, by rw [hrealizes.loopExpired]; decide⟩
      · exact ⟨_, rfl, by rw [hrealizes.loopTaken]; decide⟩

/-- Only an operation that redirects chooses a program. -/
theorem redirects_of_chosen {p : Processor} {action : Action} {target : Target} {offset : Nat}
    (h : (p.act tables action target).2 = some offset) :
    action = .operate ∧ p.instruction.operation.redirects := by
  by_cases haction : action = .operate
  · subst haction
    refine ⟨rfl, ?_⟩
    by_contra hplain
    rw [act_of_plain p tables target (by simpa using hplain)] at h
    cases h
  · rw [act_of_ne_operate p tables target haction] at h
    cases h

/-- An active stage performs some activity, unless an exception takes over. -/
theorem performed_ne_nil (hrealizes : tables.Realizes forms) {p : Processor} {stage : Stage}
    (horderly : stage.Orderly p.instruction.operation)
    (hactive : stage.Active p.instruction.operation)
    (hfired : (p.act tables stage.action stage.target).1.phase = .instruction) :
    ((p.act tables stage.action stage.target).2.map tables.activityAt).getD stage.activity ≠
      [] := by
  rcases hactive with hactivity | ⟨haction, hoperation⟩
  · cases hchosen : (p.act tables stage.action stage.target).2 with
    | none => exact hactivity
    | some offset =>
      obtain ⟨haction, hredirects⟩ := redirects_of_chosen hchosen
      exact absurd (horderly haction hredirects) hactivity
  · rw [haction] at hfired ⊢
    have hloop (h : p.instruction.operation = .bcc ∨ p.instruction.operation = .dbcc) :
        ((p.act tables .operate stage.target).2.map tables.activityAt).getD stage.activity ≠
          [] := by
      obtain ⟨offset, hoffset, hactivity⟩ := exists_chosen hrealizes p stage.target h
      rw [hoffset]
      exact hactivity
    rcases hoperation with hbcc | hdbcc | htrap
    · exact hloop (.inl hbcc)
    · exact hloop (.inr hdbcc)
    · rw [act_of_trap _ _ _ htrap] at hfired
      cases hfired

end Processor

namespace Run

theorem length_history_execute_ge (stages : List Stage) (run : Run β) :
    run.history.length ≤ (run.execute bus tables stages).history.length := by
  induction stages generalizing run with
  | nil => exact Nat.le_refl _
  | cons stage stages ih =>
    simp only [execute]
    split
    · refine Nat.le_trans ?_ (ih _)
      simp
    · simp

/-- Executing an active stage takes time. -/
theorem length_history_execute_gt (hrealizes : tables.Realizes forms) (stages : List Stage)
    (run : Run β) (hphase : run.processor.phase = .instruction)
    (horderly : ∀ stage ∈ stages, stage.Orderly run.processor.instruction.operation)
    (hactive : ∃ stage ∈ stages, stage.Active run.processor.instruction.operation) :
    run.history.length < (run.execute bus tables stages).history.length := by
  induction stages generalizing run with
  | nil => simp at hactive
  | cons stage stages ih =>
    have hinstruction := run.processor.instruction_act tables stage.action stage.target
    have hstage := horderly stage (by simp)
    simp only [execute]
    split
    · rename_i hfired
      by_cases hhead : stage.Active run.processor.instruction.operation
      · have hperformed := Processor.performed_ne_nil hrealizes hstage hhead hfired
        refine Nat.lt_of_lt_of_le ?_ (length_history_execute_ge bus stages _)
        rw [length_history_perform, history_withProcessor]
        exact Nat.lt_add_of_pos_right (List.length_pos_iff.2 hperformed)
      · obtain ⟨later, hmem, hlater⟩ := hactive
        have hrest : later ∈ stages := by
          rcases List.mem_cons.1 hmem with rfl | hrest
          · exact absurd hlater hhead
          · exact hrest
        refine Nat.lt_of_le_of_lt ?_ (ih _ ?_ ?_ ?_)
        · simp
        · simpa using hfired
        · intro stage' hstage'
          simpa [hinstruction] using horderly stage' (by simp [hstage'])
        · exact ⟨later, hrest, by simpa [hinstruction] using hlater⟩
    · rw [length_history_perform, history_withProcessor, hrealizes.exception]
      exact Nat.lt_add_of_pos_right (by decide)

end Run

/-- A bus that answers every request with the same word, at once. -/
def Bus.constant (word : Word) : Bus Unit := fun b _ => (⟨word, 0⟩, b)

/-! ## What is left -/

namespace Processor

variable (tables) in
/-- A bound on the bus steps up to the end of the chain in progress. -/
def remaining (p : Processor) : Nat :=
  match p.phase with
  | .instruction =>
    (tables.stagesAt p.microOp).length * (tables.steps.size + 1) + (p.activity tables).length
  | .reset | .exception => (p.activity tables).length

variable (tables) in
/-- The stages to come keep to the rule that an operation which redirects has no activity of its
own. -/
def Orderly (p : Processor) : Prop :=
  ∀ stage ∈ p.stages tables, stage.Orderly p.instruction.operation

variable (tables) in
/-- If the bus program has ended, there is a boundary or a stage with activity comes next. -/
def Settled (p : Processor) : Prop :=
  p.programEnded tables → p.atBoundary tables = false →
    p.phase = .instruction ∧
      ∃ stage stages, p.stages tables = stage :: stages ∧ stage.activity ≠ []

variable (tables) in
theorem length_activity_le (p : Processor) : (p.activity tables).length ≤ tables.steps.size :=
  tables.length_activityAt_le _

variable (tables) in
theorem remaining_le (p : Processor) :
    p.remaining tables ≤
      (tables.stagesAt p.microOp).length * (tables.steps.size + 1) + tables.steps.size := by
  have := p.length_activity_le tables
  unfold remaining
  split <;> omega

theorem remaining_le_stepLimit (p : Processor) : p.remaining tables ≤ tables.stepLimit := by
  have hstages : (tables.stagesAt p.microOp).length * (tables.steps.size + 1) ≤
      tables.microOps.size * (tables.steps.size + 1) :=
    Nat.mul_le_mul_right _ (tables.length_stagesAt_le _)
  have := p.remaining_le tables
  rw [Tables.stepLimit, Nat.succ_mul]
  omega

theorem instruction_enterMicroOp (p : Processor) :
    (p.enterMicroOp tables).instruction = p.instruction := by
  unfold enterMicroOp
  dsimp only []
  split
  · rfl
  · split <;> exact instruction_act p tables _ _

theorem stages_enterMicroOp {p : Processor} {stage : Stage}
    (h : stage ∈ (p.enterMicroOp tables).stages tables) : stage ∈ tables.stagesAt p.microOp := by
  unfold stages at h
  split at h
  · rw [microOp_enterMicroOp] at h
    exact List.mem_of_mem_tail h
  · simp at h
  · simp at h

theorem stages_eq_of_follow {p : Processor} (hphase : p.phase = .instruction)
    (hterminal : (tables.microOp p.microOp).isTerminal = false) :
    p.stages tables = tables.stagesAt (p.microOp + 1) := by
  rw [stages_of_instruction tables hphase, tables.stagesAt_eq_cons hterminal, List.tail_cons]

/-- Going along the chain keeps the rule. -/
theorem Orderly.follow (wanted : MicroOp → Bool) {p : Processor} (h : p.Orderly tables) :
    (p.follow tables wanted).Orderly tables := by
  fun_induction Processor.follow tables wanted p with
  | case1 p hfollow ih =>
    obtain ⟨hphase, -, hterminal, -⟩ := hfollow
    refine ih fun stage hstage => ?_
    rw [instruction_enterMicroOp]
    refine h stage ?_
    rw [stages_eq_of_follow hphase (by simpa using hterminal)]
    exact stages_enterMicroOp hstage
  | case2 => exact h

/-- Going along the chain does not add to what is left. -/
theorem remaining_follow (wanted : MicroOp → Bool) (p : Processor) :
    (p.follow tables wanted).remaining tables ≤ p.remaining tables := by
  fun_induction Processor.follow tables wanted p with
  | case1 p hfollow ih =>
    obtain ⟨hphase, hended, hterminal, -⟩ := hfollow
    refine ih.trans ((remaining_le tables _).trans ?_)
    rw [microOp_enterMicroOp]
    have hstages : tables.stagesAt p.microOp =
        tables.stageOf (tables.microOp p.microOp) :: tables.stagesAt (p.microOp + 1) :=
      tables.stagesAt_eq_cons (by simpa using hterminal)
    simp only [remaining, hphase, activity_eq_nil tables hended, hstages, List.length_cons,
      List.length_nil, Nat.succ_mul]
    omega
  | case2 => exact Nat.le_refl _

/-- Where nothing is left there is a boundary. -/
theorem atBoundary_of_remaining {p : Processor} (h : p.remaining tables = 0) :
    p.atBoundary tables := by
  have hactivity : (p.activity tables).length = 0 := by
    unfold remaining at h
    split at h <;> omega
  have hended : p.programEnded tables := by
    rw [← activity_isEmpty, List.isEmpty_iff]
    exact List.length_eq_zero_iff.1 hactivity
  simp only [atBoundary, hended, Bool.true_and]
  split
  · rfl
  · rfl
  · rename_i hphase
    simp only [remaining, hphase] at h
    have hstages : (tables.stagesAt p.microOp).length = 0 := by
      by_contra hne
      have hpos : 0 < tables.steps.size + 1 := by omega
      have := Nat.mul_pos (Nat.pos_of_ne_zero hne) hpos
      omega
    rw [← tables.stagesAt_isEmpty, List.isEmpty_iff]
    exact List.length_eq_zero_iff.1 hstages

/-- Behind the whole chain there is a boundary. -/
theorem atBoundary_follow {p : Processor}
    (h : (p.follow tables fun _ => true).programEnded tables) :
    (p.follow tables fun _ => true).atBoundary tables := by
  fun_induction Processor.follow tables (fun _ => true) p with
  | case1 p hfollow ih => exact ih h
  | case2 p hfollow =>
    simp only [atBoundary, h, Bool.true_and]
    split
    · rfl
    · rfl
    · rename_i hphase
      by_contra hterminal
      exact hfollow ⟨hphase, h, hterminal, rfl⟩

/-- Once the micro-operations without bus activity have been fired, there is a boundary or a stage
with activity comes next. -/
theorem settled_fireBusFree (p : Processor) : (p.fireBusFree tables).Settled tables := by
  unfold fireBusFree
  fun_induction Processor.follow tables _ p with
  | case1 p hfollow ih => exact ih
  | case2 p hfollow =>
    intro hended hboundary
    have hphase : p.phase = .instruction := by
      by_contra hphase
      simp only [atBoundary, hended, Bool.true_and] at hboundary
      split at hboundary <;> simp_all
    have hterminal : (tables.microOp p.microOp).isTerminal = false := by
      simpa [atBoundary, hended, hphase] using hboundary
    refine ⟨hphase, ?_⟩
    rw [stages_eq_of_follow hphase hterminal]
    cases hprogram : (tables.microOp (p.microOp + 1)).program with
    | none => exact absurd ⟨hphase, hended, by simp [hterminal], by simp [hprogram]⟩ hfollow
    | some program =>
      have hnext : (tables.microOp (p.microOp + 1)).isTerminal = false := by
        simp [MicroOp.isTerminal, hprogram]
      refine ⟨_, _, tables.stagesAt_eq_cons hnext, ?_⟩
      have hstep : (tables.step program).isTerminal = false := by
        by_contra hstep
        exact hfollow ⟨hphase, hended, by simp [hterminal], by simpa [hprogram] using hstep⟩
      simp only [Tables.stageOf, hprogram, Option.getD_some, tables.activityAt_eq_cons hstep]
      exact List.cons_ne_nil _ _

/-- What goes on to execute an active stage does not run into the next boundary. -/
theorem programEnded_follow (hrealizes : tables.Realizes forms) {p : Processor}
    (h : 0 < ((Run.begin p ()).conclude (Bus.constant 0) tables).history.length) :
    (p.follow tables fun _ => true).programEnded tables = false := by
  by_contra hended
  have hboundary := atBoundary_follow (by simpa using hended)
  have hfollow := Run.unplaced_conclude_follow (Bus.constant 0) tables hrealizes.empty (fun _ => true)
    (Run.begin p ()) p
  rw [Run.conclude_of_atBoundary (Bus.constant 0) tables hboundary] at hfollow
  have hlength := Run.length_history_of_unplaced hfollow
  simp only [Run.history_withProcessor, Run.begin, List.length_nil] at hlength
  exact absurd hlength (by
    change 0 ≠ ((Run.begin p ()).conclude (Bus.constant 0) tables).history.length
    omega)

/-- Between two steps of a chain the next bus step belongs to it. -/
theorem programEnded_follow_of_settled (hrealizes : tables.Realizes forms) {p : Processor}
    (horderly : p.Orderly tables) (hsettled : p.Settled tables)
    (hboundary : p.atBoundary tables = false) :
    (p.follow tables fun _ => true).programEnded tables = false := by
  cases hended : p.programEnded tables with
  | false => rw [follow, if_neg (by simp [hended]), hended]
  | true =>
    refine programEnded_follow hrealizes ?_
    obtain ⟨hphase, stage, stages, hstages, hactivity⟩ := hsettled hended hboundary
    have hgt := Run.length_history_execute_gt (Bus.constant 0) hrealizes (p.stages tables)
      (Run.begin p ()) hphase horderly
      ⟨stage, by simp [hstages], .inl hactivity⟩
    rw [Run.conclude]
    change 0 < (((Run.begin p ()).perform (Bus.constant 0) (p.activity tables)).execute
      (Bus.constant 0) tables (p.stages tables)).history.length
    rw [activity_eq_nil tables hended, Run.perform_nil]
    exact hgt

/-- Between two steps of a chain the search for the next step starts nothing. -/
theorem settle_underway (hrealizes : tables.Realizes forms) {p : Processor}
    (horderly : p.Orderly tables) (hsettled : p.Settled tables)
    (hboundary : p.atBoundary tables = false) :
    p.settle tables = (p.follow tables fun _ => true, none) := by
  have hended := programEnded_follow_of_settled hrealizes horderly hsettled hboundary
  simp [settle, atBoundary, hended]

end Processor

/-! ## Steps of a chain -/

namespace Run

variable (tables) in
/-- Run the step that the processor stands at, and fire what follows it. -/
def advance (start : Option Start) (run : Run β) : Run β :=
  let next := run.transact bus start (tables.step run.processor.busStep)
  next.withProcessor (next.processor.fireBusFree tables)

theorem step_eq (run : Run β) :
    run.step tables bus =
      (run.withProcessor (run.processor.settle tables).1).advance tables bus
        (run.processor.settle tables).2 := rfl

variable (tables) in
/-- What holds between the steps of a chain. -/
structure Underway (run next : Run β) : Prop where
  orderly : next.processor.Orderly tables
  settled : next.processor.Settled tables
  remaining : next.processor.remaining tables < run.processor.remaining tables
  conclude : (next.conclude bus tables).unplaced = (run.conclude bus tables).unplaced

theorem underway_advance (hrealizes : tables.Realizes forms) (start : Option Start)
    (run : Run β) (horderly : run.processor.Orderly tables)
    (hended : run.processor.programEnded tables = false) :
    Underway tables bus run (run.advance tables bus start) := by
  set next := run.transact bus start (tables.step run.processor.busStep)
  have hprocessor : next.processor = run.processor.receive (tables.step run.processor.busStep)
      (bus run.bus (run.processor.request (tables.step run.processor.busStep))).1 := rfl
  have hstages : next.processor.stages tables = run.processor.stages tables :=
    stages_transact bus tables run start _
  have hactivity :
      run.processor.activity tables =
        tables.step run.processor.busStep :: next.processor.activity tables :=
    activity_transact bus tables run start hended
  have hremaining : next.processor.remaining tables < run.processor.remaining tables := by
    have hlength := congrArg List.length hactivity
    rw [List.length_cons] at hlength
    simp only [Processor.remaining]
    rw [hprocessor, Processor.phase_receive, Processor.microOp_receive, ← hprocessor]
    split <;> omega
  refine
    { orderly := ?_
      settled := Processor.settled_fireBusFree next.processor
      remaining := (Processor.remaining_follow _ next.processor).trans_lt hremaining
      conclude := ?_ }
  · refine Processor.Orderly.follow _ fun stage hstage => ?_
    rw [hprocessor, Processor.instruction_receive]
    exact horderly stage (hstages ▸ hstage)
  · refine (unplaced_conclude_follow bus tables hrealizes.empty _ next next.processor).trans ?_
    exact unplaced_conclude_transact bus tables run start hended

/-- A step between two boundaries is one of the chain in progress. -/
theorem underway_step (hrealizes : tables.Realizes forms) {run : Run β}
    (horderly : run.processor.Orderly tables) (hsettled : run.processor.Settled tables)
    (hboundary : run.processor.atBoundary tables = false) :
    Underway tables bus run (run.step tables bus) := by
  have hended := Processor.programEnded_follow_of_settled hrealizes horderly hsettled hboundary
  have hsettle := Processor.settle_underway hrealizes horderly hsettled hboundary
  have hadvance := underway_advance bus hrealizes none
    (run.withProcessor (run.processor.follow tables fun _ => true))
    (horderly.follow _) hended
  rw [step_eq, hsettle]
  exact
    { orderly := hadvance.orderly
      settled := hadvance.settled
      remaining := hadvance.remaining.trans_le (Processor.remaining_follow _ _)
      conclude := hadvance.conclude.trans
        (unplaced_conclude_follow bus tables hrealizes.empty _ run run.processor) }

/-- **A run in progress goes on to the end of its chain**, and does what its stages say. -/
theorem untilStop_atBoundary (hrealizes : tables.Realizes forms) (limit : Nat) {run : Run β}
    (horderly : run.processor.Orderly tables) (hsettled : run.processor.Settled tables)
    (hlimit : run.processor.remaining tables ≤ limit) :
    let final := run.untilStop tables bus (fun run => run.processor.atBoundary tables) limit
    final.processor.atBoundary tables ∧
      final.unplaced = (run.conclude bus tables).unplaced := by
  induction limit generalizing run with
  | zero =>
    have hboundary := Processor.atBoundary_of_remaining (Nat.le_zero.1 hlimit)
    exact ⟨hboundary, by rw [conclude_of_atBoundary bus tables hboundary]; rfl⟩
  | succ limit ih =>
    cases hboundary : run.processor.atBoundary tables with
    | true =>
      simp only [untilStop, hboundary, if_true]
      exact ⟨trivial, by rw [conclude_of_atBoundary bus tables hboundary]⟩
    | false =>
      simp only [untilStop, hboundary, Bool.false_eq_true, if_false]
      have hstep := underway_step bus hrealizes horderly hsettled hboundary
      have hremaining := hstep.remaining
      obtain ⟨hfinal, hconclude⟩ := ih hstep.orderly hstep.settled (by omega)
      exact ⟨hfinal, hconclude.trans hstep.conclude⟩

end Run

/-! ## What starts at a boundary -/

namespace Processor

/-- The chain of a legal opcode is that of its recipe. -/
theorem recipe_of_entry (hrealizes : tables.Realizes forms) {opcode : Word} {entry : TableEntry}
    (h : tables.entry? opcode = some entry) :
    decode? forms opcode = some ⟨entry.instruction, tables.stagesAt entry.start⟩ := by
  rw [← hrealizes.recipe opcode, Tables.recipe?, h]
  rfl

/-- The entry of an instruction that starts. -/
theorem entry_of_start {p : Processor} {entry : TableEntry}
    (h : (p.start tables).entry = .instruction entry) :
    tables.entry? (Half.high.get p.prefetch) = some entry := by
  unfold start at h
  dsimp only [] at h
  split at h
  · cases h
  · split at h
    · cases h
    · split at h
      · cases h
      · cases h
        assumption

/-- An instruction that starts is allowed in the mode in force. -/
theorem isSupervisor_of_start {p : Processor} {entry : TableEntry}
    (h : (p.start tables).entry = .instruction entry)
    (hrequires : entry.instruction.requiresSupervisor) : p.registers.isSupervisor := by
  unfold start at h
  dsimp only [] at h
  split at h
  · cases h
  · split at h
    · cases h
    · split at h
      · cases h
      · rename_i hallowed
        cases h
        simpa [hrequires] using hallowed

/-- A legal opcode starts its instruction, unless there is an interrupt or the mode is not good
enough. -/
theorem start_of_decode? (hrealizes : tables.Realizes forms) {p : Processor} {recipe : Recipe}
    (hinterrupt : p.pendingInterrupt? = none)
    (hdecode : decode? forms (Half.high.get p.prefetch) = some recipe)
    (hprivilege : recipe.instruction.requiresSupervisor → p.registers.isSupervisor) :
    ∃ entry, (p.start tables).entry = .instruction entry ∧
      entry.instruction = recipe.instruction ∧ tables.stagesAt entry.start = recipe.stages := by
  rw [← hrealizes.recipe, Tables.recipe?, Option.map_eq_some_iff] at hdecode
  obtain ⟨entry, hentry, rfl⟩ := hdecode
  refine ⟨entry, ?_, rfl, rfl⟩
  have hallowed : (entry.instruction.requiresSupervisor && !p.registers.isSupervisor) = false := by
    simpa using hprivilege
  simp only [start, hinterrupt, hentry, hallowed, Bool.false_eq_true, if_false]

/-- An opcode that is not legal starts an exception. -/
theorem start_of_decode?_none (hrealizes : tables.Realizes forms) {p : Processor}
    (hinterrupt : p.pendingInterrupt? = none)
    (hdecode : decode? forms (Half.high.get p.prefetch) = none) :
    (p.start tables).entry = .exception (illegalVector (Half.high.get p.prefetch)) := by
  rw [← hrealizes.recipe, Tables.recipe?, Option.map_eq_none_iff] at hdecode
  simp only [start, hinterrupt, hdecode]

/-- So does one that is not allowed in user mode. -/
theorem start_of_refused (hrealizes : tables.Realizes forms) {p : Processor} {recipe : Recipe}
    (hinterrupt : p.pendingInterrupt? = none)
    (hdecode : decode? forms (Half.high.get p.prefetch) = some recipe)
    (hrefused : (recipe.instruction.requiresSupervisor && !p.registers.isSupervisor) = true) :
    (p.start tables).entry = .exception privilegeVector := by
  rw [← hrealizes.recipe, Tables.recipe?, Option.map_eq_some_iff] at hdecode
  obtain ⟨entry, hentry, rfl⟩ := hdecode
  simp only [start, hinterrupt, hentry, hrefused, if_true]

/-- The rules that the chain in progress keeps, once an instruction has started. -/
theorem wellFormed_of_entry (hrealizes : tables.Realizes forms) {opcode : Word}
    {entry : TableEntry} (h : tables.entry? opcode = some entry) :
    (Recipe.mk entry.instruction (tables.stagesAt entry.start)).WellFormed
      (extensionWords opcode) :=
  wellFormed_of_decode? (recipe_of_entry hrealizes h)

/-- The processor that executes the stages of an instruction. -/
def dispatch (p : Processor) (opcode : Word) (instruction : Instruction) : Processor :=
  { p with phase := .instruction, opcode := opcode, instruction := instruction }

/-- The processor that performs the sequence of an exception. -/
def refuse (p : Processor) (start : Start) (vector : Byte) : Processor :=
  let entered :=
    { p with phase := .instruction, opcode := start.opcode }.enterException start.address
  { entered with
    effectiveAddress := entered.effectiveAddress.set .source (vector.setWidth 32 <<< 2) }

/-- The processor that performs the sequence of an interrupt. -/
def accept (p : Processor) (level : Level) : Processor :=
  let entered := { p with phase := .instruction }.enterException (p.registers.pc - 4)
  { entered with
    levelSevenRose := entered.levelSevenRose && level != 7
    registers := entered.registers.setMask level
    acknowledgedLevel := level
    interruptVector := 24 + level.setWidth 16 }

theorem begin_interrupt (p : Processor) {start : Start} {level : Level}
    (h : start.entry = .interrupt level) :
    p.begin tables start = { p.accept level with busStep := tables.programs.interrupt } := by
  simp only [begin, h]
  rfl

theorem begin_exception (p : Processor) {start : Start} {vector : Byte}
    (h : start.entry = .exception vector) :
    p.begin tables start =
      { p.refuse start vector with busStep := tables.programs.exception } := by
  simp only [begin, h]
  rfl

theorem begin_instruction (p : Processor) {start : Start} {entry : TableEntry}
    (h : start.entry = .instruction entry) :
    p.begin tables start =
      enterMicroOp tables
        { p.dispatch start.opcode entry.instruction with microOp := entry.start } := by
  simp only [begin, h]
  rfl

end Processor

namespace Run

variable (tables) in
/-- What runs from a boundary up to the next one. -/
def fromStart (start : Start) (run : Run β) : Run β :=
  match start.entry with
  | .interrupt level =>
    (run.withProcessor (run.processor.accept level)).perform bus FixedPrograms.interruptActivity
  | .exception vector =>
    (run.withProcessor (run.processor.refuse start vector)).perform bus
      FixedPrograms.exceptionActivity
  | .instruction entry =>
    (run.withProcessor (run.processor.dispatch start.opcode entry.instruction)).execute bus tables
      (tables.stagesAt entry.start)

theorem fromStart_instruction {start : Start} {entry : TableEntry}
    (h : start.entry = .instruction entry) (run : Run β) :
    run.fromStart tables bus start =
      (run.withProcessor (run.processor.dispatch start.opcode entry.instruction)).execute bus
        tables (tables.stagesAt entry.start) := by
  simp only [fromStart, h]

theorem fromStart_exception {start : Start} {vector : Byte} (h : start.entry = .exception vector)
    (run : Run β) :
    run.fromStart tables bus start =
      (run.withProcessor (run.processor.refuse start vector)).perform bus
        FixedPrograms.exceptionActivity := by
  simp only [fromStart, h]

theorem fromStart_interrupt {start : Start} {level : Level} (h : start.entry = .interrupt level)
    (run : Run β) :
    run.fromStart tables bus start =
      (run.withProcessor (run.processor.accept level)).perform bus
        FixedPrograms.interruptActivity := by
  simp only [fromStart, h]

theorem conclude_of_phase_ne {run : Run β} {p : Processor} (h : p.phase ≠ .instruction) :
    (run.withProcessor p).conclude bus tables =
      (run.withProcessor p).perform bus (tables.activityAt p.busStep) := by
  rw [conclude, processor_withProcessor, Processor.stages_of_phase_ne tables h, execute_nil]
  rfl

theorem unplaced_conclude_begin (hrealizes : tables.Realizes forms) (start : Start)
    (run : Run β) :
    ((run.withProcessor (run.processor.begin tables start)).conclude bus tables).unplaced =
      (run.fromStart tables bus start).unplaced := by
  unfold fromStart
  split
  · rename_i level hentry
    have hphase : (run.processor.begin tables start).phase ≠ .instruction := by
      rw [Processor.begin_interrupt _ hentry]
      exact Phase.noConfusion
    rw [conclude_of_phase_ne bus hphase, Processor.begin_interrupt _ hentry]
    simp only [hrealizes.interrupt]
    exact unplaced_perform bus (unplaced_withProcessor rfl (by rfl)) _
  · rename_i vector hentry
    have hphase : (run.processor.begin tables start).phase ≠ .instruction := by
      rw [Processor.begin_exception _ hentry]
      exact Phase.noConfusion
    rw [conclude_of_phase_ne bus hphase, Processor.begin_exception _ hentry]
    simp only [hrealizes.exception]
    exact unplaced_perform bus (unplaced_withProcessor rfl (by rfl)) _
  · rename_i entry hentry
    rw [Processor.begin_instruction _ hentry]
    refine (unplaced_conclude_enterMicroOp bus tables hrealizes.empty run (by rfl)).trans ?_
    exact unplaced_execute bus tables (unplaced_withProcessor rfl (by rfl)) _

/-- Whatever starts at a boundary takes time. -/
theorem length_history_fromStart (hrealizes : tables.Realizes forms) (run : Run β) :
    run.history.length <
      (run.fromStart tables bus (run.processor.start tables)).history.length := by
  unfold fromStart
  split
  · rw [length_history_perform, history_withProcessor]
    exact Nat.lt_add_of_pos_right (by decide)
  · rw [length_history_perform, history_withProcessor]
    exact Nat.lt_add_of_pos_right (by decide)
  · rename_i entry hentry
    have hwellFormed := Processor.wellFormed_of_entry hrealizes
      (Processor.entry_of_start hentry)
    exact length_history_execute_gt bus hrealizes (tables.stagesAt entry.start)
      (run.withProcessor
        (run.processor.dispatch (run.processor.start tables).opcode entry.instruction)) rfl
      hwellFormed.orderly hwellFormed.active

end Run

namespace Processor

theorem orderly_begin (hrealizes : tables.Realizes forms) (p : Processor) :
    (p.begin tables (p.start tables)).Orderly tables := by
  cases hentry : (p.start tables).entry with
  | interrupt level | exception vector =>
    intro stage hstage
    rw [stages_of_phase_ne] at hstage
    · cases hstage
    · simp [begin, hentry, beginInterrupt, beginException, enterException]
  | instruction entry =>
    have hwellFormed := wellFormed_of_entry hrealizes (entry_of_start hentry)
    intro stage hstage
    simp only [begin, hentry] at hstage ⊢
    rw [instruction_enterMicroOp]
    exact hwellFormed.orderly stage (stages_enterMicroOp hstage)

/-- What has started has a bus step to run. -/
theorem programEnded_begin (hrealizes : tables.Realizes forms) (p : Processor) :
    ((p.begin tables (p.start tables)).follow tables fun _ => true).programEnded tables =
      false := by
  refine programEnded_follow hrealizes ?_
  have hconclude :=
    Run.unplaced_conclude_begin (Bus.constant 0) hrealizes (p.start tables) (Run.begin p ())
  have hlength : 0 <
      ((Run.begin p ()).fromStart tables (Bus.constant 0) (p.start tables)).history.length :=
    Run.length_history_fromStart (Bus.constant 0) hrealizes (Run.begin p ())
  rw [← Run.length_history_of_unplaced hconclude] at hlength
  exact hlength

theorem settle_of_atBoundary {p : Processor} (h : p.atBoundary tables) :
    p.settle tables =
      ((p.begin tables (p.start tables)).follow tables fun _ => true, some (p.start tables)) := by
  have hfollow : (p.follow tables fun _ => true) = p := by
    rw [follow, if_neg]
    rintro ⟨hphase, hended, hterminal, -⟩
    simp only [atBoundary, hphase, Bool.and_eq_true] at h
    exact hterminal h.2
  simp only [settle, hfollow, h, if_true]

/-- An instruction run from the midst of a chain goes on to its end. -/
theorem runInstruction_underway (hrealizes : tables.Realizes forms) {p : Processor}
    (horderly : p.Orderly tables) (hsettled : p.Settled tables)
    (hboundary : p.atBoundary tables = false) (b : β) :
    (p.runInstruction tables bus b).processor.atBoundary tables ∧
      (p.runInstruction tables bus b).unplaced =
        ((Run.begin { p with debt := 0 } b).conclude bus tables).unplaced := by
  have hstep : Run.Underway tables bus (Run.begin { p with debt := 0 } b)
      ((Run.begin { p with debt := 0 } b).step tables bus) :=
    Run.underway_step bus hrealizes horderly hsettled hboundary
  obtain ⟨hfinal, hconclude⟩ := Run.untilStop_atBoundary bus hrealizes tables.stepLimit
    hstep.orderly hstep.settled (remaining_le_stepLimit _)
  exact ⟨hfinal, hconclude.trans hstep.conclude⟩

/-- **An instruction run from a boundary goes on to the next one**, and does what starts there. -/
theorem runInstruction_atBoundary (hrealizes : tables.Realizes forms) {p : Processor}
    (h : p.atBoundary tables) (b : β) :
    (p.runInstruction tables bus b).processor.atBoundary tables ∧
      (p.runInstruction tables bus b).unplaced =
        ((Run.begin { p with debt := 0 } b).fromStart tables bus (p.start tables)).unplaced := by
  set run : Run β := Run.begin { p with debt := 0 } b with hrun
  have hboundary : run.processor.atBoundary tables := h
  have hsettle := settle_of_atBoundary hboundary
  have hended := programEnded_begin hrealizes run.processor
  have hadvance := Run.underway_advance bus hrealizes (some (run.processor.start tables))
    (run.withProcessor
      ((run.processor.begin tables (run.processor.start tables)).follow tables fun _ => true))
    ((orderly_begin hrealizes run.processor).follow _) hended
  have hstep : run.step tables bus =
      (run.withProcessor ((run.processor.begin tables (run.processor.start tables)).follow tables
        fun _ => true)).advance tables bus (some (run.processor.start tables)) := by
    rw [Run.step_eq, hsettle]
  rw [← hstep] at hadvance
  obtain ⟨hfinal, hconclude⟩ := Run.untilStop_atBoundary bus hrealizes tables.stepLimit
    hadvance.orderly hadvance.settled (remaining_le_stepLimit _)
  refine ⟨hfinal, hconclude.trans (hadvance.conclude.trans ?_)⟩
  refine (Run.unplaced_conclude_follow bus tables hrealizes.empty _ run _).trans ?_
  exact Run.unplaced_conclude_begin bus hrealizes _ run

/-! ## Rest and reset -/

theorem pendingInterrupt?_of_level {p : Processor} (h : p.interruptLevel = 0) :
    p.pendingInterrupt? = none := by
  simp [pendingInterrupt?, h]

variable (tables) in
/-- The processor at a boundary, whatever it has been doing. -/
def atRest (p : Processor) : Processor :=
  { p with phase := .exception, busStep := tables.programs.empty }

theorem atBoundary_atRest (hrealizes : tables.Realizes forms) (p : Processor) :
    (p.atRest tables).atBoundary tables := by
  have hended : (p.atRest tables).programEnded tables := by
    rw [← activity_isEmpty, activity]
    exact congrArg List.isEmpty hrealizes.empty
  rw [atBoundary, hended]
  rfl

variable (tables) in
/-- A processor at a boundary in front of the words in its prefetch queue. -/
def facing (prefetch : Long) (r : Registers) : Processor :=
  { initial tables with prefetch := prefetch, registers := r }.atRest tables

theorem activity_reset (hrealizes : tables.Realizes forms) (p : Processor) :
    (p.reset tables).activity tables = FixedPrograms.resetActivity :=
  hrealizes.reset

theorem stages_reset (p : Processor) : (p.reset tables).stages tables = [] :=
  stages_of_phase_ne tables (by simp [reset])

theorem programEnded_reset (hrealizes : tables.Realizes forms) (p : Processor) :
    (p.reset tables).programEnded tables = false := by
  rw [← activity_isEmpty, activity_reset hrealizes]
  rfl

theorem orderly_reset (hrealizes : tables.Realizes forms) (p : Processor) :
    (p.reset tables).Orderly tables ∧ (p.reset tables).Settled tables := by
  refine ⟨fun stage hstage => ?_, fun h => ?_⟩
  · rw [stages_reset] at hstage
    cases hstage
  · rw [programEnded_reset hrealizes] at h
    cases h

/-- **An instruction run after a reset performs the reset sequence.** -/
theorem runInstruction_reset (hrealizes : tables.Realizes forms) (p : Processor) (b : β) :
    ((p.reset tables).runInstruction tables bus b).processor.atBoundary tables ∧
      ((p.reset tables).runInstruction tables bus b).unplaced =
        ((Run.begin { p.reset tables with debt := 0 } b).perform bus
          FixedPrograms.resetActivity).unplaced := by
  obtain ⟨horderly, hsettled⟩ := orderly_reset hrealizes p
  have hboundary : (p.reset tables).atBoundary tables = false := by
    simp [atBoundary, programEnded_reset hrealizes]
  obtain ⟨hfinal, hconclude⟩ :=
    runInstruction_underway bus hrealizes horderly hsettled hboundary b
  refine ⟨hfinal, hconclude.trans ?_⟩
  rw [Run.conclude]
  change ((Run.perform bus ((p.reset tables).activity tables) _).execute bus tables
    ((p.reset tables).stages tables)).unplaced = _
  rw [activity_reset hrealizes, stages_reset, Run.execute_nil]

/-- So does the first run of a new processor. -/
theorem runInstruction_initial (hrealizes : tables.Realizes forms) (b : β) :
    ((initial tables).runInstruction tables bus b).processor.atBoundary tables ∧
      ((initial tables).runInstruction tables bus b).unplaced =
        ((Run.begin { initial tables with debt := 0 } b).perform bus
          FixedPrograms.resetActivity).unplaced :=
  runInstruction_reset bus hrealizes _ b

end Processor

end M68k
