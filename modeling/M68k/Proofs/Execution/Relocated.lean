import M68k.Proofs.Execution.ListProgress
import M68k.Proofs.Execution.Schedule
import M68k.Proofs.Tables.Relocated

/-!
# The same processor on other tables

A processor knows the bus program in progress by an offset alone. What it does from there on are the
steps that it reads up to the end of the program, wherever they are stored, and whatever stands
around them. So on tables that are stored differently it goes through the same states, but for that
offset.

## Main definitions

* `Processor.atStep`: the processor with its next bus step at some offset
* `Processor.Relocated`: the same processor on other tables, with the same steps ahead

## Main results

* `Processor.Relocated.enterMicroOp`: it enters the same micro-operations
* `Processor.Relocated.settle`: its search for the next bus step starts and finds the same
* `Processor.Relocated.receive`: a bus step changes it in the same way
-/

namespace M68k

open Encoding

namespace Processor

/-- The processor with its next bus step at `offset`. -/
def atStep (p : Processor) (offset : Nat) : Processor := { p with busStep := offset }

@[simp] theorem activity_atStep (tables : Tables) (p : Processor) (offset : Nat) :
    (p.atStep offset).activity tables = tables.activityAt offset := rfl

/-- A processor and its like on other tables. The offset of the next bus step may be another one,
but the bus program in progress and the chain of the instruction read the same from there on. -/
structure Relocated (tables other : Tables) (p q : Processor) : Prop where
  processor : q = p.atStep q.busStep
  activity : p.activity tables = q.activity other
  stages : p.phase = .instruction → tables.stagesAt p.microOp = other.stagesAt p.microOp

variable {tables other : Tables} {p q : Processor}

/-! ## What is looked at -/

namespace Relocated

theorem phase (h : p.Relocated tables other q) : q.phase = p.phase :=
  (congrArg Processor.phase h.processor :)

theorem microOp (h : p.Relocated tables other q) : q.microOp = p.microOp :=
  (congrArg Processor.microOp h.processor :)

/-- The bus program in progress ends in the same state on both sides. -/
theorem programEnded (h : p.Relocated tables other q) :
    p.programEnded tables = q.programEnded other := by
  rw [← activity_isEmpty, ← activity_isEmpty, h.activity]

/-- The next bus step is the same, and so are those behind it. -/
theorem step (h : p.Relocated tables other q) (hended : p.programEnded tables = false) :
    tables.step p.busStep = other.step q.busStep ∧
      tables.activityAt (p.busStep + 1) = other.activityAt (q.busStep + 1) := by
  have hended' : q.programEnded other = false := h.programEnded ▸ hended
  have hactivity := h.activity
  rw [activity_eq_cons tables hended, activity_eq_cons other hended'] at hactivity
  exact List.cons.inj hactivity

/-- The chain ends in the same state on both sides. -/
theorem isTerminal (h : p.Relocated tables other q) (hphase : p.phase = .instruction) :
    (tables.microOp p.microOp).isTerminal = (other.microOp q.microOp).isTerminal := by
  rw [← Tables.stagesAt_isEmpty, ← Tables.stagesAt_isEmpty, h.stages hphase, h.microOp]

theorem atBoundary (h : p.Relocated tables other q) :
    p.atBoundary tables = q.atBoundary other := by
  rw [Processor.atBoundary, Processor.atBoundary, h.programEnded, h.phase]
  cases hphase : p.phase with
  | reset | exception => rfl
  | instruction => simp only [h.isTerminal hphase]

/-- What starts at a boundary is the same. -/
theorem start (hentry : ∀ opcode, tables.entry? opcode = other.entry? opcode)
    (h : p.Relocated tables other q) : p.start tables = q.start other := by
  have hstart (n : Nat) : p.start tables = (p.atStep n).start other := by
    simp only [Processor.start, hentry]
    rfl
  rw [h.processor]
  exact hstart _

/-- Behind a micro-operation that does not end its chain the chain goes on the same. -/
theorem stages_succ (h : p.Relocated tables other q) (hphase : p.phase = .instruction)
    (hterminal : (tables.microOp p.microOp).isTerminal = false) :
    tables.stagesAt (p.microOp + 1) = other.stagesAt (p.microOp + 1) := by
  have hterminal' : (other.microOp p.microOp).isTerminal = false := by
    rw [← h.microOp, ← h.isTerminal hphase, hterminal]
  have hstages := h.stages hphase
  rw [Tables.stagesAt_eq_cons _ hterminal, Tables.stagesAt_eq_cons _ hterminal'] at hstages
  exact (List.cons.inj hstages).2

end Relocated

/-! ## Micro-operations -/

/-- An action does the same on other tables. The program that it chooses reads the same. -/
theorem act_relocated (h : tables.Relocated forms other) (p : Processor) {action : Action}
    (target : Target) (hstays : action = .operate → p.instruction.operation ≠ .trap) :
    (p.act other action target).1 = (p.act tables action target).1 ∧
      (p.act other action target).2.map other.activityAt =
        (p.act tables action target).2.map tables.activityAt := by
  by_cases haction : action = .operate
  · subst haction
    cases hoperation : p.instruction.operation with
    | trap => exact absurd hoperation (hstays rfl)
    | bcc =>
      simp only [act, operate, hoperation, branch]
      split
      · exact ⟨rfl, congrArg some (h.right.branchTaken.trans h.left.branchTaken.symm)⟩
      · split
        · exact ⟨rfl,
            congrArg some (h.right.branchWordNotTaken.trans h.left.branchWordNotTaken.symm)⟩
        · exact ⟨rfl,
            congrArg some (h.right.branchByteNotTaken.trans h.left.branchByteNotTaken.symm)⟩
    | bsr =>
      simp only [act, operate, hoperation]
      exact ⟨trivial, congrArg some (h.right.subroutine.trans h.left.subroutine.symm)⟩
    | dbcc =>
      simp only [act, operate, hoperation, decrementAndBranch]
      split
      · exact ⟨rfl, congrArg some (h.right.loopLeft.trans h.left.loopLeft.symm)⟩
      · split
        · exact ⟨rfl, congrArg some (h.right.loopExpired.trans h.left.loopExpired.symm)⟩
        · exact ⟨rfl, congrArg some (h.right.loopTaken.trans h.left.loopTaken.symm)⟩
    | movem direction =>
      simp only [act, operate, hoperation, beginListTransfer]
      have hroom := ListTransfer.length_words_begin_le (Half.low.get p.data.source)
        p.effectiveAddress.destination (p.instruction.size == .long) (p.modeField == 4)
      cases direction with
      | toMemory =>
        exact ⟨trivial,
          congrArg some ((h.right.listWrite_entry hroom).trans (h.left.listWrite_entry hroom).symm)⟩
      | toRegisters =>
        exact ⟨trivial,
          congrArg some ((h.right.listRead_entry hroom).trans (h.left.listRead_entry hroom).symm)⟩
    | _ =>
      rw [act_of_plain p _ target (by rw [hoperation]; rfl),
        act_of_plain p _ target (by rw [hoperation]; rfl)]
      exact ⟨rfl, rfl⟩
  · rw [act_of_ne_operate p _ target haction, act_of_ne_operate p _ target haction]
    exact ⟨rfl, rfl⟩

/-- Nor does it matter where the next bus step is. -/
theorem act_atStep (p : Processor) (offset : Nat) {action : Action} (target : Target)
    (hstays : action = .operate → p.instruction.operation ≠ .trap) :
    (p.atStep offset).act tables action target =
      ((p.act tables action target).1.atStep offset, (p.act tables action target).2) := by
  have hsetting := setting_act p tables action target hstays
  have hmoved : (p.act tables action target).1.withSetting { p.setting with busStep := offset } =
      (p.act tables action target).1.atStep offset := by
    rw [← hsetting]
    rfl
  rw [← hmoved]
  exact act_withSetting p { p.setting with busStep := offset } tables action target hstays

/-- At the end of its chain the processor runs no steps. -/
theorem enterMicroOp_of_nil (h : tables.stagesAt p.microOp = []) :
    p.enterMicroOp tables = p.atStep tables.programs.empty := by
  have hterminal : (tables.microOp p.microOp).isTerminal := by
    rw [← Tables.stagesAt_isEmpty, h]
    rfl
  have hprogram : (tables.microOp p.microOp).program = none := by
    simpa [MicroOp.isTerminal] using hterminal
  simp only [Processor.enterMicroOp, hprogram]
  rfl

/-- A stage fires its action and runs its own activity, unless its action chooses another one or
enters an exception. The program that holds its activity is settled by the place. -/
theorem enterMicroOp_of_cons {n : Nat} {stage : Stage} {stages : List Stage}
    (h : tables.stagesAt n = stage :: stages) :
    ∃ program, tables.activityAt program = stage.activity ∧ ∀ p : Processor, p.microOp = n →
      p.enterMicroOp tables =
        if (p.act tables stage.action stage.target).1.phase = .instruction then
          (p.act tables stage.action stage.target).1.atStep
            ((p.act tables stage.action stage.target).2.getD program)
        else (p.act tables stage.action stage.target).1 := by
  have hterminal : (tables.microOp n).isTerminal = false := by
    rw [← Tables.stagesAt_isEmpty, h]
    rfl
  obtain ⟨program, hprogram⟩ : ∃ program, (tables.microOp n).program = some program := by
    simpa [MicroOp.isTerminal, Option.isSome_iff_exists] using hterminal
  rw [Tables.stagesAt_eq_cons _ hterminal] at h
  obtain ⟨rfl, -⟩ := List.cons.inj h
  refine ⟨program, ?_, ?_⟩
  · simp only [Tables.stageOf, hprogram, Option.getD_some]
  · rintro p rfl
    simp only [Processor.enterMicroOp, hprogram]
    rfl

/-- **On other tables the same micro-operation is entered.** -/
theorem Relocated.enterMicroOp (ht : tables.Relocated forms other) (h : p.Relocated tables other q)
    (hphase : p.phase = .instruction) :
    (p.enterMicroOp tables).Relocated tables other (q.enterMicroOp other) := by
  obtain ⟨hprocessor, -, hsame⟩ := h
  generalize q.busStep = offset at hprocessor
  subst hprocessor
  have hsame := hsame hphase
  cases hstages : tables.stagesAt p.microOp with
  | nil =>
    have hstages' : other.stagesAt (p.atStep offset).microOp = [] := hsame.symm.trans hstages
    rw [enterMicroOp_of_nil hstages, enterMicroOp_of_nil hstages']
    exact ⟨rfl, ht.left.empty.trans ht.right.empty.symm, fun _ => hsame⟩
  | cons stage stages =>
    have hstages' : other.stagesAt (p.atStep offset).microOp = stage :: stages :=
      hsame.symm.trans hstages
    obtain ⟨program, hprogram, henter⟩ := enterMicroOp_of_cons hstages
    obtain ⟨program', hprogram', henter'⟩ := enterMicroOp_of_cons hstages'
    rw [henter p rfl, henter' (p.atStep offset) rfl]
    rcases p.traps_or_stays stage.action with ⟨haction, htrap⟩ | hstays
    · -- a trap enters its exception, which reads the same
      have htrap' : (p.atStep offset).instruction.operation = .trap := htrap
      rw [haction, act_of_trap p tables _ htrap, act_of_trap _ other _ htrap']
      exact ⟨rfl, ht.left.exception.trans ht.right.exception.symm, fun h => by cases h⟩
    · obtain ⟨hacted, hchosen⟩ := act_relocated ht p stage.target hstays
      have hfired : (p.act tables stage.action stage.target).1.phase = .instruction :=
        (congrArg Control.phase (control_act p tables stage.action stage.target hstays)).trans
          hphase
      have hplace : (p.act tables stage.action stage.target).1.microOp = p.microOp :=
        microOp_act tables p _ _
      rw [act_atStep p offset stage.target hstays, hacted, if_pos hfired, if_pos (by exact hfired)]
      refine ⟨rfl, ?_, fun _ => ?_⟩
      · -- the program of the stage, or the one that is chosen
        rw [activity_atStep, activity_atStep]
        generalize (p.act tables stage.action stage.target).2 = chosen at hchosen
        generalize (p.act other stage.action stage.target).2 = chosen' at hchosen
        cases chosen <;> cases chosen' <;> simp_all
      · change tables.stagesAt (p.act tables stage.action stage.target).1.microOp =
          other.stagesAt (p.act tables stage.action stage.target).1.microOp
        rw [hplace, hsame]

/-! ## To the next bus step -/

/-- Going on to the next micro-operation of the chain. -/
theorem Relocated.proceed (ht : tables.Relocated forms other) (h : p.Relocated tables other q)
    (hphase : p.phase = .instruction)
    (hterminal : (tables.microOp p.microOp).isTerminal = false) :
    (p.proceed tables).Relocated tables other (q.proceed other) := by
  have hnext : Relocated tables other { p with microOp := p.microOp + 1 }
      { q with microOp := q.microOp + 1 } :=
    { processor := by
        rw [h.microOp, h.processor]
        rfl
      activity := h.activity
      stages := fun _ => h.stages_succ hphase hterminal }
  exact hnext.enterMicroOp ht hphase

/-- Which micro-operations are wanted next may be asked on either side. -/
theorem Relocated.follow (ht : tables.Relocated forms other) {wanted wanted' : MicroOp → Bool}
    (hwanted : ∀ n, tables.stagesAt n = other.stagesAt n →
      wanted (tables.microOp n) = wanted' (other.microOp n))
    (h : p.Relocated tables other q) :
    (p.follow tables wanted).Relocated tables other (q.follow other wanted') := by
  -- along the chain of the one processor, with the other one going in step
  fun_induction Processor.follow tables wanted p generalizing q with
  | case1 p hfollow ih =>
    obtain ⟨hphase, hended, hterminal, hnext⟩ := hfollow
    have hterminal : (tables.microOp p.microOp).isTerminal = false := by simpa using hterminal
    have hfollow' : q.phase = .instruction ∧ q.programEnded other ∧
        ¬ (other.microOp q.microOp).isTerminal ∧ wanted' (other.microOp (q.microOp + 1)) := by
      rw [h.phase, ← h.programEnded, ← h.isTerminal hphase, h.microOp,
        ← hwanted _ (h.stages_succ hphase hterminal)]
      exact ⟨hphase, hended, by simp [hterminal], hnext⟩
    rw [Processor.follow.eq_1 other wanted' q, if_pos hfollow']
    exact ih (h.proceed ht hphase hterminal)
  | case2 p hfollow =>
    have hfollow' : ¬ (q.phase = .instruction ∧ q.programEnded other ∧
        ¬ (other.microOp q.microOp).isTerminal ∧ wanted' (other.microOp (q.microOp + 1))) := by
      rintro ⟨hphase, hended, hterminal, hnext⟩
      rw [h.phase] at hphase
      have hgoes : (tables.microOp p.microOp).isTerminal = false := by
        rw [h.isTerminal hphase]
        simpa using hterminal
      rw [h.microOp, ← hwanted _ (h.stages_succ hphase hgoes)] at hnext
      exact hfollow ⟨hphase, h.programEnded ▸ hended, by simp [hgoes], hnext⟩
    rw [Processor.follow.eq_1 other wanted' q, if_neg hfollow']
    exact h

/-- What starts at a boundary starts in the same way. -/
theorem Relocated.begin (ht : tables.Relocated forms other) (h : p.Relocated tables other q) :
    (p.begin tables (p.start tables)).Relocated tables other
      (q.begin other (q.start other)) := by
  rw [← h.start ht.entry]
  have hactivity := h.activity
  obtain ⟨hprocessor, -, -⟩ := h
  generalize q.busStep = offset at hprocessor
  subst hprocessor
  cases hentry : (p.start tables).entry with
  | interrupt level =>
    rw [begin_interrupt p hentry, begin_interrupt _ hentry]
    exact ⟨rfl, ht.left.interrupt.trans ht.right.interrupt.symm, fun h => by cases h⟩
  | exception vector =>
    rw [begin_exception p hentry, begin_exception _ hentry]
    exact ⟨rfl, ht.left.exception.trans ht.right.exception.symm, fun h => by cases h⟩
  | instruction entry =>
    rw [begin_instruction p hentry, begin_instruction _ hentry]
    have hfound := entry_of_start hentry
    have hchain : tables.stagesAt entry.start = other.stagesAt entry.start := by
      have hleft := recipe_of_entry ht.left hfound
      have hright := recipe_of_entry ht.right ((ht.entry _).symm.trans hfound)
      exact congrArg Recipe.stages (Option.some.inj (hleft.symm.trans hright))
    have hdispatched : Relocated tables other
        { p.dispatch (p.start tables).opcode entry.instruction with microOp := entry.start }
        { (p.atStep offset).dispatch (p.start tables).opcode entry.instruction with
          microOp := entry.start } :=
      ⟨rfl, hactivity, fun _ => hchain⟩
    exact hdispatched.enterMicroOp ht rfl

/-- **The search for the next bus step starts the same and finds the same.** -/
theorem Relocated.settle (ht : tables.Relocated forms other) (h : p.Relocated tables other q) :
    (p.settle tables).1.Relocated tables other (q.settle other).1 ∧
      (p.settle tables).2 = (q.settle other).2 := by
  have hfollow : (p.follow tables fun _ => true).Relocated tables other
      (q.follow other fun _ => true) :=
    h.follow ht fun _ _ => rfl
  simp only [Processor.settle, ← hfollow.atBoundary]
  split
  · exact ⟨(hfollow.begin ht).follow ht fun _ _ => rfl, congrArg some (hfollow.start ht.entry)⟩
  · exact ⟨hfollow, rfl⟩

/-- A micro-operation without bus activity is known by its stage. -/
theorem hasNoActivity_eq (tables : Tables) (n : Nat) :
    hasNoActivity tables (tables.microOp n) =
      (tables.stagesAt n).head?.all fun stage => stage.activity.isEmpty := by
  cases hterminal : (tables.microOp n).isTerminal with
  | true =>
    have hprogram : (tables.microOp n).program = none := by
      simpa [MicroOp.isTerminal] using hterminal
    simp [hasNoActivity, hprogram, tables.stagesAt_eq_nil hterminal]
  | false =>
    obtain ⟨program, hprogram⟩ : ∃ program, (tables.microOp n).program = some program := by
      simpa [MicroOp.isTerminal, Option.isSome_iff_exists] using hterminal
    simp [hasNoActivity, hprogram, tables.stagesAt_eq_cons hterminal, Tables.stageOf,
      ← Tables.activityAt_isEmpty]

/-- The same micro-operations without bus activity are fired behind a step. -/
theorem Relocated.fireBusFree (ht : tables.Relocated forms other)
    (h : p.Relocated tables other q) :
    (p.fireBusFree tables).Relocated tables other (q.fireBusFree other) := by
  refine h.follow ht fun n hsame => ?_
  change hasNoActivity tables _ = hasNoActivity other _
  rw [hasNoActivity_eq, hasNoActivity_eq, hsame]

/-! ## Bus steps and hosts -/

theorem receive_atStep (p : Processor) (offset : Nat) (step : BusStep) (reply : Reply) :
    (p.atStep offset).receive step reply = (p.receive step reply).atStep (offset + 1) := by
  have hsetting := p.setting_receive step reply
  have hmoved : (p.receive step reply).atStep (offset + 1) =
      (p.receive step reply).withSetting
        { (p.receive step reply).setting with busStep := offset + 1 } := rfl
  rw [hmoved, hsetting]
  exact p.receive_withSetting { p.setting with busStep := offset } step reply

/-- **A bus step changes both in the same way.** -/
theorem Relocated.receive (h : p.Relocated tables other q)
    (hended : p.programEnded tables = false) (reply : Reply) :
    (p.receive (tables.step p.busStep) reply).Relocated tables other
      (q.receive (other.step q.busStep) reply) := by
  obtain ⟨hstep, hrest⟩ := h.step hended
  rw [← hstep]
  exact
    { processor := by
        rw [busStep_receive]
        conv_lhs => rw [h.processor]
        exact p.receive_atStep q.busStep _ reply
      activity := by
        rw [Processor.activity, Processor.activity, busStep_receive, busStep_receive, hrest]
      stages := fun hphase => by
        rw [microOp_receive]
        exact h.stages (by simpa using hphase) }

/-- So does whatever a host does to both. -/
theorem Relocated.owe (h : p.Relocated tables other q) (debt : HalfCycles) :
    Relocated tables other { p with debt := debt } { q with debt := debt } where
  processor := by
    rw [h.processor]
    rfl
  activity := h.activity
  stages := h.stages

theorem Relocated.setInterruptLevel (h : p.Relocated tables other q) (level : Level) :
    (p.setInterruptLevel level).Relocated tables other (q.setInterruptLevel level) where
  processor := by
    rw [h.processor]
    rfl
  activity := h.activity
  stages := h.stages

theorem Relocated.edit (h : p.Relocated tables other q) (change : Registers → Registers) :
    Relocated tables other { p with registers := change p.registers }
      { q with registers := change q.registers } where
  processor := by
    rw [h.processor]
    rfl
  activity := h.activity
  stages := h.stages

theorem Relocated.reset (ht : tables.Relocated forms other) (h : p.Relocated tables other q) :
    (p.reset tables).Relocated tables other (q.reset other) where
  processor := by
    rw [h.processor]
    rfl
  activity := ht.left.reset.trans ht.right.reset.symm
  stages h := by simp [Processor.reset] at h

theorem relocated_initial (ht : tables.Relocated forms other) :
    (initial tables).Relocated tables other (initial other) where
  processor := rfl
  activity := ht.left.reset.trans ht.right.reset.symm
  stages h := by simp [initial, Processor.reset] at h

end Processor

end M68k
