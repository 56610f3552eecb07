import M68k.Proofs.Encoding.Regular
import M68k.Proofs.Execution.Schedule
import M68k.Proofs.Prefetch.Length

/-!
# The steps to come

What is left of the bus program in progress and of the stages behind it are the steps to come,
unless an operation redirects the chain. A redirection only puts steps of a fixed program before
them or in their place. Where something starts, the steps to come are those of a recipe or of a
fixed program.

## Main definitions

* `FixedPrograms.Chosen`: the programs that operations choose
* `Processor.upcoming`: the steps to come
* `Processor.Brings`: some steps are to come, perhaps behind or replaced by those of a fixed program

## Main results

* `Processor.chosen_act`: actions choose no other programs
* `Processor.brings_proceed`: what going along the chain does to the steps to come
* `Processor.brings_begin`: what starting something does to them
-/

namespace M68k

open Encoding

/-- The fixed programs that operations choose at run time. -/
inductive FixedPrograms.Chosen (programs : FixedPrograms) : Nat → Prop
  | branchTaken : Chosen programs programs.branchTaken
  | branchByteNotTaken : Chosen programs programs.branchByteNotTaken
  | branchWordNotTaken : Chosen programs programs.branchWordNotTaken
  | subroutine : Chosen programs programs.subroutine
  | loopLeft : Chosen programs programs.loopLeft
  | loopExpired : Chosen programs programs.loopExpired
  | loopTaken : Chosen programs programs.loopTaken
  | listRead {words : Nat} (hroom : words ≤ maxListWords) :
    Chosen programs (listEntry programs.listRead words)
  | listWrite {words : Nat} (hroom : words ≤ maxListWords) :
    Chosen programs (listEntry programs.listWrite words)

/-- What these programs do, apart from transfers of register lists. -/
def FixedPrograms.redirections : List Activity :=
  [.idle 4 ++ .fetch ++ .fetch, .idle 8 ++ .fetch, .idle 8 ++ .fetch ++ .fetch, .fetch ++ .fetch,
    .idle 4 ++ expiredLoopRead ++ .fetch ++ .fetch]

namespace Processor

variable {tables : Tables}

variable (tables) in
/-- The steps to come, up to the end of the chain. -/
def upcoming (p : Processor) : Activity := p.activity tables ++ Stage.steps (p.stages tables)

theorem upcoming_of_phase_ne {p : Processor} (h : p.phase ≠ .instruction) :
    p.upcoming tables = p.activity tables := by
  rw [upcoming, stages_of_phase_ne tables h, Stage.steps_nil, List.append_nil]

theorem upcoming_of_hasNext {p : Processor} (hended : p.programEnded tables)
    (hnext : p.hasNext tables) :
    p.upcoming tables = Stage.steps (tables.stagesAt (p.microOp + 1)) := by
  obtain ⟨hphase, hterminal⟩ := (p.hasNext_iff tables).1 hnext
  rw [upcoming, activity_eq_nil tables hended, stages_eq_of_follow hphase hterminal,
    List.nil_append]

/-- What an action chooses is a fixed program. -/
theorem chosen_act {p : Processor} {action : Action} {target : Target} {offset : Nat}
    (h : (p.act tables action target).2 = some offset) : tables.programs.Chosen offset := by
  obtain ⟨rfl, hredirects⟩ := redirects_of_chosen h
  cases hoperation : p.instruction.operation with
  | bcc =>
    simp only [act, operate, hoperation, branch] at h
    split at h
    · cases h
      exact .branchTaken
    · split at h <;> cases h
      · exact .branchWordNotTaken
      · exact .branchByteNotTaken
  | bsr =>
    simp only [act, operate, hoperation] at h
    cases h
    exact .subroutine
  | dbcc =>
    simp only [act, operate, hoperation, decrementAndBranch] at h
    split at h
    · cases h
      exact .loopLeft
    · split at h <;> cases h
      · exact .loopExpired
      · exact .loopTaken
  | movem direction =>
    simp only [act, operate, hoperation, beginListTransfer] at h
    cases direction with
    | toMemory =>
      cases h
      exact .listWrite (ListTransfer.length_words_begin_le _ _ _ _)
    | toRegisters =>
      cases h
      exact .listRead (ListTransfer.length_words_begin_le _ _ _ _)
  | trap =>
    rw [act_of_trap p tables target hoperation] at h
    cases h
  | _ => simp [hoperation, Operation.redirects] at hredirects

/-- A program that an operation chooses is one of a few, or transfers a register list. -/
theorem activityAt_chosen (hrealizes : tables.Realizes forms) {offset : Nat}
    (h : tables.programs.Chosen offset) :
    tables.activityAt offset ∈ FixedPrograms.redirections ∨
      ∃ read count, tables.activityAt offset = FixedPrograms.listTransfers read count := by
  cases h with
  | branchTaken => exact .inl (by simp [hrealizes.branchTaken, FixedPrograms.redirections])
  | branchByteNotTaken =>
    exact .inl (by simp [hrealizes.branchByteNotTaken, FixedPrograms.redirections])
  | branchWordNotTaken =>
    exact .inl (by simp [hrealizes.branchWordNotTaken, FixedPrograms.redirections])
  | subroutine => exact .inl (by simp [hrealizes.subroutine, FixedPrograms.redirections])
  | loopLeft => exact .inl (by simp [hrealizes.loopLeft, FixedPrograms.redirections])
  | loopExpired => exact .inl (by simp [hrealizes.loopExpired, FixedPrograms.redirections])
  | loopTaken => exact .inl (by simp [hrealizes.loopTaken, FixedPrograms.redirections])
  | listRead hroom => exact .inr ⟨_, _, hrealizes.listRead_entry hroom⟩
  | listWrite hroom => exact .inr ⟨_, _, hrealizes.listWrite_entry hroom⟩

/-- A program that an operation chooses is made of firm steps. -/
theorem firm_chosen (hrealizes : tables.Realizes forms) {offset : Nat}
    (h : tables.programs.Chosen offset) : (tables.activityAt offset).Firm := by
  have hfirm : ∀ activity ∈ FixedPrograms.redirections, activity.Firm := by decide
  rcases activityAt_chosen hrealizes h with hmem | ⟨read, count, hlist⟩
  · exact hfirm _ hmem
  · rw [hlist]
    exact FixedPrograms.firm_listTransfers read count

variable (tables) in
/-- The steps to come are `steps`, behind firm steps or replaced by them. -/
def Brings (p : Processor) (steps : Activity) : Prop :=
  ∃ front : Activity, front.Firm ∧
    (p.upcoming tables = front ++ steps ∨ p.upcoming tables = front)

/-- Entering a micro-operation brings the steps of its stages. -/
theorem brings_enterMicroOp (hrealizes : tables.Realizes forms) {p : Processor}
    (hphase : p.phase = .instruction)
    (horderly : ∀ stage ∈ tables.stagesAt p.microOp, stage.Orderly p.instruction.operation) :
    (p.enterMicroOp tables).Brings tables (Stage.steps (tables.stagesAt p.microOp)) := by
  cases entered_enterMicroOp tables hphase with
  | ended hstages hq =>
    refine ⟨[], Activity.firm_nil, .inr ?_⟩
    rw [hq, upcoming, stages_of_instruction tables (by exact hphase)]
    simp only [activity, hrealizes.empty, hstages, List.tail_nil, Stage.steps_nil, List.append_nil]
  | acted stage stages offset hstages hq hfired hactivity hrest =>
    rw [hstages] at horderly ⊢
    cases hchosen : (p.act tables stage.action stage.target).2 with
    | none =>
      refine ⟨[], Activity.firm_nil, .inl ?_⟩
      rw [upcoming, hactivity, hrest, hchosen]
      rfl
    | some chosen =>
      obtain ⟨haction, hredirects⟩ := redirects_of_chosen hchosen
      have hown : stage.activity = [] := horderly stage List.mem_cons_self haction hredirects
      refine ⟨tables.activityAt chosen, firm_chosen hrealizes (chosen_act hchosen), .inl ?_⟩
      rw [upcoming, hactivity, hrest, hchosen, Stage.steps_cons, hown]
      rfl
  | trapped stage stages hstages hq hfired hstep =>
    refine ⟨FixedPrograms.exceptionActivity, FixedPrograms.firm_exception, .inr ?_⟩
    rw [upcoming_of_phase_ne (by simp [hfired]), activity, hstep, hrealizes.exception]

/-- **Going along the chain brings the steps that were to come.** -/
theorem brings_proceed (hrealizes : tables.Realizes forms) {p : Processor}
    (horderly : p.Orderly tables) (hended : p.programEnded tables) (hnext : p.hasNext tables) :
    (p.proceed tables).Brings tables (p.upcoming tables) := by
  obtain ⟨hphase, hterminal⟩ := (p.hasNext_iff tables).1 hnext
  rw [upcoming_of_hasNext hended hnext]
  refine brings_enterMicroOp hrealizes (by exact hphase) fun stage hstage => horderly stage ?_
  rw [stages_eq_of_follow hphase hterminal]
  exact hstage

/-- Going along the chain keeps it in order. -/
theorem orderly_proceed {p : Processor} (horderly : p.Orderly tables) (hnext : p.hasNext tables) :
    (p.proceed tables).Orderly tables := by
  obtain ⟨hphase, hterminal⟩ := (p.hasNext_iff tables).1 hnext
  intro stage hstage
  rw [proceed, instruction_enterMicroOp]
  refine horderly stage ?_
  rw [stages_eq_of_follow hphase hterminal]
  exact stages_enterMicroOp hstage

/-- **Starting something brings the steps of a recipe, or none but those of a fixed program.** -/
theorem brings_begin (hrealizes : tables.Realizes forms) (p : Processor) :
    ∃ steps : Activity, Activity.Paced false steps ∧ (∀ step ∈ steps, step.address.inRange) ∧
      (p.begin tables (p.start tables)).Brings tables steps := by
  have hreplaced {q : Processor} {activity : Activity} (hphase : q.phase = .exception)
      (hactivity : q.activity tables = activity) (hfirm : activity.Firm) :
      q.Brings tables [] :=
    ⟨activity, hfirm, .inr ((upcoming_of_phase_ne (by simp [hphase])).trans hactivity)⟩
  cases hentry : (p.start tables).entry with
  | interrupt level =>
    refine ⟨[], trivial, by simp, ?_⟩
    rw [begin_interrupt p hentry]
    exact hreplaced rfl hrealizes.interrupt FixedPrograms.firm_interrupt
  | exception vector =>
    refine ⟨[], trivial, by simp, ?_⟩
    rw [begin_exception p hentry]
    exact hreplaced rfl hrealizes.exception FixedPrograms.firm_exception
  | instruction entry =>
    have hdecode := recipe_of_entry hrealizes (entry_of_start hentry)
    have hregular := regular_of_decode? hdecode
    refine ⟨_, hregular.paced, hregular.addresses, ?_⟩
    rw [begin_instruction p hentry]
    exact brings_enterMicroOp hrealizes rfl (wellFormed_of_decode? hdecode).orderly

end Processor

end M68k
