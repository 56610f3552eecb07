import M68k.Proofs.Encoding.Shape
import M68k.Tables.Basic
import Mathlib.Data.List.TakeWhile

/-!
# Reading the tables back

Compiling scatters a recipe over three arrays. Read back from there, the chain of an opcode is the
recipe that it was made from, and each fixed program is its activity. Nothing else about the tables
matters to a run, so that later theories speak of recipes only.

## Main definitions

* `Tables.activityAt`, `Tables.stagesAt`: the activity at an offset, the stages of a chain
* `Tables.Realizes`: everything in the tables reads back to what it was made from

## Main results

* `Tables.activityAt_eq_cons`, `Tables.stagesAt_eq_cons`: reading one step or stage at a time
* `Tables.activityAt_add`: entering a program part-way along
-/

namespace M68k

namespace Tables

/-- The bus steps from `offset` on, up to the end of their program. -/
def activityAt (tables : Tables) (offset : Nat) : Activity :=
  (tables.steps.toList.drop offset).takeWhile (!·.isTerminal)

/-- The stage of a micro-operation. -/
def stageOf (tables : Tables) (op : MicroOp) : Stage :=
  ⟨op.action, op.target, tables.activityAt (op.program.getD tables.programs.empty)⟩

/-- The stages of the micro-operations from `start` on, up to the end of their chain. -/
def stagesAt (tables : Tables) (start : Nat) : List Stage :=
  ((tables.microOps.toList.drop start).takeWhile (!·.isTerminal)).map tables.stageOf

variable (tables : Tables)

/-! ## One step at a time -/

theorem activityAt_eq_nil {offset : Nat} (h : (tables.step offset).isTerminal) :
    tables.activityAt offset = [] := by
  rcases Nat.lt_or_ge offset tables.steps.size with hlt | hge
  · rw [activityAt, List.drop_eq_getElem_cons (by simpa using hlt), List.takeWhile_cons_of_neg]
    simpa [step, Array.getD, hlt] using h
  · rw [activityAt, List.drop_eq_nil_of_le (by simpa using hge), List.takeWhile_nil]

theorem activityAt_eq_cons {offset : Nat} (h : (tables.step offset).isTerminal = false) :
    tables.activityAt offset = tables.step offset :: tables.activityAt (offset + 1) := by
  rcases Nat.lt_or_ge offset tables.steps.size with hlt | hge
  · have hlength : offset < tables.steps.toList.length := by simpa using hlt
    have hstep : tables.step offset = tables.steps.toList[offset] := by
      simp [step, Array.getD, hlt]
    rw [activityAt, List.drop_eq_getElem_cons hlength,
      List.takeWhile_cons_of_pos (by simpa [← hstep] using h), hstep]
    rfl
  · simp [step, Array.getD, Nat.not_lt.mpr hge, BusStep.sentinel, BusStep.isTerminal] at h

theorem activityAt_isEmpty (offset : Nat) :
    (tables.activityAt offset).isEmpty = (tables.step offset).isTerminal := by
  cases h : (tables.step offset).isTerminal
  · simp [tables.activityAt_eq_cons h]
  · simp [tables.activityAt_eq_nil h]

theorem length_activityAt_le (offset : Nat) :
    (tables.activityAt offset).length ≤ tables.steps.size := by
  refine (List.takeWhile_prefix _).length_le.trans ?_
  simp

theorem stagesAt_eq_nil {start : Nat} (h : (tables.microOp start).isTerminal) :
    tables.stagesAt start = [] := by
  rcases Nat.lt_or_ge start tables.microOps.size with hlt | hge
  · rw [stagesAt, List.drop_eq_getElem_cons (by simpa using hlt), List.takeWhile_cons_of_neg,
      List.map_nil]
    simpa [microOp, Array.getD, hlt] using h
  · rw [stagesAt, List.drop_eq_nil_of_le (by simpa using hge), List.takeWhile_nil, List.map_nil]

theorem stagesAt_eq_cons {start : Nat} (h : (tables.microOp start).isTerminal = false) :
    tables.stagesAt start =
      tables.stageOf (tables.microOp start) :: tables.stagesAt (start + 1) := by
  rcases Nat.lt_or_ge start tables.microOps.size with hlt | hge
  · have hlength : start < tables.microOps.toList.length := by simpa using hlt
    have hop : tables.microOp start = tables.microOps.toList[start] := by
      simp [microOp, Array.getD, hlt]
    rw [stagesAt, List.drop_eq_getElem_cons hlength,
      List.takeWhile_cons_of_pos (by simpa [← hop] using h), hop]
    rfl
  · simp [microOp, Array.getD, Nat.not_lt.mpr hge, MicroOp.terminal, MicroOp.isTerminal] at h

theorem stagesAt_isEmpty (start : Nat) :
    (tables.stagesAt start).isEmpty = (tables.microOp start).isTerminal := by
  cases h : (tables.microOp start).isTerminal
  · simp [tables.stagesAt_eq_cons h]
  · simp [tables.stagesAt_eq_nil h]

theorem length_stagesAt_le (start : Nat) :
    (tables.stagesAt start).length ≤ tables.microOps.size := by
  rw [stagesAt, List.length_map]
  refine (List.takeWhile_prefix _).length_le.trans ?_
  simp

/-- Entering a program part-way along skips its first steps. -/
theorem activityAt_add {offset skipped : Nat}
    (h : skipped ≤ (tables.activityAt offset).length) :
    tables.activityAt (offset + skipped) = (tables.activityAt offset).drop skipped := by
  induction skipped generalizing offset with
  | zero => rfl
  | succ skipped ih =>
    cases hstep : (tables.step offset).isTerminal
    · rw [tables.activityAt_eq_cons hstep] at h ⊢
      rw [List.drop_succ_cons, ← ih (by simpa using h)]
      congr 1
      omega
    · rw [tables.activityAt_eq_nil hstep] at h
      simp at h

/-! ## Everything reads back -/

/-- The recipe that the entry of an opcode reads back to. -/
def recipe? (opcode : Word) : Option Recipe :=
  (tables.entry? opcode).map fun entry => ⟨entry.instruction, tables.stagesAt entry.start⟩

/-- Opcodes read back to their recipes, and fixed programs to their activities. -/
structure Realizes (forms : List Form) : Prop where
  recipe : ∀ opcode, tables.recipe? opcode = decode? forms opcode
  empty : tables.activityAt tables.programs.empty = []
  reset : tables.activityAt tables.programs.reset = FixedPrograms.resetActivity
  branchTaken :
    tables.activityAt tables.programs.branchTaken = .idle 4 ++ .fetch ++ .fetch
  branchByteNotTaken :
    tables.activityAt tables.programs.branchByteNotTaken = .idle 8 ++ .fetch
  branchWordNotTaken :
    tables.activityAt tables.programs.branchWordNotTaken = .idle 8 ++ .fetch ++ .fetch
  subroutine : tables.activityAt tables.programs.subroutine = .fetch ++ .fetch
  loopLeft : tables.activityAt tables.programs.loopLeft = .idle 8 ++ .fetch ++ .fetch
  loopExpired :
    tables.activityAt tables.programs.loopExpired =
      .idle 4 ++ FixedPrograms.expiredLoopRead ++ .fetch ++ .fetch
  loopTaken : tables.activityAt tables.programs.loopTaken = .idle 4 ++ .fetch ++ .fetch
  listRead :
    tables.activityAt tables.programs.listRead =
      FixedPrograms.listTransfers true (FixedPrograms.maxListWords + 1)
  listWrite :
    tables.activityAt tables.programs.listWrite =
      FixedPrograms.listTransfers false FixedPrograms.maxListWords
  exception : tables.activityAt tables.programs.exception = FixedPrograms.exceptionActivity
  interrupt : tables.activityAt tables.programs.interrupt = FixedPrograms.interruptActivity
  popFrame : tables.activityAt tables.programs.popFrame = Encoding.popFrame

/-! ## Register lists are entered part-way along -/

theorem drop_listTransfers (read : Bool) (skipped count : Nat) :
    (FixedPrograms.listTransfers read (skipped + count)).drop (skipped * 2) =
      FixedPrograms.listTransfers read count := by
  induction skipped with
  | zero => simp
  | succ skipped ih =>
    rw [Nat.succ_add, Nat.succ_mul, Nat.add_comm (skipped * 2), ← List.drop_drop]
    refine Eq.trans (congrArg (List.drop (skipped * 2)) ?_) ih
    simp only [FixedPrograms.listTransfers, List.replicate_succ, List.flatten_cons]
    rfl

theorem length_listTransfers (read : Bool) (count : Nat) :
    (FixedPrograms.listTransfers read count).length = count * 2 := by
  simp [FixedPrograms.listTransfers, Activity.transfer]

variable {tables} {forms : List Form} (hrealizes : tables.Realizes forms)

include hrealizes

/-- A list of words is written by as many transfers. -/
theorem Realizes.listWrite_entry {words : Nat} (h : words ≤ FixedPrograms.maxListWords) :
    tables.activityAt (FixedPrograms.listEntry tables.programs.listWrite words) =
      FixedPrograms.listTransfers false words := by
  rw [FixedPrograms.listEntry, activityAt_add, hrealizes.listWrite]
  · rw [← drop_listTransfers false (FixedPrograms.maxListWords - words) words]
    congr 2
    omega
  · rw [hrealizes.listWrite, length_listTransfers]
    omega

/-- A list of words is read by one transfer more. -/
theorem Realizes.listRead_entry {words : Nat} (h : words ≤ FixedPrograms.maxListWords) :
    tables.activityAt (FixedPrograms.listEntry tables.programs.listRead words) =
      FixedPrograms.listTransfers true (words + 1) := by
  rw [FixedPrograms.listEntry, activityAt_add, hrealizes.listRead]
  · rw [← drop_listTransfers true (FixedPrograms.maxListWords - words) (words + 1)]
    congr 2
    omega
  · rw [hrealizes.listRead, length_listTransfers]
    omega

end Tables

end M68k
