import M68k.Proofs.Flow.Execute
import M68k.Proofs.MoveList.Execute
import M68k.Proofs.Timing.Elapsed
import M68k.Proofs.Timing.Reference

/-!
# Instructions that choose what to do

Branches, loops and moves of register lists choose a fixed program when they know how they turn out.
So each of them takes the time of what it chooses. Nothing of that is flexible.

## Main results

* `Processor.spent_branch`, `Processor.spent_loop`: the time of a branch, and of a loop
* `Processor.spent_moveList`: the time of a move of a register list
-/

namespace M68k

open Encoding Reference

variable {β : Type} {bus : Bus β} {tables : Tables}

/-- Without flexible steps an activity takes its time, whatever length is set. -/
theorem Activity.elapsed_of_fixed {activity : Activity} (h : activity.isFlexible = false)
    (length : HalfCycles) : activity.elapsed length = activity.time := by
  rw [elapsed, h]
  rfl

/-! ## Branches and loops -/

namespace Processor

theorem isFlexible_turn (p : Processor) : p.turn.2.isFlexible = false := by
  unfold turn
  split
  · unfold turnBranch
    split_ifs <;> rfl
  · rfl
  · unfold turnLoop
    dsimp only []
    split_ifs <;> rfl
  · rfl

theorem time_turnBranch (p : Processor) :
    p.turnBranch.2.time = branchTime p.opcode p.registers := by
  have hholds : p.conditionHolds = Reference.conditionHolds p.opcode p.registers := rfl
  simp only [turnBranch, branchTime, hholds, Snapshot.hasWordDisplacement_eq, decide_eq_true_eq]
  split_ifs <;> rfl

theorem time_turnLoop {p : Processor}
    (hregister : p.instruction.destinationRegister.index = .ofField p.opcode.toNat) :
    p.turnLoop.2.time = loopTime p.opcode p.registers := by
  have hholds : p.conditionHolds = Reference.conditionHolds p.opcode p.registers := rfl
  have hcounter (counter : Word) : counter - 1 = 0xFFFF ↔ counter = 0 := by bv_omega
  simp only [turnLoop, loopTime, hholds, hregister, hcounter]
  split_ifs <;> rfl

end Processor

section

variable (hbus : bus.Waitless) (hrealizes : tables.Realizes forms) {p : Processor}
  (hboundary : p.atBoundary tables) (hinterrupt : p.pendingInterrupt? = none)
include hbus hrealizes hboundary hinterrupt

namespace Processor

/-- An instruction that turns takes the time of its turn. -/
theorem spent_turn {instruction : Instruction}
    (hdecode : decode? forms (Half.high.get p.prefetch) =
      some ⟨instruction, [] ++ [.act .operate .nowhere]⟩)
    (hturns : instruction.operation.turns) (hunprivileged : instruction.requiresSupervisor = false)
    (b : β) :
    (p.runInstruction tables bus b).spent =
      (p.dispatchedRun instruction b).processor.turn.2.time := by
  have hfinal := unplaced_runInstruction_turn bus hrealizes hboundary hinterrupt hdecode hturns
    hunprivileged nofun b
  rw [Run.execute_nil] at hfinal
  rw [Run.spent_of_unplaced hfinal, Run.spent_perform hbus,
    Activity.elapsed_of_fixed (isFlexible_turn _)]
  exact Nat.zero_add _

theorem spent_branch (hline : (Half.high.get p.prefetch).toNat / 4096 = 6)
    (hcondition : (Half.high.get p.prefetch).toNat / 256 % 16 ≠ 1) (b : β) :
    (p.runInstruction tables bus b).spent =
      branchTime (Half.high.get p.prefetch) p.registers := by
  rw [spent_turn hbus hrealizes hboundary hinterrupt
    (decode?_branch hline (branch_of_condition hcondition)) rfl rfl b]
  exact time_turnBranch _

theorem spent_loop (hpattern : Half.high.get p.prefetch &&& 0xF0F8 = 0x50C8) (b : β) :
    (p.runInstruction tables bus b).spent =
      loopTime (Half.high.get p.prefetch) p.registers := by
  rw [spent_turn hbus hrealizes hboundary hinterrupt
    (decode?_loop hpattern (setOrLoop_of_loop hpattern)) rfl rfl b]
  exact time_turnLoop (RegisterNumber.index_ofField _)

end Processor

end

/-! ## Register lists -/

theorem length_listed (list : Word) (descending : Bool) :
    (listed list descending).length = Multiply.setBits list := by
  rw [listed, List.length_map, ← List.countP_eq_length_filter, Multiply.setBits,
    ← List.map_coe_finRange_eq_range, List.countP_map]
  rfl

namespace FixedPrograms

theorem elapsed_listTransfers (read : Bool) (count : Nat) (length : HalfCycles) :
    (listTransfers read count).elapsed length = 8 * count := by
  induction count with
  | zero => rfl
  | succ count ih =>
    rw [listTransfers_succ, Activity.elapsed, Activity.time_append, Activity.time_transfer,
      Nat.mul_succ, Nat.add_comm _ 8, Nat.add_assoc]
    exact congrArg (8 + ·) ih

theorem elapsed_listActivity (words : Nat) (direction : ListDirection) (length : HalfCycles) :
    (listActivity words direction).elapsed length =
      8 * words + match direction with
        | .toMemory => 0
        | .toRegisters => 8 := by
  cases direction <;> exact elapsed_listTransfers _ _ _

end FixedPrograms

namespace Encoding

theorem listSize_beq_long (opcode : Word) : (listSize opcode == .long) = opcode.getLsbD 6 := by
  unfold listSize
  cases opcode.getLsbD 6 <;> rfl

theorem isRigid_addressList (mode : AddressMode) :
    ∀ stage ∈ (⟨.latchList, .src, .fetch⟩ :: addressList mode : List Stage), stage.IsRigid := by
  cases mode <;> decide

theorem times_addressList {direction : ListDirection} {mode : AddressMode}
    (h : movesRegisters direction mode) :
    Stage.times (⟨.latchList, .src, .fetch⟩ :: addressList mode) = 8 + listAddressTime mode := by
  cases direction <;> cases mode <;> first | rfl | cases h

end Encoding

/-- A move of a register list chooses the transfers of the words in the list behind its opcode. -/
theorem Processor.exists_act_moveList (hrealizes : tables.Realizes forms) (bus : Bus β)
    (p : Processor) (direction : ListDirection) (mode : AddressMode) (opcode : Word) (b : β) :
    let q := ((p.dispatchedRun (listInstruction direction opcode mode) b).execute bus tables
      (⟨.latchList, .src, .fetch⟩ :: addressList mode)).processor
    ∃ transfer offset,
      q.act tables .operate .nowhere = ({ q with transfer := transfer }, some offset) ∧
      tables.activityAt offset =
        FixedPrograms.listActivity (listLength opcode (Half.low.get p.prefetch)) direction := by
  intro q
  have hplain : (p.dispatchedRun (listInstruction direction opcode mode) b).Plain
      (⟨.latchList, .src, .fetch⟩ :: addressList mode) :=
    Run.plain_of_rigid (isRigid_addressList mode) rfl
  have hinstruction : q.instruction = listInstruction direction opcode mode :=
    congrArg Control.instruction (Run.control_execute bus tables hplain)
  have hoperation : q.instruction.operation = .movem direction := by
    rw [hinstruction]
    rfl
  have hlong : (q.instruction.size == .long) = opcode.getLsbD 6 := by
    rw [hinstruction]
    exact listSize_beq_long opcode
  have hlist : Half.low.get q.data.source = Half.low.get p.prefetch := by
    have hlatched : q.data.source = (Half.low.get p.prefetch).setWidth 32 := by
      cases mode <;> rfl
    rw [hlatched, ← setWidth_eq_low]
    exact BitVec.setWidth_setWidth_of_le _ (by decide)
  obtain ⟨offset, hact, hactivity⟩ := act_moveList hrealizes .nowhere hoperation
  refine ⟨_, offset, hact, ?_⟩
  rw [hactivity, ListTransfer.length_words_begin, length_listed, hlist, hlong, listLength]

section

variable (hbus : bus.Waitless) (hrealizes : tables.Realizes forms) {p : Processor}
  (hboundary : p.atBoundary tables) (hinterrupt : p.pendingInterrupt? = none)
include hbus hrealizes hboundary hinterrupt

theorem Processor.spent_moveList {direction : ListDirection} {mode : AddressMode}
    (hpattern : Half.high.get p.prefetch &&& 0xFF80 = direction.pattern)
    (hmode : AddressMode.ofField? (Half.high.get p.prefetch) = some mode)
    (hmoves : movesRegisters direction mode) (b : β) :
    (p.runInstruction tables bus b).spent =
      listTime direction mode
        (listLength (Half.high.get p.prefetch) (Half.low.get p.prefetch)) := by
  set opcode := Half.high.get p.prefetch with hopcode
  have hdecode : decode? forms opcode = some ⟨listInstruction direction opcode mode,
      (⟨.latchList, .src, .fetch⟩ :: addressList mode) ++
        .perform [] :: [⟨.finishList direction, .dst, .fetch⟩]⟩ :=
    decode?_moveRegisters hpattern (moveRegisters_eq_some hmode hmoves)
  have hspent := spent_runInstruction hbus hrealizes hboundary hinterrupt hdecode
    rfl nofun (isRigid_addressList mode) (List.forall_mem_singleton.2 ⟨nofun, rfl⟩) b
  obtain ⟨transfer, offset, hact, hactivity⟩ :=
    exists_act_moveList hrealizes bus p direction mode opcode b
  simp only [hact, Option.map_some, Option.getD_some, hactivity,
    FixedPrograms.elapsed_listActivity] at hspent
  have htimes : Stage.times [⟨.finishList direction, .dst, .fetch⟩] = 8 := rfl
  rw [hspent, times_addressList hmoves, htimes]
  unfold listTime HalfCycles
  cases direction <;> dsimp only [] <;> omega

end

end M68k
