import M68k.Proofs.Execution.Boundary
import M68k.Proofs.RegisterList

/-!
# Register-list transfers in progress

Only one operation begins a register-list transfer, and only one kind of bus step moves it on. So
wherever the processor is, the transfer is on its way through its list.

## Main results

* `Processor.inOrder_act`: actions leave the transfer alone, or begin another one
* `Processor.inOrder_receive`: bus steps leave it alone, or move it on
-/

namespace M68k.Processor

variable (p : Processor)

/-! ## Actions -/

theorem transfer_compute : p.compute.transfer = p.transfer :=
  congrArg Standing.transfer p.standing_compute

theorem transfer_prepare (action : Action) (target : Target) :
    (p.prepare action target).transfer = p.transfer :=
  congrArg Standing.transfer (p.standing_prepare action target)

variable {p}

/-- An operation leaves the transfer alone, or begins another one. -/
theorem inOrder_operate (h : p.transfer.InOrder) (tables : Tables) :
    (p.operate tables).1.transfer.InOrder := by
  unfold operate
  cases p.instruction.operation with
  | movem direction => exact ListTransfer.inOrder_begin _ _ _ _
  | bcc =>
    simp only [branch]
    split
    · exact h
    · split <;> exact h
  | dbcc =>
    simp only [decrementAndBranch]
    split
    · exact h
    · split <;> exact h
  | bsr | trap => exact h
  | _ =>
    simp only [transfer_compute]
    exact h

/-- **Actions leave the transfer alone**, or begin another one. -/
theorem inOrder_act (h : p.transfer.InOrder) (tables : Tables) (action : Action)
    (target : Target) : (p.act tables action target).1.transfer.InOrder := by
  cases action with
  | operate => exact inOrder_operate h tables
  | _ =>
    simp only [act, transfer_prepare]
    exact h

theorem inOrder_enterMicroOp (h : p.transfer.InOrder) (tables : Tables) :
    (p.enterMicroOp tables).transfer.InOrder := by
  unfold enterMicroOp
  dsimp only []
  split
  · exact h
  · split <;> exact inOrder_act h tables _ _

theorem inOrder_begin (h : p.transfer.InOrder) (tables : Tables) (start : Start) :
    (p.begin tables start).transfer.InOrder := by
  cases hentry : start.entry with
  | interrupt level =>
    rw [begin_interrupt p hentry]
    exact h
  | exception vector =>
    rw [begin_exception p hentry]
    exact h
  | instruction entry =>
    rw [begin_instruction p hentry]
    exact inOrder_enterMicroOp (by exact h) tables

/-! ## Bus steps -/

/-- **Bus steps leave the transfer alone**, or move it on. -/
theorem inOrder_receive (h : p.transfer.InOrder) (step : BusStep) (reply : Reply) :
    (p.receive step reply).transfer.InOrder := by
  have hloaded : (p.loaded step reply).transfer = p.transfer := by
    unfold loaded
    rw [timed_eq]
    split
    · cases step.slot <;> rfl
    · rfl
  rw [receive_eq]
  cases step.action with
  | advanceList =>
    simp only [applyStepAction, hloaded]
    exact h.advance
  | _ =>
    simp only [applyStepAction, setPc, hloaded]
    exact h

end M68k.Processor
