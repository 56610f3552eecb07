import M68k.Proofs.Execution.Control
import M68k.Proofs.Prefetch.Counter
import M68k.Proofs.Privilege.Status

/-!
# What touches the system part

Bus steps and the preparation of operands never touch the system part of the registers, and of the
operations only those that are privileged do, besides a trap.

## Main results

* `Processor.sameSystem_receive`, `Processor.sameSystem_prepare`: steps and preparations
* `Processor.sameSystem_act`: actions, unless a privileged operation or a trap is carried out
* `Processor.implemented_act`: no action sets a bit that is not implemented
-/

namespace M68k.Processor

open Registers

variable (p : Processor)

/-! ## Bus steps -/

theorem sameSystem_storeSlot (slot : DataSlot) (value : Word) (byte : Bool) :
    SameSystem p.registers (p.storeSlot slot value byte).registers := by
  cases slot with
  | listWord =>
    simp only [storeSlot, ListTransfer.store]
    split
    · exact .refl _
    · exact sameSystem_setListed _ _
  | none | latch | prefetch | interruptVector => exact .refl _
  | stackPointer | programCounter => exact ⟨rfl, rfl⟩

theorem sameSystem_receive (step : BusStep) (reply : Reply) :
    SameSystem p.registers (p.receive step reply).registers := by
  have htimed : (p.timed step).registers = p.registers := by rw [timed_eq]
  have hloaded : SameSystem p.registers (p.loaded step reply).registers := by
    cases hread : step.signals.isRead with
    | true =>
      rw [loaded_of_read p reply hread, ← htimed]
      exact sameSystem_storeSlot _ _ _ _
    | false => rw [loaded_of_not_read p reply hread, htimed]
  refine hloaded.trans ?_
  rw [receive_eq]
  cases step.action <;> exact ⟨rfl, rfl⟩

/-! ## Actions -/

theorem sameSystem_prepare (action : Action) (target : Target) :
    SameSystem p.registers (p.prepare action target).registers := by
  have hsystem : ((p.prepare action target).registers.sr,
      (p.prepare action target).registers.supervisorBank) =
      (p.registers.sr, p.registers.supervisorBank) := by
    cases action with
    | address form =>
      exact onSides_keeps p (fun p => (p.registers.sr, p.registers.supervisorBank)) target
        fun _ _ => rfl
    | increment stride | decrement stride =>
      exact onSides_keeps p (fun p => (p.registers.sr, p.registers.supervisorBank)) target
        fun _ _ => rfl
    | immediate | longImmediate | latchList =>
      exact onSides_keeps p (fun p => (p.registers.sr, p.registers.supervisorBank)) target
        fun _ _ => rfl
    | finishList direction =>
      simp only [prepare, finishList]
      cases direction <;> dsimp only [] <;> split <;> rfl
    | none | operate | pushJumpReturn | pushBranchReturn | popReturn | locateFrame => rfl
  rw [Prod.mk.injEq] at hsystem
  exact ⟨congrArg Status.system hsystem.1, hsystem.2⟩

theorem sameSystem_writeOperand (operand : Operand) (size : Size) (value : Long) :
    SameSystem p.registers (p.writeOperand operand size value).registers := by
  cases operand <;> exact ⟨rfl, rfl⟩

variable {p}

theorem sameSystem_writeDestination {q : Processor} (h : SameSystem p.registers q.registers)
    (size : Size) (value : Long) :
    SameSystem p.registers (q.writeDestination size value).registers :=
  h.trans (sameSystem_writeOperand q _ _ _)

theorem sameSystem_setStatus (hp : p.registers.Implemented) {sr : Status}
    (h : sr.system = p.registers.sr.system) :
    SameSystem p.registers (p.setStatus sr).registers :=
  .setStatus hp h

theorem sameSystem_finish (hp : p.registers.Implemented) (size : Size) {computed : Computed}
    (h : computed.status.system = p.registers.sr.system) :
    SameSystem p.registers (p.finish size computed).registers :=
  sameSystem_writeDestination (sameSystem_setStatus hp h) _ _

theorem sameSystem_finishLogical (hp : p.registers.Implemented) (size : Size) (value : Long) :
    SameSystem p.registers (p.finishLogical size value).registers :=
  sameSystem_finish hp size (Status.system_logical _ _)

/-- Operations that are not privileged touch condition codes only. -/
theorem sameSystem_compute (hp : p.registers.Implemented)
    (h : p.instruction.operation.isPrivileged = false) :
    SameSystem p.registers p.compute.registers := by
  unfold compute
  cases hoperation : p.instruction.operation with
  | moveToSr | bitwiseToSr | rte | moveToUsp | moveFromUsp | reset =>
    simp [hoperation, Operation.isPrivileged] at h
  | abcd | sbcd => exact sameSystem_finish hp _ (PackedDecimal.system_finish _ _ _ _)
  | add => exact sameSystem_finish hp _ (Arithmetic.system_add _ _ _ _)
  | sub => exact sameSystem_finish hp _ (Arithmetic.system_sub _ _ _ _)
  | neg => exact sameSystem_finish hp _ (Arithmetic.system_sub _ _ _ _)
  | negx => exact sameSystem_finish hp _ (Arithmetic.system_subx _ _ _ _)
  | clr =>
    refine sameSystem_finish hp _ ?_
    rw [Status.system_or (by decide), Status.system_clear (by decide)]
  | cmp | cmpa => exact sameSystem_setStatus hp (Arithmetic.system_compare _ _ _ _)
  | bitwise | move | moveq | not | swap | ext => exact sameSystem_finishLogical hp _ _
  | tas => exact sameSystem_finish hp _ (Status.system_logical _ _)
  | tst => exact sameSystem_setStatus hp (Status.system_logical _ _)
  | bitwiseToCcr kind =>
    have hrewind : SameSystem p.registers p.rewind.registers := ⟨rfl, rfl⟩
    exact hrewind.trans (sameSystem_setCcr _)
  | moveToCcr | rtr => exact sameSystem_setCcr _
  | bit kind =>
    have hstatus (holds : Bool) : SameSystem p.registers
        (p.setStatus (Status.setIf p.registers.sr Status.zero holds)).registers :=
      sameSystem_setStatus hp (Status.system_setIf (by decide) _)
    simp only [operateOnBit]
    split
    · exact hstatus _
    · refine sameSystem_writeDestination ?_ _ _
      exact hstatus _
  | shift kind =>
    have hfinish (size : Size) (value : Long) (count : Nat) : SameSystem p.registers (p.finish size
        (p.instruction.operation.applyShift value count size p.registers.sr)).registers :=
      sameSystem_finish hp size (Operation.system_applyShift _ _ _ _ _)
    simp only [shift]
    split <;> exact hfinish _ _ _
  | mulu | muls => exact sameSystem_finishLogical hp _ _
  | scc =>
    refine sameSystem_writeDestination ?_ _ _
    exact .refl _
  | exg => exact sameSystem_writeDestination (sameSystem_writeOperand p _ _ _) _ _
  | adda | suba | movea | moveFromSr | lea =>
    exact sameSystem_writeDestination (.refl _) _ _
  | jmp | jsr | rts => exact ⟨rfl, rfl⟩
  | nop | bcc | bsr | dbcc | trap | movem => exact .refl _

theorem sameSystem_branch (programs : FixedPrograms) :
    SameSystem p.registers (p.branch programs).1.registers := by
  unfold branch
  split
  · exact ⟨rfl, rfl⟩
  · split <;> exact .refl _

theorem sameSystem_decrementAndBranch (programs : FixedPrograms) :
    SameSystem p.registers (p.decrementAndBranch programs).1.registers := by
  unfold decrementAndBranch
  split
  · exact .refl _
  · dsimp only []
    split <;> exact ⟨rfl, rfl⟩

/-- **Actions touch condition codes only**, unless a privileged operation or a trap is carried
out. -/
theorem sameSystem_act (hp : p.registers.Implemented) (tables : Tables) (action : Action)
    (target : Target)
    (h : action = .operate →
      p.instruction.operation.isPrivileged = false ∧ p.instruction.operation ≠ .trap) :
    SameSystem p.registers (p.act tables action target).1.registers := by
  by_cases haction : action = .operate
  · obtain ⟨hprivileged, htrap⟩ := h haction
    subst haction
    simp only [act]
    unfold operate
    cases hoperation : p.instruction.operation with
    | trap => exact absurd hoperation htrap
    | bcc => exact sameSystem_branch _
    | dbcc => exact sameSystem_decrementAndBranch _
    | bsr => exact ⟨rfl, rfl⟩
    | movem => exact .refl _
    | _ => exact sameSystem_compute hp hprivileged
  · rw [act_of_ne_operate p tables target haction]
    exact sameSystem_prepare p action target

/-! ## Implemented bits -/

/-- No operation sets a bit that is not implemented. -/
theorem implemented_compute (hp : p.registers.Implemented) : p.compute.registers.Implemented := by
  by_cases h : p.instruction.operation.isPrivileged
  · unfold compute
    cases hoperation : p.instruction.operation with
    | moveToSr | bitwiseToSr | rte => exact implemented_setStatus _
    | moveToUsp =>
      simp only [setUsp]
      split <;> exact hp
    | moveFromUsp => exact (sameSystem_writeDestination (.refl p.registers) _ _).implemented hp
    | reset => exact hp
    | _ => simp [hoperation, Operation.isPrivileged] at h
  · exact (sameSystem_compute hp (by simpa using h)).implemented hp

theorem implemented_enterException (returnAddress : Long) :
    (p.enterException returnAddress).registers.Implemented := by
  have hstatus (sr : Status) : ((p.registers.setSupervisor true).setStatus sr).Implemented :=
    implemented_setStatus sr
  exact hstatus _

/-- **No action sets a bit that is not implemented.** -/
theorem implemented_act (hp : p.registers.Implemented) (tables : Tables) (action : Action)
    (target : Target) : (p.act tables action target).1.registers.Implemented := by
  by_cases haction : action = .operate
  · subst haction
    simp only [act]
    unfold operate
    cases hoperation : p.instruction.operation with
    | trap => exact implemented_enterException _
    | bcc => exact (sameSystem_branch _).implemented hp
    | dbcc => exact (sameSystem_decrementAndBranch _).implemented hp
    | bsr | movem => exact hp
    | _ => exact implemented_compute hp
  · rw [act_of_ne_operate p tables target haction]
    exact (sameSystem_prepare p action target).implemented hp

end M68k.Processor
