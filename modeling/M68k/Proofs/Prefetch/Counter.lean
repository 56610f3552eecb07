import M68k.Proofs.Execution.Control
import M68k.Proofs.Registers

/-!
# The program counter and the prefetch queue

Only fetches move the program counter on, only vectors and popped frames load it, and only the
operations that leave the instruction stream or step back in it set it. The prefetch queue only
changes with fetches.

## Main results

* `Processor.pc_receive`, `Processor.pc_compute`, `Processor.pc_prepare`
* `Processor.prefetch_receive`, `Processor.prefetch_compute`, `Processor.prefetch_prepare`
-/

namespace M68k.Processor

variable (p : Processor)

/-! ## Bus steps -/

theorem pc_storeSlot {slot : DataSlot} (value : Word) (byte : Bool)
    (h : ∀ half, slot ≠ .programCounter half) :
    (p.storeSlot slot value byte).registers.pc = p.registers.pc := by
  cases slot with
  | programCounter half => exact absurd rfl (h half)
  | listWord => exact ListTransfer.pc_store _ _ _
  | none | latch | prefetch | stackPointer | interruptVector => rfl

theorem prefetch_storeSlot {slot : DataSlot} (value : Word) (byte : Bool) (h : slot ≠ .prefetch) :
    (p.storeSlot slot value byte).prefetch = p.prefetch := by
  cases slot <;> first | rfl | exact absurd rfl h

theorem pc_applyStepAction (action : StepAction) :
    (p.applyStepAction action).registers.pc =
      if action = .incrementProgramCounter then p.registers.pc + 2 else p.registers.pc := by
  cases action <;> rfl

theorem prefetch_applyStepAction (action : StepAction) :
    (p.applyStepAction action).prefetch =
      if action = .advancePrefetch then Half.high.set p.prefetch (Half.low.get p.prefetch)
      else p.prefetch := by
  cases action <;> rfl

/-- A step that does not load the program counter moves it on if its action says so. -/
theorem pc_receive {step : BusStep} (reply : Reply) (h : step.loadsCounter = false) :
    (p.receive step reply).registers.pc =
      if step.action = .incrementProgramCounter then p.registers.pc + 2 else p.registers.pc := by
  have hloaded : (p.loaded step reply).registers.pc = p.registers.pc := by
    cases hread : step.signals.isRead with
    | true =>
      have hslot (half : Half) : step.slot ≠ .programCounter half := by
        intro hslot
        simp [BusStep.loadsCounter, hread, hslot] at h
      rw [loaded_of_read p reply hread, pc_storeSlot _ _ _ hslot, timed_eq]
    | false => rw [loaded_of_not_read p reply hread, timed_eq]
  rw [receive_eq]
  simp only [pc_applyStepAction, hloaded]

/-- A step that does not read into the queue moves it up if its action says so. -/
theorem prefetch_receive {step : BusStep} (reply : Reply)
    (h : step.signals.isRead → step.slot ≠ .prefetch) :
    (p.receive step reply).prefetch =
      if step.action = .advancePrefetch then Half.high.set p.prefetch (Half.low.get p.prefetch)
      else p.prefetch := by
  have hloaded : (p.loaded step reply).prefetch = p.prefetch := by
    cases hread : step.signals.isRead with
    | true => rw [loaded_of_read p reply hread, prefetch_storeSlot _ _ _ (h hread), timed_eq]
    | false => rw [loaded_of_not_read p reply hread, timed_eq]
  rw [receive_eq]
  simp only [prefetch_applyStepAction, hloaded]

/-- A fetch puts the word on the bus behind the others in the queue. -/
theorem prefetch_receive_fetch {step : BusStep} (reply : Reply) (h : step.isFetch) :
    (p.receive step reply).prefetch = Half.low.set p.prefetch reply.value := by
  simp only [BusStep.isFetch, Bool.and_eq_true, Bool.not_eq_true', beq_iff_eq] at h
  obtain ⟨⟨⟨⟨hread, hbyte⟩, hslot⟩, -⟩, haction⟩ := h
  rw [receive_eq]
  simp only [prefetch_applyStepAction, loaded_of_read p reply hread, hslot, hbyte, haction,
    timed_eq]
  rfl

/-! ## Actions -/

theorem pc_writeOperand (operand : Operand) (size : Size) (value : Long) :
    (p.writeOperand operand size value).registers.pc = p.registers.pc := by
  cases operand <;> rfl

@[simp] theorem pc_writeDestination (size : Size) (value : Long) :
    (p.writeDestination size value).registers.pc = p.registers.pc :=
  pc_writeOperand p _ _ _

@[simp] theorem pc_processor_setStatus (sr : Status) :
    (p.setStatus sr).registers.pc = p.registers.pc :=
  Registers.pc_setStatus _ _

@[simp] theorem pc_finish (size : Size) (computed : Computed) :
    (p.finish size computed).registers.pc = p.registers.pc :=
  (pc_writeDestination _ _ _).trans (pc_processor_setStatus _ _)

/-- Operations set the program counter only to leave the instruction stream or to step back. -/
theorem pc_compute (h : p.instruction.operation.setsCounter = false) :
    p.compute.registers.pc = p.registers.pc := by
  unfold compute
  cases hoperation : p.instruction.operation with
  | jmp | jsr | rts | bitwiseToCcr | bitwiseToSr => simp [hoperation, Operation.setsCounter] at h
  | shift kind =>
    simp only [shift]
    split <;> exact pc_finish _ _ _
  | bit kind =>
    simp only [operateOnBit]
    split
    · exact pc_processor_setStatus _ _
    · exact (pc_writeDestination _ _ _).trans (pc_processor_setStatus _ _)
  | exg => exact (pc_writeDestination _ _ _).trans (pc_writeOperand _ _ _ _)
  | moveToUsp => exact Registers.pc_setUsp _ _
  | mulu | muls => exact pc_finish _ _ _
  | scc => exact pc_writeDestination _ _ _
  | _ => first | rfl | simp [finishLogical]

/-- An operation that takes its immediate from the queue steps back over it. -/
theorem pc_compute_of_rewinds (h : p.instruction.operation.rewinds) :
    p.compute.registers.pc = p.registers.pc - 2 := by
  unfold compute
  cases hoperation : p.instruction.operation with
  | bitwiseToCcr kind => rfl
  | bitwiseToSr kind => exact pc_processor_setStatus _ _
  | _ => simp [hoperation, Operation.rewinds] at h

theorem pc_prepare (action : Action) (target : Target) :
    (p.prepare action target).registers.pc = p.registers.pc := by
  cases action with
  | address form => exact onSides_keeps p (·.registers.pc) target fun _ _ => rfl
  | increment stride | decrement stride =>
    exact onSides_keeps p (·.registers.pc) target fun _ _ => rfl
  | immediate | longImmediate | latchList =>
    exact onSides_keeps p (·.registers.pc) target fun _ _ => rfl
  | finishList direction =>
    simp only [prepare, finishList]
    cases direction <;> dsimp only [] <;> split <;> rfl
  | none | operate | pushJumpReturn | pushBranchReturn | popReturn | locateFrame => rfl

theorem prefetch_compute : p.compute.prefetch = p.prefetch :=
  congrArg Standing.prefetch p.standing_compute

theorem prefetch_prepare (action : Action) (target : Target) :
    (p.prepare action target).prefetch = p.prefetch :=
  congrArg Standing.prefetch (p.standing_prepare action target)

end M68k.Processor
