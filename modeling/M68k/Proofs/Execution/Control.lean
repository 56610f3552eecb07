import M68k.Proofs.Encoding.Shape
import M68k.Proofs.Execution.Setting

/-!
# What actions and bus steps leave alone

Which instruction is in progress, and how far its chain has come, is settled at instruction
boundaries and between bus programs. Bus steps leave all of it alone, and actions do so too, except
that a trap enters its exception.

## Main definitions

* `Control`: the part of a processor that bus steps leave alone
* `Standing`: the part that computing and preparing operands leaves alone

## Main results

* `Processor.control_receive`, `Processor.control_act`: frame conditions
* `Processor.act_of_plain`: an action that does not redirect chooses nothing
-/

namespace M68k

/-- The part of a processor that bus steps leave alone. -/
structure Control where
  phase : Phase
  opcode : Word
  instruction : Instruction
  microOp : Nat
  interruptLevel : Level
  levelSevenRose : Bool
  acknowledgedLevel : Level
  debt : HalfCycles

namespace Processor

/-- What bus steps leave alone. -/
def control (p : Processor) : Control where
  phase := p.phase
  opcode := p.opcode
  instruction := p.instruction
  microOp := p.microOp
  interruptLevel := p.interruptLevel
  levelSevenRose := p.levelSevenRose
  acknowledgedLevel := p.acknowledgedLevel
  debt := p.debt

variable (p : Processor)

/-! ## Bus steps -/

theorem control_storeSlot (slot : DataSlot) (value : Word) (byte : Bool) :
    (p.storeSlot slot value byte).control = p.control := by
  cases slot <;> rfl

theorem control_applyStepAction (action : StepAction) :
    (p.applyStepAction action).control = p.control := by
  cases action <;> rfl

/-- The processor once the flexible length is used up. -/
def timed (p : Processor) (step : BusStep) : Processor :=
  if step.length = .flexible then { p with flexibleLength := 0 } else p

/-- The processor once the word on the bus has been taken, before the action of the step. -/
def loaded (p : Processor) (step : BusStep) (reply : Reply) : Processor :=
  if step.signals.isRead then
    (p.timed step).storeSlot step.slot reply.value step.signals.selectByte
  else p.timed step

theorem receive_eq (step : BusStep) (reply : Reply) :
    p.receive step reply =
      let moved := (p.loaded step reply).applyStepAction step.action
      { moved with
        busStep := moved.busStep + 1
        clock := moved.clock + (p.duration step + reply.wait) } := rfl

/-- Only the flexible length is used up. -/
theorem timed_eq (step : BusStep) :
    p.timed step =
      { p with flexibleLength := if step.length = .flexible then 0 else p.flexibleLength } := by
  unfold timed
  split <;> rfl

theorem loaded_of_read {step : BusStep} (reply : Reply) (h : step.signals.isRead) :
    p.loaded step reply =
      (p.timed step).storeSlot step.slot reply.value step.signals.selectByte :=
  if_pos h

theorem loaded_of_not_read {step : BusStep} (reply : Reply) (h : step.signals.isRead = false) :
    p.loaded step reply = p.timed step :=
  if_neg (by simp [h])

/-- **Bus steps leave the control part alone.** -/
theorem control_receive (step : BusStep) (reply : Reply) :
    (p.receive step reply).control = p.control := by
  refine (control_applyStepAction (p.loaded step reply) step.action).trans ?_
  cases hread : step.signals.isRead with
  | true =>
    rw [loaded_of_read p reply hread, control_storeSlot, timed_eq]
    rfl
  | false =>
    rw [loaded_of_not_read p reply hread, timed_eq]
    rfl

@[simp] theorem phase_receive (step : BusStep) (reply : Reply) :
    (p.receive step reply).phase = p.phase :=
  congrArg Control.phase (control_receive p step reply)

@[simp] theorem opcode_receive (step : BusStep) (reply : Reply) :
    (p.receive step reply).opcode = p.opcode :=
  congrArg Control.opcode (control_receive p step reply)

@[simp] theorem instruction_receive (step : BusStep) (reply : Reply) :
    (p.receive step reply).instruction = p.instruction :=
  congrArg Control.instruction (control_receive p step reply)

@[simp] theorem microOp_receive (step : BusStep) (reply : Reply) :
    (p.receive step reply).microOp = p.microOp :=
  congrArg Control.microOp (control_receive p step reply)

/-- A bus step moves on by one. -/
@[simp] theorem busStep_receive (step : BusStep) (reply : Reply) :
    (p.receive step reply).busStep = p.busStep + 1 :=
  congrArg Setting.busStep (p.setting_receive step reply)

end Processor

/-! ## Operands -/

/-- What an operation leaves alone while it works on its operands, besides the control part: the
prefetch queue, a transfer and a branch target in progress, what was latched at an acknowledge, and
the place and time of the next bus step. -/
structure Standing extends Control where
  prefetch : Long
  transfer : ListTransfer
  expiredTarget : Long
  interruptVector : Word
  busStep : Nat
  clock : HalfCycles

namespace Processor

/-- What an operation leaves alone while it works on its operands. -/
def standing (p : Processor) : Standing where
  toControl := p.control
  prefetch := p.prefetch
  transfer := p.transfer
  expiredTarget := p.expiredTarget
  interruptVector := p.interruptVector
  busStep := p.busStep
  clock := p.clock

variable (p : Processor)

@[simp] theorem standing_setStatus (sr : Status) : (p.setStatus sr).standing = p.standing := rfl

@[simp] theorem standing_setPc (pc : Long) : (p.setPc pc).standing = p.standing := rfl

@[simp] theorem standing_writeOperand (operand : Operand) (size : Size) (value : Long) :
    (p.writeOperand operand size value).standing = p.standing := by
  cases operand <;> rfl

@[simp] theorem standing_writeDestination (size : Size) (value : Long) :
    (p.writeDestination size value).standing = p.standing :=
  standing_writeOperand p _ _ _

@[simp] theorem standing_finish (size : Size) (computed : Computed) :
    (p.finish size computed).standing = p.standing :=
  standing_writeDestination _ _ _

@[simp] theorem standing_finishLogical (size : Size) (value : Long) :
    (p.finishLogical size value).standing = p.standing :=
  standing_finish p _ _

@[simp] theorem standing_setOnCondition : p.setOnCondition.standing = p.standing :=
  standing_writeDestination _ _ _

@[simp] theorem standing_multiply (product : Word → Word → Long) (cycles : Word → Nat) :
    (p.multiply product cycles).standing = p.standing :=
  standing_finishLogical p _ _

@[simp] theorem standing_shift : p.shift.standing = p.standing := by
  unfold shift
  dsimp only []
  split <;> exact standing_finish p _ _

@[simp] theorem standing_operateOnBit (kind : BitKind) :
    (p.operateOnBit kind).standing = p.standing := by
  unfold operateOnBit
  dsimp only []
  split
  · rfl
  · exact standing_writeDestination _ _ _

/-- **Computing reaches nothing but operands**, the status and the length of a flexible step. -/
theorem standing_compute : p.compute.standing = p.standing := by
  unfold compute
  cases p.instruction.operation <;> first | rfl | simp

/-- What is kept on each side is kept on both. -/
theorem onSides_keeps {α : Type} (get : Processor → α) (target : Target)
    {f : Processor → Side → Processor} (h : ∀ p side, get (f p side) = get p) :
    get (p.onSides target f) = get p := by
  unfold onSides
  induction target.sides generalizing p with
  | nil => rfl
  | cons side sides ih => rw [List.foldl_cons, ih, h]

/-- **Nor does preparing them**, whatever the action. -/
theorem standing_prepare (action : Action) (target : Target) :
    (p.prepare action target).standing = p.standing := by
  cases action with
  | address form => exact onSides_keeps p standing target fun _ _ => rfl
  | increment stride | decrement stride => exact onSides_keeps p standing target fun _ _ => rfl
  | immediate | longImmediate | latchList => exact onSides_keeps p standing target fun _ _ => rfl
  | finishList direction =>
    simp only [prepare, finishList]
    cases direction <;> dsimp only [] <;> split <;> rfl
  | none | operate | pushJumpReturn | pushBranchReturn | popReturn | locateFrame => rfl

@[simp] theorem control_compute : p.compute.control = p.control :=
  congrArg Standing.toControl p.standing_compute

@[simp] theorem control_prepare (action : Action) (target : Target) :
    (p.prepare action target).control = p.control :=
  congrArg Standing.toControl (p.standing_prepare action target)

/-! ## Actions -/

theorem control_decrementAndBranch (programs : FixedPrograms) :
    (p.decrementAndBranch programs).1.control = p.control := by
  unfold decrementAndBranch
  split
  · rfl
  · dsimp only []
    split <;> rfl

theorem control_branch (programs : FixedPrograms) :
    (p.branch programs).1.control = p.control := by
  unfold branch
  split
  · rfl
  · split <;> rfl

/-- An operation that is no trap leaves the control part alone. -/
theorem control_operate (tables : Tables) (h : p.instruction.operation ≠ .trap) :
    (p.operate tables).1.control = p.control := by
  unfold operate
  cases hoperation : p.instruction.operation with
  | trap => exact absurd hoperation h
  | bcc => exact control_branch p _
  | dbcc => exact control_decrementAndBranch p _
  | bsr | movem => rfl
  | _ => exact control_compute p

/-- **Actions leave the control part alone**, unless a trap is carried out. -/
theorem control_act (tables : Tables) (action : Action) (target : Target)
    (h : action = .operate → p.instruction.operation ≠ .trap) :
    (p.act tables action target).1.control = p.control := by
  cases action with
  | operate => exact control_operate p tables (h rfl)
  | _ => exact control_prepare p _ target

/-- An operation that does not redirect is computed. -/
theorem act_of_plain (tables : Tables) (target : Target)
    (h : p.instruction.operation.redirects = false) :
    p.act tables .operate target = (p.compute, none) := by
  simp only [act, operate]
  split <;> simp_all [Operation.redirects]

/-- Any other action prepares one. -/
theorem act_of_ne_operate (tables : Tables) {action : Action} (target : Target)
    (h : action ≠ .operate) : p.act tables action target = (p.prepare action target, none) := by
  cases action <;> first | rfl | exact absurd rfl h

/-- What is being executed is kept, whatever the action. -/
theorem instruction_act (tables : Tables) (action : Action) (target : Target) :
    (p.act tables action target).1.instruction = p.instruction := by
  rcases p.traps_or_stays action with ⟨rfl, htrap⟩ | hstays
  · rw [act_of_trap p tables target htrap]
    rfl
  · exact congrArg Control.instruction (control_act p tables action target hstays)

/-- So is the opcode that it was decoded from. -/
theorem opcode_act (tables : Tables) (action : Action) (target : Target) :
    (p.act tables action target).1.opcode = p.opcode := by
  rcases p.traps_or_stays action with ⟨rfl, htrap⟩ | hstays
  · rw [act_of_trap p tables target htrap]
    rfl
  · exact congrArg Control.opcode (control_act p tables action target hstays)

/-- Only a trap leaves the chain of the instruction, for its exception. -/
theorem phase_act (tables : Tables) (action : Action) (target : Target) :
    (p.act tables action target).1.phase = p.phase ∨
      (p.act tables action target).1.phase = .exception ∧
        (p.act tables action target).1.busStep = tables.programs.exception := by
  rcases p.traps_or_stays action with ⟨rfl, htrap⟩ | hstays
  · rw [act_of_trap p tables target htrap]
    exact .inr ⟨rfl, rfl⟩
  · exact .inl (congrArg Control.phase (control_act p tables action target hstays))

end Processor

end M68k
