import M68k.Processor.Run

/-!
# What operations do not see

Operations and actions work on registers and latches. Where in the tables the processor stands, what
its interrupt inputs are and how much time has passed is of no concern to them: they neither look
there nor change anything there. A trap alone goes to another place. Bus steps move on in the tables
and in time, and do the same to registers and latches wherever and whenever they are run.

## Main definitions

* `Setting`: the place in the tables, the interrupt inputs and the accounts of time
* `Processor.setting`, `Processor.withSetting`: look at them, and replace them
* `Processor.Indifferent`: an update that does neither

## Main results

* `Processor.act_withSetting`: all actions but traps disregard the setting
* `Processor.receive_withSetting`: so do bus steps, which move on from where they are
-/

namespace M68k

/-- The place in the tables, the interrupt inputs and the accounts of time. -/
structure Setting where
  interruptLevel : Level
  levelSevenRose : Bool
  microOp : Nat
  busStep : Nat
  clock : HalfCycles
  debt : HalfCycles

namespace Processor

/-- The setting of a processor. -/
def setting (p : Processor) : Setting where
  interruptLevel := p.interruptLevel
  levelSevenRose := p.levelSevenRose
  microOp := p.microOp
  busStep := p.busStep
  clock := p.clock
  debt := p.debt

/-- The processor in another setting. -/
def withSetting (p : Processor) (s : Setting) : Processor :=
  { p with
    interruptLevel := s.interruptLevel
    levelSevenRose := s.levelSevenRose
    microOp := s.microOp
    busStep := s.busStep
    clock := s.clock
    debt := s.debt }

/-- The update does the same in every setting, and leaves it alone. -/
def Indifferent (f : Processor → Processor) : Prop :=
  ∀ (p : Processor) (s : Setting), f (p.withSetting s) = (f p).withSetting s

theorem Indifferent.setting {f : Processor → Processor} (h : Indifferent f) (p : Processor) :
    (f p).setting = p.setting := by
  have hhere : f p = (f p).withSetting p.setting := h p p.setting
  exact (congrArg Processor.setting hhere :)

variable (p : Processor) (s : Setting)

@[simp] theorem registers_withSetting : (p.withSetting s).registers = p.registers := rfl

@[simp] theorem instruction_withSetting : (p.withSetting s).instruction = p.instruction := rfl

@[simp] theorem opcode_withSetting : (p.withSetting s).opcode = p.opcode := rfl

/-! ## Operations -/

@[simp] theorem readOperand_withSetting (operand : Operand) :
    (p.withSetting s).readOperand operand = p.readOperand operand := by
  cases operand <;> rfl

@[simp] theorem source_withSetting : (p.withSetting s).source = p.source :=
  readOperand_withSetting p s _

@[simp] theorem destination_withSetting : (p.withSetting s).destination = p.destination :=
  readOperand_withSetting p s _

theorem writeOperand_withSetting (operand : Operand) (size : Size) (value : Long) :
    (p.withSetting s).writeOperand operand size value =
      (p.writeOperand operand size value).withSetting s := by
  cases operand <;> rfl

theorem writeDestination_withSetting (size : Size) (value : Long) :
    (p.withSetting s).writeDestination size value =
      (p.writeDestination size value).withSetting s :=
  writeOperand_withSetting p s _ _ _

theorem finish_withSetting (size : Size) (computed : Computed) :
    (p.withSetting s).finish size computed = (p.finish size computed).withSetting s :=
  writeDestination_withSetting (p.setStatus computed.status) s _ _

theorem finishLogical_withSetting (size : Size) (value : Long) :
    (p.withSetting s).finishLogical size value = (p.finishLogical size value).withSetting s :=
  finish_withSetting p s _ _

theorem setOnCondition_withSetting :
    (p.withSetting s).setOnCondition = p.setOnCondition.withSetting s := by
  have hholds : (p.withSetting s).conditionHolds = p.conditionHolds := rfl
  simp only [setOnCondition, hholds, instruction_withSetting]
  exact Eq.trans (by rfl) (writeDestination_withSetting _ s _ _)

theorem multiply_withSetting (product : Word → Word → Long) (cycles : Word → Nat) :
    (p.withSetting s).multiply product cycles = (p.multiply product cycles).withSetting s := by
  simp only [multiply, source_withSetting, destination_withSetting, finishLogical_withSetting]
  rfl

theorem shift_withSetting : (p.withSetting s).shift = p.shift.withSetting s := by
  simp only [shift, source_withSetting, destination_withSetting, readOperand_withSetting,
    finish_withSetting, instruction_withSetting, registers_withSetting]
  split <;> rfl

theorem operateOnBit_withSetting (kind : BitKind) :
    (p.withSetting s).operateOnBit kind = (p.operateOnBit kind).withSetting s := by
  simp only [operateOnBit, source_withSetting, destination_withSetting, instruction_withSetting,
    registers_withSetting]
  split
  · rfl
  · exact Eq.trans (by rfl) (writeDestination_withSetting _ s _ _)

theorem indifferent_compute : Indifferent compute := fun p s => by
  unfold compute
  simp only [instruction_withSetting, registers_withSetting, opcode_withSetting,
    source_withSetting, destination_withSetting]
  cases p.instruction.operation <;>
    simp only [finish_withSetting, finishLogical_withSetting, writeDestination_withSetting,
      setOnCondition_withSetting, operateOnBit_withSetting, shift_withSetting,
      multiply_withSetting, writeOperand_withSetting] <;> rfl

theorem branch_withSetting (programs : FixedPrograms) :
    (p.withSetting s).branch programs =
      ((p.branch programs).1.withSetting s, (p.branch programs).2) := by
  have hholds : (p.withSetting s).conditionHolds = p.conditionHolds := rfl
  have hword : (p.withSetting s).hasWordDisplacement = p.hasWordDisplacement := rfl
  simp only [branch, hholds, hword]
  split
  · rfl
  · split <;> rfl

theorem decrementAndBranch_withSetting (programs : FixedPrograms) :
    (p.withSetting s).decrementAndBranch programs =
      ((p.decrementAndBranch programs).1.withSetting s, (p.decrementAndBranch programs).2) := by
  have hholds : (p.withSetting s).conditionHolds = p.conditionHolds := rfl
  unfold decrementAndBranch
  rw [hholds]
  split
  · rfl
  · dsimp only []
    split <;> split
    · rfl
    · rename_i hexpired hrunning
      exact absurd hexpired hrunning
    · rename_i hrunning hexpired
      exact absurd hexpired hrunning
    · rfl

/-- A trap goes to the program of an exception. All other operations stay where they are. -/
theorem operate_withSetting (tables : Tables) (h : p.instruction.operation ≠ .trap) :
    (p.withSetting s).operate tables =
      ((p.operate tables).1.withSetting s, (p.operate tables).2) := by
  unfold operate
  simp only [instruction_withSetting]
  cases hoperation : p.instruction.operation with
  | trap => exact absurd hoperation h
  | bcc => rw [branch_withSetting]
  | dbcc => rw [decrementAndBranch_withSetting]
  | bsr | movem => rfl
  | _ => exact congrArg (·, none) (indifferent_compute p s)

/-! ## Actions -/

theorem onSides_withSetting (target : Target) {f : Processor → Side → Processor}
    (h : ∀ side, Indifferent (f · side)) :
    (p.withSetting s).onSides target f = (p.onSides target f).withSetting s := by
  unfold onSides
  induction target.sides generalizing p with
  | nil => rfl
  | cons side sides ih =>
    rw [List.foldl_cons, List.foldl_cons, ← ih (f p side)]
    exact congrArg (sides.foldl f) (h side p s)

theorem indifferent_prepare (action : Action) (target : Target) :
    Indifferent (·.prepare action target) := fun p s => by
  cases action with
  | address form => exact onSides_withSetting p s target fun _ _ _ => rfl
  | increment stride | decrement stride => exact onSides_withSetting p s target fun _ _ _ => rfl
  | immediate | longImmediate | latchList => exact onSides_withSetting p s target fun _ _ _ => rfl
  | finishList direction =>
    have hmode : (p.withSetting s).modeField = p.modeField := rfl
    simp only [prepare, finishList, hmode]
    cases direction <;> dsimp only [] <;> split <;> rfl
  | none | operate | pushJumpReturn | pushBranchReturn | popReturn | locateFrame => rfl

/-- An action is a trap, or stays on the chain. -/
theorem traps_or_stays (action : Action) :
    action = .operate ∧ p.instruction.operation = .trap ∨
      (action = .operate → p.instruction.operation ≠ .trap) := by
  by_cases htrap : action = .operate ∧ p.instruction.operation = .trap
  · exact .inl htrap
  · exact .inr fun haction hoperation => htrap ⟨haction, hoperation⟩

/-- A trap enters its exception. -/
theorem act_of_trap (tables : Tables) (target : Target)
    (h : p.instruction.operation = .trap) :
    p.act tables .operate target =
      (p.beginException tables (32 + (p.opcode &&& 0x000F).setWidth 8) (p.registers.pc - 2),
        none) := by
  simp only [act, operate, h]

/-- **Actions do the same in every setting**, and choose the same program, unless they trap. -/
theorem act_withSetting (tables : Tables) (action : Action) (target : Target)
    (h : action = .operate → p.instruction.operation ≠ .trap) :
    (p.withSetting s).act tables action target =
      ((p.act tables action target).1.withSetting s, (p.act tables action target).2) := by
  cases action with
  | operate => exact operate_withSetting p s tables (h rfl)
  | _ => exact congrArg (·, none) (indifferent_prepare _ target p s)

/-- They leave the setting alone. -/
theorem setting_act (tables : Tables) (action : Action) (target : Target)
    (h : action = .operate → p.instruction.operation ≠ .trap) :
    (p.act tables action target).1.setting = p.setting :=
  congrArg (·.1.setting) (act_withSetting p p.setting tables action target h)

/-! ## Bus steps -/

theorem storeSlot_withSetting (slot : DataSlot) (value : Word) (byte : Bool) :
    (p.withSetting s).storeSlot slot value byte = (p.storeSlot slot value byte).withSetting s := by
  cases slot <;> rfl

theorem applyStepAction_withSetting (action : StepAction) :
    (p.withSetting s).applyStepAction action = (p.applyStepAction action).withSetting s := by
  cases action <;> rfl

theorem request_withSetting (step : BusStep) :
    (p.withSetting s).request step = p.request step := by
  cases step with
  | mk length signals address slot action =>
    have haddress : (p.withSetting s).resolve address = p.resolve address := by
      cases address <;> rfl
    have hslot : (p.withSetting s).loadSlot slot = p.loadSlot slot := by
      cases slot <;> rfl
    simp only [request, haddress, hslot]

/-- **A bus step moves on by one place, and by its duration.** -/
theorem receive_withSetting (step : BusStep) (reply : Reply) :
    (p.withSetting s).receive step reply =
      (p.receive step reply).withSetting
        { s with
          busStep := s.busStep + 1
          clock := s.clock + (p.duration step + reply.wait) } := by
  have hread (q : Processor) :
      (if step.signals.isRead then
          (q.withSetting s).storeSlot step.slot reply.value step.signals.selectByte
        else q.withSetting s) =
        (if step.signals.isRead then q.storeSlot step.slot reply.value step.signals.selectByte
          else q).withSetting s := by
    split
    · exact storeSlot_withSetting q s _ _ _
    · rfl
  have htimed :
      (if step.length = .flexible then { p.withSetting s with flexibleLength := 0 }
        else p.withSetting s) =
        (if step.length = .flexible then { p with flexibleLength := 0 } else p).withSetting s := by
    split <;> rfl
  simp only [receive, htimed, hread, applyStepAction_withSetting]
  rfl

theorem setting_receive (step : BusStep) (reply : Reply) :
    (p.receive step reply).setting =
      { p.setting with
        busStep := p.busStep + 1
        clock := p.clock + (p.duration step + reply.wait) } :=
  congrArg setting (p.receive_withSetting p.setting step reply)

end Processor

end M68k
