import M68k.Proofs.Encoding.Cases

/-!
# Regular recipes

Numbers in recipes are bytes, and steps may have any length, but no recipe makes use of that: each
number names something that exists, and only flexible steps can last no time. There is never more
than one of these in a row, since each comes behind a step that lasts.

## Main definitions

* `Instruction.InRange`, `AddressSource.inRange`: every number names something
* `BusStep.lasts`, `Activity.Paced`: of two steps in a row, one takes time
* `Recipe.Regular`: the recipe is paced, and its numbers are in range

## Main results

* `regular_of_decode?`: every recipe is regular
* `FixedPrograms.firm_listTransfers` and its neighbours: so are the fixed programs
-/

namespace M68k

/-! ## Numbers -/

/-- The number names one of the eight registers. -/
def RegisterNumber.inRange (number : RegisterNumber) : Bool := number.toNat < 8

@[simp] theorem RegisterNumber.inRange_ofField (field : Nat) :
    (RegisterNumber.ofField field).inRange := by
  simpa [inRange] using toNat_ofField_lt field

/-- The number in an address source names something that exists. -/
def AddressSource.inRange : AddressSource → Bool
  | effectiveAddress number => number.toNat < 2
  | addressRegister register => register.inRange
  | frame number => number.toNat < 3
  | _ => true

@[simp] theorem AddressSource.inRange_ofSide (side : Side) : (ofSide side).inRange := by
  cases side <;> rfl

@[simp] theorem AddressSource.inRange_addressRegister (register : RegisterNumber) :
    (addressRegister register).inRange = register.inRange := rfl

/-- The number in an operand names a register. -/
def Operand.inRange : Operand → Bool
  | dataRegister register | addressRegister register => register.inRange
  | _ => true

@[simp] theorem Operand.inRange_ofMode {mode : AddressMode} {register : RegisterNumber}
    {latch : Operand} (hregister : register.inRange) (hlatch : latch.inRange) :
    (ofMode mode register latch).inRange := by
  cases mode <;> assumption

/-- All numbers in an instruction name registers. -/
structure Instruction.InRange (instruction : Instruction) : Prop where
  sourceRegister : instruction.sourceRegister.inRange
  destinationRegister : instruction.destinationRegister.inRange
  source : instruction.source.inRange
  destination : instruction.destination.inRange

namespace Instruction.InRange

variable {instruction : Instruction}

theorem bare (operation : Operation) (size : Size) : (Instruction.bare operation size).InRange :=
  ⟨RegisterNumber.inRange_ofField _, RegisterNumber.inRange_ofField _, rfl, rfl⟩

theorem withSource (h : instruction.InRange) (mode : AddressMode) {register : RegisterNumber}
    (hregister : register.inRange) : (instruction.withSource mode register).InRange :=
  { h with sourceRegister := hregister, source := Operand.inRange_ofMode hregister rfl }

theorem withDestination (h : instruction.InRange) (mode : AddressMode) {register : RegisterNumber}
    (hregister : register.inRange) : (instruction.withDestination mode register).InRange :=
  { h with destinationRegister := hregister, destination := Operand.inRange_ofMode hregister rfl }

end Instruction.InRange

/-! ## Steps that last -/

namespace BusStep

/-- The step takes some time, whatever the processor does. -/
def lasts (step : BusStep) : Bool :=
  match step.length with
  | .fixed duration => 0 < duration
  | .flexible => false

/-- The step takes time, and what it addresses exists. -/
def isFirm (step : BusStep) : Bool := step.lasts && step.address.inRange

end BusStep

namespace Activity

/-- All steps take time, and what they address exists. -/
def Firm (activity : Activity) : Prop := ∀ step ∈ activity, step.isFirm

instance (activity : Activity) : Decidable activity.Firm :=
  inferInstanceAs (Decidable (∀ step ∈ activity, step.isFirm))

/-- Each step takes time, or the one before it did. `lasted` tells about the step before the
activity. -/
def Paced (lasted : Bool) : Activity → Prop
  | [] => True
  | step :: activity => (lasted || step.lasts) ∧ Paced step.lasts activity

theorem Paced.mono {lasted : Bool} {activity : Activity} (h : Paced lasted activity) :
    Paced true activity := by
  cases activity with
  | nil => trivial
  | cons step activity => exact ⟨rfl, h.2⟩

/-- Steps that take time may come first. -/
theorem Paced.of_firm {lasted : Bool} {front rest : Activity} (hfront : front.Firm)
    (hrest : Paced lasted rest) : Paced lasted (front ++ rest) := by
  induction front generalizing lasted with
  | nil => exact hrest
  | cons step front ih =>
    obtain ⟨hstep, hfront⟩ := List.forall_mem_cons.1 hfront
    have hlasts : step.lasts := (Bool.and_eq_true_iff.1 hstep).1
    refine ⟨by simp [hlasts], ?_⟩
    rw [hlasts]
    exact ih hfront hrest.mono

/-- Where all steps take time nothing else is asked of them. -/
theorem Firm.paced {activity : Activity} (h : activity.Firm) (lasted : Bool) :
    Paced lasted activity := by
  have hpaced : Paced lasted (activity ++ []) := .of_firm h trivial
  rwa [List.append_nil] at hpaced

/-- A flexible step may come behind those that take time. -/
theorem paced_flexible {front : Activity} (hfront : front.Firm) (hne : front ≠ []) :
    Paced false (front ++ flexible) := by
  cases front with
  | nil => exact absurd rfl hne
  | cons step front =>
    obtain ⟨hstep, hfront⟩ := List.forall_mem_cons.1 hfront
    have hlasts : step.lasts := (Bool.and_eq_true_iff.1 hstep).1
    refine ⟨hlasts, ?_⟩
    rw [hlasts]
    exact .of_firm hfront ⟨rfl, trivial⟩

/-! ## Activities -/

@[simp] theorem firm_nil : Firm [] := by simp [Firm]

@[simp] theorem firm_append {first second : Activity} :
    Firm (first ++ second) ↔ first.Firm ∧ second.Firm :=
  List.forall_mem_append

@[simp] theorem firm_idle {duration : HalfCycles} : (idle duration).Firm ↔ 0 < duration := by
  simp [Firm, idle, BusStep.isFirm, BusStep.lasts, AddressSource.inRange]

@[simp] theorem firm_fetch : fetch.Firm := by decide

@[simp] theorem firm_resetHold : resetHold.Firm := by decide

@[simp] theorem firm_transfer {read isProgram : Bool} {width : Width} {address : AddressSource}
    {slot : DataSlot} {action : StepAction} :
    (transfer read isProgram width address slot action).Firm ↔ address.inRange := by
  simp [Firm, transfer, BusStep.isFirm, BusStep.lasts]

@[simp] theorem firm_testAndSet {address : AddressSource} :
    (testAndSet address).Firm ↔ address.inRange := by
  simp [Firm, testAndSet, BusStep.isFirm, BusStep.lasts]

@[simp] theorem firm_read {side : Side} {half : Half} {adjustment : Option Adjustment}
    {width : Width} {address : AddressSource} :
    (read side half adjustment width address).Firm ↔ address.inRange :=
  firm_transfer

@[simp] theorem firm_write {half : Half} {adjustment : Option Adjustment} {width : Width}
    {address : AddressSource} : (write half adjustment width address).Firm ↔ address.inRange :=
  firm_transfer

@[simp] theorem firm_stackRead (half : Half) : (stackRead half).Firm :=
  firm_transfer.2 (AddressSource.inRange_ofSide _)

end Activity

/-! ## Fixed programs -/

namespace FixedPrograms

theorem firm_reset : resetActivity.Firm := by decide

theorem firm_exception : exceptionActivity.Firm := by decide

theorem firm_interrupt : interruptActivity.Firm := by decide

theorem firm_listTransfers (read : Bool) (count : Nat) : (listTransfers read count).Firm := by
  induction count with
  | zero => simp [listTransfers]
  | succ count ih =>
    rw [listTransfers, List.replicate_succ, List.flatten_cons, Activity.firm_append]
    exact ⟨Activity.firm_transfer.2 rfl, ih⟩

end FixedPrograms

/-! ## Stages -/

namespace Stage

/-- The activities of stages, one after the other. -/
def steps (stages : List Stage) : Activity := stages.flatMap (·.activity)

@[simp] theorem steps_nil : steps [] = [] := rfl

@[simp] theorem steps_cons (stage : Stage) (stages : List Stage) :
    steps (stage :: stages) = stage.activity ++ steps stages :=
  List.flatMap_cons

@[simp] theorem steps_append (first second : List Stage) :
    steps (first ++ second) = steps first ++ steps second :=
  List.flatMap_append

end Stage

/-- The recipe's numbers name what exists, and of two steps in a row one takes time. -/
structure Recipe.Regular (recipe : Recipe) : Prop where
  instruction : recipe.instruction.InRange
  addresses : ∀ step ∈ Stage.steps recipe.stages, step.address.inRange
  paced : Activity.Paced false (Stage.steps recipe.stages)

theorem Recipe.Regular.of_firm {recipe : Recipe} (hinstruction : recipe.instruction.InRange)
    (hfirm : (Stage.steps recipe.stages).Firm) : recipe.Regular where
  instruction := hinstruction
  addresses step hstep := (Bool.and_eq_true_iff.1 (hfirm step hstep)).2
  paced := hfirm.paced false

/-- A recipe whose last step is flexible. -/
theorem Recipe.Regular.of_flexible {recipe : Recipe} (front : Activity)
    (hinstruction : recipe.instruction.InRange)
    (hsteps : Stage.steps recipe.stages = front ++ .flexible) (hfront : front.Firm)
    (hne : front ≠ []) : recipe.Regular where
  instruction := hinstruction
  addresses step hstep := by
    rw [hsteps, List.mem_append] at hstep
    rcases hstep with hstep | hstep
    · exact (Bool.and_eq_true_iff.1 (hfront step hstep)).2
    · rw [List.mem_singleton.1 hstep]
      rfl
  paced := hsteps ▸ Activity.paced_flexible hfront hne

namespace Encoding

open Stage Activity Instruction

@[simp] theorem inRange_upperRegister (opcode : Word) : (upperRegister opcode).inRange :=
  RegisterNumber.inRange_ofField _

@[simp] theorem inRange_lowerRegister (opcode : Word) : (lowerRegister opcode).inRange :=
  RegisterNumber.inRange_ofField _

/-! ## Operands -/

@[simp] theorem firm_readOperand {side : Side} {size : Size} {address : AddressSource} :
    (readOperand side size address).Firm ↔ address.inRange := by
  cases size <;> simp [readOperand]

@[simp] theorem firm_indexDelay (mode : AddressMode) : (indexDelay mode).Firm := by
  unfold indexDelay
  split <;> simp

@[simp] theorem firm_registerTail (mode : AddressMode) (size : Size) :
    (registerTail mode size).Firm := by
  cases size with
  | byte | word => exact firm_fetch
  | long =>
    simp only [registerTail, firm_append, firm_fetch, firm_idle, true_and]
    split <;> decide

@[simp] theorem firm_longDelay (size : Size) : (longDelay size).Firm := by
  cases size <;> simp [longDelay]

@[simp] theorem firm_fetchImmediate (size : Size) : (steps (fetchImmediate size)).Firm := by
  cases size <;> simp [fetchImmediate, bus]

section

variable {register : RegisterNumber} (hregister : register.inRange)
include hregister

theorem firm_readMemory (side : Side) (target : Target) (mode : AddressMode) (size : Size) :
    (steps (readMemory side target mode register size)).Firm := by
  cases mode with
  | indirect | postIncrement | preDecrement => cases size <;> simp [readMemory, bus, act, hregister]
  | _ => simp [readMemory, bus]

theorem firm_fetchSource (mode : AddressMode) (size : Size) :
    (steps (fetchSource mode register size)).Firm := by
  cases mode with
  | dataRegister | addressRegister => exact firm_nil
  | immediate => exact firm_fetchImmediate size
  | _ =>
    rw [fetchSource_of_isMemory (by rfl)]
    exact firm_readMemory hregister _ _ _ _

omit hregister in
@[simp] theorem steps_stepPast (mode : AddressMode) (size : Size) (target : Target) :
    steps (stepPast mode register size target) = [] := by
  cases mode <;> rfl

theorem inRange_writeAddress (mode : AddressMode) : (writeAddress mode register).inRange := by
  cases mode <;> first | exact hregister | rfl

theorem firm_operateAndWrite (mode : AddressMode) (size : Size) (writeback : Writeback) :
    (operateAndWrite mode register size writeback).activity.Firm := by
  have haddress := inRange_writeAddress hregister mode
  cases writeback with
  | store => cases size <;> simp [operateAndWrite, perform, destinationAddress, haddress]
  | discard => exact firm_fetch
  | testAndSet => simp [operateAndWrite, perform, haddress]

theorem firm_readModifyWrite (mode : AddressMode) (size : Size) (writeback : Writeback) :
    (steps (readModifyWrite mode register size writeback)).Firm := by
  simp only [readModifyWrite, steps_append, steps_cons, steps_nil, steps_stepPast,
    List.append_nil, firm_append]
  exact ⟨firm_readMemory hregister _ _ _ _, firm_operateAndWrite hregister _ _ _⟩

theorem firm_intoRegister (mode : AddressMode) (size : Size) {tail : Activity} (htail : tail.Firm) :
    (steps (intoRegister mode register size tail)).Firm := by
  simp only [intoRegister, steps_append, steps_cons, steps_nil, steps_stepPast, List.append_nil,
    firm_append]
  exact ⟨firm_fetchSource hregister _ _, htail⟩

theorem firm_storeMoved (mode : AddressMode) (size : Size) (increment : Target) :
    (steps (storeMoved mode register size increment)).Firm := by
  cases mode <;> cases size <;>
    simp [storeMoved, bus, act, destinationAddress, hregister]

end

/-! ## Encodings -/

variable {opcode : Word} {recipe : Recipe} {operation : Operation}

/-- An instruction whose source is no register that the opcode names. -/
theorem inRange_setSource (source : Operand) (hsource : source.inRange) {instruction : Instruction}
    (h : instruction.InRange) : { instruction with source := source }.InRange :=
  { h with source := hsource }

/-- The usual instruction with two operands. -/
theorem inRange_binary (operation : Operation) (size : Size) (source destination : AddressMode)
    {first second : RegisterNumber} (hfirst : first.inRange) (hsecond : second.inRange) :
    (((bare operation size).withSource source first).withDestination destination second).InRange :=
  ((InRange.bare operation size).withSource source hfirst).withDestination destination hsecond

/-- The usual instruction with one operand. -/
theorem inRange_unary (operation : Operation) (size : Size) (mode : AddressMode)
    {register : RegisterNumber} (hregister : register.inRange) :
    ((bare operation size).withDestination mode register).InRange :=
  (InRange.bare operation size).withDestination mode hregister

/-- An operand is changed in a data register or in memory. -/
theorem regular_inPlace {lead : List Stage} {instruction : Instruction} {tail : Activity}
    {writeback : Writeback} {mode : AddressMode}
    (h : InPlace opcode lead instruction tail writeback mode recipe)
    (hinstruction : instruction.InRange) (hlead : (steps lead).Firm) (htail : tail.Firm) :
    recipe.Regular := by
  have hplaced := hinstruction.withDestination mode (inRange_lowerRegister opcode)
  cases h with
  | register => exact .of_firm hplaced (by simp [hlead, htail, perform])
  | memory =>
    refine .of_firm hplaced ?_
    rw [steps_append, firm_append]
    exact ⟨hlead, firm_readModifyWrite (by simp) _ _ _⟩

theorem regular_addSub (h : addSub operation opcode = some recipe) : recipe.Regular := by
  obtain ⟨size, mode, -, -, ⟨-, rfl⟩ | rfl⟩ := addSub_cases h
  · exact .of_firm (inRange_binary _ _ _ _ (by simp) (by simp))
      (firm_readModifyWrite (by simp) _ _ _)
  · exact .of_firm (inRange_binary _ _ _ _ (by simp) (by simp))
      (firm_intoRegister (by simp) _ _ (by simp))

theorem regular_addressAddSub (h : addressAddSub operation opcode = some recipe) :
    recipe.Regular := by
  simp only [addressAddSub, Option.bind_eq_bind, Option.bind_eq_some_iff] at h
  obtain ⟨mode, -, h⟩ := h
  cases h
  refine .of_firm (inRange_binary _ _ _ _ (by simp) (by simp)) (firm_intoRegister (by simp) _ _ ?_)
  cases addressSize opcode <;> simp

theorem regular_compareAddress (h : compareAddress opcode = some recipe) : recipe.Regular := by
  simp only [compareAddress, Option.bind_eq_bind, Option.bind_eq_some_iff] at h
  obtain ⟨mode, -, h⟩ := h
  cases h
  exact .of_firm (inRange_binary _ _ _ _ (by simp) (by simp))
    (firm_intoRegister (by simp) _ _ (by simp))

theorem regular_compareRegister (h : compareRegister opcode = some recipe) : recipe.Regular := by
  obtain ⟨size, mode, -, -, rfl⟩ := compareRegister_cases h
  exact .of_firm (inRange_binary _ _ _ _ (by simp) (by simp))
    (firm_intoRegister (by simp) _ _ (by simp))

theorem regular_logical {kind : BitwiseKind} (h : logical kind opcode = some recipe) :
    recipe.Regular := by
  obtain ⟨size, mode, -, -, hplace | rfl⟩ := logical_cases h
  · exact regular_inPlace hplace ((InRange.bare _ _).withSource _ (by simp)) firm_nil (by simp)
  · exact .of_firm (inRange_binary _ _ _ _ (by simp) (by simp))
      (firm_intoRegister (by simp) _ _ (by simp))

/-- The last step of a multiplication is flexible, and comes behind a fetch. -/
theorem regular_multiply (h : multiply operation opcode = some recipe) : recipe.Regular := by
  obtain ⟨mode, -, rfl⟩ := multiply_cases h
  have hsource := firm_fetchSource (inRange_lowerRegister opcode) mode .word
  refine .of_flexible (steps (fetchSource mode (lowerRegister opcode) .word) ++ .fetch)
    (inRange_binary _ _ _ _ (by simp) (by simp)) ?_ ?_ ?_
  · simp [bus, perform]
  · exact firm_append.2 ⟨hsource, firm_fetch⟩
  · simp [fetch]

theorem regular_quickAddSub (h : quickAddSub operation opcode = some recipe) :
    recipe.Regular := by
  obtain ⟨size, mode, -, -, ⟨-, rfl⟩ | hplace⟩ := quickAddSub_cases h
  · exact .of_firm ((inRange_setSource _ rfl (.bare _ _)).withDestination _ (by simp))
      (by simp [perform])
  · exact regular_inPlace hplace (inRange_setSource _ rfl (.bare _ _)) firm_nil (by simp)

theorem regular_immediate (h : Encoding.immediate operation opcode = some recipe) :
    recipe.Regular := by
  obtain ⟨size, mode, -, -, hplace⟩ := immediate_cases h
  refine regular_inPlace hplace (inRange_setSource _ rfl (.bare _ _)) (by simp) ?_
  split <;> simp

theorem regular_compareImmediate (h : compareImmediate opcode = some recipe) :
    recipe.Regular := by
  obtain ⟨size, mode, -, -, hplace⟩ := compareImmediate_cases h
  exact regular_inPlace hplace (inRange_setSource _ rfl (.bare _ _)) (by simp) (by simp)

theorem regular_compareMemory (h : compareMemory opcode = some recipe) : recipe.Regular := by
  simp only [compareMemory, Option.bind_eq_bind, Option.bind_eq_some_iff] at h
  obtain ⟨size, -, h⟩ := h
  cases h
  refine .of_firm (inRange_binary _ _ _ _ (by simp) (by simp)) ?_
  cases size <;> simp [bus, act, sourceAddress, destinationAddress]

theorem regular_packedDecimal (h : packedDecimal operation opcode = some recipe) :
    recipe.Regular := by
  unfold packedDecimal at h
  dsimp only [] at h
  split at h <;> cases h <;>
    exact .of_firm (inRange_binary _ _ _ _ (by simp) (by simp)) (by simp [perform])

theorem regular_extendSign (h : extendSign opcode = some recipe) : recipe.Regular := by
  cases h
  exact .of_firm (inRange_unary _ _ _ (by simp)) (by simp [perform])

theorem regular_swapHalves (h : swapHalves opcode = some recipe) : recipe.Regular := by
  cases h
  exact .of_firm (inRange_unary _ _ _ (by simp)) (by simp [perform])

theorem regular_exchange (h : exchange opcode = some recipe) : recipe.Regular := by
  simp only [exchange, Option.bind_eq_bind, Option.bind_eq_some_iff] at h
  obtain ⟨modes, -, h⟩ := h
  cases h
  exact .of_firm (inRange_binary _ _ _ _ (by simp) (by simp)) (by simp [perform])

theorem regular_singleOperand (h : singleOperand operation opcode = some recipe) :
    recipe.Regular := by
  obtain ⟨size, mode, -, hplace⟩ := singleOperand_cases h
  exact regular_inPlace hplace (.bare _ _) firm_nil (by simp)

theorem regular_test (h : test opcode = some recipe) : recipe.Regular := by
  obtain ⟨size, mode, -, hplace⟩ := test_cases h
  exact regular_inPlace hplace (.bare _ _) firm_nil firm_fetch

theorem regular_testAndSet (h : Encoding.testAndSet opcode = some recipe) : recipe.Regular := by
  obtain ⟨mode, -, hplace⟩ := testAndSet_cases h
  exact regular_inPlace hplace (.bare _ _) firm_nil firm_fetch

/-- A change of a bit in a data register ends with a flexible step behind a fetch. -/
theorem regular_bit {static : Bool} {kind : BitKind} (h : bit static kind opcode = some recipe) :
    recipe.Regular := by
  have hnumbered (size : Size) : (numbered static kind size opcode).InRange := by
    unfold numbered
    split
    · exact inRange_setSource _ rfl (.bare _ _)
    · exact (InRange.bare _ _).withSource _ (by simp)
  have hnumber : (steps (if static then fetchImmediate .word else [])).Firm := by
    split <;> simp
  obtain ⟨mode, -, ⟨rfl, rfl⟩ | ⟨-, rfl⟩⟩ := bit_cases h
  · have hinstruction := (hnumbered .long).withDestination .dataRegister
      (inRange_lowerRegister opcode)
    cases kind == .test with
    | true => exact .of_firm hinstruction (by simp [hnumber, perform])
    | false =>
      refine .of_flexible (steps (if static then fetchImmediate .word else []) ++ .fetch)
        hinstruction ?_ ?_ ?_
      · simp [bus, perform]
      · exact firm_append.2 ⟨hnumber, firm_fetch⟩
      · simp [fetch]
  · refine .of_firm ((hnumbered .byte).withDestination mode (by simp)) ?_
    rw [steps_append, firm_append]
    exact ⟨hnumber, firm_readModifyWrite (by simp) _ _ _⟩

/-- A shift of a data register ends with a flexible step behind idle time. -/
theorem regular_shiftRegister {kind : ShiftKind} (h : shiftRegister kind opcode = some recipe) :
    recipe.Regular := by
  simp only [shiftRegister, Option.bind_eq_bind, Option.bind_eq_some_iff] at h
  obtain ⟨size, -, h⟩ := h
  cases h
  refine .of_flexible (.fetch ++ .idle (if size == .long then 8 else 4)) ?_ ?_ ?_ ?_
  · split
    · exact inRange_binary _ _ _ _ (by simp) (by simp)
    · exact (inRange_setSource _ rfl (.bare _ _)).withDestination _ (by simp)
  · simp [bus, perform]
  · rw [firm_append, firm_idle]
    exact ⟨firm_fetch, by split <;> decide⟩
  · simp [fetch]

theorem regular_shiftMemory {kind : ShiftKind} (h : shiftMemory kind opcode = some recipe) :
    recipe.Regular := by
  obtain ⟨mode, -, -, rfl⟩ := shiftMemory_cases h
  exact .of_firm (inRange_unary _ _ _ (by simp)) (firm_readModifyWrite (by simp) _ _ _)

/-! ## Data movement -/

theorem regular_move (h : move opcode = some recipe) : recipe.Regular := by
  obtain ⟨source, destination, -, -, -, rfl⟩ := move_cases h
  refine .of_firm (inRange_binary _ _ _ _ (by simp) (by simp)) ?_
  simp only [moveStages, steps_append, firm_append]
  refine ⟨⟨firm_fetchSource (by simp) _ _, by split <;> simp⟩, ?_⟩
  split
  · simp [perform]
  · rw [steps_cons, firm_append]
    exact ⟨firm_nil, firm_storeMoved (by simp) _ _ _⟩

theorem regular_moveQuick (h : moveQuick opcode = some recipe) : recipe.Regular := by
  cases h
  exact .of_firm (inRange_unary _ _ _ (by simp)) (by simp [perform])

theorem regular_loadAddress (h : loadAddress opcode = some recipe) : recipe.Regular := by
  simp only [loadAddress, Option.bind_eq_bind, Option.bind_eq_some_iff] at h
  obtain ⟨mode, -, h⟩ := h
  have hregister := inRange_lowerRegister opcode
  have hloaded := inRange_unary .lea .long .addressRegister (inRange_upperRegister opcode)
  split at h <;> cases h <;>
    exact .of_firm
      { hloaded with
        sourceRegister := hregister
        source := by first | rfl | exact hregister }
      (by simp [perform, bus, act])

theorem regular_moveRegisters {direction : ListDirection}
    (h : moveRegisters direction opcode = some recipe) : recipe.Regular := by
  obtain ⟨mode, -, -, rfl⟩ := moveRegisters_cases h
  have haddress : (steps (addressList mode)).Firm := by
    cases mode <;> simp [addressList, act, bus]
  refine .of_firm (inRange_setSource _ rfl (inRange_unary _ _ _ (by simp))) ?_
  simp [act, haddress]

/-! ## Program control -/

theorem regular_branch (h : branch opcode = some recipe) : recipe.Regular := by
  unfold branch at h
  dsimp only [] at h
  split at h
  · cases h
    exact .of_firm (inRange_setSource _ rfl (.bare _ _)) (by simp [act, destinationAddress])
  · cases h
    exact .of_firm (.bare _ _) (by simp [act])

theorem regular_trap (h : trap opcode = some recipe) : recipe.Regular := by
  cases h
  exact .of_firm (.bare _ _) (by simp [act])

theorem regular_noOperation (h : noOperation opcode = some recipe) : recipe.Regular := by
  cases h
  exact .of_firm (.bare _ _) (by simp [perform])

theorem regular_resetDevices (h : resetDevices opcode = some recipe) : recipe.Regular := by
  cases h
  exact .of_firm { InRange.bare .reset .word with } (by simp [perform])

/-- Setting a data register ends with a flexible step behind a fetch. -/
theorem regular_setOrLoop (h : setOrLoop opcode = some recipe) : recipe.Regular := by
  obtain ⟨mode, -, rfl | hplace⟩ := setOrLoop_cases h
  · exact .of_firm (inRange_unary _ _ _ (by simp)) (by simp [act])
  · have hinstruction := inRange_unary .scc .byte mode (inRange_lowerRegister opcode)
    cases hplace with
    | register =>
      exact .of_flexible .fetch hinstruction (by simp [perform]) firm_fetch (by simp [fetch])
    | memory => exact .of_firm hinstruction (firm_readModifyWrite (by simp) _ _ _)

theorem inRange_jumping (operation : Operation) (opcode : Word) :
    (jumping operation opcode).InRange :=
  { InRange.bare operation .long with
    sourceRegister := inRange_lowerRegister opcode
    source := rfl }

theorem regular_jump (h : jump opcode = some recipe) : recipe.Regular := by
  simp only [jump, Option.bind_eq_bind, Option.bind_eq_some_iff] at h
  obtain ⟨mode, -, h⟩ := h
  have hjumping := inRange_jumping .jmp opcode
  split at h <;> cases h
  · have hregister : (Operand.addressRegister (lowerRegister opcode)).inRange :=
      inRange_lowerRegister opcode
    exact .of_firm (inRange_setSource _ hregister hjumping) (by simp [perform])
  all_goals exact .of_firm hjumping (by simp [perform, bus, act])

theorem regular_jumpToSubroutine (h : jumpToSubroutine opcode = some recipe) :
    recipe.Regular := by
  simp only [jumpToSubroutine, Option.bind_eq_bind, Option.bind_eq_some_iff] at h
  obtain ⟨mode, -, resolved, hresolved, h⟩ := h
  cases h
  refine .of_firm (inRange_jumping _ _) ?_
  split at hresolved <;> cases hresolved <;> simp [perform, bus, act, destinationAddress]

theorem regular_returnFromSubroutine (h : returnFromSubroutine opcode = some recipe) :
    recipe.Regular := by
  cases h
  exact .of_firm (inRange_setSource _ rfl (.bare _ _)) (by simp [perform])

theorem firm_popFrame : popFrame.Firm := by decide

theorem regular_returnFromException (h : returnFromException operation opcode = some recipe) :
    recipe.Regular := by
  cases h
  exact .of_firm { InRange.bare operation .word with source := rfl }
    (by simp [perform, firm_popFrame])

theorem regular_moveToStatus (h : moveToStatus operation opcode = some recipe) :
    recipe.Regular := by
  obtain ⟨mode, -, rfl⟩ := moveToStatus_cases h
  refine .of_firm
    { (InRange.bare operation .word).withSource mode (inRange_lowerRegister opcode) with } ?_
  simp only [steps_append, steps_stepPast, List.append_nil, firm_append]
  exact ⟨firm_fetchSource (by simp) _ _, by simp [perform]⟩

theorem regular_moveFromStatus (h : moveFromStatus opcode = some recipe) : recipe.Regular := by
  obtain ⟨mode, -, hplace⟩ := moveFromStatus_cases h
  exact regular_inPlace hplace (.bare _ _) firm_nil (by simp)

theorem regular_moveUserStack (h : moveUserStack opcode = some recipe) : recipe.Regular := by
  cases h
  have hregister := inRange_lowerRegister opcode
  refine .of_firm ?_ (by simp [perform])
  split
  · exact { inRange_unary .moveFromUsp .long .addressRegister hregister with }
  · exact { (InRange.bare .moveToUsp .long).withSource .addressRegister hregister with }

theorem firm_combineImmediate : (steps combineImmediate).Firm := by decide

theorem regular_immediateToCcr {kind : BitwiseKind}
    (h : immediateToCcr kind opcode = some recipe) : recipe.Regular := by
  cases h
  exact .of_firm (inRange_setSource _ rfl (.bare _ _)) firm_combineImmediate

theorem regular_immediateToSr {kind : BitwiseKind} (h : immediateToSr kind opcode = some recipe) :
    recipe.Regular := by
  cases h
  exact .of_firm { InRange.bare (.bitwiseToSr kind) .word with source := rfl }
    firm_combineImmediate

end Encoding

/-! ## All forms -/

open Encoding in
/-- Every form gives regular recipes. -/
theorem regular_forms : ∀ form ∈ forms, ∀ opcode recipe, form.encoding opcode = some recipe →
    recipe.Regular := by
  simp only [forms, List.forall_mem_cons, List.not_mem_nil, false_implies, implies_true, and_true]
  exact ⟨fun _ _ => regular_packedDecimal, fun _ _ => regular_packedDecimal,
    fun _ _ => regular_logical, fun _ _ => regular_logical, fun _ _ => regular_logical,
    fun _ _ => regular_immediate, fun _ _ => regular_immediate, fun _ _ => regular_immediate,
    fun _ _ => regular_immediate, fun _ _ => regular_immediate,
    fun _ _ => regular_compareImmediate,
    fun _ _ => regular_immediateToSr, fun _ _ => regular_immediateToCcr,
    fun _ _ => regular_immediateToSr, fun _ _ => regular_immediateToCcr,
    fun _ _ => regular_immediateToSr, fun _ _ => regular_immediateToCcr,
    fun _ _ => regular_move, fun _ _ => regular_move, fun _ _ => regular_move,
    fun _ _ => regular_moveToStatus, fun _ _ => regular_moveToStatus,
    fun _ _ => regular_moveFromStatus, fun _ _ => regular_moveQuick,
    fun _ _ => regular_moveUserStack,
    fun _ _ => regular_moveRegisters, fun _ _ => regular_moveRegisters,
    fun _ _ => regular_compareRegister, fun _ _ => regular_compareAddress,
    fun _ _ => regular_compareMemory,
    fun _ _ => regular_branch, fun _ _ => regular_setOrLoop,
    fun _ _ => regular_jump, fun _ _ => regular_jumpToSubroutine,
    fun _ _ => regular_returnFromSubroutine,
    fun _ _ => regular_returnFromException, fun _ _ => regular_returnFromException,
    fun _ _ => regular_trap, fun _ _ => regular_noOperation, fun _ _ => regular_resetDevices,
    fun _ _ => regular_loadAddress,
    fun _ _ => regular_addSub, fun _ _ => regular_addSub,
    fun _ _ => regular_addressAddSub, fun _ _ => regular_addressAddSub,
    fun _ _ => regular_quickAddSub, fun _ _ => regular_quickAddSub,
    fun _ _ => regular_bit, fun _ _ => regular_bit, fun _ _ => regular_bit, fun _ _ => regular_bit,
    fun _ _ => regular_bit, fun _ _ => regular_bit, fun _ _ => regular_bit, fun _ _ => regular_bit,
    fun _ _ => regular_singleOperand, fun _ _ => regular_singleOperand,
    fun _ _ => regular_singleOperand, fun _ _ => regular_singleOperand,
    fun _ _ => regular_test, fun _ _ => regular_testAndSet,
    fun _ _ => regular_shiftRegister, fun _ _ => regular_shiftRegister,
    fun _ _ => regular_shiftRegister, fun _ _ => regular_shiftRegister,
    fun _ _ => regular_shiftRegister, fun _ _ => regular_shiftRegister,
    fun _ _ => regular_shiftRegister, fun _ _ => regular_shiftRegister,
    fun _ _ => regular_shiftMemory, fun _ _ => regular_shiftMemory,
    fun _ _ => regular_shiftMemory, fun _ _ => regular_shiftMemory,
    fun _ _ => regular_shiftMemory, fun _ _ => regular_shiftMemory,
    fun _ _ => regular_shiftMemory, fun _ _ => regular_shiftMemory,
    fun _ _ => regular_multiply, fun _ _ => regular_multiply,
    fun _ _ => regular_exchange, fun _ _ => regular_exchange, fun _ _ => regular_exchange,
    fun _ _ => regular_swapHalves, fun _ _ => regular_extendSign⟩

/-- **Every recipe is regular.** -/
theorem regular_of_decode? {opcode : Word} {recipe : Recipe}
    (h : decode? forms opcode = some recipe) : recipe.Regular := by
  obtain ⟨form, hmem, -, hencoding⟩ := exists_form h
  exact regular_forms form hmem opcode recipe hencoding

end M68k
