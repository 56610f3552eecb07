import M68k.Proofs.Encoding.Regular

/-!
# Time and lanes of activities

However an activity is put together, its steps of fixed length take whole cycles, two at a time, and
a byte never travels to or from a register list: its transfers, which take no notice of the width,
move words only.

## Main definitions

* `BusStep.time`, `Activity.time`: half-cycles spent, flexible steps aside
* `Activity.Measured`: what the time and the lanes of an activity are like
* `AllMeasured`: the activities of some stages are

## Main results

* `measured_of_decode?`: the stages of every recipe are measured
* `FixedPrograms.measured_exception` and its neighbours: so are the fixed programs
-/

namespace M68k

/-- The half-cycles that a step takes, whatever the operation asks for. -/
def BusStep.time (step : BusStep) : HalfCycles :=
  match step.length with
  | .fixed duration => duration
  | .flexible => 0

/-- A step that moves a byte leaves register lists alone. -/
def BusStep.keepsLane (step : BusStep) : Bool :=
  !step.signals.selectByte || step.slot != .listWord

namespace Activity

/-- The half-cycles that an activity takes, whatever the operation asks for. -/
def time (activity : Activity) : HalfCycles := (activity.map BusStep.time).sum

@[simp] theorem time_nil : time [] = 0 := rfl

@[simp] theorem time_append (first second : Activity) :
    time (first ++ second) = first.time + second.time := by
  rw [time, List.map_append, List.sum_append, time, time]

/-- The time comes in pairs of cycles, and register lists move as words. -/
structure Measured (activity : Activity) : Prop where
  time : 4 ∣ activity.time
  lanes : ∀ step ∈ activity, step.keepsLane

instance (activity : Activity) : Decidable activity.Measured :=
  decidable_of_iff (4 ∣ activity.time ∧ ∀ step ∈ activity, step.keepsLane)
    ⟨fun h => ⟨h.1, h.2⟩, fun h => ⟨h.1, h.2⟩⟩

@[simp] theorem measured_nil : Measured [] := by decide

/-- What is measured may come first. -/
@[simp] theorem measured_append {first second : Activity} (h : first.Measured) :
    Measured (first ++ second) ↔ second.Measured := by
  constructor
  · intro hboth
    refine ⟨?_, fun step hstep => hboth.lanes step (List.mem_append_right _ hstep)⟩
    exact (Nat.dvd_add_right h.time).1 (time_append first second ▸ hboth.time)
  · intro hsecond
    refine ⟨?_, ?_⟩
    · rw [time_append]
      exact Nat.dvd_add h.time hsecond.time
    · exact List.forall_mem_append.2 ⟨h.lanes, hsecond.lanes⟩

@[simp] theorem measured_idle {duration : HalfCycles} : (idle duration).Measured ↔ 4 ∣ duration :=
  ⟨fun h => h.time, fun h => ⟨h, by simp [idle, BusStep.keepsLane, Signals.idle]⟩⟩

@[simp] theorem measured_flexible : flexible.Measured := by decide

@[simp] theorem measured_fetch : fetch.Measured := by decide

@[simp] theorem measured_resetHold : resetHold.Measured := by decide

@[simp] theorem time_transfer (read isProgram : Bool) (width : Width) (address : AddressSource)
    (slot : DataSlot) (action : StepAction) :
    (transfer read isProgram width address slot action).time = 8 := rfl

/-- Of the transfers, those of a register list move words. -/
theorem measured_transfer (read isProgram : Bool) {width : Width} (address : AddressSource)
    {slot : DataSlot} (action : StepAction) (h : width = .word ∨ slot ≠ .listWord) :
    (transfer read isProgram width address slot action).Measured := by
  refine ⟨⟨2, rfl⟩, ?_⟩
  rcases h with rfl | hslot
  · simp [transfer, BusStep.keepsLane]
  · simp [transfer, BusStep.keepsLane, hslot]

@[simp] theorem measured_transfer_word (read isProgram : Bool) (address : AddressSource)
    (slot : DataSlot) (action : StepAction) :
    (transfer read isProgram .word address slot action).Measured :=
  measured_transfer _ _ _ _ (.inl rfl)

@[simp] theorem measured_testAndSet (address : AddressSource) : (testAndSet address).Measured :=
  ⟨⟨3, rfl⟩, by simp [testAndSet, BusStep.keepsLane]⟩

@[simp] theorem measured_read (side : Side) (half : Half) (adjustment : Option Adjustment)
    (width : Width) (address : AddressSource) :
    (read side half adjustment width address).Measured :=
  measured_transfer _ _ _ _ (.inr DataSlot.noConfusion)

@[simp] theorem measured_write (half : Half) (adjustment : Option Adjustment) (width : Width)
    (address : AddressSource) : (write half adjustment width address).Measured :=
  measured_transfer _ _ _ _ (.inr DataSlot.noConfusion)

@[simp] theorem measured_stackRead (half : Half) : (stackRead half).Measured :=
  measured_transfer_word _ _ _ _ _

end Activity

/-! ## Fixed programs -/

namespace FixedPrograms

@[simp] theorem measured_popFrame : Encoding.popFrame.Measured := by decide

theorem measured_exception : exceptionActivity.Measured := by decide

theorem measured_interrupt : interruptActivity.Measured := by decide

theorem measured_listTransfers (read : Bool) (count : Nat) :
    (listTransfers read count).Measured := by
  induction count with
  | zero => exact Activity.measured_nil
  | succ count ih =>
    rw [listTransfers, List.replicate_succ, List.flatten_cons]
    exact (Activity.measured_append (Activity.measured_transfer_word ..)).2 ih

end FixedPrograms

/-! ## Stages -/

/-- Each stage's activity is measured. -/
def AllMeasured (stages : List Stage) : Prop := ∀ stage ∈ stages, stage.activity.Measured

@[simp] theorem allMeasured_nil : AllMeasured [] := by simp [AllMeasured]

@[simp] theorem allMeasured_cons {stage : Stage} {stages : List Stage} :
    AllMeasured (stage :: stages) ↔ stage.activity.Measured ∧ AllMeasured stages :=
  List.forall_mem_cons

@[simp] theorem allMeasured_append {first second : List Stage} :
    AllMeasured (first ++ second) ↔ AllMeasured first ∧ AllMeasured second :=
  List.forall_mem_append

namespace Encoding

open Stage Activity

@[simp] theorem measured_readOperand (side : Side) (size : Size) (address : AddressSource) :
    (readOperand side size address).Measured := by
  cases size <;> simp [readOperand]

@[simp] theorem measured_indexDelay (mode : AddressMode) : (indexDelay mode).Measured := by
  unfold indexDelay
  split <;> simp

@[simp] theorem measured_registerTail (mode : AddressMode) (size : Size) :
    (registerTail mode size).Measured := by
  cases size with
  | byte | word => exact measured_fetch
  | long =>
    refine (measured_append measured_fetch).2 (measured_idle.2 ?_)
    split <;> decide

@[simp] theorem measured_longDelay (size : Size) : (longDelay size).Measured := by
  cases size <;> simp [longDelay]

@[simp] theorem allMeasured_fetchImmediate (size : Size) : AllMeasured (fetchImmediate size) := by
  cases size <;> simp [fetchImmediate, bus]

@[simp] theorem allMeasured_readMemory (side : Side) (target : Target) (mode : AddressMode)
    (register : RegisterNumber) (size : Size) :
    AllMeasured (readMemory side target mode register size) := by
  cases mode with
  | indirect | postIncrement | preDecrement => cases size <;> simp [readMemory, bus, act]
  | _ => simp [readMemory, bus]

@[simp] theorem allMeasured_fetchSource (mode : AddressMode) (register : RegisterNumber)
    (size : Size) : AllMeasured (fetchSource mode register size) := by
  cases mode with
  | dataRegister | addressRegister => exact allMeasured_nil
  | immediate => exact allMeasured_fetchImmediate size
  | _ =>
    rw [fetchSource_of_isMemory (by rfl)]
    exact allMeasured_readMemory _ _ _ _ _

@[simp] theorem allMeasured_stepPast (mode : AddressMode) (register : RegisterNumber) (size : Size)
    (target : Target) : AllMeasured (stepPast mode register size target) := by
  cases mode <;> simp [stepPast, act]

@[simp] theorem measured_operateAndWrite (mode : AddressMode) (register : RegisterNumber)
    (size : Size) (writeback : Writeback) :
    (operateAndWrite mode register size writeback).activity.Measured := by
  cases writeback with
  | store => cases size <;> simp [operateAndWrite, perform]
  | discard | testAndSet => simp [operateAndWrite, perform]

@[simp] theorem allMeasured_readModifyWrite (mode : AddressMode) (register : RegisterNumber)
    (size : Size) (writeback : Writeback) :
    AllMeasured (readModifyWrite mode register size writeback) := by
  simp [readModifyWrite]

@[simp] theorem allMeasured_intoRegister (mode : AddressMode) (register : RegisterNumber)
    (size : Size) {tail : Activity} (htail : tail.Measured) :
    AllMeasured (intoRegister mode register size tail) := by
  simp [intoRegister, perform, htail]

@[simp] theorem allMeasured_storeMoved (mode : AddressMode) (register : RegisterNumber)
    (size : Size) (increment : Target) :
    AllMeasured (storeMoved mode register size increment) := by
  cases mode <;> cases size <;> simp [storeMoved, bus, act]

/-! ## Encodings -/

variable {opcode : Word} {recipe : Recipe} {operation : Operation}

theorem allMeasured_inPlace {lead : List Stage} {instruction : Instruction} {tail : Activity}
    {writeback : Writeback} {mode : AddressMode}
    (h : InPlace opcode lead instruction tail writeback mode recipe)
    (hlead : AllMeasured lead) (htail : tail.Measured) : AllMeasured recipe.stages := by
  cases h <;> simp [hlead, htail, perform]

theorem allMeasured_addSub (h : addSub operation opcode = some recipe) :
    AllMeasured recipe.stages := by
  obtain ⟨size, mode, -, -, ⟨-, rfl⟩ | rfl⟩ := addSub_cases h <;> simp

theorem allMeasured_addressAddSub (h : addressAddSub operation opcode = some recipe) :
    AllMeasured recipe.stages := by
  simp only [addressAddSub, Option.bind_eq_bind, Option.bind_eq_some_iff] at h
  obtain ⟨mode, -, h⟩ := h
  cases h
  refine allMeasured_intoRegister _ _ _ ?_
  cases addressSize opcode <;> simp

theorem allMeasured_compareAddress (h : compareAddress opcode = some recipe) :
    AllMeasured recipe.stages := by
  simp only [compareAddress, Option.bind_eq_bind, Option.bind_eq_some_iff] at h
  obtain ⟨mode, -, h⟩ := h
  cases h
  simp

theorem allMeasured_compareRegister (h : compareRegister opcode = some recipe) :
    AllMeasured recipe.stages := by
  obtain ⟨size, mode, -, -, rfl⟩ := compareRegister_cases h
  simp

theorem allMeasured_logical {kind : BitwiseKind} (h : logical kind opcode = some recipe) :
    AllMeasured recipe.stages := by
  obtain ⟨size, mode, -, -, hplace | rfl⟩ := logical_cases h
  · exact allMeasured_inPlace hplace (by simp) (by simp)
  · simp

theorem allMeasured_multiply (h : multiply operation opcode = some recipe) :
    AllMeasured recipe.stages := by
  obtain ⟨mode, -, rfl⟩ := multiply_cases h
  simp [bus, perform]

theorem allMeasured_quickAddSub (h : quickAddSub operation opcode = some recipe) :
    AllMeasured recipe.stages := by
  obtain ⟨size, mode, -, -, ⟨-, rfl⟩ | hplace⟩ := quickAddSub_cases h
  · simp [perform]
  · exact allMeasured_inPlace hplace (by simp) (by simp)

theorem allMeasured_immediate (h : Encoding.immediate operation opcode = some recipe) :
    AllMeasured recipe.stages := by
  obtain ⟨size, mode, -, -, hplace⟩ := immediate_cases h
  refine allMeasured_inPlace hplace (by simp) ?_
  split <;> simp

theorem allMeasured_compareImmediate (h : compareImmediate opcode = some recipe) :
    AllMeasured recipe.stages := by
  obtain ⟨size, mode, -, -, hplace⟩ := compareImmediate_cases h
  exact allMeasured_inPlace hplace (by simp) (by simp)

theorem allMeasured_compareMemory (h : compareMemory opcode = some recipe) :
    AllMeasured recipe.stages := by
  simp only [compareMemory, Option.bind_eq_bind, Option.bind_eq_some_iff] at h
  obtain ⟨size, -, h⟩ := h
  cases h
  cases size <;> simp [bus, act]

theorem allMeasured_packedDecimal (h : packedDecimal operation opcode = some recipe) :
    AllMeasured recipe.stages := by
  unfold packedDecimal at h
  dsimp only [] at h
  split at h <;> cases h <;> simp [perform]

theorem allMeasured_extendSign (h : extendSign opcode = some recipe) :
    AllMeasured recipe.stages := by
  cases h
  simp [perform]

theorem allMeasured_swapHalves (h : swapHalves opcode = some recipe) :
    AllMeasured recipe.stages := by
  cases h
  simp [perform]

theorem allMeasured_exchange (h : exchange opcode = some recipe) : AllMeasured recipe.stages := by
  simp only [exchange, Option.bind_eq_bind, Option.bind_eq_some_iff] at h
  obtain ⟨modes, -, h⟩ := h
  cases h
  simp [perform]

theorem allMeasured_singleOperand (h : singleOperand operation opcode = some recipe) :
    AllMeasured recipe.stages := by
  obtain ⟨size, mode, -, hplace⟩ := singleOperand_cases h
  exact allMeasured_inPlace hplace (by simp) (by simp)

theorem allMeasured_test (h : test opcode = some recipe) : AllMeasured recipe.stages := by
  obtain ⟨size, mode, -, hplace⟩ := test_cases h
  exact allMeasured_inPlace hplace (by simp) (by simp)

theorem allMeasured_testAndSet (h : Encoding.testAndSet opcode = some recipe) :
    AllMeasured recipe.stages := by
  obtain ⟨mode, -, hplace⟩ := testAndSet_cases h
  exact allMeasured_inPlace hplace (by simp) (by simp)

theorem allMeasured_bit {static : Bool} {kind : BitKind}
    (h : bit static kind opcode = some recipe) : AllMeasured recipe.stages := by
  have hnumber : AllMeasured (if static then fetchImmediate .word else []) := by
    split <;> simp
  obtain ⟨mode, -, ⟨rfl, rfl⟩ | ⟨-, rfl⟩⟩ := bit_cases h
  · refine allMeasured_append.2 ⟨hnumber, ?_⟩
    split <;> simp [bus, perform]
  · simp [hnumber]

theorem allMeasured_shiftRegister {kind : ShiftKind} (h : shiftRegister kind opcode = some recipe) :
    AllMeasured recipe.stages := by
  simp only [shiftRegister, Option.bind_eq_bind, Option.bind_eq_some_iff] at h
  obtain ⟨size, -, h⟩ := h
  cases h
  cases size <;> simp [bus, perform]

theorem allMeasured_shiftMemory {kind : ShiftKind} (h : shiftMemory kind opcode = some recipe) :
    AllMeasured recipe.stages := by
  obtain ⟨mode, -, -, rfl⟩ := shiftMemory_cases h
  simp

theorem allMeasured_move (h : move opcode = some recipe) : AllMeasured recipe.stages := by
  obtain ⟨source, destination, -, -, -, rfl⟩ := move_cases h
  simp only [moveStages, allMeasured_append]
  refine ⟨⟨by simp, by split <;> simp⟩, ?_⟩
  split <;> simp [perform, act]

theorem allMeasured_moveQuick (h : moveQuick opcode = some recipe) :
    AllMeasured recipe.stages := by
  cases h
  simp [perform]

theorem allMeasured_loadAddress (h : loadAddress opcode = some recipe) :
    AllMeasured recipe.stages := by
  simp only [loadAddress, Option.bind_eq_bind, Option.bind_eq_some_iff] at h
  obtain ⟨mode, -, h⟩ := h
  split at h <;> cases h <;> simp [perform, bus, act]

theorem allMeasured_moveRegisters {direction : ListDirection}
    (h : moveRegisters direction opcode = some recipe) : AllMeasured recipe.stages := by
  obtain ⟨mode, -, -, rfl⟩ := moveRegisters_cases h
  have haddress : AllMeasured (addressList mode) := by
    cases mode <;> simp [addressList, act, bus]
  simp [act, haddress]

theorem allMeasured_branch (h : branch opcode = some recipe) : AllMeasured recipe.stages := by
  unfold branch at h
  dsimp only [] at h
  split at h <;> cases h <;> simp [act]

theorem allMeasured_trap (h : trap opcode = some recipe) : AllMeasured recipe.stages := by
  cases h
  simp [act]

theorem allMeasured_noOperation (h : noOperation opcode = some recipe) :
    AllMeasured recipe.stages := by
  cases h
  simp [perform]

theorem allMeasured_resetDevices (h : resetDevices opcode = some recipe) :
    AllMeasured recipe.stages := by
  cases h
  simp [perform]

theorem allMeasured_setOrLoop (h : setOrLoop opcode = some recipe) :
    AllMeasured recipe.stages := by
  obtain ⟨mode, -, rfl | hplace⟩ := setOrLoop_cases h
  · simp [act]
  · exact allMeasured_inPlace hplace (by simp) (by simp)

theorem allMeasured_jump (h : jump opcode = some recipe) : AllMeasured recipe.stages := by
  simp only [jump, Option.bind_eq_bind, Option.bind_eq_some_iff] at h
  obtain ⟨mode, -, h⟩ := h
  split at h <;> cases h <;> simp [perform, bus, act]

theorem allMeasured_jumpToSubroutine (h : jumpToSubroutine opcode = some recipe) :
    AllMeasured recipe.stages := by
  simp only [jumpToSubroutine, Option.bind_eq_bind, Option.bind_eq_some_iff] at h
  obtain ⟨mode, -, resolved, hresolved, h⟩ := h
  cases h
  split at hresolved <;> cases hresolved <;> simp [perform, bus, act]

theorem allMeasured_returnFromSubroutine (h : returnFromSubroutine opcode = some recipe) :
    AllMeasured recipe.stages := by
  cases h
  simp [perform]

theorem allMeasured_returnFromException (h : returnFromException operation opcode = some recipe) :
    AllMeasured recipe.stages := by
  cases h
  simp [perform]

theorem allMeasured_moveToStatus (h : moveToStatus operation opcode = some recipe) :
    AllMeasured recipe.stages := by
  obtain ⟨mode, -, rfl⟩ := moveToStatus_cases h
  simp [perform]

theorem allMeasured_moveFromStatus (h : moveFromStatus opcode = some recipe) :
    AllMeasured recipe.stages := by
  obtain ⟨mode, -, hplace⟩ := moveFromStatus_cases h
  exact allMeasured_inPlace hplace (by simp) (by simp)

theorem allMeasured_moveUserStack (h : moveUserStack opcode = some recipe) :
    AllMeasured recipe.stages := by
  cases h
  simp [perform]

theorem allMeasured_immediateToCcr {kind : BitwiseKind}
    (h : immediateToCcr kind opcode = some recipe) : AllMeasured recipe.stages := by
  cases h
  simp [combineImmediate, bus, perform]

theorem allMeasured_immediateToSr {kind : BitwiseKind}
    (h : immediateToSr kind opcode = some recipe) : AllMeasured recipe.stages := by
  cases h
  simp [combineImmediate, bus, perform]

end Encoding

/-! ## All forms -/

open Encoding in
/-- Every form gives measured stages. -/
theorem allMeasured_forms : ∀ form ∈ forms, ∀ opcode recipe,
    form.encoding opcode = some recipe → AllMeasured recipe.stages := by
  simp only [forms, List.forall_mem_cons, List.not_mem_nil, false_implies, implies_true, and_true]
  exact ⟨fun _ _ => allMeasured_packedDecimal, fun _ _ => allMeasured_packedDecimal,
    fun _ _ => allMeasured_logical, fun _ _ => allMeasured_logical,
    fun _ _ => allMeasured_logical,
    fun _ _ => allMeasured_immediate, fun _ _ => allMeasured_immediate,
    fun _ _ => allMeasured_immediate, fun _ _ => allMeasured_immediate,
    fun _ _ => allMeasured_immediate, fun _ _ => allMeasured_compareImmediate,
    fun _ _ => allMeasured_immediateToSr, fun _ _ => allMeasured_immediateToCcr,
    fun _ _ => allMeasured_immediateToSr, fun _ _ => allMeasured_immediateToCcr,
    fun _ _ => allMeasured_immediateToSr, fun _ _ => allMeasured_immediateToCcr,
    fun _ _ => allMeasured_move, fun _ _ => allMeasured_move, fun _ _ => allMeasured_move,
    fun _ _ => allMeasured_moveToStatus, fun _ _ => allMeasured_moveToStatus,
    fun _ _ => allMeasured_moveFromStatus, fun _ _ => allMeasured_moveQuick,
    fun _ _ => allMeasured_moveUserStack,
    fun _ _ => allMeasured_moveRegisters, fun _ _ => allMeasured_moveRegisters,
    fun _ _ => allMeasured_compareRegister, fun _ _ => allMeasured_compareAddress,
    fun _ _ => allMeasured_compareMemory,
    fun _ _ => allMeasured_branch, fun _ _ => allMeasured_setOrLoop,
    fun _ _ => allMeasured_jump, fun _ _ => allMeasured_jumpToSubroutine,
    fun _ _ => allMeasured_returnFromSubroutine,
    fun _ _ => allMeasured_returnFromException, fun _ _ => allMeasured_returnFromException,
    fun _ _ => allMeasured_trap, fun _ _ => allMeasured_noOperation,
    fun _ _ => allMeasured_resetDevices, fun _ _ => allMeasured_loadAddress,
    fun _ _ => allMeasured_addSub, fun _ _ => allMeasured_addSub,
    fun _ _ => allMeasured_addressAddSub, fun _ _ => allMeasured_addressAddSub,
    fun _ _ => allMeasured_quickAddSub, fun _ _ => allMeasured_quickAddSub,
    fun _ _ => allMeasured_bit, fun _ _ => allMeasured_bit, fun _ _ => allMeasured_bit,
    fun _ _ => allMeasured_bit, fun _ _ => allMeasured_bit, fun _ _ => allMeasured_bit,
    fun _ _ => allMeasured_bit, fun _ _ => allMeasured_bit,
    fun _ _ => allMeasured_singleOperand, fun _ _ => allMeasured_singleOperand,
    fun _ _ => allMeasured_singleOperand, fun _ _ => allMeasured_singleOperand,
    fun _ _ => allMeasured_test, fun _ _ => allMeasured_testAndSet,
    fun _ _ => allMeasured_shiftRegister, fun _ _ => allMeasured_shiftRegister,
    fun _ _ => allMeasured_shiftRegister, fun _ _ => allMeasured_shiftRegister,
    fun _ _ => allMeasured_shiftRegister, fun _ _ => allMeasured_shiftRegister,
    fun _ _ => allMeasured_shiftRegister, fun _ _ => allMeasured_shiftRegister,
    fun _ _ => allMeasured_shiftMemory, fun _ _ => allMeasured_shiftMemory,
    fun _ _ => allMeasured_shiftMemory, fun _ _ => allMeasured_shiftMemory,
    fun _ _ => allMeasured_shiftMemory, fun _ _ => allMeasured_shiftMemory,
    fun _ _ => allMeasured_shiftMemory, fun _ _ => allMeasured_shiftMemory,
    fun _ _ => allMeasured_multiply, fun _ _ => allMeasured_multiply,
    fun _ _ => allMeasured_exchange, fun _ _ => allMeasured_exchange,
    fun _ _ => allMeasured_exchange,
    fun _ _ => allMeasured_swapHalves, fun _ _ => allMeasured_extendSign⟩

/-- **The stages of every recipe are measured.** -/
theorem measured_of_decode? {opcode : Word} {recipe : Recipe}
    (h : decode? forms opcode = some recipe) : AllMeasured recipe.stages := by
  obtain ⟨form, hmem, -, hencoding⟩ := exists_form h
  exact allMeasured_forms form hmem opcode recipe hencoding

end M68k
