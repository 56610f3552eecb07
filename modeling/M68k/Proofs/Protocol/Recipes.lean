import M68k.Proofs.Protocol.Linked

/-!
# Recipes keep to the protocol

In all recipes but one each stage performs whole transfers, so that no action comes between the two
halves of one. Only test-and-set operates while the address of its read is held, which it does with
an operation that moves no address.

## Main definitions

* `AllWhole`: each of some stages performs whole transfers
* `Instruction.keepsAddresses`: the action moves no address
* `Stage.Linked`: stages whose steps belong together, even where actions come between them

## Main results

* `linked_of_decode?`: the stages of every recipe are linked
-/

namespace M68k

/-- Each stage performs whole transfers. -/
def AllWhole (stages : List Stage) : Prop := ∀ stage ∈ stages, stage.activity.isWhole

@[simp] theorem allWhole_nil : AllWhole [] := by simp [AllWhole]

@[simp] theorem allWhole_cons {stage : Stage} {stages : List Stage} :
    AllWhole (stage :: stages) ↔ stage.activity.isWhole ∧ AllWhole stages :=
  List.forall_mem_cons

@[simp] theorem allWhole_append {first second : List Stage} :
    AllWhole (first ++ second) ↔ AllWhole first ∧ AllWhole second :=
  List.forall_mem_append

/-- Only test-and-set on memory operates while an address is held. It reaches the destination latch
and the condition codes, which no address is looked up from. -/
def Instruction.keepsAddresses (instruction : Instruction) (action : Action) : Prop :=
  action = .operate ∧ instruction.operation = .tas ∧ instruction.destination = .destinationLatch

instance (instruction : Instruction) (action : Action) :
    Decidable (instruction.keepsAddresses action) :=
  inferInstanceAs (Decidable (_ ∧ _ ∧ _))

namespace Stage

open BusStep

/-- The steps of the stages belong together. The address of a step still stands for the next stage
if its action moves no address. -/
def Linked (instruction : Instruction) : Option BusStep → List Stage → Prop
  | _, [] => True
  | held, stage :: stages =>
    let held := if instruction.keepsAddresses stage.action then held else none
    stage.activity.Linked held ∧ Linked instruction (stage.activity.behind held) stages

variable {instruction : Instruction} {held : Option BusStep} {stages : List Stage}

/-- What does not stand leaves no address waiting either. -/
theorem rests_ite (hheld : Rests held) (p : Prop) [Decidable p] :
    Rests (if p then held else none) := by
  split
  · exact hheld
  · exact rests_none

/-- Stages that perform whole transfers may come first. -/
theorem Linked.of_front {front : List Stage} (hfront : AllWhole front) (hheld : Rests held)
    (h : ∀ held, Rests held → Linked instruction held stages) :
    Linked instruction held (front ++ stages) := by
  induction front generalizing held with
  | nil => exact h held hheld
  | cons stage front ih =>
    obtain ⟨hstage, hfront⟩ := allWhole_cons.1 hfront
    have hlinked := Activity.linked_of_isWhole hstage
      (rests_ite hheld (instruction.keepsAddresses stage.action))
    exact ⟨hlinked, ih hfront hlinked.rests⟩

/-- Stages that perform whole transfers are linked. -/
theorem linked_of_allWhole (h : AllWhole stages) (hheld : Rests held) :
    Linked instruction held stages := by
  have hlinked : Linked instruction held (stages ++ []) :=
    .of_front h hheld fun _ _ => trivial
  rwa [List.append_nil] at hlinked

/-- An address may stand while the operation is carried out. -/
theorem Linked.of_keeps {stage : Stage} (hkeeps : instruction.keepsAddresses stage.action)
    (hstage : stage.activity.Linked held)
    (hstages : Linked instruction (stage.activity.behind held) stages) :
    Linked instruction held (stage :: stages) := by
  simp only [Linked, if_pos hkeeps]
  exact ⟨hstage, hstages⟩

/-- Where the operation moves addresses, it does not matter what came before. -/
theorem Linked.of_ne_tas {other : Option BusStep} (h : Linked instruction held stages)
    (hoperation : instruction.operation ≠ .tas) : Linked instruction other stages := by
  cases stages with
  | nil => trivial
  | cons stage stages =>
    have hmoves : ¬ instruction.keepsAddresses stage.action := fun hkeeps => hoperation hkeeps.2.1
    simp only [Linked, if_neg hmoves] at h ⊢
    exact h

end Stage

/-- The stages of the recipe are linked. -/
def Recipe.Linked (recipe : Recipe) : Prop := Stage.Linked recipe.instruction none recipe.stages

theorem Recipe.linked_of_allWhole {recipe : Recipe} (h : AllWhole recipe.stages) : recipe.Linked :=
  Stage.linked_of_allWhole h BusStep.rests_none

namespace Encoding

open Stage Activity Instruction Recipe

/-! ## Operands -/

@[simp] theorem isWhole_readOperand (side : Side) (size : Size) (address : AddressSource) :
    (readOperand side size address).isWhole := by
  cases size <;> simp [readOperand]

@[simp] theorem isWhole_indexDelay (mode : AddressMode) : (indexDelay mode).isWhole := by
  unfold indexDelay
  split <;> rfl

@[simp] theorem isWhole_registerTail (mode : AddressMode) (size : Size) :
    (registerTail mode size).isWhole := by
  cases size <;> simp [registerTail]

@[simp] theorem isWhole_longDelay (size : Size) : (longDelay size).isWhole := by
  cases size <;> simp [longDelay]

@[simp] theorem allWhole_fetchImmediate (size : Size) : AllWhole (fetchImmediate size) := by
  cases size <;> simp [fetchImmediate, bus]

@[simp] theorem allWhole_readMemory (side : Side) (target : Target) (mode : AddressMode)
    (register : RegisterNumber) (size : Size) :
    AllWhole (readMemory side target mode register size) := by
  cases mode with
  | indirect | postIncrement | preDecrement => cases size <;> simp [readMemory, bus, act]
  | _ => simp [readMemory, bus]

@[simp] theorem allWhole_fetchSource (mode : AddressMode) (register : RegisterNumber) (size : Size) :
    AllWhole (fetchSource mode register size) := by
  cases mode <;> simp [fetchSource]

@[simp] theorem allWhole_stepPast (mode : AddressMode) (register : RegisterNumber) (size : Size)
    (target : Target) : AllWhole (stepPast mode register size target) := by
  cases mode <;> simp [stepPast, act]

theorem isWhole_operateAndWrite (mode : AddressMode) (register : RegisterNumber) (size : Size)
    {writeback : Writeback} (h : writeback ≠ .testAndSet) :
    (operateAndWrite mode register size writeback).activity.isWhole := by
  cases writeback with
  | store => cases size <;> simp [operateAndWrite, perform]
  | discard => rfl
  | testAndSet => exact absurd rfl h

theorem allWhole_readModifyWrite (mode : AddressMode) (register : RegisterNumber) (size : Size)
    {writeback : Writeback} (h : writeback ≠ .testAndSet) :
    AllWhole (readModifyWrite mode register size writeback) := by
  simp [readModifyWrite, isWhole_operateAndWrite mode register size h]

@[simp] theorem allWhole_intoRegister (mode : AddressMode) (register : RegisterNumber) (size : Size)
    {tail : Activity} (htail : tail.isWhole) : AllWhole (intoRegister mode register size tail) := by
  simp [intoRegister, perform, htail]

@[simp] theorem allWhole_storeMoved (mode : AddressMode) (register : RegisterNumber) (size : Size)
    (increment : Target) : AllWhole (storeMoved mode register size increment) := by
  cases mode <;> cases size <;> simp [storeMoved, bus, act]

/-! ## Encodings -/

variable {opcode : Word} {recipe : Recipe} {operation : Operation}

/-- An operand is changed in a data register or in memory. -/
theorem linked_inPlace {lead : List Stage} {instruction : Instruction} {tail : Activity}
    {writeback : Writeback} {mode : AddressMode}
    (h : InPlace opcode lead instruction tail writeback mode recipe) (hlead : AllWhole lead)
    (htail : tail.isWhole) (hwriteback : writeback ≠ .testAndSet) : recipe.Linked := by
  cases h with
  | register => exact linked_of_allWhole (by simp [hlead, htail, perform])
  | memory =>
    exact linked_of_allWhole
      (allWhole_append.2 ⟨hlead, allWhole_readModifyWrite _ _ _ hwriteback⟩)

theorem linked_addSub (h : addSub operation opcode = some recipe) : recipe.Linked := by
  obtain ⟨size, mode, -, -, ⟨-, rfl⟩ | rfl⟩ := addSub_cases h
  · exact linked_of_allWhole (allWhole_readModifyWrite _ _ _ (by decide))
  · exact linked_of_allWhole (by simp)

theorem linked_addressAddSub (h : addressAddSub operation opcode = some recipe) :
    recipe.Linked := by
  simp only [addressAddSub, Option.bind_eq_bind, Option.bind_eq_some_iff] at h
  obtain ⟨mode, -, h⟩ := h
  cases h
  refine linked_of_allWhole (allWhole_intoRegister _ _ _ ?_)
  cases addressSize opcode <;> simp

theorem linked_compareAddress (h : compareAddress opcode = some recipe) : recipe.Linked := by
  simp only [compareAddress, Option.bind_eq_bind, Option.bind_eq_some_iff] at h
  obtain ⟨mode, -, h⟩ := h
  cases h
  exact linked_of_allWhole (by simp)

theorem linked_compareRegister (h : compareRegister opcode = some recipe) : recipe.Linked := by
  obtain ⟨size, mode, -, -, rfl⟩ := compareRegister_cases h
  exact linked_of_allWhole (by simp)

theorem linked_logical {kind : BitwiseKind} (h : logical kind opcode = some recipe) :
    recipe.Linked := by
  obtain ⟨size, mode, -, -, hplace | rfl⟩ := logical_cases h
  · exact linked_inPlace hplace allWhole_nil (by simp) (by decide)
  · exact linked_of_allWhole (by simp)

theorem linked_multiply (h : multiply operation opcode = some recipe) : recipe.Linked := by
  obtain ⟨mode, -, rfl⟩ := multiply_cases h
  exact linked_of_allWhole (by simp [bus, perform])

theorem linked_quickAddSub (h : quickAddSub operation opcode = some recipe) : recipe.Linked := by
  obtain ⟨size, mode, -, -, ⟨-, rfl⟩ | hplace⟩ := quickAddSub_cases h
  · exact linked_of_allWhole (by simp [perform])
  · exact linked_inPlace hplace allWhole_nil (by simp) (by decide)

theorem linked_immediate (h : Encoding.immediate operation opcode = some recipe) :
    recipe.Linked := by
  obtain ⟨size, mode, -, -, hplace⟩ := immediate_cases h
  refine linked_inPlace hplace (by simp) ?_ (by decide)
  split <;> simp

theorem linked_compareImmediate (h : compareImmediate opcode = some recipe) : recipe.Linked := by
  obtain ⟨size, mode, -, -, hplace⟩ := compareImmediate_cases h
  exact linked_inPlace hplace (by simp) (by simp) (by decide)

theorem linked_compareMemory (h : compareMemory opcode = some recipe) : recipe.Linked := by
  simp only [compareMemory, Option.bind_eq_bind, Option.bind_eq_some_iff] at h
  obtain ⟨size, -, h⟩ := h
  cases h
  refine linked_of_allWhole ?_
  cases size <;> simp [bus, act]

theorem linked_packedDecimal (h : packedDecimal operation opcode = some recipe) :
    recipe.Linked := by
  unfold packedDecimal at h
  dsimp only [] at h
  split at h <;> cases h <;> exact linked_of_allWhole (by simp [perform])

theorem linked_extendSign (h : extendSign opcode = some recipe) : recipe.Linked := by
  cases h
  exact linked_of_allWhole (by simp [perform])

theorem linked_swapHalves (h : swapHalves opcode = some recipe) : recipe.Linked := by
  cases h
  exact linked_of_allWhole (by simp [perform])

theorem linked_exchange (h : exchange opcode = some recipe) : recipe.Linked := by
  simp only [exchange, Option.bind_eq_bind, Option.bind_eq_some_iff] at h
  obtain ⟨modes, -, h⟩ := h
  cases h
  exact linked_of_allWhole (by simp [perform])

theorem linked_singleOperand (h : singleOperand operation opcode = some recipe) :
    recipe.Linked := by
  obtain ⟨size, mode, -, hplace⟩ := singleOperand_cases h
  exact linked_inPlace hplace allWhole_nil (by simp) (by decide)

theorem linked_test (h : test opcode = some recipe) : recipe.Linked := by
  obtain ⟨size, mode, -, hplace⟩ := test_cases h
  exact linked_inPlace hplace allWhole_nil isWhole_fetch (by decide)

theorem linked_bit {static : Bool} {kind : BitKind} (h : bit static kind opcode = some recipe) :
    recipe.Linked := by
  have hnumber : AllWhole (if static then fetchImmediate .word else []) := by
    split <;> simp
  obtain ⟨mode, -, ⟨rfl, rfl⟩ | ⟨-, rfl⟩⟩ := bit_cases h
  · refine linked_of_allWhole (allWhole_append.2 ⟨hnumber, ?_⟩)
    split <;> simp [bus, perform]
  · exact linked_of_allWhole
      (allWhole_append.2 ⟨hnumber, allWhole_readModifyWrite _ _ _ (by split <;> decide)⟩)

theorem linked_shiftRegister {kind : ShiftKind} (h : shiftRegister kind opcode = some recipe) :
    recipe.Linked := by
  simp only [shiftRegister, Option.bind_eq_bind, Option.bind_eq_some_iff] at h
  obtain ⟨size, -, h⟩ := h
  cases h
  exact linked_of_allWhole (by simp [bus, perform])

theorem linked_shiftMemory {kind : ShiftKind} (h : shiftMemory kind opcode = some recipe) :
    recipe.Linked := by
  obtain ⟨mode, -, -, rfl⟩ := shiftMemory_cases h
  exact linked_of_allWhole (allWhole_readModifyWrite _ _ _ (by decide))

/-! ### Test and set -/

/-- A byte of memory is read last, at the address that it is written back to. -/
theorem readMemory_byte {mode : AddressMode} (hmemory : mode.isMemory) (register : RegisterNumber) :
    ∃ (front : List Stage) (action : Action) (target : Target) (before : Activity),
      readMemory .destination .dst mode register .byte =
          front ++ [⟨action, target,
            before ++ .read .destination .low none .byte (writeAddress mode register)⟩] ∧
        AllWhole front ∧ before.isWhole := by
  cases mode with
  | dataRegister | addressRegister | immediate => cases hmemory
  | indirect | postIncrement => exact ⟨[], _, _, [], rfl, by simp, by simp⟩
  | preDecrement => exact ⟨[], _, _, .idle 4, rfl, by simp, by simp⟩
  | absoluteLong => exact ⟨[.bus .fetch], _, _, .fetch, rfl, by simp [bus], by simp⟩
  | _ => exact ⟨[], _, _, indexDelay _ ++ .fetch, rfl, by simp, by simp⟩

/-- A byte that has been read into a latch may be written back at the same address. -/
theorem linked_writeBack (side : Side) (half : Half) (address : AddressSource) (before : Activity)
    (held : Option BusStep) :
    (Activity.testAndSet address ++ .fetch).Linked
      ((before ++ .read side half none .byte address).behind held) := by
  have hstanding : (before ++ .read side half none .byte address).behind held =
      some
        { length := .fixed 3
          signals := { sameAddress := true, read := true, selectByte := true }
          address := address
          slot := .latch side half
          action := .none } := by
    rw [behind, List.foldl_append]
    rfl
  rw [hstanding]
  refine ⟨.of_held ⟨nofun, nofun, nofun⟩ rfl rfl rfl rfl,
    .of_held ⟨fun _ => rfl, fun _ => nofun, nofun⟩ rfl rfl rfl rfl, ?_⟩
  exact linked_of_isWhole isWhole_fetch (BusStep.rests_standing rfl)

/-- The operation comes between the read of a byte and its write, and moves no address. -/
theorem linked_readModifyWrite {instruction : Instruction} {mode : AddressMode}
    (hmemory : mode.isMemory) (register : RegisterNumber)
    (hkeeps : instruction.keepsAddresses .operate) :
    Stage.Linked instruction none (readModifyWrite mode register .byte .testAndSet) := by
  obtain ⟨front, action, target, before, hread, hfront, hbefore⟩ := readMemory_byte hmemory register
  rw [readModifyWrite, hread, List.append_assoc, List.append_assoc]
  refine .of_front hfront BusStep.rests_none fun held hheld => ⟨?_, ?_⟩
  · exact linked_of_isWhole (by simp [hbefore]) (rests_ite hheld _)
  · have hoperated := linked_writeBack .destination .low (writeAddress mode register) before
      (if instruction.keepsAddresses action then held else none)
    exact .of_keeps hkeeps hoperated
      (Stage.linked_of_allWhole (allWhole_stepPast _ _ _ _) hoperated.rests)

theorem linked_testAndSet (h : Encoding.testAndSet opcode = some recipe) : recipe.Linked := by
  obtain ⟨mode, -, hplace⟩ := testAndSet_cases h
  cases hplace with
  | register => exact linked_of_allWhole (by simp [perform])
  | memory hmemory =>
    refine linked_readModifyWrite hmemory (lowerRegister opcode) ⟨rfl, rfl, ?_⟩
    cases mode <;> first | rfl | cases hmemory

/-! ### Data movement -/

theorem linked_move (h : move opcode = some recipe) : recipe.Linked := by
  obtain ⟨source, destination, -, -, -, rfl⟩ := move_cases h
  refine linked_of_allWhole ?_
  simp only [moveStages, allWhole_append]
  refine ⟨⟨by simp, by split <;> simp⟩, ?_⟩
  split <;> simp [perform, act]

theorem linked_moveQuick (h : moveQuick opcode = some recipe) : recipe.Linked := by
  cases h
  exact linked_of_allWhole (by simp [perform])

theorem linked_loadAddress (h : loadAddress opcode = some recipe) : recipe.Linked := by
  simp only [loadAddress, Option.bind_eq_bind, Option.bind_eq_some_iff] at h
  obtain ⟨mode, -, h⟩ := h
  split at h <;> cases h <;> exact linked_of_allWhole (by simp [perform, bus, act])

theorem linked_moveRegisters {direction : ListDirection}
    (h : moveRegisters direction opcode = some recipe) : recipe.Linked := by
  obtain ⟨mode, -, -, rfl⟩ := moveRegisters_cases h
  have haddress : AllWhole (addressList mode) := by
    cases mode <;> simp [addressList, act, bus]
  exact linked_of_allWhole (by simp [act, haddress])

/-! ### Program control -/

theorem linked_branch (h : branch opcode = some recipe) : recipe.Linked := by
  unfold branch at h
  dsimp only [] at h
  split at h <;> cases h <;> exact linked_of_allWhole (by simp [act])

theorem linked_trap (h : trap opcode = some recipe) : recipe.Linked := by
  cases h
  exact linked_of_allWhole (by simp [act])

theorem linked_noOperation (h : noOperation opcode = some recipe) : recipe.Linked := by
  cases h
  exact linked_of_allWhole (by simp [perform])

theorem linked_resetDevices (h : resetDevices opcode = some recipe) : recipe.Linked := by
  cases h
  exact linked_of_allWhole (by simp [perform])

theorem linked_setOrLoop (h : setOrLoop opcode = some recipe) : recipe.Linked := by
  obtain ⟨mode, -, rfl | hplace⟩ := setOrLoop_cases h
  · exact linked_of_allWhole (by simp [act])
  · exact linked_inPlace hplace allWhole_nil (by simp) (by decide)

theorem linked_jump (h : jump opcode = some recipe) : recipe.Linked := by
  simp only [jump, Option.bind_eq_bind, Option.bind_eq_some_iff] at h
  obtain ⟨mode, -, h⟩ := h
  split at h <;> cases h <;> exact linked_of_allWhole (by simp [perform, bus, act])

theorem linked_jumpToSubroutine (h : jumpToSubroutine opcode = some recipe) : recipe.Linked := by
  simp only [jumpToSubroutine, Option.bind_eq_bind, Option.bind_eq_some_iff] at h
  obtain ⟨mode, -, resolved, hresolved, h⟩ := h
  cases h
  refine linked_of_allWhole ?_
  split at hresolved <;> cases hresolved <;> simp [perform, bus, act]

theorem linked_returnFromSubroutine (h : returnFromSubroutine opcode = some recipe) :
    recipe.Linked := by
  cases h
  exact linked_of_allWhole (by simp [perform])

theorem linked_returnFromException (h : returnFromException operation opcode = some recipe) :
    recipe.Linked := by
  cases h
  exact linked_of_allWhole (by simp [perform, popFrame])

theorem linked_moveToStatus (h : moveToStatus operation opcode = some recipe) : recipe.Linked := by
  obtain ⟨mode, -, rfl⟩ := moveToStatus_cases h
  exact linked_of_allWhole (by simp [perform])

theorem linked_moveFromStatus (h : moveFromStatus opcode = some recipe) : recipe.Linked := by
  obtain ⟨mode, -, hplace⟩ := moveFromStatus_cases h
  exact linked_inPlace hplace allWhole_nil (by simp) (by decide)

theorem linked_moveUserStack (h : moveUserStack opcode = some recipe) : recipe.Linked := by
  cases h
  exact linked_of_allWhole (by simp [perform])

theorem linked_immediateToCcr {kind : BitwiseKind}
    (h : immediateToCcr kind opcode = some recipe) : recipe.Linked := by
  cases h
  exact linked_of_allWhole (by simp [combineImmediate, bus, perform])

theorem linked_immediateToSr {kind : BitwiseKind} (h : immediateToSr kind opcode = some recipe) :
    recipe.Linked := by
  cases h
  exact linked_of_allWhole (by simp [combineImmediate, bus, perform])

end Encoding

/-! ## All forms -/

open Encoding in
/-- Every form gives linked recipes. -/
theorem linked_forms : ∀ form ∈ forms, ∀ opcode recipe, form.encoding opcode = some recipe →
    recipe.Linked := by
  simp only [forms, List.forall_mem_cons, List.not_mem_nil, false_implies, implies_true, and_true]
  exact ⟨fun _ _ => linked_packedDecimal, fun _ _ => linked_packedDecimal,
    fun _ _ => linked_logical, fun _ _ => linked_logical, fun _ _ => linked_logical,
    fun _ _ => linked_immediate, fun _ _ => linked_immediate, fun _ _ => linked_immediate,
    fun _ _ => linked_immediate, fun _ _ => linked_immediate,
    fun _ _ => linked_compareImmediate,
    fun _ _ => linked_immediateToSr, fun _ _ => linked_immediateToCcr,
    fun _ _ => linked_immediateToSr, fun _ _ => linked_immediateToCcr,
    fun _ _ => linked_immediateToSr, fun _ _ => linked_immediateToCcr,
    fun _ _ => linked_move, fun _ _ => linked_move, fun _ _ => linked_move,
    fun _ _ => linked_moveToStatus, fun _ _ => linked_moveToStatus,
    fun _ _ => linked_moveFromStatus, fun _ _ => linked_moveQuick,
    fun _ _ => linked_moveUserStack,
    fun _ _ => linked_moveRegisters, fun _ _ => linked_moveRegisters,
    fun _ _ => linked_compareRegister, fun _ _ => linked_compareAddress,
    fun _ _ => linked_compareMemory,
    fun _ _ => linked_branch, fun _ _ => linked_setOrLoop,
    fun _ _ => linked_jump, fun _ _ => linked_jumpToSubroutine,
    fun _ _ => linked_returnFromSubroutine,
    fun _ _ => linked_returnFromException, fun _ _ => linked_returnFromException,
    fun _ _ => linked_trap, fun _ _ => linked_noOperation, fun _ _ => linked_resetDevices,
    fun _ _ => linked_loadAddress,
    fun _ _ => linked_addSub, fun _ _ => linked_addSub,
    fun _ _ => linked_addressAddSub, fun _ _ => linked_addressAddSub,
    fun _ _ => linked_quickAddSub, fun _ _ => linked_quickAddSub,
    fun _ _ => linked_bit, fun _ _ => linked_bit, fun _ _ => linked_bit, fun _ _ => linked_bit,
    fun _ _ => linked_bit, fun _ _ => linked_bit, fun _ _ => linked_bit, fun _ _ => linked_bit,
    fun _ _ => linked_singleOperand, fun _ _ => linked_singleOperand,
    fun _ _ => linked_singleOperand, fun _ _ => linked_singleOperand,
    fun _ _ => linked_test, fun _ _ => linked_testAndSet,
    fun _ _ => linked_shiftRegister, fun _ _ => linked_shiftRegister,
    fun _ _ => linked_shiftRegister, fun _ _ => linked_shiftRegister,
    fun _ _ => linked_shiftRegister, fun _ _ => linked_shiftRegister,
    fun _ _ => linked_shiftRegister, fun _ _ => linked_shiftRegister,
    fun _ _ => linked_shiftMemory, fun _ _ => linked_shiftMemory,
    fun _ _ => linked_shiftMemory, fun _ _ => linked_shiftMemory,
    fun _ _ => linked_shiftMemory, fun _ _ => linked_shiftMemory,
    fun _ _ => linked_shiftMemory, fun _ _ => linked_shiftMemory,
    fun _ _ => linked_multiply, fun _ _ => linked_multiply,
    fun _ _ => linked_exchange, fun _ _ => linked_exchange, fun _ _ => linked_exchange,
    fun _ _ => linked_swapHalves, fun _ _ => linked_extendSign⟩

/-- **Every recipe keeps to the protocol.** -/
theorem linked_of_decode? {opcode : Word} {recipe : Recipe}
    (h : decode? forms opcode = some recipe) : recipe.Linked := by
  obtain ⟨form, hmem, -, hencoding⟩ := exists_form h
  exact linked_forms form hmem opcode recipe hencoding

end M68k
