import M68k.Proofs.Encoding.Cases
import M68k.Proofs.Latches.Operands
import Mathlib

/-!
# Recipes that leave nothing behind

No recipe makes use of what an earlier instruction has left in the latches, and where an operation
sets the length of a flexible step there is one behind it, which uses the length up.

## Main definitions

* `Instruction.lengthens`: the operation sets the length of a flexible step
* `Recipe.Tidy`: nothing of an earlier instruction is used, and nothing is left for a later one

## Main results

* `tidy_of_decode?`: every recipe is tidy
-/

namespace M68k

/-- The operation of the instruction may set the length of a flexible step. -/
def Instruction.lengthens (instruction : Instruction) : Bool :=
  match instruction.operation with
  | .scc | .shift _ => instruction.destination.isDataRegister
  | .bit kind => kind != .test && instruction.destination.isDataRegister
  | .mulu | .muls => true
  | _ => false

/-- Behind an operation that sets the length of a flexible step there is one. -/
def Stage.Timed (instruction : Instruction) (stage : Stage) : Prop :=
  stage.action = .operate → instruction.lengthens → ∃ step ∈ stage.activity, step.length = .flexible

/-- The recipe uses nothing that an earlier instruction has left behind, and uses up the length that
it sets. -/
structure Recipe.Tidy (recipe : Recipe) : Prop where
  dead : recipe.Dead
  timed : ∀ stage ∈ recipe.stages, stage.Timed recipe.instruction

/-- Most operations set no length. -/
theorem Recipe.Dead.tidy {recipe : Recipe} (h : recipe.Dead)
    (hlength : recipe.instruction.lengthens = false) : recipe.Tidy where
  dead := h
  timed stage _ _ hlengthens := by
    rw [hlength] at hlengthens
    cases hlengthens

namespace Encoding

variable {opcode : Word} {recipe : Recipe} {operation : Operation} {instruction : Instruction}

/-! ## Operands -/

theorem ofMode_of_isMemory {mode : AddressMode} (h : mode.isMemory) (register : RegisterNumber)
    (latch : Operand) : Operand.ofMode mode register latch = latch := by
  cases mode <;> first | rfl | cases h

/-- Operations that look at the destination in memory within their size, and fill it if they are
followed by this writeback. -/
def modifies (operation : Operation) (size : Size) (writeback : Writeback) : Bool :=
  match writeback, operation with
  | .store, .add | .store, .sub | .store, .bitwise _ | .store, .clr | .store, .neg | .store, .negx
  | .store, .not | .store, .shift _ => true
  | .store, .bit kind => kind != .test
  | .store, .scc => size == .byte
  | .store, .moveFromSr => size == .word
  | .discard, .cmp | .discard, .tst | .discard, .bit .test => true
  | .testAndSet, .tas => size == .byte
  | _, _ => false

/-- An operation that may come before a writeback. -/
theorem stores_of_modifies {size : Size} {writeback : Writeback}
    (h : modifies operation size writeback) :
    operation.redirects = false ∧
      operation.stores size = (if writeback = .discard then none else some size) ∧
      operation.usesDestination size size.mask &&& ~~~size.mask = 0 ∧
      (writeback = .testAndSet → size = .byte) := by
  unfold modifies at h
  split at h
  case h_9 kind =>
    cases kind <;>
      simp_all [Operation.redirects, Operation.stores, Operation.usesDestination]
  all_goals simp_all [Operation.redirects, Operation.stores, Operation.usesDestination]

theorem modifies_memory {writeback : Writeback} {mode : AddressMode} {register : RegisterNumber}
    (hmodifies : modifies instruction.operation instruction.size writeback)
    (hdestination : instruction.destination = .ofMode mode register .destinationLatch)
    (hmemory : mode.isMemory) (hsource : instruction.source.isAside) :
    instruction.Modifies writeback := by
  obtain ⟨hplain, hstores, huses, htest⟩ := stores_of_modifies hmodifies
  exact ⟨hplain, hdestination.trans (ofMode_of_isMemory hmemory register _), hsource, hstores,
    huses, htest⟩

/-- Only in a data register does a change take longer. -/
theorem lengthens_of_modifies {writeback : Writeback}
    (hmodifies : modifies instruction.operation instruction.size writeback)
    (hdestination : instruction.destination = .destinationLatch) :
    instruction.lengthens = false := by
  unfold modifies at hmodifies
  unfold Instruction.lengthens
  rw [hdestination]
  split at hmodifies <;> simp_all [Operand.isDataRegister]

/-- An operation that is followed by no look at a latch. -/
theorem liveBefore_perform {tail : Activity} (htail : tail.liveBefore .nothing = .nothing) :
    Stage.liveBefore instruction [.perform tail] = Live.nothing.beforeOperate instruction := by
  rw [Stage.liveBefore_cons, Stage.liveBefore_nil, Stage.before_perform, htail]

/-- An immediate is brought in before it is used. -/
theorem dead_immediate {size : Size} {stages : List Stage} (bits : Long)
    (hoperate : Stage.liveBefore instruction stages = Live.nothing.useData .source bits) :
    (Recipe.mk instruction (fetchImmediate size ++ stages)).Dead := by
  rw [Recipe.Dead, Stage.liveBefore_append, hoperate, before_fetchImmediate]
  exact Live.fillData_useData_nothing _ (by simp)

section Modify

variable {writeback : Writeback} {mode : AddressMode} {register : RegisterNumber} {size : Size}
  (hmodifies : modifies instruction.operation instruction.size writeback)
  (hdestination : instruction.destination = .ofMode mode register .destinationLatch)
  (hmemory : mode.isMemory) (hsize : instruction.size = size)
include hmodifies hdestination hmemory hsize

/-- A destination in memory, with its source in a register or in the opcode. -/
theorem tidy_modify (hsource : instruction.source.isAside)
    (hregister : ∀ bits, Live.nothing.use instruction.source bits = .nothing) :
    (Recipe.mk instruction (readModifyWrite mode register size writeback)).Tidy := by
  subst hsize
  have hlatch := hdestination.trans (ofMode_of_isMemory hmemory register _)
  refine Recipe.Dead.tidy ?_ (lengthens_of_modifies hmodifies hlatch)
  exact (liveBefore_readModifyWrite (modifies_memory hmodifies hdestination hmemory hsource)
    hmemory register).trans (hregister _)

/-- The same, with an immediate for a source. -/
theorem tidy_modifyImmediate {immediate : Size} (hsource : instruction.source = .sourceLatch) :
    (Recipe.mk instruction
      (fetchImmediate immediate ++ readModifyWrite mode register size writeback)).Tidy := by
  subst hsize
  have hlatch := hdestination.trans (ofMode_of_isMemory hmemory register _)
  have haside : instruction.source.isAside := by rw [hsource]; rfl
  refine Recipe.Dead.tidy ?_ (lengthens_of_modifies hmodifies hlatch)
  refine dead_immediate
    (instruction.operation.usesSource instruction.size instruction.size.mask) ?_
  rw [liveBefore_readModifyWrite (modifies_memory hmodifies hdestination hmemory haside) hmemory,
    hsource]
  rfl

end Modify

/-- An operand is changed in a data register or in memory, with a source that is in no latch. -/
theorem tidy_inPlace {tail : Activity} {writeback : Writeback} {mode : AddressMode}
    (h : InPlace opcode [] instruction tail writeback mode recipe)
    (hregister : Recipe.Tidy
      ⟨instruction.withDestination .dataRegister (lowerRegister opcode), [.perform tail]⟩)
    (hmodifies : modifies instruction.operation instruction.size writeback)
    (hsource : instruction.source.isAside)
    (hunused : ∀ bits, Live.nothing.use instruction.source bits = .nothing) : recipe.Tidy := by
  cases h with
  | register => exact hregister
  | memory hmemory => exact tidy_modify hmodifies rfl hmemory rfl hsource hunused

/-- A source is brought in, the operation is carried out, and the source register steps. -/
theorem dead_source {mode : AddressMode} {register : RegisterNumber} {size : Size}
    {stages : List Stage}
    (hoperate : Stage.liveBefore instruction stages =
      Live.nothing.use (.ofMode mode register .sourceLatch) size.mask) :
    (Recipe.mk instruction (fetchSource mode register size ++ stages)).Dead := by
  rw [Recipe.Dead, Stage.liveBefore_append, hoperate, before_fetchSource]

theorem dead_intoRegister {mode : AddressMode} {register : RegisterNumber} {size : Size}
    {tail : Activity} (htail : tail.liveBefore .nothing = .nothing)
    (hoperate : Live.nothing.beforeOperate instruction =
      Live.nothing.use (.ofMode mode register .sourceLatch) size.mask) :
    (Recipe.mk instruction (intoRegister mode register size tail)).Dead := by
  rw [intoRegister, List.append_assoc]
  refine dead_source ?_
  rw [Stage.liveBefore_append, Stage.liveBefore, before_stepPast, List.foldr_cons, List.foldr_nil,
    Stage.before_perform, htail, hoperate]

theorem action_fetchSource {mode : AddressMode} {register : RegisterNumber} {size : Size}
    {stage : Stage} (h : stage ∈ fetchSource mode register size) : stage.action ≠ .operate := by
  have hcount := operations_fetchSource mode register size
  rw [Stage.operations, List.countP_eq_zero] at hcount
  simpa using hcount stage h

theorem action_stepPast {mode : AddressMode} {register : RegisterNumber} {size : Size}
    {target : Target} {stage : Stage} (h : stage ∈ stepPast mode register size target) :
    stage.action ≠ .operate := by
  have hcount := operations_stepPast mode register size target
  rw [Stage.operations, List.countP_eq_zero] at hcount
  simpa using hcount stage h

/-! ## Arithmetic and logic -/

@[simp] theorem liveBefore_longDelay (live : Live) (size : Size) :
    (longDelay size).liveBefore live = live := by
  cases size <;> rfl

theorem tidy_addSub (hoperation : operation = .add ∨ operation = .sub)
    (h : addSub operation opcode = some recipe) : recipe.Tidy := by
  obtain ⟨size, mode, -, -, ⟨hmemory, rfl⟩ | rfl⟩ := addSub_cases h
  · rcases hoperation with rfl | rfl <;> exact tidy_modify rfl rfl hmemory rfl rfl fun _ => rfl
  · have htail := liveBefore_registerTail .nothing mode size
    rcases hoperation with rfl | rfl <;> exact (dead_intoRegister htail rfl).tidy rfl

theorem tidy_addressAddSub (hoperation : operation = .adda ∨ operation = .suba)
    (h : addressAddSub operation opcode = some recipe) : recipe.Tidy := by
  simp only [addressAddSub, Option.bind_eq_bind, Option.bind_eq_some_iff] at h
  obtain ⟨mode, -, h⟩ := h
  cases h
  generalize addressSize opcode = size
  refine Recipe.Dead.tidy (dead_intoRegister (by cases size <;> rfl) ?_) ?_ <;>
    rcases hoperation with rfl | rfl <;> rfl

theorem tidy_compareAddress (h : compareAddress opcode = some recipe) : recipe.Tidy := by
  simp only [compareAddress, Option.bind_eq_bind, Option.bind_eq_some_iff] at h
  obtain ⟨mode, -, h⟩ := h
  cases h
  exact (dead_intoRegister rfl rfl).tidy rfl

theorem tidy_compareRegister (h : compareRegister opcode = some recipe) : recipe.Tidy := by
  obtain ⟨size, mode, -, -, rfl⟩ := compareRegister_cases h
  exact (dead_intoRegister (liveBefore_longDelay _ size) rfl).tidy rfl

theorem tidy_logical {kind : BitwiseKind} (h : logical kind opcode = some recipe) :
    recipe.Tidy := by
  obtain ⟨size, mode, -, -, hplace | rfl⟩ := logical_cases h
  · exact tidy_inPlace hplace (Recipe.Dead.tidy (by cases size <;> exact rfl) rfl) rfl rfl
      fun _ => rfl
  · refine Recipe.Dead.tidy (dead_intoRegister (liveBefore_registerTail _ mode size) ?_) rfl
    exact congrArg (Live.nothing.use _) BitVec.or_zero

theorem tidy_multiply (hoperation : operation = .mulu ∨ operation = .muls)
    (h : multiply operation opcode = some recipe) : recipe.Tidy := by
  obtain ⟨mode, -, rfl⟩ := multiply_cases h
  refine ⟨?_, fun stage hstage haction _ => ?_⟩
  · rw [List.append_assoc]
    refine dead_source ?_
    rw [Stage.liveBefore_append, Stage.liveBefore, before_stepPast]
    rcases hoperation with rfl | rfl <;> rfl
  · simp only [List.mem_append, List.mem_cons, List.not_mem_nil, or_false] at hstage
    rcases hstage with (hfetch | rfl | rfl) | hstep
    · exact absurd haction (action_fetchSource hfetch)
    · cases haction
    · exact ⟨_, List.mem_cons_self, rfl⟩
    · exact absurd haction (action_stepPast hstep)

theorem tidy_quickAddSub (hoperation : operation = .add ∨ operation = .sub)
    (h : quickAddSub operation opcode = some recipe) : recipe.Tidy := by
  obtain ⟨size, mode, -, -, ⟨-, rfl⟩ | hplace⟩ := quickAddSub_cases h
  · rcases hoperation with rfl | rfl <;> exact Recipe.Dead.tidy rfl rfl
  · rcases hoperation with rfl | rfl <;>
      exact tidy_inPlace hplace (Recipe.Dead.tidy (by cases size <;> exact rfl) rfl) rfl rfl
        fun _ => rfl

theorem tidy_compareMemory (h : compareMemory opcode = some recipe) : recipe.Tidy := by
  simp only [compareMemory, Option.bind_eq_bind, Option.bind_eq_some_iff] at h
  obtain ⟨size, -, h⟩ := h
  cases h
  refine Recipe.Dead.tidy ?_ rfl
  cases size <;> cbv

theorem tidy_packedDecimal (hoperation : operation = .abcd ∨ operation = .sbcd)
    (h : packedDecimal operation opcode = some recipe) : recipe.Tidy := by
  unfold packedDecimal at h
  dsimp only [] at h
  split at h <;> cases h <;> rcases hoperation with rfl | rfl <;>
    exact Recipe.Dead.tidy (by cbv) rfl

theorem tidy_extendSign (h : extendSign opcode = some recipe) : recipe.Tidy := by
  cases h
  exact Recipe.Dead.tidy rfl rfl

theorem tidy_swapHalves (h : swapHalves opcode = some recipe) : recipe.Tidy := by
  cases h
  exact Recipe.Dead.tidy rfl rfl

theorem tidy_exchange (h : exchange opcode = some recipe) : recipe.Tidy := by
  simp only [exchange, Option.bind_eq_bind, Option.bind_eq_some_iff] at h
  obtain ⟨modes, hmodes, h⟩ := h
  cases h
  refine Recipe.Dead.tidy ?_ rfl
  split at hmodes <;> cases hmodes <;> exact rfl

/-! ## Immediates -/

theorem tidy_immediate
    (hoperation : operation = .add ∨ operation = .sub ∨ ∃ kind, operation = .bitwise kind)
    (h : Encoding.immediate operation opcode = some recipe) : recipe.Tidy := by
  obtain ⟨size, mode, -, -, hplace⟩ := immediate_cases h
  cases hplace with
  | register =>
    have htail : (if operation == .bitwise .and && size == .long then .fetch ++ .idle 4
        else registerTail .immediate size : Activity).liveBefore .nothing = .nothing := by
      split
      · rfl
      · exact liveBefore_registerTail _ _ size
    rcases hoperation with rfl | rfl | ⟨kind, rfl⟩
    · exact (dead_immediate size.mask (liveBefore_perform htail)).tidy rfl
    · exact (dead_immediate size.mask (liveBefore_perform htail)).tidy rfl
    · exact (dead_immediate (size.mask ||| 0) (liveBefore_perform htail)).tidy rfl
  | memory hmemory =>
    rcases hoperation with rfl | rfl | ⟨kind, rfl⟩ <;>
      exact tidy_modifyImmediate rfl rfl hmemory rfl rfl

theorem tidy_compareImmediate (h : compareImmediate opcode = some recipe) : recipe.Tidy := by
  obtain ⟨size, mode, -, -, hplace⟩ := compareImmediate_cases h
  cases hplace with
  | register =>
    have htail := liveBefore_longDelay .nothing size
    exact (dead_immediate size.mask (liveBefore_perform htail)).tidy rfl
  | memory hmemory => exact tidy_modifyImmediate rfl rfl hmemory rfl rfl

/-! ## Bits and shifts -/

/-- A change of a bit in a data register is followed by a flexible step. -/
theorem tidy_bitInDataRegister {stages : List Stage} {isTest : Bool}
    (htest : isTest → instruction.lengthens = false)
    (hstages : ∀ stage ∈ stages, stage.action ≠ .operate)
    (hdead : (Recipe.mk instruction (stages ++
      if isTest then [.perform (.fetch ++ .idle 4)] else [.bus .fetch, .perform .flexible])).Dead) :
    (Recipe.mk instruction (stages ++
      if isTest then [.perform (.fetch ++ .idle 4)]
      else [.bus .fetch, .perform .flexible])).Tidy := by
  cases isTest with
  | true => exact hdead.tidy (htest rfl)
  | false =>
    refine ⟨hdead, fun stage hstage haction _ => ?_⟩
    simp only [Bool.false_eq_true, if_false, List.mem_append, List.mem_cons, List.not_mem_nil,
      or_false] at hstage
    rcases hstage with hprepare | rfl | rfl
    · exact absurd haction (hstages stage hprepare)
    · cases haction
    · exact ⟨_, List.mem_cons_self, rfl⟩

theorem tidy_bit {static : Bool} {kind : BitKind} (h : bit static kind opcode = some recipe) :
    recipe.Tidy := by
  obtain ⟨mode, -, ⟨rfl, rfl⟩ | ⟨hmemory, rfl⟩⟩ := bit_cases h
  · refine tidy_bitInDataRegister ?_ ?_ ?_
    · intro htest
      obtain rfl : kind = .test := by simpa using htest
      cases static <;> rfl
    · intro stage hstage
      cases static with
      | false => cases hstage
      | true =>
        rw [List.mem_singleton.1 hstage]
        decide
    · cases static with
      | false => cases kind <;> exact rfl
      | true =>
        rw [if_pos rfl]
        cases kind <;> exact dead_immediate (.allOnes 32) rfl
  · cases static with
    | false => cases kind <;> exact tidy_modify rfl rfl hmemory rfl rfl fun _ => rfl
    | true =>
      rw [if_pos rfl]
      cases kind <;> exact tidy_modifyImmediate rfl rfl hmemory rfl rfl

theorem tidy_shiftRegister {kind : ShiftKind} (h : shiftRegister kind opcode = some recipe) :
    recipe.Tidy := by
  simp only [shiftRegister, Option.bind_eq_bind, Option.bind_eq_some_iff] at h
  obtain ⟨size, -, h⟩ := h
  cases h
  refine ⟨?_, fun stage hstage haction _ => ?_⟩
  · split <;> exact rfl
  · simp only [List.mem_cons, List.not_mem_nil, or_false] at hstage
    rcases hstage with rfl | rfl
    · cases haction
    · exact ⟨_, List.mem_cons_self, rfl⟩

theorem tidy_shiftMemory {kind : ShiftKind} (h : shiftMemory kind opcode = some recipe) :
    recipe.Tidy := by
  obtain ⟨mode, -, hmemory, rfl⟩ := shiftMemory_cases h
  exact tidy_modify rfl rfl hmemory rfl rfl fun _ => rfl

/-! ## Single operands -/

theorem tidy_singleOperand
    (hoperation : operation = .clr ∨ operation = .neg ∨ operation = .negx ∨ operation = .not)
    (h : singleOperand operation opcode = some recipe) : recipe.Tidy := by
  obtain ⟨size, mode, -, hplace⟩ := singleOperand_cases h
  have htail := liveBefore_longDelay .nothing size
  rcases hoperation with rfl | rfl | rfl | rfl <;>
    exact tidy_inPlace hplace (Recipe.Dead.tidy (liveBefore_perform htail) rfl) rfl rfl
      fun _ => rfl

theorem tidy_test (h : test opcode = some recipe) : recipe.Tidy := by
  obtain ⟨size, mode, -, hplace⟩ := test_cases h
  exact tidy_inPlace hplace (Recipe.Dead.tidy rfl rfl) rfl rfl fun _ => rfl

theorem tidy_testAndSet (h : Encoding.testAndSet opcode = some recipe) : recipe.Tidy := by
  obtain ⟨mode, -, hplace⟩ := testAndSet_cases h
  exact tidy_inPlace hplace (Recipe.Dead.tidy rfl rfl) rfl rfl fun _ => rfl

theorem tidy_moveFromStatus (h : moveFromStatus opcode = some recipe) : recipe.Tidy := by
  obtain ⟨mode, -, hplace⟩ := moveFromStatus_cases h
  exact tidy_inPlace hplace (Recipe.Dead.tidy rfl rfl) rfl rfl fun _ => rfl

theorem tidy_moveToStatus (hoperation : operation = .moveToCcr ∨ operation = .moveToSr)
    (h : moveToStatus operation opcode = some recipe) : recipe.Tidy := by
  obtain ⟨mode, -, rfl⟩ := moveToStatus_cases h
  rw [List.append_assoc]
  refine Recipe.Dead.tidy (dead_source ?_) ?_
  · rw [Stage.liveBefore_append, before_stepPast]
    rcases hoperation with rfl | rfl <;> rfl
  · rcases hoperation with rfl | rfl <;> rfl

theorem tidy_moveUserStack (h : moveUserStack opcode = some recipe) : recipe.Tidy := by
  cases h
  refine Recipe.Dead.tidy ?_ ?_
  · split <;> exact rfl
  · dsimp only []
    split <;> rfl

theorem tidy_noOperation (h : noOperation opcode = some recipe) : recipe.Tidy := by
  cases h
  exact Recipe.Dead.tidy rfl rfl

theorem tidy_resetDevices (h : resetDevices opcode = some recipe) : recipe.Tidy := by
  cases h
  exact Recipe.Dead.tidy rfl rfl

theorem tidy_loadAddress (h : loadAddress opcode = some recipe) : recipe.Tidy := by
  simp only [loadAddress, Option.bind_eq_bind, Option.bind_eq_some_iff] at h
  obtain ⟨mode, -, h⟩ := h
  split at h <;> cases h <;> exact Recipe.Dead.tidy rfl rfl

/-! ## Moves -/

theorem tidy_moveQuick (h : moveQuick opcode = some recipe) : recipe.Tidy := by
  cases h
  exact Recipe.Dead.tidy rfl rfl

/-- What is moved into memory is written as far as its size goes. -/
theorem liveBefore_storeMoved {mode : AddressMode} (hmemory : mode.isMemory)
    (register : RegisterNumber) (size : Size) (increment : Target) :
    Stage.liveBefore instruction (storeMoved mode register size increment) =
      Live.nothing.useData .destination size.mask := by
  cases mode with
  | dataRegister | addressRegister | immediate => cases hmemory
  | _ => cases size <;> cbv

/-- A move into memory fills what is then written, from its source. -/
theorem beforeOperate_move {size : Size} (hoperation : instruction.operation = .move)
    (hsize : instruction.size = size) (hdestination : instruction.destination = .destinationLatch) :
    (Live.nothing.useData .destination size.mask).beforeOperate instruction =
      Live.nothing.use instruction.source size.mask := by
  have hfilled : (Live.nothing.useData .destination size.mask).fill .destinationLatch = .nothing :=
    Live.fillData_useData_nothing _ (by simp)
  have hwanted :
      (Live.nothing.useData .destination size.mask).wantedBy instruction = size.mask := by
    rw [Live.wantedBy, hoperation, hsize, hdestination]
    cases size <;> rfl
  rw [Live.beforeOperate_of_plain _ (by rw [hoperation]; rfl), Live.beforeCompute, hwanted,
    Live.filledBy, hoperation, hsize, hdestination]
  simp only [Operation.stores, Option.isSome_some, if_true, hfilled, Operation.usesSource,
    Operation.usesDestination, Live.use, Live.useData_zero]

/-- A move brings its source in, and then stores it. -/
theorem dead_moveStages {sourceMode destinationMode : AddressMode}
    {source destination : RegisterNumber} {size : Size}
    (hsource : instruction.source = .ofMode sourceMode source .sourceLatch)
    (hsize : instruction.size = size)
    (hregister : destinationMode.isRegister →
      Live.nothing.beforeOperate instruction = Live.nothing.use instruction.source size.mask)
    (hmemory : destinationMode.isRegister = false →
      destinationMode.isMemory ∧ instruction.operation = .move ∧
        instruction.destination = .destinationLatch) :
    (Recipe.mk instruction
      (moveStages sourceMode source destinationMode destination size)).Dead := by
  have hstep (coalesced : Bool) (live : Live) :
      (if coalesced then [] else stepPast sourceMode source size .src).foldr
        (Stage.before instruction) live = live := by
    split
    · rfl
    · exact before_stepPast live instruction sourceMode source size .src
  rw [moveStages, List.append_assoc]
  refine dead_source ?_
  rw [Stage.liveBefore_append, hstep, ← hsource]
  split
  · rename_i hmode
    exact (liveBefore_perform rfl).trans (hregister hmode)
  · rename_i hmode
    obtain ⟨hmemory, hoperation, hdestination⟩ := hmemory (by simpa using hmode)
    rw [Stage.liveBefore_cons, Stage.before_operate, liveBefore_storeMoved hmemory,
      beforeOperate_move hoperation hsize hdestination]

theorem tidy_move (h : move opcode = some recipe) : recipe.Tidy := by
  obtain ⟨source, destination, -, -, hwritten, rfl⟩ := move_cases h
  generalize moveSize opcode = size
  cases destination with
  | immediate => rcases hwritten with hregister | hmemory <;> contradiction
  | dataRegister =>
    refine Recipe.Dead.tidy (dead_moveStages rfl rfl ?_ nofun) rfl
    exact fun _ => congrArg (Live.nothing.use _) BitVec.or_zero
  | addressRegister =>
    exact Recipe.Dead.tidy (dead_moveStages rfl rfl (fun _ => rfl) nofun) rfl
  | _ => exact Recipe.Dead.tidy (dead_moveStages rfl rfl nofun fun _ => ⟨rfl, rfl, rfl⟩) rfl

/-- The list is brought in first, and the transfer is settled from it and the address. -/
theorem tidy_moveRegisters {direction : ListDirection}
    (h : moveRegisters direction opcode = some recipe) : recipe.Tidy := by
  obtain ⟨mode, -, hmemory, rfl⟩ := moveRegisters_cases h
  generalize lowerRegister opcode = register
  generalize (if opcode.getLsbD 6 then .long else .word : Size) = size
  refine Recipe.Dead.tidy ?_ rfl
  cases mode with
  | dataRegister | addressRegister | immediate => cases hmemory
  | _ => cbv

/-! ## Program control -/

theorem tidy_branch (h : branch opcode = some recipe) : recipe.Tidy := by
  unfold branch at h
  dsimp only [] at h
  split at h <;> cases h <;> exact Recipe.Dead.tidy (by cbv) rfl

theorem tidy_trap (h : trap opcode = some recipe) : recipe.Tidy := by
  cases h
  exact Recipe.Dead.tidy rfl rfl

theorem tidy_setOrLoop (h : setOrLoop opcode = some recipe) : recipe.Tidy := by
  obtain ⟨mode, -, rfl | hplace⟩ := setOrLoop_cases h
  · exact Recipe.Dead.tidy rfl rfl
  · refine tidy_inPlace hplace ⟨rfl, fun stage hstage _ _ => ?_⟩ rfl rfl fun _ => rfl
    rw [List.mem_singleton.1 hstage]
    exact ⟨_, List.mem_append_right _ List.mem_cons_self, rfl⟩

theorem tidy_jump (h : jump opcode = some recipe) : recipe.Tidy := by
  simp only [jump, Option.bind_eq_bind, Option.bind_eq_some_iff] at h
  obtain ⟨mode, -, h⟩ := h
  split at h <;> cases h <;> exact Recipe.Dead.tidy rfl rfl

/-- The target is resolved before the return address is pushed. -/
theorem tidy_jumpToSubroutine (h : jumpToSubroutine opcode = some recipe) : recipe.Tidy := by
  simp only [jumpToSubroutine, Option.bind_eq_bind, Option.bind_eq_some_iff] at h
  obtain ⟨mode, -, resolved, hresolved, h⟩ := h
  cases h
  split at hresolved <;> cases hresolved <;> exact Recipe.Dead.tidy (by cbv) rfl

theorem tidy_returnFromSubroutine (h : returnFromSubroutine opcode = some recipe) :
    recipe.Tidy := by
  cases h
  exact Recipe.Dead.tidy (by cbv) rfl

theorem tidy_returnFromException (hoperation : operation = .rte ∨ operation = .rtr)
    (h : returnFromException operation opcode = some recipe) : recipe.Tidy := by
  cases h
  rcases hoperation with rfl | rfl <;> exact Recipe.Dead.tidy (by cbv) rfl

theorem tidy_immediateToCcr {kind : BitwiseKind} (h : immediateToCcr kind opcode = some recipe) :
    recipe.Tidy := by
  cases h
  exact Recipe.Dead.tidy rfl rfl

theorem tidy_immediateToSr {kind : BitwiseKind} (h : immediateToSr kind opcode = some recipe) :
    recipe.Tidy := by
  cases h
  exact Recipe.Dead.tidy rfl rfl

end Encoding

/-! ## All forms -/

open Encoding in
/-- Every form gives tidy recipes. -/
theorem tidy_forms : ∀ form ∈ forms, ∀ opcode recipe, form.encoding opcode = some recipe →
    recipe.Tidy := by
  simp only [forms, List.forall_mem_cons, List.not_mem_nil, false_implies, implies_true, and_true]
  exact ⟨fun _ _ => tidy_packedDecimal (by simp),
    fun _ _ => tidy_packedDecimal (by simp),
    fun _ _ => tidy_logical,
    fun _ _ => tidy_logical,
    fun _ _ => tidy_logical,
    fun _ _ => tidy_immediate (by simp),
    fun _ _ => tidy_immediate (by simp),
    fun _ _ => tidy_immediate (by simp),
    fun _ _ => tidy_immediate (by simp),
    fun _ _ => tidy_immediate (by simp),
    fun _ _ => tidy_compareImmediate,
    fun _ _ => tidy_immediateToSr,
    fun _ _ => tidy_immediateToCcr,
    fun _ _ => tidy_immediateToSr,
    fun _ _ => tidy_immediateToCcr,
    fun _ _ => tidy_immediateToSr,
    fun _ _ => tidy_immediateToCcr,
    fun _ _ => tidy_move,
    fun _ _ => tidy_move,
    fun _ _ => tidy_move,
    fun _ _ => tidy_moveToStatus (by simp),
    fun _ _ => tidy_moveToStatus (by simp),
    fun _ _ => tidy_moveFromStatus,
    fun _ _ => tidy_moveQuick,
    fun _ _ => tidy_moveUserStack,
    fun _ _ => tidy_moveRegisters,
    fun _ _ => tidy_moveRegisters,
    fun _ _ => tidy_compareRegister,
    fun _ _ => tidy_compareAddress,
    fun _ _ => tidy_compareMemory,
    fun _ _ => tidy_branch,
    fun _ _ => tidy_setOrLoop,
    fun _ _ => tidy_jump,
    fun _ _ => tidy_jumpToSubroutine,
    fun _ _ => tidy_returnFromSubroutine,
    fun _ _ => tidy_returnFromException (by simp),
    fun _ _ => tidy_returnFromException (by simp),
    fun _ _ => tidy_trap,
    fun _ _ => tidy_noOperation,
    fun _ _ => tidy_resetDevices,
    fun _ _ => tidy_loadAddress,
    fun _ _ => tidy_addSub (by simp),
    fun _ _ => tidy_addSub (by simp),
    fun _ _ => tidy_addressAddSub (by simp),
    fun _ _ => tidy_addressAddSub (by simp),
    fun _ _ => tidy_quickAddSub (by simp),
    fun _ _ => tidy_quickAddSub (by simp),
    fun _ _ => tidy_bit, fun _ _ => tidy_bit, fun _ _ => tidy_bit, fun _ _ => tidy_bit,
    fun _ _ => tidy_bit, fun _ _ => tidy_bit, fun _ _ => tidy_bit, fun _ _ => tidy_bit,
    fun _ _ => tidy_singleOperand (by simp),
    fun _ _ => tidy_singleOperand (by simp),
    fun _ _ => tidy_singleOperand (by simp),
    fun _ _ => tidy_singleOperand (by simp),
    fun _ _ => tidy_test,
    fun _ _ => tidy_testAndSet,
    fun _ _ => tidy_shiftRegister, fun _ _ => tidy_shiftRegister,
    fun _ _ => tidy_shiftRegister, fun _ _ => tidy_shiftRegister,
    fun _ _ => tidy_shiftRegister, fun _ _ => tidy_shiftRegister,
    fun _ _ => tidy_shiftRegister, fun _ _ => tidy_shiftRegister,
    fun _ _ => tidy_shiftMemory, fun _ _ => tidy_shiftMemory,
    fun _ _ => tidy_shiftMemory, fun _ _ => tidy_shiftMemory,
    fun _ _ => tidy_shiftMemory, fun _ _ => tidy_shiftMemory,
    fun _ _ => tidy_shiftMemory, fun _ _ => tidy_shiftMemory,
    fun _ _ => tidy_multiply (by simp),
    fun _ _ => tidy_multiply (by simp),
    fun _ _ => tidy_exchange,
    fun _ _ => tidy_exchange,
    fun _ _ => tidy_exchange,
    fun _ _ => tidy_swapHalves,
    fun _ _ => tidy_extendSign⟩

/-- **Every recipe is tidy.** -/
theorem tidy_of_decode? {opcode : Word} {recipe : Recipe}
    (h : decode? forms opcode = some recipe) : recipe.Tidy := by
  obtain ⟨form, hmem, -, hencoding⟩ := exists_form h
  exact tidy_forms form hmem opcode recipe hencoding

end M68k
