import M68k.Proofs.Encoding.Cases
import M68k.Proofs.Modify.Reference

/-!
# Encodings of operations on memory

The encodings that can name an operand in memory to be worked on in place differ in where their
source comes from. All of them first take the source from the program, if it is there, and then
read, operate and finish in the same stages.

## Main definitions

* `Encoding.modifying`: the encodings
* `Recipe.Modifies`: what they have in common when the operand is in memory

## Main results

* `Encoding.modifies_of_mem`: the recipes of these encodings
-/

namespace M68k

/-- What follows the read of an operand in memory. -/
def Operation.writeback : Operation → Encoding.Writeback
  | tas => .testAndSet
  | operation => if operation.looks then .discard else .store

namespace Operation

variable {operation : Operation}

theorem writeback_of_looks (h : operation.looks) : operation.writeback = .discard := by
  unfold writeback
  split
  · cases h
  · rw [if_pos h]

theorem writeback_of_not_looks (h : operation.looks = false) :
    operation.writeback ≠ .discard ∧
      (operation.writeback = .testAndSet → operation = .tas) := by
  unfold writeback
  split
  · exact ⟨nofun, fun _ => rfl⟩
  · rw [h]
    exact ⟨nofun, nofun⟩

end Operation

/-- The stages that take the source of an operation from the program, if it is there. -/
def Instruction.lead (instruction : Instruction) : List Stage :=
  match instruction.source with
  | .sourceLatch => Encoding.fetchImmediate instruction.size
  | _ => []

/-- A source that is a data register, a number in the opcode, or comes from the program. -/
def Operand.isModifier : Operand → Bool
  | dataRegister _ | quick | sourceLatch | none => true
  | _ => false

/-- An operation on memory in a given mode. -/
structure Recipe.Modifies (recipe : Recipe) (opcode : Word) (mode : AddressMode) : Prop where
  isMemory : mode.isMemory
  modifies : recipe.instruction.operation.modifies
  byte : recipe.instruction.operation = .tas → recipe.instruction.size = .byte
  source : recipe.instruction.source.isModifier
  destination : recipe.instruction.destination = .destinationLatch
  register : recipe.instruction.destinationRegister = Encoding.lowerRegister opcode
  unprivileged : recipe.instruction.requiresSupervisor = false
  stages : recipe.stages =
    recipe.instruction.lead ++
      Encoding.readModifyWrite mode (Encoding.lowerRegister opcode) recipe.instruction.size
        recipe.instruction.operation.writeback

namespace Encoding

/-- The encodings of operations that can work on memory in place. -/
def modifying : List (Word → Option Recipe) :=
  [addSub .add, addSub .sub, logical .and, logical .or, logical .eor,
    immediate .add, immediate .sub, immediate (.bitwise .and), immediate (.bitwise .or),
    immediate (.bitwise .eor), compareImmediate, quickAddSub .add, quickAddSub .sub,
    singleOperand .clr, singleOperand .neg, singleOperand .negx, singleOperand .not,
    test, testAndSet, setOrLoop,
    bitInRegister .test, bitInRegister .change, bitInRegister .clear, bitInRegister .set,
    bitInWord .test, bitInWord .change, bitInWord .clear, bitInWord .set,
    shiftMemory .asl, shiftMemory .asr, shiftMemory .lsl, shiftMemory .lsr,
    shiftMemory .rol, shiftMemory .ror, shiftMemory .roxl, shiftMemory .roxr,
    moveFromStatus]

variable {opcode : Word} {recipe : Recipe} {mode : AddressMode} {operation : Operation}

theorem ne_tas_of_store (h : operation.writeback = .store) : operation ≠ .tas := by
  rintro rfl
  cases h

/-- An instruction that names its operand in memory by the effective-address field. -/
theorem modifies_withDestination (bare : Instruction) (hmode : mode.isMemory)
    (hmodifies : bare.operation.modifies) (hbyte : bare.operation = .tas → bare.size = .byte)
    (hsource : bare.source.isModifier) (hunprivileged : bare.requiresSupervisor = false)
    {stages : List Stage} (hstages : stages =
      bare.lead ++ readModifyWrite mode (lowerRegister opcode) bare.size bare.operation.writeback) :
    Recipe.Modifies ⟨bare.withDestination mode (lowerRegister opcode), stages⟩ opcode mode where
  isMemory := hmode
  modifies := hmodifies
  byte := hbyte
  source := hsource
  destination := Snapshot.ofMode_of_isMemory hmode _ _
  register := rfl
  unprivileged := hunprivileged
  stages := hstages

/-- What is changed in place is in memory if it is in the destination latch. -/
theorem modifies_inPlace {lead : List Stage} {instruction : Instruction} {tail : Activity}
    (h : InPlace opcode lead instruction tail instruction.operation.writeback mode recipe)
    (hmemory : recipe.instruction.destination = .destinationLatch)
    (hmodifies : instruction.operation.modifies)
    (hbyte : instruction.operation = .tas → instruction.size = .byte)
    (hsource : instruction.source.isModifier)
    (hunprivileged : instruction.requiresSupervisor = false) (hlead : lead = instruction.lead) :
    recipe.Modifies opcode mode := by
  cases h with
  | register => cases hmemory
  | memory hmode =>
    exact modifies_withDestination instruction hmode hmodifies hbyte hsource hunprivileged
      (by rw [hlead])

theorem modifies_addSub (hmodifies : operation.modifies) (hstore : operation.writeback = .store)
    (h : addSub operation opcode = some recipe)
    (hmemory : recipe.instruction.destination = .destinationLatch) :
    ∃ mode, AddressMode.ofField? opcode = some mode ∧ recipe.Modifies opcode mode := by
  obtain ⟨size, mode, -, hmode, ⟨hmode', rfl⟩ | rfl⟩ := addSub_cases h
  · refine ⟨mode, hmode, modifies_withDestination
      ((Instruction.bare operation size).withSource .dataRegister (upperRegister opcode)) hmode'
      hmodifies (fun htas => absurd htas (ne_tas_of_store hstore)) rfl rfl ?_⟩
    exact congrArg (readModifyWrite mode _ size) hstore.symm
  · cases hmemory

theorem modifies_logical {kind : BitwiseKind} (h : logical kind opcode = some recipe)
    (hmemory : recipe.instruction.destination = .destinationLatch) :
    ∃ mode, AddressMode.ofField? opcode = some mode ∧ recipe.Modifies opcode mode := by
  obtain ⟨size, mode, -, hmode, hplace | rfl⟩ := logical_cases h
  · exact ⟨mode, hmode, modifies_inPlace hplace hmemory rfl (fun h => by cases h) rfl rfl rfl⟩
  · cases hmemory

theorem modifies_immediate (hmodifies : operation.modifies)
    (hstore : operation.writeback = .store) (h : immediate operation opcode = some recipe)
    (hmemory : recipe.instruction.destination = .destinationLatch) :
    ∃ mode, AddressMode.ofField? opcode = some mode ∧ recipe.Modifies opcode mode := by
  obtain ⟨size, mode, -, hmode, hplace⟩ := immediate_cases h
  rw [← hstore] at hplace
  exact ⟨mode, hmode, modifies_inPlace hplace hmemory hmodifies
    (fun htas => absurd htas (ne_tas_of_store hstore)) rfl rfl rfl⟩

theorem modifies_compareImmediate (h : compareImmediate opcode = some recipe)
    (hmemory : recipe.instruction.destination = .destinationLatch) :
    ∃ mode, AddressMode.ofField? opcode = some mode ∧ recipe.Modifies opcode mode := by
  obtain ⟨size, mode, -, hmode, hplace⟩ := compareImmediate_cases h
  exact ⟨mode, hmode, modifies_inPlace hplace hmemory rfl (fun h => by cases h) rfl rfl rfl⟩

theorem modifies_quickAddSub (hmodifies : operation.modifies)
    (hstore : operation.writeback = .store) (h : quickAddSub operation opcode = some recipe)
    (hmemory : recipe.instruction.destination = .destinationLatch) :
    ∃ mode, AddressMode.ofField? opcode = some mode ∧ recipe.Modifies opcode mode := by
  obtain ⟨size, mode, -, hmode, ⟨-, rfl⟩ | hplace⟩ := quickAddSub_cases h
  · cases hmemory
  · rw [← hstore] at hplace
    exact ⟨mode, hmode, modifies_inPlace hplace hmemory hmodifies
      (fun htas => absurd htas (ne_tas_of_store hstore)) rfl rfl rfl⟩

theorem modifies_singleOperand (hmodifies : operation.modifies)
    (hstore : operation.writeback = .store) (h : singleOperand operation opcode = some recipe)
    (hmemory : recipe.instruction.destination = .destinationLatch) :
    ∃ mode, AddressMode.ofField? opcode = some mode ∧ recipe.Modifies opcode mode := by
  obtain ⟨size, mode, hmode, hplace⟩ := singleOperand_cases h
  rw [← hstore] at hplace
  exact ⟨mode, hmode, modifies_inPlace hplace hmemory hmodifies
    (fun htas => absurd htas (ne_tas_of_store hstore)) rfl rfl rfl⟩

theorem modifies_test (h : test opcode = some recipe)
    (hmemory : recipe.instruction.destination = .destinationLatch) :
    ∃ mode, AddressMode.ofField? opcode = some mode ∧ recipe.Modifies opcode mode := by
  obtain ⟨size, mode, hmode, hplace⟩ := test_cases h
  exact ⟨mode, hmode, modifies_inPlace hplace hmemory rfl (fun h => by cases h) rfl rfl rfl⟩

theorem modifies_testAndSet (h : testAndSet opcode = some recipe)
    (hmemory : recipe.instruction.destination = .destinationLatch) :
    ∃ mode, AddressMode.ofField? opcode = some mode ∧ recipe.Modifies opcode mode := by
  obtain ⟨mode, hmode, hplace⟩ := testAndSet_cases h
  exact ⟨mode, hmode, modifies_inPlace hplace hmemory rfl (fun _ => rfl) rfl rfl rfl⟩

theorem modifies_setOrLoop (h : setOrLoop opcode = some recipe)
    (hmemory : recipe.instruction.destination = .destinationLatch) :
    ∃ mode, AddressMode.ofField? opcode = some mode ∧ recipe.Modifies opcode mode := by
  obtain ⟨mode, hmode, rfl | hplace⟩ := setOrLoop_cases h
  · cases hmemory
  · exact ⟨mode, hmode, modifies_inPlace hplace hmemory rfl (fun h => by cases h) rfl rfl rfl⟩

theorem modifies_shiftMemory {kind : ShiftKind} (h : shiftMemory kind opcode = some recipe) :
    ∃ mode, AddressMode.ofField? opcode = some mode ∧ recipe.Modifies opcode mode := by
  obtain ⟨mode, hmode, hmemory, rfl⟩ := shiftMemory_cases h
  exact ⟨mode, hmode, modifies_withDestination (.bare (.shift kind) .word) hmemory rfl
    (fun h => by cases h) rfl rfl rfl⟩

theorem modifies_moveFromStatus (h : moveFromStatus opcode = some recipe)
    (hmemory : recipe.instruction.destination = .destinationLatch) :
    ∃ mode, AddressMode.ofField? opcode = some mode ∧ recipe.Modifies opcode mode := by
  obtain ⟨mode, hmode, hplace⟩ := moveFromStatus_cases h
  exact ⟨mode, hmode, modifies_inPlace hplace hmemory rfl (fun h => by cases h) rfl rfl rfl⟩

theorem modifies_bit {static : Bool} {kind : BitKind} (h : bit static kind opcode = some recipe)
    (hmemory : recipe.instruction.destination = .destinationLatch) :
    ∃ mode, AddressMode.ofField? opcode = some mode ∧ recipe.Modifies opcode mode := by
  obtain ⟨mode, hmode, ⟨-, rfl⟩ | ⟨hmode', rfl⟩⟩ := bit_cases h
  · cases hmemory
  · refine ⟨mode, hmode, ?_⟩
    cases static with
    | true =>
      refine modifies_withDestination (numbered true kind .byte opcode) hmode' rfl
        (fun h => by cases h) rfl rfl ?_
      cases kind <;> rfl
    | false =>
      refine modifies_withDestination (numbered false kind .byte opcode) hmode' rfl
        (fun h => by cases h) rfl rfl ?_
      cases kind <;> rfl

/-- **The recipes of these encodings**, when the operand is in memory, take their source from the
program and then work on the operand in place. -/
theorem modifies_of_mem {encoding : Word → Option Recipe} (hencoding : encoding ∈ modifying)
    (h : encoding opcode = some recipe)
    (hmemory : recipe.instruction.destination = .destinationLatch) :
    ∃ mode, AddressMode.ofField? opcode = some mode ∧ recipe.Modifies opcode mode := by
  simp only [modifying, List.mem_cons, List.not_mem_nil, or_false] at hencoding
  rcases hencoding with
    rfl | rfl | rfl | rfl | rfl | rfl | rfl | rfl | rfl | rfl | rfl | rfl | rfl | rfl | rfl | rfl |
    rfl | rfl | rfl | rfl | rfl | rfl | rfl | rfl | rfl | rfl | rfl | rfl | rfl | rfl | rfl | rfl |
    rfl | rfl | rfl | rfl | rfl
  iterate 2 exact modifies_addSub rfl rfl h hmemory
  iterate 3 exact modifies_logical h hmemory
  iterate 5 exact modifies_immediate rfl rfl h hmemory
  · exact modifies_compareImmediate h hmemory
  iterate 2 exact modifies_quickAddSub rfl rfl h hmemory
  iterate 4 exact modifies_singleOperand rfl rfl h hmemory
  · exact modifies_test h hmemory
  · exact modifies_testAndSet h hmemory
  · exact modifies_setOrLoop h hmemory
  iterate 8 exact modifies_bit h hmemory
  iterate 8 exact modifies_shiftMemory h
  · exact modifies_moveFromStatus h hmemory

end Encoding

end M68k
