import M68k.Proofs.Encoding.Operands

/-!
# What the encodings give

An encoding refuses some opcodes, and has one of a few recipes for each of the others. These are
told apart here, once and for all, so that a property of recipes is proved recipe by recipe and does
not go through the encodings again.

## Main definitions

* `InPlace`: recipes that change their operand in a data register or in memory
* `numbered`: the instructions that work on a bit

## Main results

* `exists_form`: every recipe comes from a form
* `addSub_cases` and its neighbours: the recipes of one encoding
-/

namespace M68k

/-- Every recipe comes from a form. -/
theorem exists_form {opcode : Word} {recipe : Recipe} (h : decode? forms opcode = some recipe) :
    ∃ form ∈ forms, opcode &&& form.mask = form.value ∧ form.encoding opcode = some recipe := by
  obtain ⟨form, hmem, hform⟩ := List.exists_of_findSome?_eq_some h
  unfold Form.decode? at hform
  split at hform
  · exact ⟨form, hmem, ‹_›, hform⟩
  · cases hform

namespace Encoding

open Stage Activity Instruction

variable {opcode : Word} {recipe : Recipe} {operation : Operation}

/-! ## Operands that are changed in place -/

/-- The recipe changes the operand that the lower fields name: in a data register, where `tail` is
all there is to do, or in memory. Either way `lead` comes first. -/
inductive InPlace (opcode : Word) (lead : List Stage) (instruction : Instruction) (tail : Activity)
    (writeback : Writeback) : AddressMode → Recipe → Prop
  | register : InPlace opcode lead instruction tail writeback .dataRegister
      ⟨instruction.withDestination .dataRegister (lowerRegister opcode), lead ++ [.perform tail]⟩
  | memory {mode : AddressMode} (hmemory : mode.isMemory) :
    InPlace opcode lead instruction tail writeback mode
      ⟨instruction.withDestination mode (lowerRegister opcode),
        lead ++ readModifyWrite mode (lowerRegister opcode) instruction.size writeback⟩

/-- Many encodings choose between a data register and memory. -/
theorem InPlace.of_choice {lead : List Stage} {instruction : Instruction} {tail : Activity}
    {writeback : Writeback} {mode : AddressMode}
    (h : (if mode == .dataRegister then
        some (Recipe.mk (instruction.withDestination mode (lowerRegister opcode))
          (lead ++ [.perform tail]))
      else if mode.isMemoryAlterable then
        some ⟨instruction.withDestination mode (lowerRegister opcode),
          lead ++ readModifyWrite mode (lowerRegister opcode) instruction.size writeback⟩
      else none) = some recipe) :
    InPlace opcode lead instruction tail writeback mode recipe := by
  split at h
  · rename_i hregister
    obtain rfl : mode = .dataRegister := by simpa using hregister
    cases h
    exact .register
  · split at h
    · rename_i halterable
      cases h
      exact .memory (AddressMode.isMemory_of_alterable halterable)
    · cases h

theorem singleOperand_cases (h : singleOperand operation opcode = some recipe) :
    ∃ size mode, AddressMode.ofField? opcode = some mode ∧
      InPlace opcode [] (.bare operation size) (longDelay size) .store mode recipe := by
  simp only [singleOperand, Option.bind_eq_bind, Option.bind_eq_some_iff] at h
  obtain ⟨size, -, mode, hmode, h⟩ := h
  exact ⟨size, mode, hmode, .of_choice h⟩

theorem test_cases (h : test opcode = some recipe) :
    ∃ size mode, AddressMode.ofField? opcode = some mode ∧
      InPlace opcode [] (.bare .tst size) .fetch .discard mode recipe := by
  simp only [test, Option.bind_eq_bind, Option.bind_eq_some_iff] at h
  obtain ⟨size, -, mode, hmode, h⟩ := h
  exact ⟨size, mode, hmode, .of_choice h⟩

theorem testAndSet_cases (h : Encoding.testAndSet opcode = some recipe) :
    ∃ mode, AddressMode.ofField? opcode = some mode ∧
      InPlace opcode [] (.bare .tas .byte) .fetch .testAndSet mode recipe := by
  simp only [Encoding.testAndSet, Option.bind_eq_bind, Option.bind_eq_some_iff] at h
  obtain ⟨mode, hmode, h⟩ := h
  exact ⟨mode, hmode, .of_choice h⟩

theorem moveFromStatus_cases (h : moveFromStatus opcode = some recipe) :
    ∃ mode, AddressMode.ofField? opcode = some mode ∧
      InPlace opcode [] (.bare .moveFromSr .word) (.fetch ++ .idle 4) .store mode recipe := by
  simp only [moveFromStatus, Option.bind_eq_bind, Option.bind_eq_some_iff] at h
  obtain ⟨mode, hmode, h⟩ := h
  exact ⟨mode, hmode, .of_choice h⟩

theorem immediate_cases (h : Encoding.immediate operation opcode = some recipe) :
    ∃ size mode, sizeField? opcode = some size ∧ AddressMode.ofField? opcode = some mode ∧
      InPlace opcode (fetchImmediate size)
        { Instruction.bare operation size with source := .sourceLatch }
        (if operation == .bitwise .and && size == .long then .fetch ++ .idle 4
          else registerTail .immediate size) .store mode recipe := by
  simp only [Encoding.immediate, Option.bind_eq_bind, Option.bind_eq_some_iff] at h
  obtain ⟨size, hsize, mode, hmode, h⟩ := h
  exact ⟨size, mode, hsize, hmode, .of_choice h⟩

theorem compareImmediate_cases (h : compareImmediate opcode = some recipe) :
    ∃ size mode, sizeField? opcode = some size ∧ AddressMode.ofField? opcode = some mode ∧
      InPlace opcode (fetchImmediate size)
        { Instruction.bare .cmp size with source := .sourceLatch } (longDelay size) .discard
        mode recipe := by
  simp only [compareImmediate, Option.bind_eq_bind, Option.bind_eq_some_iff] at h
  obtain ⟨size, hsize, mode, hmode, h⟩ := h
  exact ⟨size, mode, hsize, hmode, .of_choice h⟩

/-- In mode 1 there is a loop instead. -/
theorem setOrLoop_cases (h : setOrLoop opcode = some recipe) :
    ∃ mode, AddressMode.ofField? opcode = some mode ∧
      (recipe =
          ⟨(Instruction.bare .dbcc .word).withDestination .dataRegister (lowerRegister opcode),
            [.act .operate .nowhere]⟩ ∨
        InPlace opcode [] (.bare .scc .byte) (.fetch ++ .flexible) .store mode recipe) := by
  simp only [setOrLoop, Option.bind_eq_bind, Option.bind_eq_some_iff] at h
  obtain ⟨mode, hmode, h⟩ := h
  refine ⟨mode, hmode, ?_⟩
  split at h
  · exact .inl (Option.some.inj h).symm
  · exact .inr (.of_choice h)

/-- An address register is changed as a whole. -/
theorem quickAddSub_cases (h : quickAddSub operation opcode = some recipe) :
    ∃ size mode, sizeField? opcode = some size ∧ AddressMode.ofField? opcode = some mode ∧
      (mode = .addressRegister ∧
          recipe =
            ⟨({ Instruction.bare (if operation == .add then .adda else .suba) .long with
                source := .quick } : Instruction).withDestination .addressRegister
                (lowerRegister opcode),
              [.perform (.fetch ++ .idle 8)]⟩ ∨
        InPlace opcode [] { Instruction.bare operation size with source := .quick }
          (registerTail .dataRegister size) .store mode recipe) := by
  simp only [quickAddSub, Option.bind_eq_bind, Option.bind_eq_some_iff] at h
  obtain ⟨size, hsize, mode, hmode, h⟩ := h
  refine ⟨size, mode, hsize, hmode, ?_⟩
  split at h
  · cases h
    exact .inr .register
  · split at h
    · cases h
    · exact .inl ⟨rfl, (Option.some.inj h).symm⟩
  · split at h
    · rename_i halterable
      cases h
      exact .inr (.memory (AddressMode.isMemory_of_alterable halterable))
    · cases h

theorem shiftMemory_cases {kind : ShiftKind} (h : shiftMemory kind opcode = some recipe) :
    ∃ mode, AddressMode.ofField? opcode = some mode ∧ mode.isMemory ∧
      recipe = ⟨(Instruction.bare (.shift kind) .word).withDestination mode (lowerRegister opcode),
        readModifyWrite mode (lowerRegister opcode) .word .store⟩ := by
  simp only [shiftMemory, Option.bind_eq_bind, Option.bind_eq_some_iff] at h
  obtain ⟨mode, hmode, h⟩ := h
  split at h
  · exact ⟨mode, hmode, AddressMode.isMemory_of_alterable ‹_›, (Option.some.inj h).symm⟩
  · cases h

/-- An instruction that works on a bit, whose number is in the next word or in a data register. -/
def numbered (static : Bool) (kind : BitKind) (size : Size) (opcode : Word) : Instruction :=
  if static then { Instruction.bare (.bit kind) size with source := .sourceLatch }
  else (Instruction.bare (.bit kind) size).withSource .dataRegister (upperRegister opcode)

/-- The bits of a data register are those of a long word. In memory they are those of a byte. -/
theorem bit_cases {static : Bool} {kind : BitKind} (h : bit static kind opcode = some recipe) :
    ∃ mode, AddressMode.ofField? opcode = some mode ∧
      (mode = .dataRegister ∧
          recipe =
            ⟨(numbered static kind .long opcode).withDestination .dataRegister
                (lowerRegister opcode),
              (if static then fetchImmediate .word else []) ++
                if kind == .test then [.perform (.fetch ++ .idle 4)]
                else [.bus .fetch, .perform .flexible]⟩ ∨
        mode.isMemory ∧
          recipe =
            ⟨(numbered static kind .byte opcode).withDestination mode (lowerRegister opcode),
              (if static then fetchImmediate .word else []) ++
                readModifyWrite mode (lowerRegister opcode) .byte
                  (if kind == .test then .discard else .store)⟩) := by
  simp only [bit, Option.bind_eq_bind, Option.bind_eq_some_iff] at h
  obtain ⟨mode, hmode, h⟩ := h
  refine ⟨mode, hmode, ?_⟩
  split at h
  · cases h
  · rename_i hbits
    by_cases hregister : mode = .dataRegister
    · subst hregister
      exact .inl ⟨rfl, (Option.some.inj h).symm⟩
    · refine .inr ⟨?_, ?_⟩
      · cases mode <;> first
          | rfl
          | exact absurd rfl hregister
          | cases kind <;> exact absurd rfl hbits
      · have hother : (mode == .dataRegister) = false := by simpa using hregister
        simp only [hother, Bool.false_eq_true, if_false] at h
        exact (Option.some.inj h).symm

/-! ## Operands that are brought into a register -/

theorem addSub_cases (h : addSub operation opcode = some recipe) :
    ∃ size mode, sizeField? opcode = some size ∧ AddressMode.ofField? opcode = some mode ∧
      (mode.isMemory ∧
          recipe =
            ⟨((Instruction.bare operation size).withSource .dataRegister
                (upperRegister opcode)).withDestination mode (lowerRegister opcode),
              readModifyWrite mode (lowerRegister opcode) size .store⟩ ∨
        recipe =
          ⟨((Instruction.bare operation size).withSource mode
              (lowerRegister opcode)).withDestination .dataRegister (upperRegister opcode),
            intoRegister mode (lowerRegister opcode) size (registerTail mode size)⟩) := by
  simp only [addSub, Option.bind_eq_bind, Option.bind_eq_some_iff] at h
  obtain ⟨size, hsize, mode, hmode, h⟩ := h
  refine ⟨size, mode, hsize, hmode, ?_⟩
  split at h
  · split at h
    · cases h
    · rename_i halterable
      refine .inl ⟨AddressMode.isMemory_of_alterable ?_, (Option.some.inj h).symm⟩
      simpa using halterable
  · split at h
    · cases h
    · exact .inr (Option.some.inj h).symm

theorem logical_cases {kind : BitwiseKind} (h : logical kind opcode = some recipe) :
    ∃ size mode, sizeField? opcode = some size ∧ AddressMode.ofField? opcode = some mode ∧
      (InPlace opcode []
          ((Instruction.bare (.bitwise kind) size).withSource .dataRegister (upperRegister opcode))
          (registerTail .dataRegister size) .store mode recipe ∨
        recipe =
          ⟨((Instruction.bare (.bitwise kind) size).withSource mode
              (lowerRegister opcode)).withDestination .dataRegister (upperRegister opcode),
            intoRegister mode (lowerRegister opcode) size (registerTail mode size)⟩) := by
  simp only [logical, Option.bind_eq_bind, Option.bind_eq_some_iff] at h
  obtain ⟨size, hsize, mode, hmode, h⟩ := h
  refine ⟨size, mode, hsize, hmode, ?_⟩
  split at h
  · split at h
    · rename_i hregister
      obtain rfl : mode = .dataRegister := by simp_all
      cases h
      exact .inl .register
    · split at h
      · rename_i halterable
        cases h
        exact .inl (.memory (AddressMode.isMemory_of_alterable halterable))
      · cases h
  · split at h
    · cases h
    · exact .inr (Option.some.inj h).symm

theorem compareRegister_cases (h : compareRegister opcode = some recipe) :
    ∃ size mode, sizeField? opcode = some size ∧ AddressMode.ofField? opcode = some mode ∧
      recipe =
        ⟨((Instruction.bare .cmp size).withSource mode
            (lowerRegister opcode)).withDestination .dataRegister (upperRegister opcode),
          intoRegister mode (lowerRegister opcode) size (longDelay size)⟩ := by
  simp only [compareRegister, Option.bind_eq_bind, Option.bind_eq_some_iff] at h
  obtain ⟨size, hsize, mode, hmode, h⟩ := h
  split at h
  · cases h
  · exact ⟨size, mode, hsize, hmode, (Option.some.inj h).symm⟩

theorem multiply_cases (h : multiply operation opcode = some recipe) :
    ∃ mode, AddressMode.ofField? opcode = some mode ∧
      recipe =
        ⟨((Instruction.bare operation .word).withSource mode
            (lowerRegister opcode)).withDestination .dataRegister (upperRegister opcode),
          fetchSource mode (lowerRegister opcode) .word ++ [.bus .fetch, .perform .flexible] ++
            stepPast mode (lowerRegister opcode) .word .src⟩ := by
  simp only [multiply, Option.bind_eq_bind, Option.bind_eq_some_iff] at h
  obtain ⟨mode, hmode, h⟩ := h
  split at h
  · cases h
  · exact ⟨mode, hmode, (Option.some.inj h).symm⟩

theorem moveToStatus_cases (h : moveToStatus operation opcode = some recipe) :
    ∃ mode, AddressMode.ofField? opcode = some mode ∧
      recipe =
        ⟨{ (Instruction.bare operation .word).withSource mode (lowerRegister opcode) with
            requiresSupervisor := operation == .moveToSr },
          fetchSource mode (lowerRegister opcode) .word ++
              stepPast mode (lowerRegister opcode) .word .src ++
            [.perform (.idle 8 ++ .idle 8 ++ .fetch)]⟩ := by
  simp only [moveToStatus, Option.bind_eq_bind, Option.bind_eq_some_iff] at h
  obtain ⟨mode, hmode, h⟩ := h
  split at h
  · cases h
  · exact ⟨mode, hmode, (Option.some.inj h).symm⟩

/-! ## Moves -/

/-- Nothing is moved to an immediate or to the program. -/
theorem move_cases (h : move opcode = some recipe) :
    ∃ source destination, AddressMode.ofField? opcode = some source ∧
      AddressMode.decode? (opcode.toNat / 64) (opcode.toNat / 512) = some destination ∧
      (destination.isRegister ∨ destination.isMemory) ∧
      recipe =
        ⟨((Instruction.bare (if destination == .addressRegister then .movea else .move)
            (moveSize opcode)).withSource source (lowerRegister opcode)).withDestination destination
            (upperRegister opcode),
          moveStages source (lowerRegister opcode) destination (upperRegister opcode)
            (moveSize opcode)⟩ := by
  simp only [move, Option.bind_eq_bind, Option.bind_eq_some_iff] at h
  obtain ⟨source, hsource, destination, hdestination, h⟩ := h
  split at h
  · cases h
  · rename_i halterable
    split at h
    · cases h
    · refine ⟨source, destination, hsource, hdestination, ?_, (Option.some.inj h).symm⟩
      cases destination <;> first
        | exact .inl rfl
        | exact .inr rfl
        | exact absurd rfl halterable

/-- Register lists are always in memory. -/
theorem moveRegisters_cases {direction : ListDirection}
    (h : moveRegisters direction opcode = some recipe) :
    ∃ mode, AddressMode.ofField? opcode = some mode ∧ mode.isMemory ∧
      recipe =
        ⟨{ (Instruction.bare (.movem direction)
              (if opcode.getLsbD 6 then .long else .word)).withDestination mode
              (lowerRegister opcode) with source := .sourceLatch },
          ⟨.latchList, .src, .fetch⟩ :: addressList mode ++
            [.act .operate .nowhere, ⟨.finishList direction, .dst, .fetch⟩]⟩ := by
  simp only [moveRegisters, Option.bind_eq_bind, Option.bind_eq_some_iff] at h
  obtain ⟨mode, hmode, h⟩ := h
  split at h
  · cases h
  · rename_i hmoves
    refine ⟨mode, hmode, ?_, (Option.some.inj h).symm⟩
    cases mode <;> first
      | rfl
      | cases direction <;> exact absurd rfl hmoves

end Encoding

end M68k
