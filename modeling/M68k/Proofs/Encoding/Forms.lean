import M68k.Proofs.Encoding.Cases
import M68k.Proofs.Encoding.Extension

/-!
# The shape of all recipes

Each encoding gives well-formed recipes, whatever the opcode, and so do the forms that use it.
Whether the extension words are those that the opcode asks for depends on the bits that the form
fixes.

## Main definitions

* `Form.WellFormed`: the recipes of a form are well-formed

## Main results

* `wellFormed_of_decode?`: every recipe is well-formed
-/

namespace M68k

/-- The recipes of a form are well-formed, with the extension words that the opcode asks for. -/
def Form.WellFormed (form : Form) : Prop :=
  ∀ opcode recipe, opcode &&& form.mask = form.value → form.encoding opcode = some recipe →
    recipe.WellFormed (extensionWords opcode)

namespace Encoding

open Stage Activity

variable {opcode : Word} {recipe : Recipe} {operation : Operation}

/-! ## Arithmetic and logic -/

theorem steady_intoRegister (mode : AddressMode) (register : RegisterNumber) (size : Size)
    {tail : Activity} (h : tail.Steady) : AllSteady (intoRegister mode register size tail) :=
  ((steady_fetchSource _ _ _).append (.one h)).append (steady_stepPast _ _ _ _)

@[simp] theorem words_intoRegister (mode : AddressMode) (register : RegisterNumber) (size : Size)
    (tail : Activity) :
    words (intoRegister mode register size tail) = tail.fetches + mode.extensionWords size := by
  simp [intoRegister, perform, Nat.add_comm]

theorem steady_longDelay (size : Size) : (longDelay size).Steady := by
  cases size with
  | byte | word => exact .fetch
  | long => exact Steady.fetch.append (.idle 4)

@[simp] theorem fetches_longDelay (size : Size) : (longDelay size).fetches = 1 := by
  cases size <;> rfl

theorem plain_addSub (hplain : operation.isPlain) (h : addSub operation opcode = some recipe) :
    recipe.Plain (operandWords opcode (operandSize opcode)) := by
  obtain ⟨size, mode, hsize, hmode, h⟩ := addSub_cases h
  rw [operandSize_eq hsize, operandWords_eq hmode]
  rcases h with ⟨hmemory, rfl⟩ | rfl
  · exact .of_isPlain hplain (steady_readModifyWrite _ _ _ _) (words_readModifyWrite _ _ _ hmemory)
  · exact .of_isPlain hplain (steady_intoRegister _ _ _ (steady_registerTail _ _)) (by simp)

theorem plain_addressAddSub (hplain : operation.isPlain)
    (h : addressAddSub operation opcode = some recipe) :
    recipe.Plain (operandWords opcode (addressSize opcode)) := by
  simp only [addressAddSub, Option.bind_eq_bind, Option.bind_eq_some_iff] at h
  obtain ⟨mode, hmode, h⟩ := h
  cases h
  rw [operandWords_eq hmode]
  generalize addressSize opcode = size
  refine .of_isPlain hplain (steady_intoRegister _ _ _ ?_) ?_
  · cases size with
    | byte | word => exact Steady.fetch.append (.idle 8)
    | long => exact steady_registerTail _ _
  · cases size <;> simp

theorem plain_compareAddress (h : compareAddress opcode = some recipe) :
    recipe.Plain (operandWords opcode (addressSize opcode)) := by
  simp only [compareAddress, Option.bind_eq_bind, Option.bind_eq_some_iff] at h
  obtain ⟨mode, hmode, h⟩ := h
  cases h
  rw [operandWords_eq hmode]
  exact .of_isPlain rfl (steady_intoRegister _ _ _ (Steady.fetch.append (.idle 4))) (by simp)

theorem plain_compareRegister (h : compareRegister opcode = some recipe) :
    recipe.Plain (operandWords opcode (operandSize opcode)) := by
  obtain ⟨size, mode, hsize, hmode, rfl⟩ := compareRegister_cases h
  rw [operandSize_eq hsize, operandWords_eq hmode]
  exact .of_isPlain rfl (steady_intoRegister _ _ _ (steady_longDelay _)) (by simp)

/-- An operand is changed in a data register or in memory, perhaps after an immediate. -/
theorem plain_inPlace {lead : List Stage} {instruction : Instruction} {tail : Activity}
    {writeback : Writeback} {mode : AddressMode} {extension : Nat}
    (h : InPlace opcode lead instruction tail writeback mode recipe)
    (hplain : instruction.operation.isPlain) (hlead : AllSteady lead) (htail : tail.Steady)
    (hfetch : tail.fetches = 1)
    (hextension : words lead + mode.extensionWords instruction.size = extension) :
    recipe.Plain extension := by
  subst hextension
  cases h with
  | register =>
    refine .of_isPlain hplain (hlead.append (.one htail)) ?_
    simp [perform, hfetch, AddressMode.extensionWords, Nat.add_comm]
  | memory hmemory =>
    refine .of_isPlain hplain (hlead.append (steady_readModifyWrite _ _ _ _)) ?_
    rw [words_append, words_readModifyWrite _ _ _ hmemory]
    omega

theorem plain_logical {kind : BitwiseKind} (h : logical kind opcode = some recipe) :
    recipe.Plain (operandWords opcode (operandSize opcode)) := by
  obtain ⟨size, mode, hsize, hmode, h⟩ := logical_cases h
  rw [operandSize_eq hsize, operandWords_eq hmode]
  rcases h with hplace | rfl
  · exact plain_inPlace hplace rfl .nil (steady_registerTail _ _) (fetches_registerTail _ _)
      (Nat.zero_add _)
  · exact .of_isPlain rfl (steady_intoRegister _ _ _ (steady_registerTail _ _)) (by simp)

theorem plain_multiply (hplain : operation.isPlain)
    (h : multiply operation opcode = some recipe) :
    recipe.Plain (operandWords opcode .word) := by
  obtain ⟨mode, hmode, rfl⟩ := multiply_cases h
  rw [operandWords_eq hmode]
  refine .of_isPlain hplain ?_ ?_
  · exact ((steady_fetchSource _ _ _).append (.cons .fetch (.one .flexible))).append
      (steady_stepPast _ _ _ _)
  · simp [bus, perform, Nat.add_comm]

/-- Where an operand is changed in place, its size does not matter for its extension words. -/
theorem extensionWords_inPlace {lead : List Stage} {instruction : Instruction} {tail : Activity}
    {writeback : Writeback} {mode : AddressMode}
    (h : InPlace opcode lead instruction tail writeback mode recipe) (size other : Size) :
    mode.extensionWords size = mode.extensionWords other := by
  cases h with
  | register => rfl
  | memory hmemory => exact AddressMode.extensionWords_of_isMemory hmemory size other

theorem plain_quickAddSub (hplain : operation.isPlain)
    (h : quickAddSub operation opcode = some recipe) :
    recipe.Plain (operandWords opcode .word) := by
  obtain ⟨size, mode, -, hmode, h⟩ := quickAddSub_cases h
  rw [operandWords_eq hmode]
  rcases h with ⟨rfl, rfl⟩ | hplace
  · refine .of_isPlain ?_ (.one (Steady.fetch.append (.idle 8))) rfl
    simp only [Instruction.withDestination, Instruction.bare]
    split <;> rfl
  · rw [extensionWords_inPlace hplace .word size]
    exact plain_inPlace hplace hplain .nil (steady_registerTail _ _) (fetches_registerTail _ _)
      (Nat.zero_add _)

theorem plain_compareMemory (h : compareMemory opcode = some recipe) : recipe.Plain 0 := by
  simp only [compareMemory, Option.bind_eq_bind, Option.bind_eq_some_iff] at h
  obtain ⟨size, -, h⟩ := h
  cases h
  have hread (side : Side) (address : AddressSource) := steady_readOperand side size address
  refine .of_isPlain rfl (.append ?_ (.cons .nil (.one .nil))) ?_
  · cases size with
    | byte | word => exact .cons (hread _ _) (.one ((hread _ _).append .fetch))
    | long => exact .cons (hread _ _) (.cons .nil (.one ((hread _ _).append .fetch)))
  · cases size <;> simp [bus, act]

theorem plain_packedDecimal (hplain : operation.isPlain)
    (h : packedDecimal operation opcode = some recipe) : recipe.Plain 0 := by
  unfold packedDecimal at h
  dsimp only [] at h
  split at h
  · cases h
    refine .of_isPlain hplain (.cons ?_ (.cons ?_ (.one ?_))) (by simp [perform])
    · exact (Steady.idle 4).append (.read ..)
    · exact (Steady.read ..).append .fetch
    · exact .write ..
  · cases h
    exact .of_isPlain hplain (.one (Steady.fetch.append (.idle 4))) rfl

theorem plain_extendSign (h : extendSign opcode = some recipe) : recipe.Plain 0 := by
  cases h
  exact .of_isPlain rfl (.one .fetch) rfl

theorem plain_swapHalves (h : swapHalves opcode = some recipe) : recipe.Plain 0 := by
  cases h
  exact .of_isPlain rfl (.one .fetch) rfl

theorem plain_exchange (h : exchange opcode = some recipe) : recipe.Plain 0 := by
  simp only [exchange, Option.bind_eq_bind, Option.bind_eq_some_iff] at h
  obtain ⟨modes, -, h⟩ := h
  cases h
  exact .of_isPlain rfl (.one (Steady.fetch.append (.idle 4))) rfl

/-! ## Immediates -/

theorem ne_immediate_of_inPlace {lead : List Stage} {instruction : Instruction} {tail : Activity}
    {writeback : Writeback} {mode : AddressMode}
    (h : InPlace opcode lead instruction tail writeback mode recipe) : mode ≠ .immediate := by
  rintro rfl
  cases h with
  | memory hmemory => cases hmemory

theorem plain_immediate (hplain : operation.isPlain)
    (h : Encoding.immediate operation opcode = some recipe) :
    recipe.Plain ((operandSize opcode).immediateWords +
        operandWords opcode (operandSize opcode)) ∧
      ∃ mode, AddressMode.ofField? opcode = some mode ∧ mode ≠ .immediate := by
  obtain ⟨size, mode, hsize, hmode, hplace⟩ := immediate_cases h
  rw [operandSize_eq hsize, operandWords_eq hmode]
  refine ⟨?_, mode, hmode, ne_immediate_of_inPlace hplace⟩
  refine plain_inPlace hplace hplain (steady_fetchImmediate size) ?_ ?_
    (congrArg (· + mode.extensionWords size) (words_fetchImmediate size))
  · split
    · exact Steady.fetch.append (.idle 4)
    · exact steady_registerTail _ _
  · split <;> simp

theorem plain_compareImmediate (h : compareImmediate opcode = some recipe) :
    recipe.Plain ((operandSize opcode).immediateWords +
        operandWords opcode (operandSize opcode)) ∧
      ∃ mode, AddressMode.ofField? opcode = some mode ∧ mode ≠ .immediate := by
  obtain ⟨size, mode, hsize, hmode, hplace⟩ := compareImmediate_cases h
  rw [operandSize_eq hsize, operandWords_eq hmode]
  refine ⟨?_, mode, hmode, ne_immediate_of_inPlace hplace⟩
  exact plain_inPlace hplace rfl (steady_fetchImmediate size) (steady_longDelay _)
    (fetches_longDelay _) (congrArg (· + mode.extensionWords size) (words_fetchImmediate size))

/-! ## Bits and shifts -/

theorem plain_bit {static : Bool} {kind : BitKind} (h : bit static kind opcode = some recipe) :
    recipe.Plain ((if static then 1 else 0) + operandWords opcode .byte) := by
  obtain ⟨mode, hmode, h⟩ := bit_cases h
  rw [operandWords_eq hmode]
  have hplain (size : Size) : (numbered static kind size opcode).operation.isPlain := by
    cases static <;> rfl
  have hnumber : AllSteady (if static then fetchImmediate .word else []) := by
    split
    · exact steady_fetchImmediate .word
    · exact .nil
  have hwords : words (if static then fetchImmediate .word else []) = if static then 1 else 0 := by
    cases static <;> rfl
  rcases h with ⟨rfl, rfl⟩ | ⟨hmemory, rfl⟩
  · refine .of_isPlain (hplain .long) (hnumber.append ?_) ?_
    · split
      · exact .one (Steady.fetch.append (.idle 4))
      · exact .cons .fetch (.one .flexible)
    · have htail : words (if kind == .test then [.perform (.fetch ++ .idle 4)]
          else [.bus .fetch, .perform .flexible]) = 1 := by
        split <;> rfl
      rw [words_append, hwords, htail]
      exact Nat.add_comm _ _
  · refine .of_isPlain (hplain .byte) (hnumber.append (steady_readModifyWrite _ _ _ _)) ?_
    rw [words_append, hwords, words_readModifyWrite _ _ _ hmemory]
    omega

theorem plain_shiftRegister {kind : ShiftKind} (h : shiftRegister kind opcode = some recipe) :
    recipe.Plain 0 := by
  simp only [shiftRegister, Option.bind_eq_bind, Option.bind_eq_some_iff] at h
  obtain ⟨size, -, h⟩ := h
  cases h
  refine .of_isPlain ?_ (.cons (Steady.fetch.append (.idle _)) (.one .flexible)) rfl
  split <;> rfl

theorem plain_shiftMemory {kind : ShiftKind} (h : shiftMemory kind opcode = some recipe) :
    recipe.Plain (operandWords opcode .word) := by
  obtain ⟨mode, hmode, hmemory, rfl⟩ := shiftMemory_cases h
  rw [operandWords_eq hmode]
  exact .of_isPlain rfl (steady_readModifyWrite _ _ _ _) (words_readModifyWrite _ _ _ hmemory)

/-! ## Single operands -/

/-- An operand is changed in a data register or in memory, with no words but its own. -/
theorem plain_single {instruction : Instruction} {mode : AddressMode} {tail : Activity}
    {writeback : Writeback} (hmode : AddressMode.ofField? opcode = some mode)
    (h : InPlace opcode [] instruction tail writeback mode recipe)
    (hplain : instruction.operation.isPlain) (htail : tail.Steady) (hfetch : tail.fetches = 1) :
    recipe.Plain (operandWords opcode .word) := by
  rw [operandWords_eq hmode, extensionWords_inPlace h .word instruction.size]
  exact plain_inPlace h hplain .nil htail hfetch (Nat.zero_add _)

theorem plain_singleOperand (hplain : operation.isPlain)
    (h : singleOperand operation opcode = some recipe) :
    recipe.Plain (operandWords opcode .word) := by
  obtain ⟨size, mode, hmode, hplace⟩ := singleOperand_cases h
  exact plain_single hmode hplace hplain (steady_longDelay _) (fetches_longDelay _)

theorem plain_test (h : test opcode = some recipe) :
    recipe.Plain (operandWords opcode .word) := by
  obtain ⟨size, mode, hmode, hplace⟩ := test_cases h
  exact plain_single hmode hplace rfl .fetch rfl

theorem plain_testAndSet (h : Encoding.testAndSet opcode = some recipe) :
    recipe.Plain (operandWords opcode .word) := by
  obtain ⟨mode, hmode, hplace⟩ := testAndSet_cases h
  exact plain_single hmode hplace rfl .fetch rfl

theorem plain_moveFromStatus (h : moveFromStatus opcode = some recipe) :
    recipe.Plain (operandWords opcode .word) := by
  obtain ⟨mode, hmode, hplace⟩ := moveFromStatus_cases h
  exact plain_single hmode hplace rfl (Steady.fetch.append (.idle 4)) rfl

/-- Only the form that loads the whole status register is privileged. -/
theorem plain_moveToStatus
    (hstraight : (operation.redirects || operation.setsCounter) = false)
    (hprivileged : operation.isPrivileged → operation = .moveToSr)
    (h : moveToStatus operation opcode = some recipe) :
    recipe.Plain (operandWords opcode .word) := by
  obtain ⟨mode, hmode, rfl⟩ := moveToStatus_cases h
  rw [operandWords_eq hmode]
  exact
    { straight := hstraight
      privileged := fun hoperation => by
        rw [hprivileged hoperation]
        refine ⟨rfl, ?_⟩
        simp only [operations_append, operations_fetchSource, operations_stepPast]
        exact Nat.le_refl 1
      steady :=
        ((steady_fetchSource _ _ _).append (steady_stepPast _ _ _ _)).append
          (.one (((Steady.idle 8).append (.idle 8)).append .fetch))
      words := by simp [perform, Nat.add_comm] }

theorem plain_moveUserStack (h : moveUserStack opcode = some recipe) : recipe.Plain 0 := by
  cases h
  exact
    { straight := by
        dsimp only []
        split <;> rfl
      privileged := fun _ => ⟨rfl, Nat.le_refl 1⟩
      steady := .one .fetch
      words := rfl }

theorem plain_noOperation (h : noOperation opcode = some recipe) : recipe.Plain 0 := by
  cases h
  exact .of_isPlain rfl (.one .fetch) rfl

theorem plain_resetDevices (h : resetDevices opcode = some recipe) : recipe.Plain 0 := by
  cases h
  exact
    { straight := rfl
      privileged := fun _ => ⟨rfl, Nat.le_refl 1⟩
      steady := .one (((Steady.idle 8).append .resetHold).append .fetch)
      words := rfl }

theorem plain_loadAddress (h : loadAddress opcode = some recipe) :
    recipe.Plain (operandWords opcode .word) := by
  simp only [loadAddress, Option.bind_eq_bind, Option.bind_eq_some_iff] at h
  obtain ⟨mode, hmode, h⟩ := h
  rw [operandWords_eq hmode]
  have htwice : (fetch ++ fetch).Steady := Steady.fetch.append .fetch
  split at h
  · cases h
    exact .of_isPlain rfl (.one .fetch) rfl
  · cases h
    exact .of_isPlain rfl (.cons htwice (.one .nil)) rfl
  · cases h
    exact .of_isPlain rfl (.cons htwice (.one .nil)) rfl
  · cases h
    exact .of_isPlain rfl (.cons htwice (.one .nil)) rfl
  · cases h
    exact .of_isPlain rfl
      (.cons ((((Steady.idle 4).append .fetch).append (.idle 4)).append .fetch) (.one .nil)) rfl
  · cases h
    exact .of_isPlain rfl
      (.cons ((((Steady.idle 4).append .fetch).append (.idle 4)).append .fetch) (.one .nil)) rfl
  · cases h
    exact .of_isPlain rfl (.cons .fetch (.cons htwice (.one .nil))) rfl
  · simp at h

/-! ## Moves -/

theorem plain_moveQuick (h : moveQuick opcode = some recipe) : recipe.Plain 0 := by
  cases h
  exact .of_isPlain rfl (.one .fetch) rfl

theorem steady_moveStages (sourceMode : AddressMode) (source : RegisterNumber)
    (destinationMode : AddressMode) (destination : RegisterNumber) (size : Size) :
    AllSteady (moveStages sourceMode source destinationMode destination size) := by
  refine .append (.append (steady_fetchSource _ _ _) ?_) ?_
  · split
    · exact .nil
    · exact steady_stepPast _ _ _ _
  · split
    · exact .one .fetch
    · exact .cons .nil (steady_storeMoved _ _ _ _)

theorem words_moveStages (sourceMode : AddressMode) (source : RegisterNumber)
    {destinationMode : AddressMode} (destination : RegisterNumber) (size : Size)
    (h : destinationMode.isRegister ∨ destinationMode.isMemory) :
    words (moveStages sourceMode source destinationMode destination size) =
      1 + (sourceMode.extensionWords size + destinationMode.extensionWords size) := by
  have hstep : words
      (if stepsTogether sourceMode source destinationMode destination size then []
        else stepPast sourceMode source size .src) = 0 := by
    split <;> simp
  have hstore : words
      (if destinationMode.isRegister then [perform fetch]
        else .act .operate .nowhere ::
          storeMoved destinationMode destination size
            (if stepsTogether sourceMode source destinationMode destination size then .both
              else .dst)) =
      1 + destinationMode.extensionWords size := by
    split
    · rename_i hregister
      cases destinationMode <;> first | rfl | exact absurd hregister (by decide)
    · rename_i hregister
      rw [words_cons, words_storeMoved]
      · simp [act]
      · exact h.resolve_left hregister
  rw [moveStages, words_append, words_append, words_fetchSource, hstep, hstore]
  omega

theorem plain_move (h : move opcode = some recipe) :
    recipe.Plain (operandWords opcode (moveSize opcode) +
      moveDestinationWords opcode (moveSize opcode)) := by
  obtain ⟨source, destination, hsource, hdestination, hwritten, rfl⟩ := move_cases h
  rw [operandWords_eq hsource]
  simp only [moveDestinationWords, hdestination]
  refine .of_isPlain ?_ (steady_moveStages _ _ _ _ _) (words_moveStages _ _ _ _ hwritten)
  simp only [Instruction.withSource, Instruction.withDestination, Instruction.bare]
  split <;> rfl

theorem steady_addressList (mode : AddressMode) : AllSteady (addressList mode) := by
  cases mode with
  | indirect | postIncrement | preDecrement => exact .one .nil
  | absoluteLong => exact .cons .fetch (.one .fetch)
  | _ => exact .one ((steady_indexDelay _).append .fetch)

theorem words_addressList {mode : AddressMode} (h : mode.isMemory) (size : Size) :
    words (addressList mode) = mode.extensionWords size := by
  cases mode <;> first | rfl | exact absurd h (by decide)

theorem action_addressList {mode : AddressMode} {stage : Stage} (h : stage ∈ addressList mode) :
    stage.action ≠ .operate := by
  cases mode <;>
    simp only [addressList, bus, act, AddressMode.action, List.mem_cons, List.not_mem_nil,
      or_false] at h <;>
    first
      | (rw [h]; decide)
      | (rcases h with rfl | rfl <;> decide)

theorem wellFormed_moveRegisters {direction : ListDirection}
    (h : moveRegisters direction opcode = some recipe) :
    recipe.WellFormed (1 + operandWords opcode .word) ∧
      ∃ mode, AddressMode.ofField? opcode = some mode ∧ mode.isMemory := by
  obtain ⟨mode, hmode, hmemory, rfl⟩ := moveRegisters_cases h
  rw [operandWords_eq hmode]
  have hwords := words_addressList hmemory .word
  refine ⟨.of_steady rfl (fun h => by cases h) ?_ ?_ ?_ fun _ => ?_, _, hmode, hmemory⟩
  · exact .cons .fetch ((steady_addressList _).append (.cons .nil (.one .fetch)))
  · intro stage hstage haction _
    simp only [List.cons_append, List.mem_cons, List.mem_append, List.not_mem_nil, or_false]
      at hstage
    rcases hstage with rfl | haddress | rfl | rfl
    · cases haction
    · exact absurd haction (action_addressList haddress)
    · rfl
    · cases haction
  · exact ⟨⟨.latchList, .src, .fetch⟩, List.mem_cons_self, .inl (List.cons_ne_nil _ _)⟩
  · simp only [List.cons_append, words_cons, words_append, hwords, act, fetches_fetch,
      fetches_nil, words_nil]
    omega

/-! ## Program control -/

theorem wellFormed_branch (h : branch opcode = some recipe) (extension : Nat) :
    recipe.WellFormed extension := by
  unfold branch at h
  dsimp only [] at h
  split at h
  · cases h
    refine .of_steady rfl (fun h => by cases h) ?_ ?_ ?_ fun h => by cases h
    · exact .cons (((Steady.idle 4).append (.write ..)).append (.write ..)) (.one .nil)
    · intro stage hstage haction _
      simp only [List.mem_cons, List.not_mem_nil, or_false] at hstage
      rcases hstage with rfl | rfl
      · cases haction
      · rfl
    · exact ⟨_, List.mem_cons_self, .inl (List.cons_ne_nil _ _)⟩
  · cases h
    refine .of_steady rfl (fun h => by cases h) (.one .nil) ?_ ?_ fun h => by cases h
    · intro stage hstage _ _
      rw [List.mem_singleton.1 hstage]
      rfl
    · exact ⟨_, List.mem_cons_self, .inr ⟨rfl, .inl rfl⟩⟩

theorem wellFormed_trap (h : trap opcode = some recipe) (extension : Nat) :
    recipe.WellFormed extension := by
  cases h
  refine .of_steady rfl (fun h => by cases h) (.one .nil) ?_ ?_ fun h => by cases h
  · intro stage hstage _ _
    rw [List.mem_singleton.1 hstage]
    rfl
  · exact ⟨_, List.mem_cons_self, .inr ⟨rfl, .inr (.inr rfl)⟩⟩

theorem wellFormed_setOrLoop (h : setOrLoop opcode = some recipe) :
    recipe.WellFormed (operandWords opcode .word) := by
  obtain ⟨mode, hmode, rfl | hplace⟩ := setOrLoop_cases h
  · refine .of_steady rfl (fun h => by cases h) (.one .nil) ?_ ?_ fun h => by cases h
    · intro stage hstage _ _
      rw [List.mem_singleton.1 hstage]
      rfl
    · exact ⟨_, List.mem_cons_self, .inr ⟨rfl, .inr (.inl rfl)⟩⟩
  · exact (plain_single hmode hplace (by rfl) (Steady.fetch.append .flexible) rfl).wellFormed

/-- An operation that leaves the instruction stream, or steps back in it, keeps the rules if the
queue is refilled. -/
theorem wellFormed_of_refill {instruction : Instruction} {stages : List Stage} {extension : Nat}
    (hredirects : instruction.operation.redirects = false)
    (hprivileged : instruction.operation.isPrivileged →
      instruction.requiresSupervisor ∧ operations stages ≤ 1)
    (hopen : ∀ stage ∈ stages, stage.activity.Open)
    (hrefill : Refill instruction.operation .full stages) (hfetch : 0 < words stages)
    (hwords : instruction.operation.isSequential →
      (∀ stage ∈ stages, stage.activity.Linear) ∧
        words stages = 1 + extension + rewound instruction.operation stages) :
    (Recipe.mk instruction stages).WellFormed extension where
  isOpen := hopen
  orderly stage _ _ h := by simp [hredirects] at h
  active := exists_active_of_words_pos hfetch
  refill := hrefill
  privileged := hprivileged
  linear h := (hwords h).1
  words h := (hwords h).2

theorem wellFormed_jump (h : jump opcode = some recipe) (extension : Nat) :
    recipe.WellFormed extension := by
  simp only [jump, Option.bind_eq_bind, Option.bind_eq_some_iff] at h
  obtain ⟨mode, -, h⟩ := h
  split at h <;> cases h <;>
    exact wellFormed_of_refill rfl (fun h => by cases h) (by decide) rfl (by decide)
      fun h => by cases h

theorem wellFormed_jumpToSubroutine (h : jumpToSubroutine opcode = some recipe)
    (extension : Nat) : recipe.WellFormed extension := by
  simp only [jumpToSubroutine, Option.bind_eq_bind, Option.bind_eq_some_iff] at h
  obtain ⟨mode, -, resolved, hresolved, h⟩ := h
  cases h
  split at hresolved <;> cases hresolved <;>
    exact wellFormed_of_refill rfl (fun h => by cases h) (by decide) rfl (by decide)
      fun h => by cases h

theorem wellFormed_returnFromSubroutine (h : returnFromSubroutine opcode = some recipe)
    (extension : Nat) : recipe.WellFormed extension := by
  cases h
  exact wellFormed_of_refill rfl (fun h => by cases h) (by decide) rfl (by decide)
    fun h => by cases h

/-- Only the return that loads the whole status register is privileged. -/
theorem wellFormed_returnFromException (hoperation : operation = .rte ∨ operation = .rtr)
    (h : returnFromException operation opcode = some recipe) (extension : Nat) :
    recipe.WellFormed extension := by
  cases h
  rcases hoperation with rfl | rfl
  · exact wellFormed_of_refill rfl (fun _ => ⟨rfl, by decide⟩) (by decide) rfl (by decide)
      fun h => by cases h
  · exact wellFormed_of_refill rfl (fun h => by cases h) (by decide) rfl (by decide)
      fun h => by cases h

theorem wellFormed_immediateToCcr {kind : BitwiseKind}
    (h : immediateToCcr kind opcode = some recipe) : recipe.WellFormed 1 := by
  cases h
  exact wellFormed_of_refill rfl (fun h => by cases h) (by decide) rfl (by decide)
    fun _ => ⟨by decide, rfl⟩

theorem wellFormed_immediateToSr {kind : BitwiseKind}
    (h : immediateToSr kind opcode = some recipe) : recipe.WellFormed 1 := by
  cases h
  exact wellFormed_of_refill rfl (fun _ => ⟨rfl, by decide⟩) (by decide) rfl (by decide)
    fun _ => ⟨by decide, rfl⟩

end Encoding

/-! ## Forms -/

namespace Form

open Encoding

variable {mask value : Word} {operation : Operation} {encoding : Word → Option Recipe}

/-- A form of plain recipes. -/
theorem wellFormed_of_plain
    (h : ∀ opcode recipe, opcode &&& mask = value → encoding opcode = some recipe →
      recipe.Plain (extensionWords opcode)) :
    WellFormed ⟨mask, value, encoding⟩ :=
  fun opcode recipe hform hrecipe => (h opcode recipe hform hrecipe).wellFormed

/-- A form whose extension words are of no account. -/
theorem wellFormed_of_any
    (h : ∀ opcode recipe, encoding opcode = some recipe →
      ∀ extension, recipe.WellFormed extension) :
    WellFormed ⟨mask, value, encoding⟩ :=
  fun opcode recipe _ hrecipe => h opcode recipe hrecipe _

/-- A form in the lines of arithmetic, with one operand that may take up words. -/
theorem wellFormed_arithmetic
    (hencoding : ∀ opcode recipe, encoding opcode = some recipe →
      recipe.Plain (operandWords opcode (operandSize opcode)))
    (hline : mask &&& 0xF000 = 0xF000 ∧ value.toNat / 4096 ∈ [0x8, 0x9, 0xB, 0xC, 0xD]) :
    WellFormed ⟨mask, value, encoding⟩ := by
  refine wellFormed_of_plain fun opcode recipe hform h => ?_
  rw [extensionWords_arithmetic hform hline.1 hline.2]
  exact hencoding opcode recipe h

/-- The same, on whole address registers. -/
theorem wellFormed_address
    (hencoding : ∀ opcode recipe, encoding opcode = some recipe →
      recipe.Plain (operandWords opcode (addressSize opcode)))
    (hline : mask &&& 0xF000 = 0xF000 ∧ value.toNat / 4096 ∈ [0x9, 0xB, 0xD])
    (hsize : mask &&& 0x00C0 = 0x00C0 ∧ value &&& 0x00C0 = 0x00C0) :
    WellFormed ⟨mask, value, encoding⟩ := by
  refine wellFormed_of_plain fun opcode recipe hform h => ?_
  have hopcode := line_eq hform hline.1
  have hother (line : Word) (hne : line.toNat / 4096 = 0x8 ∨ line.toNat / 4096 = 0xC) :
      opcode &&& 0xF000 ≠ line := by
    intro heq
    have := line_eq heq rfl
    have := hline.2
    simp only [List.mem_cons, List.not_mem_nil, or_false] at this
    omega
  have hline' : value.toNat / 4096 ∈ [0x8, 0x9, 0xB, 0xC, 0xD] := by
    have := hline.2
    simp only [List.mem_cons, List.not_mem_nil, or_false] at this ⊢
    omega
  rw [extensionWords_arithmetic hform hline.1 hline',
    operandSize_of_address ((field_eq hform hsize.1).trans hsize.2) (hother _ (by decide))
      (hother _ (by decide))]
  exact hencoding opcode recipe h

/-- The same, for multiplications. -/
theorem wellFormed_multiply (hplain : operation.isPlain)
    (hline : mask &&& 0xF000 = 0xF000 ∧ value &&& 0xF000 = 0xC000)
    (hsize : mask &&& 0x00C0 = 0x00C0 ∧ value &&& 0x00C0 = 0x00C0) :
    WellFormed ⟨mask, value, multiply operation⟩ := by
  refine wellFormed_of_plain fun opcode recipe hform h => ?_
  have hvalue : value.toNat / 4096 ∈ [0x8, 0x9, 0xB, 0xC, 0xD] := by
    rw [line_eq hline.2 rfl]
    decide
  rw [extensionWords_arithmetic hform hline.1 hvalue,
    operandSize_of_multiply ((field_eq hform hsize.1).trans hsize.2)
      ((field_eq hform hline.1).trans hline.2)]
  exact plain_multiply hplain h

/-- A form in the lines of arithmetic that works on registers or steps through memory. -/
theorem wellFormed_implied
    (hencoding : ∀ opcode recipe, encoding opcode = some recipe → recipe.Plain 0)
    (hline : mask &&& 0xF000 = 0xF000 ∧ value.toNat / 4096 ∈ [0x8, 0x9, 0xB, 0xC, 0xD])
    (hmode : mask &&& 0x0030 = 0x0030 ∧ value &&& 0x0030 = 0) :
    WellFormed ⟨mask, value, encoding⟩ := by
  refine wellFormed_of_plain fun opcode recipe hform h => ?_
  rw [extensionWords_arithmetic hform hline.1 hline.2,
    operandWords_of_register ((field_eq hform hmode.1).trans hmode.2)]
  exact hencoding opcode recipe h

theorem wellFormed_immediate
    (hencoding : ∀ opcode recipe, encoding opcode = some recipe →
      recipe.Plain ((operandSize opcode).immediateWords +
          operandWords opcode (operandSize opcode)) ∧
        ∃ mode, AddressMode.ofField? opcode = some mode ∧ mode ≠ .immediate)
    (hmask : mask &&& 0xFF00 = 0xFF00 ∧ value.toNat / 4096 = 0)
    (hbits : value &&& 0x0100 = 0 ∧ value &&& 0x0F00 ≠ 0x0800) :
    WellFormed ⟨mask, value, encoding⟩ := by
  refine wellFormed_of_plain fun opcode recipe hform h => ?_
  obtain ⟨hplain, mode, hmode, hne⟩ := hencoding opcode recipe h
  have hpart {field : Word} (hfield : (0xFF00 : Word) &&& field = field) :
      mask &&& field = field := by
    rw [field_eq hmask.1 hfield, hfield]
  rw [extensionWords_immediate hform (hpart rfl) hmask.2 (hpart rfl) hbits.1 hbits.2 hmode hne]
  exact hplain

theorem wellFormed_status
    (hencoding : ∀ opcode recipe, encoding opcode = some recipe → recipe.WellFormed 1)
    (hvalue : value.toNat / 4096 = 0 ∧ value &&& 0x003F = 0x003C)
    (hbits : value &&& 0x0100 = 0 ∧ value &&& 0x0F00 ≠ 0x0800) :
    WellFormed ⟨0xFFFF, value, encoding⟩ := by
  intro opcode recipe hform h
  have hform : opcode &&& 0xFFFF = value := hform
  rw [extensionWords_status hform rfl hvalue.1 rfl hbits.1 hbits.2 hvalue.2]
  exact hencoding opcode recipe h

theorem wellFormed_bitInRegister {kind : BitKind}
    (hmask : mask &&& 0xF000 = 0xF000 ∧ value.toNat / 4096 = 0)
    (hbit : value &&& 0x0100 ≠ 0 &&& mask) :
    WellFormed ⟨mask, value, bitInRegister kind⟩ := by
  refine wellFormed_of_plain fun opcode recipe hform h => ?_
  have hplain := plain_bit h
  rw [if_neg (by decide), Nat.zero_add] at hplain
  rwa [extensionWords_bitInRegister hform hmask.1 hmask.2 hbit]

theorem wellFormed_bitInWord {kind : BitKind}
    (hmask : mask &&& 0xF000 = 0xF000 ∧ value.toNat / 4096 = 0)
    (hbit : mask &&& 0x0F00 = 0x0F00 ∧ value &&& 0x0F00 = 0x0800) :
    WellFormed ⟨mask, value, bitInWord kind⟩ := by
  refine wellFormed_of_plain fun opcode recipe hform h => ?_
  have hplain := plain_bit h
  rw [if_pos rfl] at hplain
  rwa [extensionWords_bitInWord hform hmask.1 hmask.2 hbit.1 hbit.2]

theorem wellFormed_move (hline : value.toNat / 4096 ∈ [1, 2, 3]) :
    WellFormed ⟨0xF000, value, move⟩ := by
  refine wellFormed_of_plain fun opcode recipe hform h => ?_
  rw [extensionWords_move hform rfl hline]
  exact plain_move h

/-- A form in the line of single operands. -/
theorem wellFormed_single
    (hencoding : ∀ opcode recipe, encoding opcode = some recipe →
      recipe.Plain (operandWords opcode .word))
    (hmask : mask &&& 0xF000 = 0xF000 ∧ value.toNat / 4096 = 4)
    (hbits : value &&& 0x0F80 ≠ 0x0E00 &&& mask ∧ value &&& 0x0B80 ≠ 0x0880 &&& mask) :
    WellFormed ⟨mask, value, encoding⟩ := by
  refine wellFormed_of_plain fun opcode recipe hform h => ?_
  rw [extensionWords_single hform hmask.1 hmask.2 hbits.1 hbits.2]
  exact hencoding opcode recipe h

/-- A form without operands, in the same line. -/
theorem wellFormed_bare
    (hencoding : ∀ opcode recipe, encoding opcode = some recipe → recipe.Plain 0)
    (hmask : mask &&& 0xF000 = 0xF000 ∧ value.toNat / 4096 = 4)
    (hbits : mask &&& 0x0F80 = 0x0F80 ∧ value &&& 0x0F80 = 0x0E00) :
    WellFormed ⟨mask, value, encoding⟩ := by
  refine wellFormed_of_plain fun opcode recipe hform h => ?_
  rw [extensionWords_bare hform hmask.1 hmask.2 hbits.1 hbits.2]
  exact hencoding opcode recipe h

theorem wellFormed_moveRegisters {direction : ListDirection}
    (hmask : mask &&& 0xF000 = 0xF000 ∧ value.toNat / 4096 = 4)
    (hbits : mask &&& 0x0B80 = 0x0B80 ∧ value &&& 0x0B80 = 0x0880 ∧
      value &&& 0x0F80 ≠ 0x0E00 &&& mask) :
    WellFormed ⟨mask, value, moveRegisters direction⟩ := by
  intro opcode recipe hform h
  obtain ⟨hwellFormed, mode, hmode, hmemory⟩ := Encoding.wellFormed_moveRegisters h
  have hne : opcode &&& 0x0038 ≠ 0 := by
    intro hzero
    rw [ofField?_of_dataRegister hzero, Option.some.injEq] at hmode
    subst hmode
    cases hmemory
  rwa [extensionWords_list hform hmask.1 hmask.2 hbits.1 hbits.2.1 hbits.2.2 hne]

theorem wellFormed_extendSign : WellFormed ⟨0xFFB8, 0x4880, extendSign⟩ := by
  refine wellFormed_of_plain fun opcode recipe hform h => ?_
  rw [extensionWords_extend hform rfl rfl (by decide) rfl rfl,
    operandWords_of_register (field_eq hform rfl)]
  exact plain_extendSign h

theorem wellFormed_swapHalves : WellFormed ⟨0xFFF8, 0x4840, swapHalves⟩ := by
  refine wellFormed_of_plain fun opcode recipe hform h => ?_
  rw [extensionWords_single hform rfl rfl (by decide) (by decide),
    operandWords_of_register (field_eq hform rfl)]
  exact plain_swapHalves h

theorem wellFormed_quickAddSub (hplain : operation.isPlain)
    (hmask : mask &&& 0xF000 = 0xF000 ∧ value.toNat / 4096 = 5) :
    WellFormed ⟨mask, value, quickAddSub operation⟩ := by
  refine wellFormed_of_plain fun opcode recipe hform h => ?_
  rw [extensionWords_quick hform hmask.1 hmask.2]
  exact plain_quickAddSub hplain h

theorem wellFormed_setOrLoop : WellFormed ⟨0xF0C0, 0x50C0, setOrLoop⟩ := by
  intro opcode recipe hform h
  rw [extensionWords_quick hform rfl rfl]
  exact Encoding.wellFormed_setOrLoop h

theorem wellFormed_shiftRegister {kind : ShiftKind}
    (hmask : mask &&& 0xF000 = 0xF000 ∧ value.toNat / 4096 = 0xE) :
    WellFormed ⟨mask, value, shiftRegister kind⟩ := by
  refine wellFormed_of_plain fun opcode recipe hform h => ?_
  have hsize : opcode &&& 0x00C0 ≠ 0x00C0 := by
    intro hthree
    simp [shiftRegister, sizeField?_eq_none hthree] at h
  rw [extensionWords_shiftRegister hform hmask.1 hmask.2 hsize]
  exact plain_shiftRegister h

theorem wellFormed_shiftMemory {kind : ShiftKind}
    (hmask : mask &&& 0xF000 = 0xF000 ∧ value.toNat / 4096 = 0xE)
    (hsize : mask &&& 0x00C0 = 0x00C0 ∧ value &&& 0x00C0 = 0x00C0) :
    WellFormed ⟨mask, value, shiftMemory kind⟩ := by
  refine wellFormed_of_plain fun opcode recipe hform h => ?_
  rw [extensionWords_shiftMemory hform hmask.1 hmask.2 hsize.1 hsize.2]
  exact plain_shiftMemory h

theorem wellFormed_moveQuick : WellFormed ⟨0xF100, 0x7000, moveQuick⟩ := by
  refine wellFormed_of_plain fun opcode recipe hform h => ?_
  rw [extensionWords_moveQuick hform rfl rfl]
  exact plain_moveQuick h

end Form

open Encoding Form in
/-- Every form gives well-formed recipes. -/
theorem wellFormed_forms : ∀ form ∈ forms, form.WellFormed := by
  simp only [forms, List.forall_mem_cons, List.not_mem_nil, false_implies, implies_true, and_true]
  exact ⟨wellFormed_implied (fun _ _ => plain_packedDecimal rfl) (by decide) (by decide),
    wellFormed_implied (fun _ _ => plain_packedDecimal rfl) (by decide) (by decide),
    wellFormed_arithmetic (fun _ _ => plain_logical) (by decide),
    wellFormed_arithmetic (fun _ _ => plain_logical) (by decide),
    wellFormed_arithmetic (fun _ _ => plain_logical) (by decide),
    wellFormed_immediate (fun _ _ => plain_immediate rfl) (by decide) (by decide),
    wellFormed_immediate (fun _ _ => plain_immediate rfl) (by decide) (by decide),
    wellFormed_immediate (fun _ _ => plain_immediate rfl) (by decide) (by decide),
    wellFormed_immediate (fun _ _ => plain_immediate rfl) (by decide) (by decide),
    wellFormed_immediate (fun _ _ => plain_immediate rfl) (by decide) (by decide),
    wellFormed_immediate (fun _ _ => plain_compareImmediate) (by decide) (by decide),
    wellFormed_status (fun _ _ => wellFormed_immediateToSr) (by decide) (by decide),
    wellFormed_status (fun _ _ => wellFormed_immediateToCcr) (by decide) (by decide),
    wellFormed_status (fun _ _ => wellFormed_immediateToSr) (by decide) (by decide),
    wellFormed_status (fun _ _ => wellFormed_immediateToCcr) (by decide) (by decide),
    wellFormed_status (fun _ _ => wellFormed_immediateToSr) (by decide) (by decide),
    wellFormed_status (fun _ _ => wellFormed_immediateToCcr) (by decide) (by decide),
    wellFormed_move (by decide),
    wellFormed_move (by decide),
    wellFormed_move (by decide),
    wellFormed_single (fun _ _ => plain_moveToStatus rfl (by decide)) (by decide) (by decide),
    wellFormed_single (fun _ _ => plain_moveToStatus rfl (by decide)) (by decide) (by decide),
    wellFormed_single (fun _ _ => plain_moveFromStatus) (by decide) (by decide),
    wellFormed_moveQuick,
    wellFormed_bare (fun _ _ => plain_moveUserStack) (by decide) (by decide),
    wellFormed_moveRegisters (by decide) (by decide),
    wellFormed_moveRegisters (by decide) (by decide),
    wellFormed_arithmetic (fun _ _ => plain_compareRegister) (by decide),
    wellFormed_address (fun _ _ => plain_compareAddress) (by decide) (by decide),
    wellFormed_implied (fun _ _ => plain_compareMemory) (by decide) (by decide),
    wellFormed_of_any fun _ _ h => Encoding.wellFormed_branch h,
    wellFormed_setOrLoop,
    wellFormed_of_any fun _ _ h => Encoding.wellFormed_jump h,
    wellFormed_of_any fun _ _ h => Encoding.wellFormed_jumpToSubroutine h,
    wellFormed_of_any fun _ _ h => Encoding.wellFormed_returnFromSubroutine h,
    wellFormed_of_any fun _ _ => wellFormed_returnFromException (.inl rfl),
    wellFormed_of_any fun _ _ => wellFormed_returnFromException (.inr rfl),
    wellFormed_of_any fun _ _ h => Encoding.wellFormed_trap h,
    wellFormed_bare (fun _ _ => plain_noOperation) (by decide) (by decide),
    wellFormed_bare (fun _ _ => plain_resetDevices) (by decide) (by decide),
    wellFormed_single (fun _ _ => plain_loadAddress) (by decide) (by decide),
    wellFormed_arithmetic (fun _ _ => plain_addSub rfl) (by decide),
    wellFormed_arithmetic (fun _ _ => plain_addSub rfl) (by decide),
    wellFormed_address (fun _ _ => plain_addressAddSub rfl) (by decide) (by decide),
    wellFormed_address (fun _ _ => plain_addressAddSub rfl) (by decide) (by decide),
    wellFormed_quickAddSub rfl (by decide),
    wellFormed_quickAddSub rfl (by decide),
    wellFormed_bitInRegister (by decide) (by decide),
    wellFormed_bitInWord (by decide) (by decide),
    wellFormed_bitInRegister (by decide) (by decide),
    wellFormed_bitInWord (by decide) (by decide),
    wellFormed_bitInRegister (by decide) (by decide),
    wellFormed_bitInWord (by decide) (by decide),
    wellFormed_bitInRegister (by decide) (by decide),
    wellFormed_bitInWord (by decide) (by decide),
    wellFormed_single (fun _ _ => plain_singleOperand rfl) (by decide) (by decide),
    wellFormed_single (fun _ _ => plain_singleOperand rfl) (by decide) (by decide),
    wellFormed_single (fun _ _ => plain_singleOperand rfl) (by decide) (by decide),
    wellFormed_single (fun _ _ => plain_singleOperand rfl) (by decide) (by decide),
    wellFormed_single (fun _ _ => plain_test) (by decide) (by decide),
    wellFormed_single (fun _ _ => plain_testAndSet) (by decide) (by decide),
    wellFormed_shiftRegister (by decide),
    wellFormed_shiftRegister (by decide),
    wellFormed_shiftRegister (by decide),
    wellFormed_shiftRegister (by decide),
    wellFormed_shiftRegister (by decide),
    wellFormed_shiftRegister (by decide),
    wellFormed_shiftRegister (by decide),
    wellFormed_shiftRegister (by decide),
    wellFormed_shiftMemory (by decide) (by decide),
    wellFormed_shiftMemory (by decide) (by decide),
    wellFormed_shiftMemory (by decide) (by decide),
    wellFormed_shiftMemory (by decide) (by decide),
    wellFormed_shiftMemory (by decide) (by decide),
    wellFormed_shiftMemory (by decide) (by decide),
    wellFormed_shiftMemory (by decide) (by decide),
    wellFormed_shiftMemory (by decide) (by decide),
    wellFormed_multiply rfl (by decide) (by decide),
    wellFormed_multiply rfl (by decide) (by decide),
    wellFormed_implied (fun _ _ => plain_exchange) (by decide) (by decide),
    wellFormed_implied (fun _ _ => plain_exchange) (by decide) (by decide),
    wellFormed_implied (fun _ _ => plain_exchange) (by decide) (by decide),
    wellFormed_swapHalves,
    wellFormed_extendSign⟩

/-- **Every recipe is well-formed**, with the extension words that its opcode asks for. -/
theorem wellFormed_of_decode? {opcode : Word} {recipe : Recipe}
    (h : decode? forms opcode = some recipe) : recipe.WellFormed (extensionWords opcode) := by
  obtain ⟨form, hmem, hvalue, hencoding⟩ := exists_form h
  exact wellFormed_forms form hmem opcode recipe hvalue hencoding

end M68k
