import M68k.Proofs.Combine.Execute
import M68k.Proofs.Memory.Words

/-!
# Operations on the register that addresses their source

An operation on an address register may take its source from where the same register points, and let
it step. A register that steps down has done so before anything is read. One that steps up does so
when the operation is over: then a sum or a difference is put on top of the step, which comes to the
same, but a comparison has looked at the register before its step.

## Main definitions

* `Encoding.ownOpcode`: the opcodes of these operations
* `Reference.operateOnOwn`: what they leave in the registers, from what is compared

## Main results

* `Encoding.decode_ownOpcode`: the opcodes stand for these operations
* `Snapshot.fetched_stepping`: the source, whatever is in the prefetch queue
* `Processor.runInstruction_ownRegister`: what these operations do
* `Processor.runInstruction_compare_unstepped`: a comparison does not look at the register that has
  stepped up
-/

namespace M68k

open Status Encoding Reference

/-! ## Opcodes -/

namespace Encoding

/-- The operations on address registers, with the upper four bits of their opcodes. -/
def addressLines : List (Operation × Nat) := [(.adda, 0xD), (.suba, 0x9), (.cmpa, 0xB)]

theorem operation_of_mem {operation : Operation} {line : Nat}
    (hline : (operation, line) ∈ addressLines) :
    operation = .adda ∨ operation = .suba ∨ operation = .cmpa := by
  simp only [addressLines, List.mem_cons, Prod.mk.injEq, List.not_mem_nil, or_false] at hline
  rcases hline with ⟨h, -⟩ | ⟨h, -⟩ | ⟨h, -⟩ <;> simp only [h, true_or, or_true]

/-- The opcode of an operation on address register `n` whose source this register steps past or down
to. -/
def ownOpcode (line : Nat) (size : Size) (mode : AddressMode) (n : RegisterIndex) : Word :=
  let sizeField := if size = .long then 0x1C0 else 0xC0
  let modeField := if mode = .preDecrement then 0x20 else 0x18
  BitVec.ofNat 16 (0x1000 * line + 0x200 * n + sizeField + modeField + n)

/-- The recipe of such an operation. -/
def ownRecipe (operation : Operation) (size : Size) (mode : AddressMode) (n : RegisterIndex) :
    Recipe :=
  let register := RegisterNumber.ofField n
  let cycles := if operation = .cmpa ∨ size = .long then 4 else 8
  ⟨((Instruction.bare operation size).withSource mode register).withDestination .addressRegister
    register, intoRegister mode register size (.fetch ++ .idle cycles)⟩

/-- The opcodes stand for these operations. -/
theorem decode_ownOpcode {operation : Operation} {line : Nat}
    (hline : (operation, line) ∈ addressLines) {size : Size} (hsize : size ≠ .byte)
    {mode : AddressMode} (hmode : mode = .postIncrement ∨ mode = .preDecrement)
    (n : RegisterIndex) :
    decode? forms (ownOpcode line size mode n) = some (ownRecipe operation size mode n) := by
  have hall : ∀ pair ∈ addressLines, ∀ size ∈ [Size.word, .long],
      ∀ mode ∈ [AddressMode.postIncrement, .preDecrement], ∀ n : RegisterIndex,
        decode? forms (ownOpcode pair.2 size mode n) = some (ownRecipe pair.1 size mode n) := by
    decide +kernel
  have hmem : size ∈ [Size.word, .long] := by
    cases size with
    | byte => exact absurd rfl hsize
    | word | long => decide
  exact hall (operation, line) hline size hmem mode (by simpa using hmode) n

end Encoding

/-! ## In the registers -/

namespace Reference

/-- The register after its step. -/
def ownStepped (mode : AddressMode) (n : RegisterIndex) (size : Size) (r : Registers) : Long :=
  if mode = .preDecrement then r.address n - stepLength size n else r.address n + stepLength size n

/-- Where the operand is: a register steps down to it, or up from it. -/
def ownPlace (mode : AddressMode) (n : RegisterIndex) (size : Size) (r : Registers) : Long :=
  if mode = .preDecrement then ownStepped mode n size r else r.address n

section

variable (n : RegisterIndex) (size : Size) (r : Registers)

@[simp] theorem ownStepped_postIncrement :
    ownStepped .postIncrement n size r = r.address n + stepLength size n := rfl

@[simp] theorem ownStepped_preDecrement :
    ownStepped .preDecrement n size r = r.address n - stepLength size n := rfl

@[simp] theorem ownPlace_postIncrement : ownPlace .postIncrement n size r = r.address n := rfl

@[simp] theorem ownPlace_preDecrement :
    ownPlace .preDecrement n size r = r.address n - stepLength size n := rfl

end

/-- What an operation on an address register leaves that has stepped for its source. Sums and
differences start from the register that has stepped, and `compared` is what a comparison looks
at. -/
def operateOnOwn (operation : Operation) (n : RegisterIndex) (operand stepped compared : Long)
    (r : Registers) : Registers :=
  match operation with
  | .adda => r.setAddress n (stepped + operand)
  | .suba => r.setAddress n (stepped - operand)
  | _ =>
    { r.setAddress n stepped with
      sr := (Arithmetic.compare operand compared .long r.sr).status &&& implemented }

/-- The operation and the step in the order of the stages. -/
theorem stepPast_combine_own {operation : Operation} {line : Nat}
    (hline : (operation, line) ∈ addressLines) {mode : AddressMode}
    (hmode : mode = .postIncrement ∨ mode = .preDecrement) (opcode : Word) (memory : Memory)
    (n : RegisterIndex) (size : Size) (source : Long) (r : Registers) :
    stepPast mode n size (combine opcode operation size source (locate memory mode n size r).2
        (.address n)) =
      operateOnOwn operation n (size.signExtend source) (ownStepped mode n size r)
        (ownPlace mode n size r) r := by
  have hoperation := operation_of_mem hline
  rcases hmode with rfl | rfl
  · -- the step comes on top of what the operation has left
    have hsum (change : Long) : (r.setAddress n (r.address n + change)).setAddress n
        ((r.setAddress n (r.address n + change)).address n + stepLength size n) =
          r.setAddress n (r.address n + stepLength size n + change) := by
      rw [Registers.setAddress_setAddress, Registers.address_setAddress_self]
      congr 1
      ac_rfl
    rw [ownStepped_postIncrement, ownPlace_postIncrement]
    rcases hoperation with rfl | rfl | rfl
    · exact hsum _
    · simp only [combine, operateOnOwn, BitVec.sub_eq_add_neg]
      exact hsum _
    · rfl
  · -- the operation works on the register that has stepped
    have hstepped (value : Long) : (r.setAddress n (r.address n - stepLength size n)).setAddress n
        value = r.setAddress n value := Registers.setAddress_setAddress r n _ _
    have haddress : (r.setAddress n (r.address n - stepLength size n)).address n =
        r.address n - stepLength size n := Registers.address_setAddress_self r n _
    rw [ownStepped_preDecrement, ownPlace_preDecrement]
    rcases hoperation with rfl | rfl | rfl
    · simp only [combine, locate, stepPast, operateOnOwn, haddress, hstepped]
    · simp only [combine, locate, stepPast, operateOnOwn, haddress, hstepped]
    · simp only [combine, locate, stepPast, operateOnOwn, haddress]
      rfl

/-- Only a comparison with an operand that a register steps past looks at it before its step. -/
theorem operateOnOwn_place {operation : Operation} {line : Nat}
    (hline : (operation, line) ∈ addressLines) {mode : AddressMode}
    (hmode : mode = .postIncrement ∨ mode = .preDecrement)
    (hcompared : ¬ (operation = .cmpa ∧ mode = .postIncrement)) (n : RegisterIndex) (size : Size)
    (operand : Long) (r : Registers) :
    operateOnOwn operation n operand (ownStepped mode n size r) (ownPlace mode n size r) r =
      operateOnOwn operation n operand (ownStepped mode n size r) (ownStepped mode n size r) r := by
  rcases hmode with rfl | rfl
  · rcases operation_of_mem hline with rfl | rfl | rfl
    · rfl
    · rfl
    · exact absurd ⟨rfl, rfl⟩ hcompared
  · rfl

end Reference

/-! ## The source -/

namespace Snapshot

variable {s : Snapshot TestBench} {mode : AddressMode} {n : RegisterNumber}

/-- An operand that a register points at is read whatever is in the prefetch queue. -/
theorem taken_indirect (size : Size) (hregister : s.processor.instruction.sourceRegister = n) :
    let s' := s.execute TestBench.access (readMemory .source .src .indirect n size)
    s'.processor.registers = s.processor.registers ∧ s'.bus = s.bus ∧
      size.truncate (s'.processor.data.get .source) =
        s.bus.memory.read size (s.processor.registers.address n.index) := by
  by_cases hsize : size = .long
  · subst hsize hregister
    have hfired := fire_address (s := s) .register .source
      (readOperand .source .long (.ofSide .source))
    have hstages : readMemory .source .src .indirect
        s.processor.instruction.sourceRegister .long =
      [⟨.address .register, Side.source.target, readOperand .source .long (.ofSide .source)⟩] := rfl
    rw [hstages, execute_cons, execute_nil, hfired]
    have htaken := taken_latched (s := s.aim .source
      (s.processor.formAddress .register (s.processor.sideRegister .source))) .long .source
    have haddress : (s.aim .source (s.processor.formAddress .register
        (s.processor.sideRegister .source))).processor.effectiveAddress.get .source =
        s.processor.registers.address s.processor.instruction.sourceRegister.index :=
      s.processor.effectiveAddress.get_set_self .source _
    rw [haddress] at htaken
    exact ⟨htaken.registers, htaken.bus, htaken.value⟩
  · have hstages : readMemory .source .src .indirect n size =
        [.bus (readOperand .source size (.addressRegister n))] := by
      cases size <;> first | rfl | exact absurd rfl hsize
    have hbus : s.fire (.bus (readOperand .source size (.addressRegister n))) = s := rfl
    have htaken := taken_direct (s := s) hsize .source (.addressRegister n)
    rw [hstages, execute_cons, execute_nil, hbus]
    exact ⟨htaken.registers, htaken.bus, htaken.value⟩

/-- **The source at a step of a register is brought in**, whatever is in the prefetch queue. -/
theorem fetched_stepping {instruction : Instruction}
    (hmode : mode = .postIncrement ∨ mode = .preDecrement)
    (hinstruction : s.processor.instruction = instruction) (hn : n.toNat < 8)
    (hregister : instruction.sourceRegister = n) :
    Fetched mode n instruction
      (s.bus.memory.read instruction.size
        (ownPlace mode n.index instruction.size s.processor.registers))
      (locate s.bus.memory mode n.index instruction.size s.processor.registers).2 s
      (s.execute TestBench.access (fetchSource mode n instruction.size)) := by
  subst hinstruction
  have hopen : Operand.ofMode mode n .sourceLatch = .sourceLatch := by
    rcases hmode with rfl | rfl <;> rfl
  obtain ⟨stepped, hregisters, haddress, hbus, hside, hexecute⟩ : ∃ stepped : Snapshot TestBench,
      stepped.processor.registers = (locate s.bus.memory mode n.index
        s.processor.instruction.size s.processor.registers).2 ∧
      stepped.processor.registers.address n.index =
        ownPlace mode n.index s.processor.instruction.size s.processor.registers ∧
      stepped.bus = s.bus ∧ stepped.processor.instruction.sourceRegister = n ∧
      s.execute TestBench.access (fetchSource mode n s.processor.instruction.size) =
        stepped.execute TestBench.access
          (readMemory .source .src .indirect n s.processor.instruction.size) := by
    generalize s.processor.instruction.size = size
    rcases hmode with rfl | rfl
    · exact ⟨s, rfl, rfl, rfl, hregister, by cases size <;> rfl⟩
    · have hindex : (s.processor.instruction.register .source).index = n.index := by
        rw [← hregister]
        rfl
      obtain ⟨hexecute, -⟩ := execute_preDecrement (s := s) .source size n
      rw [fire_decrement _ .source [] hindex, stride_bytes size hn] at hexecute
      exact ⟨(s.withRegisters (s.processor.registers.setAddress n.index
        (s.processor.registers.address n.index - stepLength size n.index))).timeless, rfl,
        Registers.address_setAddress_self _ _ _, rfl, hregister, hexecute⟩
  obtain ⟨hkept, hsame, hvalue⟩ := taken_indirect s.processor.instruction.size hside
  rw [← hexecute] at hkept hsame hvalue
  rw [haddress, hbus] at hvalue
  exact
    { registers := hkept.trans hregisters
      bus := hsame.trans hbus
      kept := instruction_execute TestBench.access _ s
      opcode := opcode_execute TestBench.access _ s
      value := by rw [hopen]; exact hvalue }

/-- **The stages of an operation on the register that addresses its source.** -/
theorem execute_own {operation : Operation} {line : Nat} (hline : (operation, line) ∈ addressLines)
    {size : Size} (hmode : mode = .postIncrement ∨ mode = .preDecrement) {n : RegisterIndex}
    (hinstruction : s.processor.instruction = (ownRecipe operation size mode n).instruction) :
    let r := s.processor.registers
    let operand := size.signExtend (s.bus.memory.read size (ownPlace mode n size r))
    let final := s.execute TestBench.access (ownRecipe operation size mode n).stages
    final.processor.registers =
        skipWord (operateOnOwn operation n operand (ownStepped mode n size r)
          (ownPlace mode n size r) r) ∧
      final.bus = s.bus := by
  have hn : (RegisterNumber.ofField n).toNat < 8 := RegisterNumber.toNat_ofField_lt _
  have hindex : (RegisterNumber.ofField n).index = n :=
    (RegisterNumber.index_ofField _).trans (Fin.ofNat_val_eq_self n)
  obtain ⟨operate, hoperates, hstages⟩ : ∃ operate, Operates operation operate ∧
      (ownRecipe operation size mode n).stages =
        fetchSource mode (.ofField n) size ++ operate ++
          Encoding.stepPast mode (.ofField n) size .src :=
    ⟨_, .perform (.after .fetch _), rfl⟩
  have hadmits : (Recipient.address n).admits size operation := by
    rcases operation_of_mem hline with rfl | rfl | rfl <;> rfl
  have hfetched : Fetched mode (.ofField n) (ownRecipe operation size mode n).instruction
      (s.bus.memory.read size (ownPlace mode n size s.processor.registers))
      (locate s.bus.memory mode n size s.processor.registers).2 s
      (s.execute TestBench.access (fetchSource mode (.ofField n) size)) := by
    have h := fetched_stepping hmode hinstruction hn rfl
    rw [hindex] at h
    exact h
  have hrecipient : recipientOf (ownRecipe operation size mode n).instruction.destination =
      .address n := congrArg Recipient.address hindex
  obtain ⟨hregisters, hbus⟩ := hfetched.execute_operates rfl hoperates
    (by rw [hrecipient]; exact hadmits)
  rw [hrecipient] at hregisters
  have hkept := (instruction_execute TestBench.access operate _).trans hfetched.kept
  have hpast := Snapshot.execute_stepPast mode size .source hn
    (congrArg Instruction.sourceRegister hkept)
  have hown := stepPast_combine_own hline hmode s.processor.opcode s.bus.memory n size
    (s.bus.memory.read size (ownPlace mode n size s.processor.registers)) s.processor.registers
  rw [hindex] at hpast
  dsimp only
  rw [← hown, ← stepPast_skipWord, hstages, execute_append, execute_append, ← Side.target, hpast]
  exact ⟨congrArg (Reference.stepPast mode n size) hregisters, hbus⟩

end Snapshot

/-! ## Runs -/

namespace Processor

variable {tables : Tables}

/-- An operation on the register that addresses its source, from any boundary. -/
theorem runInstruction_of_own (hrealizes : tables.Realizes forms) (bench : TestBench)
    {p : Processor} {operation : Operation} {line : Nat} {size : Size} {mode : AddressMode}
    {n : RegisterIndex}
    (hboundary : p.atBoundary tables) (hinterrupt : p.pendingInterrupt? = none)
    (hopcode : Half.high.get p.prefetch = ownOpcode line size mode n)
    (hline : (operation, line) ∈ addressLines) (hsize : size ≠ .byte)
    (hmode : mode = .postIncrement ∨ mode = .preDecrement) :
    let r := p.registers
    let operand := size.signExtend (bench.memory.read size (ownPlace mode n size r))
    let stepped := ownStepped mode n size r
    let final := p.runInstruction tables TestBench.access bench
    final.processor.atBoundary tables ∧ final.bus = bench ∧
      (¬ (operation = .cmpa ∧ mode = .postIncrement) →
        final.processor.registers = skipWord (operateOnOwn operation n operand stepped stepped r)) ∧
      (operation = .cmpa ∧ mode = .postIncrement →
        final.processor.registers =
          skipWord (operateOnOwn .cmpa n operand stepped (r.address n) r)) := by
  have hdecode : decode? forms (Half.high.get p.prefetch) =
      some (ownRecipe operation size mode n) := by
    rw [hopcode]
    exact decode_ownOpcode hline hsize hmode n
  have hoperation : (ownRecipe operation size mode n).instruction.requiresSupervisor = false ∧
      (ownRecipe operation size mode n).instruction.operation.redirects = false := by
    rcases operation_of_mem hline with rfl | rfl | rfl <;> exact ⟨rfl, rfl⟩
  have hprivilege : (ownRecipe operation size mode n).instruction.requiresSupervisor →
      p.registers.isSupervisor := by
    rw [hoperation.1]
    exact fun h => absurd h Bool.false_ne_true
  have hexecute := snapshot_runInstruction TestBench.access hrealizes hboundary hinterrupt hdecode
    hprivilege hoperation.2 bench
  obtain ⟨hregisters, hbus⟩ := Snapshot.execute_own
    (s := p.dispatched (ownRecipe operation size mode n).instruction bench) hline hmode rfl
  rw [← hexecute] at hregisters hbus
  refine ⟨(runInstruction_atBoundary TestBench.access hrealizes hboundary bench).1, hbus, ?_, ?_⟩
  · intro hcompared
    rw [operateOnOwn_place hline hmode hcompared] at hregisters
    exact hregisters
  · rintro ⟨rfl, rfl⟩
    exact hregisters

/-- **An operation on an address register that steps for its source works on the register that has
stepped**: so do sums and differences of either size, and comparisons with an operand that the
register steps down to. A comparison with an operand that it steps past looks at the register before
its step, and leaves it stepped all the same. -/
theorem runInstruction_ownRegister (bench : TestBench) {p : Processor} {operation : Operation}
    {line : Nat} {size : Size} {mode : AddressMode} {n : RegisterIndex}
    (hboundary : p.atBoundary (.compile forms)) (hinterrupt : p.pendingInterrupt? = none)
    (hopcode : Half.high.get p.prefetch = ownOpcode line size mode n)
    (hline : (operation, line) ∈ addressLines) (hsize : size ≠ .byte)
    (hmode : mode = .postIncrement ∨ mode = .preDecrement) :
    let r := p.registers
    let operand := size.signExtend (bench.memory.read size (ownPlace mode n size r))
    let stepped := ownStepped mode n size r
    let final := p.runInstruction (.compile forms) TestBench.access bench
    final.processor.atBoundary (.compile forms) ∧ final.bus = bench ∧
      (¬ (operation = .cmpa ∧ mode = .postIncrement) →
        final.processor.registers = skipWord (operateOnOwn operation n operand stepped stepped r)) ∧
      (operation = .cmpa ∧ mode = .postIncrement →
        final.processor.registers =
          skipWord (operateOnOwn .cmpa n operand stepped (r.address n) r)) := by
  exact runInstruction_of_own Tables.realizes_compile bench hboundary hinterrupt hopcode hline hsize
    hmode

/-- In a memory of `0xDA` everywhere, `SUBA.W (A3)+,A3` subtracts a word that is negative from a
register that has stepped by two. -/
theorem runInstruction_ownRegister_filled :
    let tables := Tables.compile forms
    let p := facing tables 0x96DB0000 .initial
    let final := p.runInstruction tables TestBench.access (filledBench 0xDA)
    Half.high.get p.prefetch = ownOpcode 0x9 .word .postIncrement 3 ∧
      final.processor.registers.address 3 = 2 - 0xFFFFDADA := by
  have hopcode : Half.high.get (facing (.compile forms) 0x96DB0000 .initial).prefetch =
      ownOpcode 0x9 .word .postIncrement 3 := by
    change Half.high.get 0x96DB0000 = _
    decide
  have hline : (Operation.suba, 0x9) ∈ addressLines := by decide
  obtain ⟨-, -, hregisters, -⟩ := runInstruction_ownRegister (filledBench 0xDA)
    (p := facing (.compile forms) 0x96DB0000 .initial)
    (atBoundary_atRest Tables.realizes_compile _) (pendingInterrupt?_of_level rfl) hopcode hline
    nofun (.inl rfl)
  have hfinal := hregisters nofun
  have hread (address : Long) : (filledBench 0xDA).memory.read .word address = 0xDADA := by
    rw [Memory.read, wordAt_filledBench]
    rfl
  rw [hread] at hfinal
  refine ⟨hopcode, ?_⟩
  refine (congrArg (Registers.address · 3) hfinal).trans ?_
  exact (Registers.address_setAddress_self _ _ _).trans rfl

/-- A bench with `CMPA.L (A0)+,A0` at address 0, and zeros everywhere else. -/
def comparingBench : TestBench :=
  (filledBench 0).withMemory ((filledBench 0).memory.storeWord 0 0xB1D8)

theorem wordAt_comparingBench (address : Long) :
    comparingBench.memory.wordAt address =
      if Memory.wordAddress (address.setWidth 24) = 0 then 0xB1D8 else 0 := by
  have hother : (filledBench 0).memory.word (address.setWidth 24) = 0 :=
    wordAt_filledBench 0 address
  exact (Memory.word_storeWord _ _ _ _).trans (by rw [hother]; rfl)

/-- Registers of which one points at the last long word of memory, and steps past it to 0. -/
def comparingRegisters (n : RegisterIndex) : Registers :=
  { Registers.initial with pc := 4 }.setAddress n 0xFFFFFFFC

/-- **A comparison does not look at the register that has stepped up**: A0 steps to 0 and is
compared with 0, but it is found to be different and negative, as it was before. -/
theorem runInstruction_compare_unstepped :
    let tables := Tables.compile forms
    let r := comparingRegisters 0
    let p := facing tables 0xB1D80000 r
    let final := p.runInstruction tables TestBench.access comparingBench
    let operand := comparingBench.memory.read .long (r.address 0)
    let stepped := ownStepped .postIncrement 0 .long r
    Half.high.get p.prefetch = ownOpcode 0xB .long .postIncrement 0 ∧
      p.prefetch = comparingBench.memory.wordAt (r.pc - 4) ++
        comparingBench.memory.wordAt (r.pc - 2) ∧
      final.processor.registers.address 0 = stepped ∧ operand = stepped ∧
      has final.processor.registers.sr zero = false ∧
      has final.processor.registers.sr negative = true ∧
      final.processor.registers ≠ skipWord (operateOnOwn .cmpa 0 operand stepped stepped r) := by
  have hopcode :
      Half.high.get (facing (.compile forms) 0xB1D80000 (comparingRegisters 0)).prefetch =
        ownOpcode 0xB .long .postIncrement 0 := by
    change Half.high.get 0xB1D80000 = _
    decide
  have hqueue : (facing (.compile forms) 0xB1D80000 (comparingRegisters 0)).prefetch =
      comparingBench.memory.wordAt ((comparingRegisters 0).pc - 4) ++
        comparingBench.memory.wordAt ((comparingRegisters 0).pc - 2) := by
    rw [wordAt_comparingBench, wordAt_comparingBench]
    rfl
  have hoperand : comparingBench.memory.read .long ((comparingRegisters 0).address 0) = 0 := by
    rw [Memory.read, wordAt_comparingBench, wordAt_comparingBench]
    rfl
  have hline : (Operation.cmpa, 0xB) ∈ addressLines := by decide
  obtain ⟨-, -, -, hregisters⟩ := runInstruction_of_own Tables.realizes_compile comparingBench
    (p := facing (.compile forms) 0xB1D80000 (comparingRegisters 0))
    (atBoundary_atRest Tables.realizes_compile _) (pendingInterrupt?_of_level rfl) hopcode hline
    (by decide) (.inl rfl)
  have hfinal := hregisters ⟨rfl, rfl⟩
  have hextended : Size.long.signExtend (comparingBench.memory.read .long
      (ownPlace .postIncrement 0 .long (comparingRegisters 0))) = 0 := by
    rw [ownPlace_postIncrement, hoperand]
    decide
  have hstepped : ownStepped .postIncrement 0 .long (comparingRegisters 0) = 0 := by decide
  have hbefore : (comparingRegisters 0).address 0 = 0xFFFFFFFC := by decide
  have hsr : ((facing (.compile forms) 0xB1D80000 (comparingRegisters 0)).runInstruction
      (.compile forms) TestBench.access comparingBench).processor.registers.sr =
      (Arithmetic.compare 0 0xFFFFFFFC .long (comparingRegisters 0).sr).status &&& implemented := by
    refine (congrArg Registers.sr hfinal).trans ?_
    change (Arithmetic.compare (Size.long.signExtend _) _ .long _).status &&& implemented = _
    exact congrArg₂ (fun operand old => (Arithmetic.compare operand old .long
      (comparingRegisters 0).sr).status &&& implemented) hextended hbefore
  refine ⟨hopcode, hqueue, ?_, hoperand.trans hstepped.symm, ?_, ?_, ?_⟩
  · exact (congrArg (Registers.address · 0) hfinal).trans (Registers.address_setAddress_self _ _ _)
  · rw [hsr]
    decide
  · rw [hsr]
    decide
  · intro hclaimed
    have hsame := congrArg Registers.sr hclaimed
    rw [hsr, hoperand, hstepped] at hsame
    revert hsame
    decide

end Processor

end M68k
