import M68k.Proofs.Combine.Encoding
import M68k.Proofs.Move.Execute

/-!
# Operations on registers

The chain of an operation on a register brings the source in, operates while the queue moves on, and
lets the source register step. Latches keep what they held above a byte or a word, and neither the
register nor a condition code shows it.

## Main results

* `Snapshot.execute_operates`: the operation and the fetch that goes with it
* `Snapshot.execute_chained`: the stages of an operation on a register
* `Processor.runInstruction_combine`: operations on registers are executed as the programmer sees
  them
-/

namespace M68k

open Encoding Reference

namespace Snapshot

variable {s : Snapshot TestBench} {mode : AddressMode} {n : RegisterNumber} {size : Size}
  {place : Place} {r : Registers}

/-! ## The operation -/

/-- One word of the program is taken, and nothing else happens. -/
theorem perform_advances {activity : Activity} (h : activity.Advances) (s : Snapshot TestBench) :
    (s.perform TestBench.access activity).processor.registers = skipWord s.processor.registers ∧
      (s.perform TestBench.access activity).bus = s.bus := by
  induction h generalizing s with
  | fetch =>
    rw [perform_fetch]
    exact ⟨rfl, rfl⟩
  | before cycles _ ih =>
    rw [perform_append, perform_idle]
    exact ih _
  | after _ cycles ih =>
    rw [perform_append, perform_idle]
    exact ih _

theorem blind_advances {activity : Activity} (h : activity.Advances) : activity.Blind := by
  induction h with
  | fetch => decide
  | before cycles _ ih => exact List.forall_mem_append.2 ⟨by simp [Activity.idle]; rfl, ih⟩
  | after _ cycles ih => exact List.forall_mem_append.2 ⟨ih, by simp [Activity.idle]; rfl⟩

/-- A source that is not in the prefetch queue stays the same while a word is fetched. -/
theorem source_fetch (h : s.processor.instruction.source ≠ .prefetch) :
    (s.perform TestBench.access .fetch).processor.source = s.processor.source := by
  rw [perform_fetch]
  change Processor.readOperand _ s.processor.instruction.source = s.processor.source
  rw [Processor.source]
  cases hcase : s.processor.instruction.source <;> first | rfl | exact absurd hcase h

/-- **The operation** is carried out in the registers, and a word of the program is taken. -/
theorem execute_operates {stages : List Stage}
    (hoperates : Operates s.processor.instruction.operation stages)
    (hsource : s.processor.instruction.source ≠ .prefetch)
    (hadmits : (recipientOf s.processor.instruction.destination).admits
      s.processor.instruction.size s.processor.instruction.operation) :
    let instruction := s.processor.instruction
    (s.execute TestBench.access stages).processor.registers =
        skipWord (combine s.processor.opcode instruction.operation instruction.size
          (instruction.size.truncate s.processor.source) s.processor.registers
          (recipientOf instruction.destination)) ∧
      (s.execute TestBench.access stages).bus = s.bus := by
  intro instruction
  cases hoperates with
  | perform htail =>
    rw [← Processor.registers_compute hadmits]
    exact perform_advances htail _
  | multiply hmultiply =>
    have hbus : s.fire (.bus .fetch) = s := rfl
    have hfetched := perform_fetch s
    have hsame := source_fetch hsource
    rw [execute_cons, execute_cons, execute_nil, hbus, Stage.bus]
    generalize s.perform TestBench.access .fetch = fetched at hfetched hsame
    have hinstruction : fetched.processor.instruction = instruction := by rw [hfetched]; rfl
    have hopcode : fetched.processor.opcode = s.processor.opcode := by rw [hfetched]; rfl
    have hregisters : fetched.processor.registers = skipWord s.processor.registers := by
      rw [hfetched]
      rfl
    have hcompute := Processor.registers_compute (p := fetched.processor)
      (by rw [hinstruction]; exact hadmits)
    rw [hinstruction, hopcode, hregisters, hsame, combine_skipWord hmultiply hadmits] at hcompute
    have hkept : fetched.bus = s.bus := by rw [hfetched]; rfl
    rw [Stage.perform, perform_flexible]
    exact ⟨hcompute, hkept⟩

theorem blind_operates {operation : Operation} {stages : List Stage}
    (h : Operates operation stages) : ∀ stage ∈ stages, stage.activity.Blind := by
  cases h with
  | perform htail => exact List.forall_mem_singleton.2 (blind_advances htail)
  | multiply => decide

theorem blind_stepPast (mode : AddressMode) (n : RegisterNumber) (size : Size) (target : Target) :
    ∀ stage ∈ Encoding.stepPast mode n size target, stage.activity.Blind := by
  cases mode <;> simp [Encoding.stepPast, Stage.act, Activity.Blind]

/-! ## The stages -/

theorem ofMode_ne_prefetch (mode : AddressMode) (n : RegisterNumber) :
    Operand.ofMode mode n .sourceLatch ≠ .prefetch := by
  cases mode <;> nofun

/-- A number from 1 to 8 is an operand of any size. -/
theorem truncate_quick (size : Size) :
    size.truncate (s.processor.readOperand .quick) = quickNumber s.processor.opcode := by
  have hvalue : s.processor.readOperand .quick = quickNumber s.processor.opcode := by
    rw [Processor.readOperand, quickNumber]
    split <;> simp_all
  have hnumber : s.processor.opcode.toNat / 512 % 8 < 8 := Nat.mod_lt _ (by decide)
  rw [hvalue, quickNumber]
  generalize s.processor.opcode.toNat / 512 % 8 = number at hnumber
  interval_cases number <;> cases size <;> rfl

/-- The register that steps past an operand does not hold it. -/
theorem readOperand_stepPast (mode : AddressMode) (n : RegisterNumber) (m : RegisterIndex)
    (size : Size) :
    (s.withRegisters (Reference.stepPast mode m size s.processor.registers)).processor.readOperand
        (.ofMode mode n .sourceLatch) =
      s.processor.readOperand (.ofMode mode n .sourceLatch) := by
  cases mode <;> rfl

/-- The source of an operation has been brought in. -/
structure Fetched (mode : AddressMode) (n : RegisterNumber) (instruction : Instruction)
    (source : Long) (r : Registers) (s s' : Snapshot TestBench) : Prop where
  registers : s'.processor.registers = r
  bus : s'.bus = s.bus
  kept : s'.processor.instruction = instruction
  opcode : s'.processor.opcode = s.processor.opcode
  value : instruction.size.truncate (s'.processor.readOperand (.ofMode mode n .sourceLatch)) = source

/-- The stages that fetch the source bring it in. -/
theorem fetched_fetchSource {instruction : Instruction} (hcoherent : s.Coherent)
    (hinstruction : s.processor.instruction = instruction) (hn : n.toNat < 8)
    (hregister : instruction.sourceRegister = n)
    (hlocate : locate s.bus.memory mode n.index instruction.size s.processor.registers =
      (place, r)) :
    Fetched mode n instruction (place.read ⟨r, s.bus.memory⟩ instruction.size) r s
      (s.execute TestBench.access (fetchSource mode n instruction.size)) := by
  have hside : s.processor.instruction.sourceRegister = n := by rw [hinstruction, hregister]
  obtain ⟨hregisters, -, hbus, hvalue⟩ := source_fetchSource hcoherent hn hside hlocate
  exact
    { registers := hregisters
      bus := hbus
      kept := (instruction_execute TestBench.access _ s).trans hinstruction
      opcode := opcode_execute TestBench.access _ s
      value := hvalue }

/-- A source is all that is read if nothing is read behind it. -/
theorem reads_fetchSource_append {later : List Stage} (hcoherent : s.Coherent) (hn : n.toNat < 8)
    (hregister : s.processor.instruction.sourceRegister = n)
    (hlocate : locate s.bus.memory mode n.index size s.processor.registers = (place, r))
    (hlater : ∀ stage ∈ later, stage.activity.Blind) :
    s.reads TestBench.access (fetchSource mode n size ++ later) = place.addresses size := by
  rw [reads_append, reads_fetchSource hcoherent hn hregister hlocate,
    reads_of_blind TestBench.access hlater, List.append_nil]

/-- A register may step past the source at once. -/
theorem Fetched.execute_stepPast {instruction : Instruction} {source : Long}
    {s' : Snapshot TestBench} (h : Fetched mode n instruction source r s s') (hn : n.toNat < 8)
    (hregister : instruction.sourceRegister = n) :
    Fetched mode n instruction source (Reference.stepPast mode n.index instruction.size r) s
      (s'.execute TestBench.access (Encoding.stepPast mode n instruction.size .src)) := by
  obtain ⟨rfl, hbus, rfl, hopcode, rfl⟩ := h
  have hpast := Snapshot.execute_stepPast (s := s') mode s'.processor.instruction.size .source hn
    hregister
  rw [Side.target] at hpast
  rw [hpast]
  exact ⟨rfl, hbus, rfl, hopcode, congrArg _ (readOperand_stepPast mode n n.index _)⟩

/-- The operation behind the source. -/
theorem Fetched.execute_operates {instruction : Instruction} {source : Long}
    {s' : Snapshot TestBench} {operate : List Stage} (h : Fetched mode n instruction source r s s')
    (hsource : instruction.source = .ofMode mode n .sourceLatch)
    (hoperates : Operates instruction.operation operate)
    (hadmits : (recipientOf instruction.destination).admits instruction.size
      instruction.operation) :
    (s'.execute TestBench.access operate).processor.registers =
        skipWord (combine s.processor.opcode instruction.operation instruction.size source r
          (recipientOf instruction.destination)) ∧
      (s'.execute TestBench.access operate).bus = s.bus := by
  obtain ⟨rfl, hbus, rfl, hopcode, rfl⟩ := h
  obtain ⟨hregisters, hkept⟩ := Snapshot.execute_operates hoperates
    (by rw [hsource]; exact ofMode_ne_prefetch mode n) hadmits
  rw [hopcode, Processor.source, hsource] at hregisters
  exact ⟨hregisters, hkept.trans hbus⟩

/-- The source register steps behind the operation. If it is not the recipient of a comparison that
looks at it, it might as well have done so before. -/
theorem Fetched.execute_last {instruction : Instruction} {source : Long} {s' : Snapshot TestBench}
    {operate : List Stage} (h : Fetched mode n instruction source r s s') (hn : n.toNat < 8)
    (hregister : instruction.sourceRegister = n)
    (hsource : instruction.source = .ofMode mode n .sourceLatch)
    (hoperates : Operates instruction.operation operate)
    (hadmits : (recipientOf instruction.destination).admits instruction.size
      instruction.operation)
    (hrecipient : recipientOf instruction.destination ≠ .status) :
    let final := s'.execute TestBench.access
      (operate ++ Encoding.stepPast mode n instruction.size .src)
    ((instruction.operation = .cmpa → mode = .postIncrement →
          recipientOf instruction.destination ≠ .address n.index) →
        final.processor.registers =
          skipWord (combine s.processor.opcode instruction.operation instruction.size source
            (Reference.stepPast mode n.index instruction.size r)
            (recipientOf instruction.destination))) ∧
      final.bus = s.bus := by
  obtain ⟨hregisters, hbus⟩ := h.execute_operates hsource hoperates hadmits
  have hkept : (s'.execute TestBench.access operate).processor.instruction.register .source = n := by
    rw [instruction_execute, h.kept]
    exact hregister
  have hpast := Snapshot.execute_stepPast mode instruction.size .source hn hkept
  rw [Side.target] at hpast
  dsimp only
  rw [execute_append, hpast]
  refine ⟨fun hcompared => ?_, hbus⟩
  rw [← stepPast_combine mode n.index hrecipient hcompared, ← stepPast_skipWord, ← hregisters]
  rfl

/-- **The stages of an operation on a register do what the programmer sees**, and read the source
once. -/
theorem execute_chained {instruction : Instruction} {opcode : Word} {stages : List Stage}
    {combination : Combination} (hcoherent : s.Coherent)
    (hinstruction : s.processor.instruction = instruction) (hopcode : s.processor.opcode = opcode)
    (hcombines : Recipe.Combines ⟨instruction, stages⟩ opcode combination) :
    (combination.Apart →
        (s.execute TestBench.access stages).processor.registers =
          operateOnRegister opcode combination ⟨s.processor.registers, s.bus.memory⟩) ∧
      (s.execute TestBench.access stages).bus = s.bus ∧
      s.reads TestBench.access stages =
        combination.supply.addresses s.bus.memory combination.size s.processor.registers := by
  obtain ⟨hoperation, hsize, hrecipient, hadmits, hchained⟩ := hcombines
  obtain ⟨operation, size, supply, recipient⟩ := combination
  dsimp only at hoperation hsize hrecipient hadmits hchained ⊢
  subst hoperation hsize hrecipient hopcode
  cases hchained with
  | @last mode n hn hregister hsource operate hoperates hstatus =>
    obtain ⟨⟨place, r⟩, hlocate⟩ : ∃ located, locate s.bus.memory mode n.index instruction.size
      s.processor.registers = located := ⟨_, rfl⟩
    have hfetched := fetched_fetchSource hcoherent hinstruction hn hregister hlocate
    have hblind : ∀ stage ∈ operate ++ Encoding.stepPast mode n instruction.size .src,
        stage.activity.Blind :=
      List.forall_mem_append.2 ⟨blind_operates hoperates, blind_stepPast mode n _ _⟩
    obtain ⟨hregisters, hbus⟩ :=
      hfetched.execute_last hn hregister hsource hoperates hadmits hstatus
    rw [List.append_assoc, execute_append, Supply.addresses, hlocate,
      reads_fetchSource_append hcoherent hn (by rwa [hinstruction]) hlocate hblind]
    refine ⟨fun hapart => ?_, hbus, rfl⟩
    simp only [operateOnRegister, Supply.take, hlocate]
    exact hregisters fun hcompared hmode => hapart n.index (by rw [hmode]) hcompared
  | @first mode n hn hregister hsource operate hoperates =>
    obtain ⟨⟨place, r⟩, hlocate⟩ : ∃ located, locate s.bus.memory mode n.index instruction.size
      s.processor.registers = located := ⟨_, rfl⟩
    have hfetched := fetched_fetchSource hcoherent hinstruction hn hregister hlocate
    have hblind : ∀ stage ∈ Encoding.stepPast mode n instruction.size .src ++ operate,
        stage.activity.Blind :=
      List.forall_mem_append.2 ⟨blind_stepPast mode n _ _, blind_operates hoperates⟩
    obtain ⟨hregisters, hbus⟩ :=
      (hfetched.execute_stepPast hn hregister).execute_operates hsource hoperates hadmits
    rw [List.append_assoc, execute_append, execute_append, Supply.addresses, hlocate,
      reads_fetchSource_append hcoherent hn (by rwa [hinstruction]) hlocate hblind]
    refine ⟨fun _ => ?_, hbus, rfl⟩
    simp only [operateOnRegister, Supply.take, hlocate]
    exact hregisters
  | @number hsource operate hoperates =>
    have hsupplied : s.processor.instruction.source ≠ .prefetch := by
      rw [hinstruction, hsource]
      exact Operand.noConfusion
    obtain ⟨hregisters, hbus⟩ := execute_operates (s := s) (by rwa [hinstruction]) hsupplied
      (by rwa [hinstruction])
    rw [reads_of_blind TestBench.access (blind_operates hoperates)]
    refine ⟨fun _ => ?_, hbus, rfl⟩
    rw [Processor.source, hinstruction, hsource, truncate_quick] at hregisters
    exact hregisters

end Snapshot

namespace Processor

variable {tables : Tables}

/-- An operation on a register that starts at a boundary is executed as the programmer sees it. -/
theorem runInstruction_of_combine (hrealizes : tables.Realizes forms) (bench : TestBench)
    {p : Processor} {recipe : Recipe} {encoding : Word → Option Recipe}
    {meaning : Word → Option Combination} (hboundary : p.atBoundary tables)
    (hinterrupt : p.pendingInterrupt? = none)
    (hqueue : p.prefetch = bench.memory.wordAt (p.registers.pc - 4) ++
      bench.memory.wordAt (p.registers.pc - 2))
    (hdecode : decode? forms (Half.high.get p.prefetch) = some recipe)
    (hprivilege : recipe.instruction.requiresSupervisor → p.registers.isSupervisor)
    (hencoding : (encoding, meaning) ∈ combining)
    (hrecipe : encoding (Half.high.get p.prefetch) = some recipe)
    (hregister : recipe.instruction.destination ≠ .destinationLatch) :
    let opcode := Half.high.get p.prefetch
    let final := p.runInstruction tables TestBench.access bench
    ∃ combination, meaning opcode = some combination ∧
      final.processor.atBoundary tables ∧ final.bus = bench ∧
      final.reads =
        combination.supply.addresses bench.memory combination.size p.registers ∧
      (combination.Apart →
        final.processor.registers =
          operateOnRegister opcode combination ⟨p.registers, bench.memory⟩) := by
  obtain ⟨combination, hmeaning, hcombines⟩ := combines_of_mem hencoding hrecipe hregister
  have hplain : recipe.instruction.operation.redirects = false := by
    have hadmits := hcombines.admits
    rw [← hcombines.operation] at hadmits
    generalize combination.recipient = recipient at hadmits
    cases hcase : recipe.instruction.operation <;> rw [hcase] at hadmits <;>
      first | rfl | (cases recipient <;> cases hadmits)
  have hexecute := snapshot_runInstruction TestBench.access hrealizes hboundary hinterrupt hdecode
    hprivilege hplain bench
  have hreads := reads_runInstruction TestBench.access hrealizes hboundary hinterrupt hdecode
    hprivilege hplain bench
  obtain ⟨hregisters, hbus, hread⟩ :=
    Snapshot.execute_chained (s := p.dispatched recipe.instruction bench) hqueue rfl rfl hcombines
  rw [← hexecute] at hregisters hbus
  rw [← hreads] at hread
  exact ⟨combination, hmeaning,
    (runInstruction_atBoundary TestBench.access hrealizes hboundary bench).1, hbus, hread,
    hregisters⟩

/-- **Operations on registers are executed as the programmer sees them.** From every boundary at
which the prefetch queue agrees with memory, an instruction run on an operation that combines a
source with a data register, an address register or the status register reads the source once, where
its addressing mode says, writes no memory, and leaves the registers as it should. For a comparison
of an address register that steps past the operand, see `Combination.Apart`. -/
theorem runInstruction_combine (bench : TestBench) {p : Processor} {recipe : Recipe}
    {encoding : Word → Option Recipe} {meaning : Word → Option Combination}
    (hboundary : p.atBoundary (.compile forms)) (hinterrupt : p.pendingInterrupt? = none)
    (hqueue : p.prefetch = bench.memory.wordAt (p.registers.pc - 4) ++
      bench.memory.wordAt (p.registers.pc - 2))
    (hdecode : decode? forms (Half.high.get p.prefetch) = some recipe)
    (hprivilege : recipe.instruction.requiresSupervisor → p.registers.isSupervisor)
    (hencoding : (encoding, meaning) ∈ combining)
    (hrecipe : encoding (Half.high.get p.prefetch) = some recipe)
    (hregister : recipe.instruction.destination ≠ .destinationLatch) :
    let opcode := Half.high.get p.prefetch
    let final := p.runInstruction (.compile forms) TestBench.access bench
    ∃ combination, meaning opcode = some combination ∧
      final.processor.atBoundary (.compile forms) ∧ final.bus = bench ∧
      final.reads =
        combination.supply.addresses bench.memory combination.size p.registers ∧
      (combination.Apart →
        final.processor.registers =
          operateOnRegister opcode combination ⟨p.registers, bench.memory⟩) := by
  exact runInstruction_of_combine Tables.realizes_compile bench hboundary hinterrupt hqueue hdecode
    hprivilege hencoding hrecipe hregister

/-- In a memory of `0xDA` everywhere, `ADDA.W (A2)+,A5` adds a word that is negative, lets A2 step
past it, and touches no condition code. -/
theorem runInstruction_combine_filled :
    let tables := Tables.compile forms
    let p := facing tables 0xDADADADA .initial
    let final := p.runInstruction tables TestBench.access (filledBench 0xDA)
    final.processor.registers.address 5 = 0xFFFFDADA ∧
      final.processor.registers.address 2 = 2 ∧
      final.processor.registers.sr = p.registers.sr := by
  have hopcode : Half.high.get (facing (.compile forms) 0xDADADADA .initial).prefetch = 0xDADA := by
    change Half.high.get 0xDADADADA = 0xDADA
    decide
  have hqueue : (facing (.compile forms) 0xDADADADA .initial).prefetch =
      (filledBench 0xDA).memory.wordAt
          ((facing (.compile forms) 0xDADADADA .initial).registers.pc - 4) ++
        (filledBench 0xDA).memory.wordAt
          ((facing (.compile forms) 0xDADADADA .initial).registers.pc - 2) := by
    rw [wordAt_filledBench, wordAt_filledBench]
    rfl
  have hdecode : decode? forms 0xDADA = addressAddSub .adda 0xDADA := rfl
  obtain ⟨recipe, hrecipe⟩ : ∃ recipe, addressAddSub .adda 0xDADA = some recipe := ⟨_, rfl⟩
  have hencoding : (addressAddSub .adda, intoAddress .adda) ∈ combining := by simp [combining]
  obtain ⟨combination, hmeaning, -, -, -, hregisters⟩ := runInstruction_combine
    (p := facing (.compile forms) 0xDADADADA .initial) (filledBench 0xDA)
    (atBoundary_atRest Tables.realizes_compile _) (pendingInterrupt?_of_level rfl) hqueue
    (by rw [hopcode, hdecode, hrecipe]) (by cases hrecipe; exact Bool.noConfusion) hencoding
    (by rw [hopcode, hrecipe]) (by cases hrecipe; exact Operand.noConfusion)
  rw [hopcode] at hmeaning hregisters
  cases hmeaning
  have hfinal := hregisters fun _ _ => Operation.noConfusion
  have hread : (filledBench 0xDA).memory.read .word 0 = 0xDADA := by
    rw [Memory.read, wordAt_filledBench]
    rfl
  have hoperand : Size.word.signExtend ((filledBench 0xDA).memory.read .word 0) = 0xFFFFDADA := by
    rw [hread]
    decide
  refine ⟨?_, ?_, ?_⟩
  · refine (congrArg (Registers.address · 5) hfinal).trans ?_
    refine (Registers.address_setAddress_self _ _ _).trans ?_
    exact (congrArg (0 + ·) hoperand).trans rfl
  · exact (congrArg (Registers.address · 2) hfinal).trans rfl
  · exact (congrArg Registers.sr hfinal).trans rfl

end Processor

end M68k
