import M68k.Proofs.Modify.Encoding
import M68k.Proofs.Move.Execute

/-!
# Operations on memory

The chain of an operation on memory addresses its operand once, reads it into the destination latch,
and writes it back from there, long words from the low word up. Reads of bytes and words leave what
else was in the latch, which no result and no condition code shows.

## Main definitions

* `Snapshot.Poised`: an operand in memory has been read, and can be written back

## Main results

* `Snapshot.poised_readMemory`: the stages that read the operand
* `Snapshot.poised_modify`: these and the stages that take the source
* `Snapshot.stored_operateAndWrite`: the activity that writes it back
* `Processor.runInstruction_modify`: operations on memory are executed as the programmer sees them
-/

namespace M68k

open Encoding Reference

namespace Snapshot

variable {s : Snapshot TestBench} {size : Size} {n : RegisterNumber} {mode : AddressMode}
  {address : Long} {r : Registers}

/-! ## The source -/

/-- The source of an operation is known. -/
structure Sourced (size : Size) (source : Long) (r : Registers) (s s' : Snapshot TestBench) :
    Prop where
  registers : s'.processor.registers = r
  coherent : s'.Coherent
  bus : s'.bus = s.bus
  value : size.truncate s'.processor.source = size.truncate source

/-- The stages in front take the source from the program, if it is there. -/
theorem sourced_lead {instruction : Instruction} (hcoherent : s.Coherent)
    (hinstruction : s.processor.instruction = instruction)
    (hsource : instruction.source.isModifier) {source : Long}
    (hmodifier : modifier s.bus.memory instruction s.processor.opcode s.processor.registers =
      (source, r)) :
    Sourced instruction.size source r s (s.execute TestBench.access instruction.lead) ∧
      s.reads TestBench.access instruction.lead = [] := by
  have hkept := instruction_execute TestBench.access instruction.lead s
  rw [hinstruction] at hkept
  have hnone (hlead : instruction.lead = [])
      (hvalue : s.processor.readOperand instruction.source = source)
      (hregisters : s.processor.registers = r) :
      Sourced instruction.size source r s (s.execute TestBench.access instruction.lead) ∧
        s.reads TestBench.access instruction.lead = [] := by
    rw [hlead]
    refine ⟨⟨hregisters, hcoherent, rfl, ?_⟩, rfl⟩
    rw [execute_nil, Processor.source, hinstruction, hvalue]
  cases hcase : instruction.source with
  | dataRegister m =>
    simp only [modifier, hcase, Prod.mk.injEq] at hmodifier
    exact hnone (by simp only [Instruction.lead, hcase]) (by rw [hcase]; exact hmodifier.1)
      hmodifier.2
  | none =>
    simp only [modifier, hcase, Prod.mk.injEq] at hmodifier
    exact hnone (by simp only [Instruction.lead, hcase]) (by rw [hcase]; exact hmodifier.1)
      hmodifier.2
  | quick =>
    simp only [modifier, hcase, Prod.mk.injEq] at hmodifier
    refine hnone (by simp only [Instruction.lead, hcase]) ?_ hmodifier.2
    rw [hcase, ← hmodifier.1, Processor.readOperand]
    split <;> simp_all
  | sourceLatch =>
    have hlead : instruction.lead = fetchImmediate instruction.size := by
      simp only [Instruction.lead, hcase]
    have hlocate : locate s.bus.memory .immediate 0 instruction.size s.processor.registers =
        (.constant source, r) := by
      simp only [modifier, hcase] at hmodifier
      cases hsize : instruction.size <;> rw [hsize] at hmodifier <;> cases hmodifier <;> rfl
    have hbrought := brought_fetchImmediate instruction.size hcoherent hlocate
    rw [hlead] at hkept ⊢
    refine ⟨⟨hbrought.registers, hbrought.coherent, hbrought.bus, ?_⟩,
      reads_of_blind TestBench.access (blind_fetchImmediate instruction.size) s⟩
    rw [Processor.source, hkept, hcase]
    exact hbrought.value
  | addressRegister | destinationLatch | prefetch | effectiveAddress =>
    rw [hcase] at hsource
    cases hsource

/-! ## The destination -/

/-- An operand in memory has been read, and can be written back. -/
structure Poised (mode : AddressMode) (size : Size) (n : RegisterNumber) (address : Long)
    (r : Registers) (s s' : Snapshot TestBench) : Prop where
  registers : s'.processor.registers = r
  coherent : s'.Coherent
  bus : s'.bus = s.bus
  value : size.truncate s'.processor.data.destination = s.bus.memory.read size address
  source : s'.processor.data.source = s.processor.data.source
  direct : size ≠ .long → s'.processor.resolve (writeAddress mode n) = address
  long : size = .long → s'.processor.effectiveAddress.destination = address + 2

/-- **An operand in memory is read once**, and can be written back. -/
theorem poised_readMemory (hmode : mode.isMemory) (hcoherent : s.Coherent) (hn : n.toNat < 8)
    (hregister : s.processor.instruction.destinationRegister = n)
    (hlocate : locate s.bus.memory mode n.index size s.processor.registers =
      (.memory address, r)) :
    Poised mode size n address r s
        (s.execute TestBench.access (readMemory .destination .dst mode n size)) ∧
      s.reads TestBench.access (readMemory .destination .dst mode n size) =
        operandAddresses size address := by
  have hside : s.processor.instruction.register .destination = n := hregister
  obtain ⟨s₁, haddressed⟩ := addressed_readMemory hmode hcoherent hn hside hlocate
  obtain ⟨htaken, hreads⟩ := haddressed.taken
  refine ⟨?_, hreads⟩
  rw [Side.target] at htaken
  generalize s.execute TestBench.access (readMemory .destination .dst mode n size) = s' at htaken ⊢
  have hother := htaken.other .source (by decide)
  refine
    { registers := htaken.registers.trans haddressed.registers
      coherent := haddressed.coherent.congr htaken.prefetch (congrArg (·.pc) htaken.registers)
        htaken.bus
      bus := htaken.bus.trans haddressed.bus
      value := htaken.value
      source := hother.trans (congrArg Latches.source haddressed.data)
      direct := ?_
      long := ?_ }
  · -- a byte or a word is written where it has been read
    intro hsize
    have hwrite : writeAddress mode n = readAddress .destination mode n size := by
      cases size <;> cases mode <;> first | rfl | exact absurd rfl hsize
    have hkept := htaken.address
    rw [if_neg hsize] at hkept
    rw [hwrite, ← haddressed.address]
    cases size <;> cases mode <;>
      simp only [readAddress, AddressSource.ofSide, Processor.resolve, hkept, htaken.registers]
  · -- a long word is written half by half, through the latch
    rintro rfl
    have haddress := haddressed.address
    rw [readAddress, Processor.resolve_ofSide] at haddress
    rw [htaken.address, if_pos rfl, haddress]
    rfl

/-! ## The way back -/

/-- A byte is written back at the address that is still on the bus. -/
theorem perform_testAndSet (source : AddressSource) :
    s.perform TestBench.access (.testAndSet source) =
      s.timeless.withMemory
        (s.bus.memory.write .byte (s.processor.resolve source) s.processor.data.destination) := by
  have hheld : s.transact TestBench.access
      ⟨.fixed 9, { sameAddress := true }, source, .latch .destination .low, .none⟩ = s.timeless := by
    rw [transact_of_not_read s (by rfl) (by rfl) (by rfl)]
    rfl
  simp only [perform, Activity.testAndSet, List.foldl_cons, List.foldl_nil]
  rw [hheld, timeless, transact_timeless, transact_of_not_read s (by rfl) (by rfl) (by rfl)]
  rw [Memory.write, ← setWidth_low]
  rfl

/-- **What the operation has left in the latch is stored** where the operand was read. -/
theorem stored_operateAndWrite (mode : AddressMode) (n : RegisterNumber) {writeback : Writeback}
    (hwriteback : writeback ≠ .discard) (hbyte : writeback = .testAndSet → size = .byte)
    (hdirect : size ≠ .long → s.processor.resolve (writeAddress mode n) = address)
    (hlong : size = .long → s.processor.effectiveAddress.destination = address + 2) :
    Stored size address s.processor.registers s
      (s.perform TestBench.access (operateAndWrite mode n size writeback).activity) := by
  cases writeback with
  | store =>
    by_cases hsize : size = .long
    · subst hsize
      have hactivity : (operateAndWrite mode n .long .store).activity =
          .fetch ++ (.write .low (some .decrement) .word destinationAddress ++
            .write .high none .word destinationAddress) := rfl
      have hback : address + 2 - 2 = address := by bv_omega
      obtain ⟨addresses, hwritten⟩ :=
        perform_writeDown (s := s.perform TestBench.access .fetch)
      rw [hactivity, perform_append, hwritten, perform_fetch]
      refine ⟨rfl, fun place => ?_⟩
      rw [byte_write_long, ← hlong rfl]
      have hhigh : s.processor.effectiveAddress.destination - 2 = address := by
        rw [hlong rfl, hback]
      rw [← hhigh]
      rfl
    · have hactivity : (operateAndWrite mode n size .store).activity =
          .fetch ++ .write .low none (transferWidth size) (writeAddress mode n) := by
        cases size <;> first | rfl | exact absurd rfl hsize
      rw [hactivity, perform_append, perform_writeDirect hsize, perform_fetch]
      refine ⟨rfl, fun place => ?_⟩
      rw [← hdirect hsize]
      cases mode <;> rfl
  | testAndSet =>
    obtain rfl := hbyte rfl
    have hactivity : (operateAndWrite mode n .byte .testAndSet).activity =
        .testAndSet (writeAddress mode n) ++ .fetch := rfl
    rw [hactivity, perform_append, perform_testAndSet, perform_fetch]
    refine ⟨rfl, fun place => ?_⟩
    rw [← hdirect nofun]
    rfl
  | discard => exact absurd rfl hwriteback

/-! ## Operations on memory -/

theorem data_locate (hmode : mode.isMemory) (memory : Memory) (m : RegisterIndex) (size : Size)
    (r : Registers) : (locate memory mode m size r).2.d = r.d := by
  cases mode <;> first | rfl | cases hmode

/-- A source that does not come from memory stays the same while the operand is read. -/
theorem source_eq_of_isModifier {p q : Processor} {instruction : Instruction}
    (hp : p.instruction = instruction) (hq : q.instruction = instruction)
    (hsource : instruction.source.isModifier) (hopcode : p.opcode = q.opcode)
    (hregisters : p.registers.d = q.registers.d) (hlatch : p.data.source = q.data.source) :
    p.source = q.source := by
  rw [Processor.source, Processor.source, hp, hq]
  cases hcase : instruction.source with
  | dataRegister m => simp only [Processor.readOperand, Registers.data, hregisters]
  | none => rfl
  | quick => simp only [Processor.readOperand, hopcode]
  | sourceLatch => exact hlatch
  | addressRegister | destinationLatch | prefetch | effectiveAddress =>
    rw [hcase] at hsource
    cases hsource

/-- The place to write to depends on address registers and effective addresses. -/
theorem resolve_writeAddress {p q : Processor} (hregisters : p.registers.a = q.registers.a)
    (haddress : p.effectiveAddress = q.effectiveAddress) (mode : AddressMode) (n : RegisterNumber) :
    p.resolve (writeAddress mode n) = q.resolve (writeAddress mode n) := by
  cases mode <;>
    simp only [writeAddress, destinationAddress, AddressSource.ofSide, Processor.resolve,
      Registers.address, hregisters, haddress]

/-- The operation of an instruction has left a result in the destination latch, unless it only
looks. -/
structure Operated (instruction : Instruction) (computed : Computed) (s fired : Snapshot TestBench) :
    Prop where
  registers : fired.processor.registers = { s.processor.registers with sr := computed.status }
  bus : fired.bus = s.bus
  kept : fired.processor.instruction = instruction
  address : fired.processor.effectiveAddress = s.processor.effectiveAddress
  value : instruction.operation.looks = false →
    instruction.size.truncate fired.processor.data.destination =
      instruction.size.truncate computed.value

/-- **Nothing that a latch holds above the size of the operands shows.** -/
theorem operated_modify {instruction : Instruction} {opcode : Word} {stages : List Stage}
    (hmodifies : Recipe.Modifies ⟨instruction, stages⟩ opcode mode)
    (hinstruction : s.processor.instruction = instruction) (hopcode : s.processor.opcode = opcode) :
    Operated instruction
      (instruction.operation.modify opcode instruction.size s.processor.registers.sr
        (instruction.size.truncate s.processor.source)
        (instruction.size.truncate s.processor.data.destination))
      s (s.withProcessor s.processor.compute) := by
  have hcompute := Processor.compute_modify (p := s.processor)
    (by rw [hinstruction]; exact hmodifies.modifies)
    (by rw [hinstruction]; exact hmodifies.destination)
    (by rw [hinstruction]; exact hmodifies.byte)
  obtain ⟨hstatus, hvalue⟩ := Operation.modify_truncate instruction.operation opcode
    instruction.size s.processor.registers.sr s.processor.source s.processor.data.destination
  dsimp only at hcompute
  rw [hopcode] at hcompute
  refine
    { registers := ?_
      bus := rfl
      kept := (congrArg (·.instruction) hcompute).trans hinstruction
      address := congrArg (·.effectiveAddress) hcompute
      value := ?_ }
  · rw [hstatus, ← hinstruction]
    exact congrArg (·.registers) hcompute
  · intro hlooks
    rw [hvalue]
    have hdata := congrArg (·.data.destination) hcompute
    rw [hinstruction] at hdata
    simp only [hlooks, Bool.false_eq_true, if_false] at hdata
    exact congrArg instruction.size.truncate hdata

/-- **The result goes to memory**, unless the operation only looks. -/
theorem Operated.shows_perform {instruction : Instruction} {opcode : Word} {stages : List Stage}
    {computed : Computed} {fired : Snapshot TestBench} (h : Operated instruction computed s fired)
    (hmodifies : Recipe.Modifies ⟨instruction, stages⟩ opcode mode)
    (hdirect : instruction.size ≠ .long → s.processor.resolve (writeAddress mode n) = address)
    (hlong : instruction.size = .long →
      s.processor.effectiveAddress.destination = address + 2) :
    (fired.perform TestBench.access
      (operateAndWrite mode n instruction.size instruction.operation.writeback).activity).Shows
      { registers := skipWord { s.processor.registers with sr := computed.status }
        memory :=
          if instruction.operation.looks then s.bus.memory
          else s.bus.memory.write instruction.size address computed.value } := by
  cases hlooks : instruction.operation.looks with
  | true =>
    rw [Operation.writeback_of_looks hlooks, ← h.registers, if_pos rfl, ← h.bus]
    have hactivity : (operateAndWrite mode n instruction.size .discard).activity = .fetch := rfl
    rw [hactivity, perform_fetch]
    exact ⟨rfl, fun _ => rfl⟩
  | false =>
    obtain ⟨hstores, htas⟩ := Operation.writeback_of_not_looks hlooks
    have ha : fired.processor.registers.a = s.processor.registers.a := by rw [h.registers]
    have hstored := stored_operateAndWrite (s := fired) mode n hstores
      (fun hwriteback => hmodifies.byte (htas hwriteback))
      (fun hsize => (resolve_writeAddress ha h.address mode n).trans (hdirect hsize))
      (fun hsize => (congrArg Latches.destination h.address).trans (hlong hsize))
    refine ⟨hstored.registers.trans (by rw [h.registers]), fun place => ?_⟩
    rw [hstored.memory, h.bus, ← Memory.write_truncate, h.value hlooks, Memory.write_truncate]
    rfl

/-- The operation and the stages behind it, when the operand has been read. -/
theorem shows_operateAndWrite {instruction : Instruction} {opcode : Word} {stages : List Stage}
    (hmodifies : Recipe.Modifies ⟨instruction, stages⟩ opcode mode)
    (hn : n.toNat < 8) (hregister : instruction.destinationRegister = n)
    (hinstruction : s.processor.instruction = instruction) (hopcode : s.processor.opcode = opcode)
    (hdirect : instruction.size ≠ .long → s.processor.resolve (writeAddress mode n) = address)
    (hlong : instruction.size = .long →
      s.processor.effectiveAddress.destination = address + 2) :
    let size := instruction.size
    let computed := instruction.operation.modify opcode size s.processor.registers.sr
      (size.truncate s.processor.source) (size.truncate s.processor.data.destination)
    Shows
      (s.execute TestBench.access
        ([operateAndWrite mode n size instruction.operation.writeback] ++
          Encoding.stepPast mode n size .dst))
      { registers := skipWord (Reference.stepPast mode n.index size
          { s.processor.registers with sr := computed.status })
        memory :=
          if instruction.operation.looks then s.bus.memory
          else s.bus.memory.write size address computed.value } := by
  intro size computed
  have hoperated := operated_modify hmodifies hinstruction hopcode
  have hfire (writeback : Writeback) :
      s.fire (operateAndWrite mode n size writeback) = s.withProcessor s.processor.compute := by
    cases writeback <;> cases size <;> rfl
  rw [execute_append, execute_cons, execute_nil, hfire]
  generalize s.withProcessor s.processor.compute = fired at hoperated ⊢
  have hwritten := hoperated.shows_perform hmodifies hdirect hlong
  have hkept : (fired.perform TestBench.access
      (operateAndWrite mode n size instruction.operation.writeback).activity).processor.instruction =
        instruction :=
    (instruction_perform TestBench.access _ fired).trans hoperated.kept
  generalize fired.perform TestBench.access _ = written at hwritten hkept ⊢
  have hstep := execute_stepPast (s := written) mode size .destination hn
    (by rw [hkept]; exact hregister)
  rw [Side.target] at hstep
  rw [hstep, hwritten.registers, stepPast_skipWord]
  exact ⟨rfl, hwritten.memory⟩

theorem blind_operateAndWrite (mode : AddressMode) (n : RegisterNumber) (size : Size)
    (writeback : Writeback) : (operateAndWrite mode n size writeback).activity.Blind := by
  unfold operateAndWrite
  generalize writeAddress mode n = source
  cases writeback <;> cases size <;>
    simp [Activity.Blind, Stage.perform, Activity.fetch, Activity.write, Activity.transfer,
      Activity.testAndSet, BusStep.readsData, Signals.isRead, Signals.transfersData]

/-- **The source and the operand are known** when an operation on memory is carried out. -/
theorem poised_modify {instruction : Instruction} {opcode : Word} {stages : List Stage}
    (hcoherent : s.Coherent) (hinstruction : s.processor.instruction = instruction)
    (hopcode : s.processor.opcode = opcode)
    (hmodifies : Recipe.Modifies ⟨instruction, stages⟩ opcode mode) {source : Long}
    {r₀ : Registers}
    (hmodifier : modifier s.bus.memory instruction opcode s.processor.registers = (source, r₀))
    (hlocate : locate s.bus.memory mode (lowerRegister opcode).index instruction.size r₀ =
      (.memory address, r)) :
    let n := lowerRegister opcode
    let size := instruction.size
    let front := instruction.lead ++ readMemory .destination .dst mode n size
    ∃ s₀ : Snapshot TestBench, s₀.bus = s.bus ∧
      Poised mode size n address r s₀ (s.execute TestBench.access front) ∧
      size.truncate (s.execute TestBench.access front).processor.source = size.truncate source ∧
      s.reads TestBench.access front = operandAddresses size address := by
  intro n size front
  have hn : n.toNat < 8 := RegisterNumber.toNat_ofField_lt _
  obtain ⟨hsourced, hled⟩ :=
    sourced_lead hcoherent hinstruction hmodifies.source (hopcode ▸ hmodifier)
  have hinstruction₀ := (instruction_execute TestBench.access instruction.lead s).trans hinstruction
  rw [execute_append, reads_append, hled, List.nil_append]
  generalize s.execute TestBench.access instruction.lead = s₀ at hsourced hinstruction₀ ⊢
  have hlocate₀ : locate s₀.bus.memory mode n.index size s₀.processor.registers =
      (.memory address, r) := by
    rw [hsourced.bus, hsourced.registers, hlocate]
  obtain ⟨hpoised, hread⟩ := poised_readMemory hmodifies.isMemory hsourced.coherent hn
    (by rw [hinstruction₀]; exact hmodifies.register) hlocate₀
  refine ⟨s₀, hsourced.bus, hpoised, ?_, hread⟩
  have hd : r.d = r₀.d := by
    have hkept := data_locate hmodifies.isMemory s.bus.memory n.index size r₀
    rw [hlocate] at hkept
    exact hkept
  have hkept := instruction_execute TestBench.access (readMemory .destination .dst mode n size) s₀
  have hsource := source_eq_of_isModifier (hkept.trans hinstruction₀) hinstruction₀
    hmodifies.source (opcode_execute TestBench.access _ s₀)
    (by rw [hpoised.registers, hsourced.registers, hd]) hpoised.source
  rw [hsource, hsourced.value]

theorem blind_writeBack (mode : AddressMode) (n : RegisterNumber) (size : Size)
    (writeback : Writeback) :
    ∀ stage ∈ [operateAndWrite mode n size writeback] ++ Encoding.stepPast mode n size .dst,
      stage.activity.Blind := by
  refine List.forall_mem_append.2 ⟨?_, ?_⟩
  · exact List.forall_mem_singleton.2 (blind_operateAndWrite _ _ _ _)
  · cases mode <;> simp [Encoding.stepPast, Stage.act, Activity.Blind]

/-- **The stages of an operation on memory do what the programmer sees**, and read the operand
once. -/
theorem shows_modify {instruction : Instruction} {opcode : Word} {stages : List Stage}
    (hcoherent : s.Coherent) (hinstruction : s.processor.instruction = instruction)
    (hopcode : s.processor.opcode = opcode)
    (hmodifies : Recipe.Modifies ⟨instruction, stages⟩ opcode mode) :
    let m := (lowerRegister opcode).index
    Shows (s.execute TestBench.access stages)
        (Reference.modify instruction opcode mode m ⟨s.processor.registers, s.bus.memory⟩) ∧
      s.reads TestBench.access stages =
        (modified s.bus.memory instruction opcode mode m s.processor.registers).1.addresses
          instruction.size := by
  intro m
  obtain ⟨⟨source, r₀⟩, hmodifier⟩ : ∃ found, modifier s.bus.memory instruction opcode
      s.processor.registers = found := ⟨_, rfl⟩
  obtain ⟨address, r, hlocate⟩ :=
    exists_locate_of_isMemory hmodifies.isMemory s.bus.memory m instruction.size r₀
  obtain ⟨hmodified, hmodify⟩ := Reference.modify_of_locate hmodifier hlocate
  obtain ⟨s₀, hbus, hpoised, hsource, hread⟩ :=
    poised_modify hcoherent hinstruction hopcode hmodifies hmodifier hlocate
  have hstages : stages = (instruction.lead ++ readMemory .destination .dst mode
      (lowerRegister opcode) instruction.size) ++
        ([operateAndWrite mode (lowerRegister opcode) instruction.size
          instruction.operation.writeback] ++
            Encoding.stepPast mode (lowerRegister opcode) instruction.size .dst) := by
    have hall := hmodifies.stages
    rw [readModifyWrite, ← List.append_assoc, ← List.append_assoc, List.append_assoc] at hall
    exact hall
  rw [hmodify, hmodified, hstages, execute_append, reads_append, hread]
  have hinstruction₁ := (instruction_execute TestBench.access (instruction.lead ++
    readMemory .destination .dst mode (lowerRegister opcode) instruction.size) s).trans hinstruction
  have hopcode₁ := (opcode_execute TestBench.access (instruction.lead ++
    readMemory .destination .dst mode (lowerRegister opcode) instruction.size) s).trans hopcode
  generalize s.execute TestBench.access (instruction.lead ++ readMemory .destination .dst mode
    (lowerRegister opcode) instruction.size) = s₁ at hpoised hsource hinstruction₁ hopcode₁ ⊢
  have hshows := shows_operateAndWrite hmodifies (RegisterNumber.toNat_ofField_lt _)
    hmodifies.register hinstruction₁ hopcode₁ hpoised.direct hpoised.long
  dsimp only at hshows
  rw [hsource, hpoised.value, hpoised.registers, hpoised.bus, hbus] at hshows
  refine ⟨hshows, ?_⟩
  rw [reads_of_blind TestBench.access (blind_writeBack _ _ _ _), List.append_nil]
  rfl

end Snapshot

namespace Processor

variable {tables : Tables}

/-- An operation on memory that starts at a boundary is executed as the programmer sees it. -/
theorem runInstruction_of_modify (hrealizes : tables.Realizes forms) (bench : TestBench)
    {p : Processor} {recipe : Recipe} {encoding : Word → Option Recipe}
    (hboundary : p.atBoundary tables) (hinterrupt : p.pendingInterrupt? = none)
    (hqueue : p.prefetch = bench.memory.wordAt (p.registers.pc - 4) ++
      bench.memory.wordAt (p.registers.pc - 2))
    (hdecode : decode? forms (Half.high.get p.prefetch) = some recipe)
    (hencoding : encoding ∈ modifying)
    (hrecipe : encoding (Half.high.get p.prefetch) = some recipe)
    (hmemory : recipe.instruction.destination = .destinationLatch) :
    let opcode := Half.high.get p.prefetch
    let n := RegisterIndex.ofField opcode.toNat
    let size := recipe.instruction.size
    let final := p.runInstruction tables TestBench.access bench
    ∃ mode, AddressMode.ofField? opcode = some mode ∧
      let machine :=
        Reference.modify recipe.instruction opcode mode n ⟨p.registers, bench.memory⟩
      final.processor.atBoundary tables ∧
        final.processor.registers = machine.registers ∧
        (∀ place, final.bus.memory.byte place = machine.memory.byte place) ∧
        final.reads =
          (modified bench.memory recipe.instruction opcode mode n p.registers).1.addresses size ∧
        Registers.Stepped n (mode.travel size n) p.registers final.processor.registers := by
  obtain ⟨mode, hmode, hmodifies⟩ := modifies_of_mem hencoding hrecipe hmemory
  have hplain : recipe.instruction.operation.redirects = false := by
    have hoperation := hmodifies.modifies
    cases hcase : recipe.instruction.operation <;> rw [hcase] at hoperation <;>
      first | rfl | cases hoperation
  have hunprivileged : recipe.instruction.requiresSupervisor → p.registers.isSupervisor := by
    rw [hmodifies.unprivileged]
    nofun
  have hexecute := snapshot_runInstruction TestBench.access hrealizes hboundary hinterrupt hdecode
    hunprivileged hplain bench
  have hreads := reads_runInstruction TestBench.access hrealizes hboundary hinterrupt hdecode
    hunprivileged hplain bench
  obtain ⟨hshows, hread⟩ := Snapshot.shows_modify (s := p.dispatched recipe.instruction bench)
    hqueue rfl rfl hmodifies
  dsimp only [lowerRegister] at hexecute hshows hread
  rw [← hexecute, RegisterNumber.index_ofField] at hshows
  rw [← hreads, RegisterNumber.index_ofField] at hread
  have hstepped := stepped_modify recipe.instruction (Half.high.get p.prefetch) hmodifies.isMemory
    (.ofField (Half.high.get p.prefetch).toNat) ⟨p.registers, bench.memory⟩
  have hregisters := hshows.registers
  refine ⟨mode, hmode, (runInstruction_atBoundary TestBench.access hrealizes hboundary bench).1,
    hregisters, hshows.memory, hread, ?_⟩
  rw [Run.registers_snapshot] at hregisters
  rw [hregisters]
  exact hstepped

/-- **Operations on memory are executed as the programmer sees them.** From every boundary at which
the prefetch queue agrees with memory, an instruction run on an operation that works on memory in
place leaves the registers and the memory that it should leave. The operand is read once, where its
addressing mode says, and of the registers only the status register, the program counter and the one
that steps have changed. -/
theorem runInstruction_modify (bench : TestBench) {p : Processor} {recipe : Recipe}
    {encoding : Word → Option Recipe} (hboundary : p.atBoundary (.compile forms))
    (hinterrupt : p.pendingInterrupt? = none)
    (hqueue : p.prefetch = bench.memory.wordAt (p.registers.pc - 4) ++
      bench.memory.wordAt (p.registers.pc - 2))
    (hdecode : decode? forms (Half.high.get p.prefetch) = some recipe)
    (hencoding : encoding ∈ modifying)
    (hrecipe : encoding (Half.high.get p.prefetch) = some recipe)
    (hmemory : recipe.instruction.destination = .destinationLatch) :
    let opcode := Half.high.get p.prefetch
    let n := RegisterIndex.ofField opcode.toNat
    let size := recipe.instruction.size
    let final := p.runInstruction (.compile forms) TestBench.access bench
    ∃ mode, AddressMode.ofField? opcode = some mode ∧
      let machine :=
        Reference.modify recipe.instruction opcode mode n ⟨p.registers, bench.memory⟩
      final.processor.atBoundary (.compile forms) ∧
        final.processor.registers = machine.registers ∧
        (∀ place, final.bus.memory.byte place = machine.memory.byte place) ∧
        final.reads =
          (modified bench.memory recipe.instruction opcode mode n p.registers).1.addresses size ∧
        Registers.Stepped n (mode.travel size n) p.registers final.processor.registers := by
  exact runInstruction_of_modify Tables.realizes_compile bench hboundary hinterrupt hqueue hdecode
    hencoding hrecipe hmemory

/-- In a memory of `0x52` everywhere, `ADDQ.W #1,(A2)` reads the word at A2 and changes its low
byte. -/
theorem runInstruction_modify_filled :
    let tables := Tables.compile forms
    let p := facing tables 0x52525252 .initial
    let final := p.runInstruction tables TestBench.access (filledBench 0x52)
    final.reads = [p.registers.address 2] ∧ final.bus.memory.byte 0 = 0x52 ∧
      final.bus.memory.byte 1 = 0x53 := by
  have hopcode : Half.high.get (facing (.compile forms) 0x52525252 .initial).prefetch = 0x5252 := by
    change Half.high.get 0x52525252 = 0x5252
    decide
  have hqueue : (facing (.compile forms) 0x52525252 .initial).prefetch =
      (filledBench 0x52).memory.wordAt
          ((facing (.compile forms) 0x52525252 .initial).registers.pc - 4) ++
        (filledBench 0x52).memory.wordAt
          ((facing (.compile forms) 0x52525252 .initial).registers.pc - 2) := by
    rw [wordAt_filledBench, wordAt_filledBench]
    rfl
  have hdecode : decode? forms 0x5252 = quickAddSub .add 0x5252 := rfl
  obtain ⟨recipe, hrecipe⟩ : ∃ recipe, quickAddSub .add 0x5252 = some recipe := ⟨_, rfl⟩
  have hencoding : quickAddSub .add ∈ modifying := by simp [modifying]
  have hmemory : recipe.instruction.destination = .destinationLatch := by
    cases hrecipe
    rfl
  obtain ⟨mode, hmode, -, -, hbytes, hreads, -⟩ := runInstruction_modify
    (p := facing (.compile forms) 0x52525252 .initial) (filledBench 0x52)
    (atBoundary_atRest Tables.realizes_compile _) (pendingInterrupt?_of_level rfl) hqueue
    (by rw [hopcode, hdecode, hrecipe]) hencoding (by rw [hopcode, hrecipe]) hmemory
  rw [hopcode] at hmode hbytes hreads
  cases hmode
  cases hrecipe
  have hread : (filledBench 0x52).memory.read .word 0 = 0x5252 := by
    rw [Memory.read, wordAt_filledBench]
    rfl
  have hsum : (Arithmetic.add 1 0x5252 .word Registers.initial.sr).value = 0x5253 := by decide
  have hstored (place : Address) :
      ((filledBench 0x52).memory.write .word 0 (Arithmetic.add 1
        ((filledBench 0x52).memory.read .word 0) .word Registers.initial.sr).value).byte place =
          if place = 1 then 0x53 else 0x52 := by
    rw [hread, hsum]
    refine (Memory.byte_storeWord _ _ _ _).trans ?_
    rw [byte_filledBench]
    exact ite_congr rfl (fun _ => rfl) fun _ => ite_self _
  exact ⟨hreads, (hbytes 0).trans (hstored 0), (hbytes 1).trans (hstored 1)⟩

/-- A bench with `CLR.B (A7)+` at address 0. -/
def clearingBench : TestBench :=
  (filledBench 0x1F).withMemory ((filledBench 0x1F).memory.store 0 0x42)

theorem wordAt_clearingBench :
    clearingBench.memory.wordAt 0 = 0x421F ∧ clearingBench.memory.wordAt 2 = 0x1F1F := by
  have hbyte (place : Address) : clearingBench.memory.byte place =
      if place = 0 then 0x42 else (filledBench 0x1F).memory.byte place :=
    Memory.byte_store _ _ _ _
  constructor <;>
    simp only [Memory.wordAt, Memory.word, hbyte, byte_filledBench] <;> rfl

/-- **The stack pointer steps by two bytes** past an operand of one byte, and so stays even. -/
theorem runInstruction_clear_byte_of_stack :
    let tables := Tables.compile forms
    let p := facing tables 0x421F1F1F { Registers.initial with pc := 4 }
    let final := p.runInstruction tables TestBench.access clearingBench
    (singleOperand .clr (Half.high.get p.prefetch)).map (·.instruction.size) = some .byte ∧
      p.prefetch = clearingBench.memory.wordAt (p.registers.pc - 4) ++
        clearingBench.memory.wordAt (p.registers.pc - 2) ∧
      final.processor.registers.address stackPointer = p.registers.address stackPointer + 2 ∧
      (2 : Long) ≠ BitVec.ofNat 32 Size.byte.bytes := by
  have hopcode : Half.high.get (facing (.compile forms) 0x421F1F1F
      { Registers.initial with pc := 4 }).prefetch = 0x421F := by
    change Half.high.get 0x421F1F1F = 0x421F
    decide
  have hqueue : (facing (.compile forms) 0x421F1F1F { Registers.initial with pc := 4 }).prefetch =
      clearingBench.memory.wordAt (4 - 4) ++ clearingBench.memory.wordAt (4 - 2) := by
    have hwords := wordAt_clearingBench
    exact (congrArg₂ (· ++ ·) hwords.1 hwords.2).symm
  have hdecode : decode? forms 0x421F = singleOperand .clr 0x421F := rfl
  obtain ⟨recipe, hrecipe⟩ : ∃ recipe, singleOperand .clr 0x421F = some recipe := ⟨_, rfl⟩
  have hencoding : singleOperand .clr ∈ modifying := by simp [modifying]
  have hmemory : recipe.instruction.destination = .destinationLatch := by
    cases hrecipe
    rfl
  obtain ⟨mode, hmode, -, -, -, -, hstepped⟩ := runInstruction_of_modify Tables.realizes_compile
    (p := facing (.compile forms) 0x421F1F1F { Registers.initial with pc := 4 }) clearingBench
    (atBoundary_atRest Tables.realizes_compile _) (pendingInterrupt?_of_level rfl) hqueue
    (by rw [hopcode, hdecode, hrecipe]) hencoding (by rw [hopcode, hrecipe]) hmemory
  rw [hopcode] at hmode hstepped
  cases hmode
  cases hrecipe
  refine ⟨?_, hqueue, hstepped.stepping, by decide⟩
  rw [hopcode]
  rfl

end Processor

end M68k
