import M68k.Proofs.Encoding.Lines
import M68k.Proofs.Move.Reference
import M68k.Proofs.Move.Store
import M68k.Proofs.Tables.Compile

/-!
# Moves

The chain of a move fetches, addresses, reads, steps and writes in an order of its own for each pair
of addressing modes. What it leaves behind is a move as the programmer sees it.

## Main results

* `Snapshot.shows_moveStages`: the stages of a move
* `Processor.runInstruction_move`: moves are executed as the programmer sees them
-/

namespace M68k

open Encoding Reference

/-- The instruction that moves an operand. -/
def Encoding.moveInstruction (size : Size) (sourceMode : AddressMode) (source : RegisterNumber)
    (destinationMode : AddressMode) (destination : RegisterNumber) : Instruction :=
  let operation : Operation := if destinationMode = .addressRegister then .movea else .move
  ((Instruction.bare operation size).withSource sourceMode source).withDestination destinationMode
    destination

/-! ## The operation -/

namespace Processor

variable {p : Processor}

/-- The operation of a move sets the condition codes and stores its operand. -/
theorem compute_move (h : p.instruction.operation = .move) :
    p.compute =
      { p with
        registers := { p.registers with
          sr := moveStatus p.registers.sr p.instruction.size
            (p.instruction.size.truncate p.source) } }.writeOperand p.instruction.destination
              p.instruction.size p.source := by
  have hcompute : p.compute = p.finishLogical p.instruction.size p.source := by
    simp only [compute, h]
  rw [hcompute, ← Registers.setStatus_logical]
  rfl

/-- That of a move to an address register only does the latter. -/
theorem compute_movea (h : p.instruction.operation = .movea) :
    p.compute =
      p.writeOperand p.instruction.destination .long (p.instruction.size.signExtend p.source) := by
  simp only [compute, h]
  rfl

end Processor

namespace Snapshot

variable {s : Snapshot TestBench} {size : Size} {n : RegisterNumber}

/-! ## Stages -/

/-- The stage that lets a register step past its operand, if the mode has one. -/
theorem execute_stepPast (mode : AddressMode) (size : Size) (side : Side) (hn : n.toNat < 8)
    (hregister : s.processor.instruction.register side = n) :
    s.execute TestBench.access (Encoding.stepPast mode n size side.target) =
      s.withRegisters (Reference.stepPast mode n.index size s.processor.registers) := by
  cases mode with
  | postIncrement =>
    have hindex : (s.processor.instruction.register side).index = n.index := by rw [hregister]
    have hfired := fire_increment (s := s) (stride size n) side [] hindex
    rw [stride_bytes size hn] at hfired
    exact hfired
  | _ => rfl

/-- What is moved is stored, and a register steps past it. -/
theorem execute_storeMoved {mode : AddressMode} (hmode : mode.isMemory) {address : Long}
    {r : Registers} (hcoherent : s.Coherent) (hn : n.toNat < 8)
    (hregister : s.processor.instruction.destinationRegister = n)
    (hlocate : locate s.bus.memory mode n.index size s.processor.registers =
      (.memory address, r)) :
    Stored size address (Reference.stepPast mode n.index size r) s
      (s.execute TestBench.access (storeMoved mode n size .dst)) := by
  by_cases hstep : mode = .postIncrement
  · subst hstep
    cases hlocate
    have hstages : storeMoved .postIncrement n size .dst =
        storeMoved .indirect n size .dst ++
          Encoding.stepPast .postIncrement n size Side.destination.target := by
      cases size <;> rfl
    have hstored : Stored size _ _ s
        (s.execute TestBench.access (storeMoved .indirect n size .dst)) :=
      stored_indirect hregister .dst
    rw [hstages, execute_append]
    generalize hwritten : s.execute TestBench.access (storeMoved .indirect n size .dst) = s₁
    rw [hwritten] at hstored
    have hinstruction : s₁.processor.instruction.register .destination = n := by
      rw [← hwritten, instruction_execute]
      exact hregister
    rw [execute_stepPast .postIncrement size .destination hn hinstruction, hstored.registers]
    exact ⟨rfl, hstored.memory⟩
  · have hpast : Reference.stepPast mode n.index size r = r := by
      cases mode <;> first | exact absurd rfl hstep | rfl
    rw [hpast]
    exact stored_storeMoved hmode hstep hcoherent hn hregister hlocate .dst

/-- Two registers that step together might as well have stepped one after the other, the source
before the destination was addressed. -/
theorem execute_storeMoved_both {m : RegisterNumber} (hm : m.toNat < 8)
    (hn : n.toNat < 8) (hsource : s.processor.instruction.sourceRegister = m)
    (hdestination : s.processor.instruction.destinationRegister = n) (hne : m ≠ n)
    (hstride : stride size m = stride size n) :
    let r := Reference.stepPast .postIncrement m.index size s.processor.registers
    Stored size (r.address n.index) (Reference.stepPast .postIncrement n.index size r) s
      (s.execute TestBench.access (storeMoved .postIncrement n size .both)) := by
  have hindex : n.index ≠ m.index := by
    intro h
    have hval := congrArg Fin.val h
    simp only [RegisterNumber.index, RegisterIndex.ofField, Fin.ofNat] at hval
    exact hne (BitVec.eq_of_toNat_eq (by omega))
  have haddress (value : Long) : (s.processor.registers.setAddress m.index value).address n.index =
      s.processor.registers.address n.index :=
    Registers.address_setAddress_of_ne _ hindex _
  have hstages : storeMoved .postIncrement n size .both =
      storeMoved .indirect n size .both ++ [⟨.increment (stride size n), .both, []⟩] := by
    cases size <;> rfl
  have hstored : Stored size _ _ s
      (s.execute TestBench.access (storeMoved .indirect n size .both)) :=
    stored_indirect hdestination .both
  rw [hstages, execute_append]
  generalize hwritten : s.execute TestBench.access (storeMoved .indirect n size .both) = s₁
  rw [hwritten] at hstored
  have hinstruction : s₁.processor.instruction = s.processor.instruction := by
    rw [← hwritten, instruction_execute]
  have hfired : s₁.fire ⟨.increment (stride size n), .both, []⟩ = s₁.withRegisters
      ((s₁.processor.registers.setAddress m.index
        (s₁.processor.registers.address m.index + (stride size n).bytes)).setAddress n.index
          ((s₁.processor.registers.setAddress m.index
            (s₁.processor.registers.address m.index + (stride size n).bytes)).address n.index +
              (stride size n).bytes)) := by
    rw [← hsource, ← hdestination, ← hinstruction]
    rfl
  have hbytes : (stride size n).bytes = stepLength size m.index := by
    rw [← hstride, stride_bytes size hm]
  rw [execute_cons, execute_nil, perform_nil, hfired, hstored.registers]
  refine ⟨?_, ?_⟩
  · simp only [Reference.stepPast]
    rw [← hbytes, ← stride_bytes size hn]
    rfl
  · intro place
    rw [Reference.stepPast, haddress]
    exact hstored.memory place

/-! ## Moves -/

/-- The snapshot shows the registers and the memory of a machine. -/
structure Shows (s : Snapshot TestBench) (machine : Machine) : Prop where
  registers : s.processor.registers = machine.registers
  memory : ∀ place, s.bus.memory.byte place = machine.memory.byte place

/-- The operation of a move to memory leaves its operand in the destination latch. -/
theorem fire_move (hoperation : s.processor.instruction.operation = .move)
    (hsize : s.processor.instruction.size = size)
    (hdestination : s.processor.instruction.destination = .destinationLatch) {value : Long}
    (hvalue : size.truncate s.processor.source = value) :
    s.fire (.act .operate .nowhere) =
      (s.withRegisters { s.processor.registers with
        sr := moveStatus s.processor.registers.sr size value }).latch .destination
          s.processor.source := by
  change s.withProcessor s.processor.compute = _
  rw [Processor.compute_move hoperation, hdestination, hsize, hvalue]
  rfl

/-- **An operand is delivered** by the operation and the stages behind it. -/
theorem shows_deliver {sourceMode mode : AddressMode} {source : RegisterNumber}
    (hmode : mode ≠ .immediate) (hcoherent : s.Coherent) (hn : n.toNat < 8) {value : Long}
    (hvalue : size.truncate s.processor.source = value)
    (hinstruction : s.processor.instruction = moveInstruction size sourceMode source mode n) :
    Shows
      (s.execute TestBench.access
        (if mode.isRegister then [.perform .fetch]
        else .act .operate .nowhere :: storeMoved mode n size .dst))
      (deliver size value mode n.index ⟨s.processor.registers, s.bus.memory⟩) := by
  have hoperation : s.processor.instruction.operation =
      if mode = .addressRegister then .movea else .move := by rw [hinstruction]; rfl
  have hsize : s.processor.instruction.size = size := by rw [hinstruction]; rfl
  have hdestination : s.processor.instruction.destination = .ofMode mode n .destinationLatch := by
    rw [hinstruction]
    rfl
  have hregister : s.processor.instruction.destinationRegister = n := by rw [hinstruction]; rfl
  by_cases hmemory : mode.isMemory
  · have hplain : mode ≠ .addressRegister := by
      rintro rfl
      cases hmemory
    have hregisters : mode.isRegister = false := by
      cases mode <;> first | rfl | cases hmemory
    rw [if_neg hplain] at hoperation
    rw [ofMode_of_isMemory hmemory] at hdestination
    obtain ⟨address, r, hlocate⟩ := exists_locate_of_isMemory hmemory s.bus.memory n.index size
      { s.processor.registers with sr := moveStatus s.processor.registers.sr size value }
    have hstored := execute_storeMoved hmemory
      (s := (s.withRegisters { s.processor.registers with
        sr := moveStatus s.processor.registers.sr size value }).latch .destination
          s.processor.source) (hcoherent.congr rfl rfl rfl) hn hregister hlocate
    rw [hregisters, if_neg Bool.false_ne_true, execute_cons,
      fire_move hoperation hsize hdestination hvalue, Stage.act, perform_nil]
    refine ⟨hstored.registers.trans ?_, fun place => (hstored.memory place).trans ?_⟩
    · simp only [deliver, if_neg hplain, hlocate]
      rfl
    · simp only [deliver, if_neg hplain, hlocate]
      rw [← hvalue, Place.write, Memory.write_truncate]
      rfl
  · cases mode with
    | dataRegister =>
      change Shows ((s.withProcessor s.processor.compute).perform TestBench.access .fetch) _
      rw [Processor.compute_move hoperation, hdestination, hsize, hvalue, perform_fetch]
      refine ⟨?_, fun _ => rfl⟩
      change _ = skipWord (Registers.setData _ _ (size.merge _ value))
      rw [← hvalue, Size.merge_truncate]
      rfl
    | addressRegister =>
      change Shows ((s.withProcessor s.processor.compute).perform TestBench.access .fetch) _
      rw [Processor.compute_movea hoperation, hdestination, hsize, perform_fetch]
      refine ⟨?_, fun _ => rfl⟩
      change _ = skipWord (Registers.setAddress _ _ (size.signExtend value))
      rw [← hvalue, Size.signExtend_truncate]
      rfl
    | immediate => exact absurd rfl hmode
    | _ => exact absurd rfl hmemory

/-- So it is if two registers step together behind the write. -/
theorem shows_deliver_both {m : RegisterNumber} (hm : m.toNat < 8) (hn : n.toNat < 8)
    (hne : m ≠ n) (hstride : stride size m = stride size n) {value : Long}
    (hvalue : size.truncate s.processor.source = value)
    (hinstruction : s.processor.instruction =
      moveInstruction size .postIncrement m .postIncrement n) :
    Shows
      (s.execute TestBench.access
        (.act .operate .nowhere :: storeMoved .postIncrement n size .both))
      (deliver size value .postIncrement n.index
        ⟨Reference.stepPast .postIncrement m.index size s.processor.registers, s.bus.memory⟩) := by
  have hstored := execute_storeMoved_both
    (s := (s.withRegisters { s.processor.registers with
      sr := moveStatus s.processor.registers.sr size value }).latch .destination
        s.processor.source) hm hn (congrArg Instruction.sourceRegister hinstruction)
          (congrArg Instruction.destinationRegister hinstruction) hne hstride
  rw [execute_cons, fire_move (congrArg Instruction.operation hinstruction)
    (congrArg Instruction.size hinstruction) (congrArg Instruction.destination hinstruction) hvalue,
    Stage.act, perform_nil]
  refine ⟨hstored.registers.trans rfl, fun place => (hstored.memory place).trans ?_⟩
  rw [← hvalue]
  change (s.bus.memory.write size _ s.processor.source).byte place =
    (s.bus.memory.write size _ (size.truncate s.processor.source)).byte place
  rw [Memory.write_truncate]
  rfl

/-- **The stages of a move do what the programmer sees.** -/
theorem shows_moveStages {sourceMode destinationMode : AddressMode}
    {source destination : RegisterNumber} (hcoherent : s.Coherent) (hsource : source.toNat < 8)
    (hdestination : destination.toNat < 8) (hmode : destinationMode ≠ .immediate)
    (hinstruction : s.processor.instruction =
      moveInstruction size sourceMode source destinationMode destination) :
    Shows
      (s.execute TestBench.access (moveStages sourceMode source destinationMode destination size))
      (Reference.move size sourceMode source.index destinationMode destination.index
        ⟨s.processor.registers, s.bus.memory⟩) := by
  obtain ⟨⟨place, r⟩, hlocate⟩ :
      ∃ located, locate s.bus.memory sourceMode source.index size s.processor.registers = located :=
    ⟨_, rfl⟩
  obtain ⟨hregisters, hfetched, hbus, hvalue⟩ := source_fetchSource hcoherent hsource
    (by rw [hinstruction]; rfl) hlocate
  have hkept := instruction_execute TestBench.access (fetchSource sourceMode source size) s
  rw [hinstruction] at hkept
  rw [moveStages, execute_append, execute_append]
  generalize s.execute TestBench.access (fetchSource sourceMode source size) = s₁ at *
  have hmove : Reference.move size sourceMode source.index destinationMode destination.index
      ⟨s.processor.registers, s.bus.memory⟩ =
        deliver size (place.read ⟨r, s.bus.memory⟩ size) destinationMode destination.index
          ⟨Reference.stepPast sourceMode source.index size r, s.bus.memory⟩ := by
    simp only [Reference.move, hlocate]
  rw [hmove, ← hbus]
  subst hregisters
  by_cases htogether :
      stepsTogether sourceMode source destinationMode destination size
  · simp only [htogether, if_true, execute_nil]
    simp only [stepsTogether, Bool.and_eq_true, beq_iff_eq, bne_iff_ne] at htogether
    obtain ⟨⟨⟨rfl, rfl⟩, hne⟩, hstride⟩ := htogether
    rw [← hbus] at hvalue
    refine shows_deliver_both hsource hdestination hne hstride ?_ hkept
    rw [← hvalue, Processor.source, hkept]
    rfl
  · simp only [htogether, Bool.false_eq_true, if_false]
    have hpast := execute_stepPast (s := s₁) sourceMode size .source hsource (by rw [hkept]; rfl)
    rw [Side.target] at hpast
    rw [hpast]
    refine shows_deliver (s := s₁.withRegisters _) hmode ?_ hdestination ?_ hkept
    · refine hfetched.congr rfl ?_ rfl
      cases sourceMode <;> rfl
    · rw [← hbus] at hvalue
      rw [← hvalue, Processor.source]
      change size.truncate (Processor.readOperand _ s₁.processor.instruction.source) = _
      rw [hkept]
      cases sourceMode <;> rfl

end Snapshot

/-- The recipe of a move that is accepted. -/
theorem Encoding.move_eq_some {opcode : Word} {sourceMode destinationMode : AddressMode}
    (hsource : AddressMode.ofField? opcode = some sourceMode)
    (hdestination : AddressMode.decode? (opcode.toNat / 64) (opcode.toNat / 512) =
      some destinationMode) (haccepted : (Encoding.move opcode).isSome) :
    destinationMode ≠ .immediate ∧
      Encoding.move opcode = some
        ⟨moveInstruction (moveSize opcode) sourceMode (lowerRegister opcode)
            destinationMode (upperRegister opcode),
          moveStages sourceMode (lowerRegister opcode) destinationMode (upperRegister opcode)
            (moveSize opcode)⟩ := by
  simp only [Encoding.move, hsource, hdestination, Option.bind_eq_bind, Option.bind_some]
    at haccepted ⊢
  split at haccepted
  · cases haccepted
  · split at haccepted
    · cases haccepted
    · rename_i halterable hsize
      refine ⟨fun himmediate => halterable (by simp [himmediate]), ?_⟩
      rw [if_neg halterable, if_neg hsize]
      simp only [beq_iff_eq]
      rfl

namespace Processor

variable {tables : Tables}

/-- A move that starts at a boundary is executed as the programmer sees it. -/
theorem runInstruction_of_move (hrealizes : tables.Realizes forms) (bench : TestBench)
    {p : Processor} {sourceMode destinationMode : AddressMode} (hboundary : p.atBoundary tables)
    (hinterrupt : p.pendingInterrupt? = none)
    (hqueue : p.prefetch = bench.memory.wordAt (p.registers.pc - 4) ++
      bench.memory.wordAt (p.registers.pc - 2))
    (hline : 1 ≤ (Half.high.get p.prefetch).toNat / 4096 ∧
      (Half.high.get p.prefetch).toNat / 4096 ≤ 3)
    (hsource : AddressMode.ofField? (Half.high.get p.prefetch) = some sourceMode)
    (hdestination : AddressMode.decode? ((Half.high.get p.prefetch).toNat / 64)
      ((Half.high.get p.prefetch).toNat / 512) = some destinationMode)
    (haccepted : (Encoding.move (Half.high.get p.prefetch)).isSome) :
    let opcode := Half.high.get p.prefetch
    let final := p.runInstruction tables TestBench.access bench
    let machine := Reference.move (moveSize opcode) sourceMode (.ofField opcode.toNat)
      destinationMode (.ofField (opcode.toNat / 512)) ⟨p.registers, bench.memory⟩
    final.processor.atBoundary tables ∧ final.processor.registers = machine.registers ∧
      ∀ place, final.bus.memory.byte place = machine.memory.byte place := by
  obtain ⟨hmode, hmove⟩ := Encoding.move_eq_some hsource hdestination haccepted
  have hplain : (if destinationMode = .addressRegister then Operation.movea
      else .move).redirects = false := by
    split <;> rfl
  have hexecute := snapshot_runInstruction TestBench.access hrealizes hboundary hinterrupt
    ((decode?_move hline).trans hmove) nofun hplain bench
  have hshows := Snapshot.shows_moveStages
    (s := p.dispatched (moveInstruction (moveSize (Half.high.get p.prefetch)) sourceMode
      (lowerRegister (Half.high.get p.prefetch)) destinationMode
      (upperRegister (Half.high.get p.prefetch))) bench)
    hqueue (RegisterNumber.toNat_ofField_lt _) (RegisterNumber.toNat_ofField_lt _) hmode rfl
  dsimp only [lowerRegister, upperRegister] at hexecute hshows
  rw [← hexecute, RegisterNumber.index_ofField, RegisterNumber.index_ofField] at hshows
  exact ⟨(runInstruction_atBoundary TestBench.access hrealizes hboundary bench).1,
    hshows.registers, hshows.memory⟩

/-- **Moves are executed as the programmer sees them.** From every boundary at which the prefetch
queue agrees with memory, an instruction run on a move of any size, between any two operands, leaves
the registers and the memory that a move should leave. -/
theorem runInstruction_move (bench : TestBench) {p : Processor}
    {sourceMode destinationMode : AddressMode} (hboundary : p.atBoundary (.compile forms))
    (hinterrupt : p.pendingInterrupt? = none)
    (hqueue : p.prefetch = bench.memory.wordAt (p.registers.pc - 4) ++
      bench.memory.wordAt (p.registers.pc - 2))
    (hline : 1 ≤ (Half.high.get p.prefetch).toNat / 4096 ∧
      (Half.high.get p.prefetch).toNat / 4096 ≤ 3)
    (hsource : AddressMode.ofField? (Half.high.get p.prefetch) = some sourceMode)
    (hdestination : AddressMode.decode? ((Half.high.get p.prefetch).toNat / 64)
      ((Half.high.get p.prefetch).toNat / 512) = some destinationMode)
    (haccepted : (Encoding.move (Half.high.get p.prefetch)).isSome) :
    let opcode := Half.high.get p.prefetch
    let final := p.runInstruction (.compile forms) TestBench.access bench
    let machine := Reference.move (moveSize opcode) sourceMode (.ofField opcode.toNat)
      destinationMode (.ofField (opcode.toNat / 512)) ⟨p.registers, bench.memory⟩
    final.processor.atBoundary (.compile forms) ∧
      final.processor.registers = machine.registers ∧
      ∀ place, final.bus.memory.byte place = machine.memory.byte place := by
  exact runInstruction_of_move Tables.realizes_compile bench hboundary hinterrupt hqueue hline
    hsource hdestination haccepted

/-- A bench whose memory holds one byte everywhere. -/
def filledBench (value : Byte) : TestBench := ⟨.blank (.constant value), 0, 0, none, 0⟩

theorem byte_filledBench (value : Byte) (address : Address) :
    (filledBench value).memory.byte address = value := by
  simp [filledBench, Memory.byte, Memory.blank, Background.byte]

theorem wordAt_filledBench (value : Byte) (address : Long) :
    (filledBench value).memory.wordAt address = value ++ value := by
  simp only [Memory.wordAt, Memory.word, byte_filledBench]

theorem words_filledBench (value : Byte) (first second : Long) :
    (filledBench value).memory.wordAt first ++ (filledBench value).memory.wordAt second =
      value ++ value ++ (value ++ value) := by
  rw [wordAt_filledBench, wordAt_filledBench]

variable (tables) in
/-- A processor in front of `MOVE.L -(A2),D1`. -/
def facingMove : Processor :=
  { Processor.initial tables with prefetch := 0x22222222 }.atRest tables

theorem prefetch_facingMove : Half.high.get (facingMove tables).prefetch = 0x2222 := by
  change Half.high.get 0x22222222 = 0x2222
  decide

/-- In a memory of `0x22` everywhere, D1 is loaded with such a long word and A2 goes down. -/
theorem runInstruction_move_filled :
    let tables := Tables.compile forms
    let final := (facingMove tables).runInstruction tables TestBench.access (filledBench 0x22)
    final.processor.registers.data 1 = 0x22222222 ∧
      final.processor.registers.address 2 = (facingMove tables).registers.address 2 - 4 := by
  have hopcode : Half.high.get (facingMove (.compile forms)).prefetch = 0x2222 :=
    prefetch_facingMove
  have hqueue : (facingMove (.compile forms)).prefetch =
      (filledBench 0x22).memory.wordAt ((facingMove (.compile forms)).registers.pc - 4) ++
        (filledBench 0x22).memory.wordAt ((facingMove (.compile forms)).registers.pc - 2) := by
    rw [wordAt_filledBench, wordAt_filledBench]
    rfl
  have hsource : AddressMode.ofField? (Half.high.get (facingMove (.compile forms)).prefetch) =
      some .preDecrement := by
    rw [hopcode]
    rfl
  have hdestination :
      AddressMode.decode? ((Half.high.get (facingMove (.compile forms)).prefetch).toNat / 64)
        ((Half.high.get (facingMove (.compile forms)).prefetch).toNat / 512) =
      some .dataRegister := by
    rw [hopcode]
    rfl
  have hboundary : (facingMove (.compile forms)).atBoundary (.compile forms) :=
    atBoundary_atRest Tables.realizes_compile _
  obtain ⟨-, hregisters, -⟩ := runInstruction_move (filledBench 0x22) hboundary
    (pendingInterrupt?_of_level rfl) hqueue (by rw [hopcode]; decide) hsource hdestination
    (by rw [hopcode]; rfl)
  have hsize : moveSize 0x2222 = .long := rfl
  rw [hopcode, hsize] at hregisters
  dsimp only
  rw [hregisters]
  generalize (facingMove (.compile forms)).registers = r
  have hread : (filledBench 0x22).memory.read .long (r.address 2 - 4) = 0x22222222 := by
    rw [Memory.read, wordAt_filledBench, wordAt_filledBench]
    rfl
  constructor
  · refine (Registers.data_setData_self _ _ _).trans ?_
    exact (Size.merge_long _ _).trans hread
  · exact Registers.address_setAddress_self _ _ _

end Processor

end M68k
