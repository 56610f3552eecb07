import M68k.Proofs.Execution.Reads
import M68k.Proofs.Operand.Locate

/-!
# Source operands

The stages that bring a source operand in read the place that its addressing mode names. The latch
may hold anything above the operand, so operands are compared within their size.

## Main definitions

* `Snapshot.Brought`: an operand has been brought into a data latch

## Main results

* `Snapshot.brought_readMemory`: operands in memory, on either side
* `Snapshot.brought_fetchImmediate`: immediate operands
* `Snapshot.source_fetchSource`, `Snapshot.reads_fetchSource`: source operands of any mode
-/

namespace M68k

open Encoding Reference

/-! ## Sizes -/

namespace Size

theorem truncate_byte (value : Long) : byte.truncate value = (value.setWidth 8).setWidth 32 := by
  ext i hi
  interval_cases i <;> simp [truncate, mask, BitVec.getElem_setWidth]

theorem truncate_word (value : Long) :
    word.truncate value = (Half.low.get value).setWidth 32 := by
  ext i hi
  interval_cases i <;> simp [truncate, mask, Half.get, BitVec.getElem_setWidth]

theorem truncate_long (value : Long) : long.truncate value = value := BitVec.and_allOnes

@[simp] theorem truncate_truncate (size : Size) (value : Long) :
    size.truncate (size.truncate value) = size.truncate value := by
  rw [truncate, truncate, BitVec.and_assoc, BitVec.and_self]

theorem truncate_set_low (latched : Long) (value : Word) :
    word.truncate (Half.low.set latched value) = value.setWidth 32 := by
  rw [truncate_word, Half.get_set_self]

/-- A byte that is put into the low half is the operand. -/
theorem truncate_set_byte (latched : Long) (high value : Byte) :
    byte.truncate (Half.low.set latched (high ++ value)) = value.setWidth 32 := by
  have hlow (x : Long) : x.setWidth 8 = (Half.low.get x).setWidth 8 := by
    rw [← setWidth_eq_low, BitVec.setWidth_setWidth_of_le _ (by decide)]
  rw [truncate_byte, hlow, Half.get_set_self]
  exact congrArg (BitVec.setWidth 32) BitVec.setWidth_append_eq_right

end Size

/-! ## Reads -/

@[simp] theorem Processor.resolve_ofSide (p : Processor) (side : Side) :
    p.resolve (.ofSide side) = p.effectiveAddress.get side := by
  cases side <;> rfl

namespace Snapshot

variable {s : Snapshot TestBench}

/-- An operand has been read into the data latch of a side. Behind a long word the effective address
points at its low word. -/
structure Taken (side : Side) (size : Size) (value : Long) (s s' : Snapshot TestBench) : Prop where
  registers : s'.processor.registers = s.processor.registers
  prefetch : s'.processor.prefetch = s.processor.prefetch
  bus : s'.bus = s.bus
  value : size.truncate (s'.processor.data.get side) = value
  other : ∀ other ≠ side, s'.processor.data.get other = s.processor.data.get other
  address : s'.processor.effectiveAddress =
    if size = .long then
      s.processor.effectiveAddress.set side (s.processor.effectiveAddress.get side + 2)
    else s.processor.effectiveAddress

/-- A latch that is replaced by an operand. -/
theorem Taken.of_latched {side : Side} {size : Size} {value latched : Long} {addresses : Latches}
    {s' : Snapshot TestBench}
    (h : s' = s.withProcessor
      ({ s.processor with
        effectiveAddress := addresses
        data := s.processor.data.set side latched } : Processor).timeless)
    (hvalue : size.truncate latched = value)
    (haddress : addresses =
      if size = .long then
        s.processor.effectiveAddress.set side (s.processor.effectiveAddress.get side + 2)
      else s.processor.effectiveAddress) : Taken side size value s s' := by
  subst h
  refine ⟨rfl, rfl, rfl, ?_, ?_, haddress⟩
  · rw [← hvalue]
    exact congrArg size.truncate (Latches.get_set_self _ _ _)
  · intro other hother
    exact Latches.get_set_of_ne _ _ hother

/-- Bytes and words are read wherever the bus step points. -/
theorem taken_direct {size : Size} (hsize : size ≠ .long) (side : Side) (address : AddressSource) :
    Taken side size (s.bus.memory.read size (s.processor.resolve address)) s
      (s.perform TestBench.access (readOperand side size address)) := by
  cases size with
  | byte =>
    exact .of_latched (perform_readByte s false address .none side .low)
      (Size.truncate_set_byte _ _ _) rfl
  | word =>
    exact .of_latched (perform_readWord s false address (.latch side .low) .none)
      (Size.truncate_set_low _ _) rfl
  | long => exact absurd rfl hsize

/-- A long word is read high word first. -/
theorem perform_readLong (side : Side) :
    s.perform TestBench.access (readOperand side .long (.ofSide side)) =
      let address := s.processor.effectiveAddress.get side
      let high := Half.high.set (s.processor.data.get side) (s.bus.memory.wordAt address)
      s.withProcessor
        ({ s.processor with
          effectiveAddress := s.processor.effectiveAddress.set side (address + 2)
          data := s.processor.data.set side
            (Half.low.set high (s.bus.memory.wordAt (address + 2))) } : Processor).timeless := by
  have hset (latches : Latches) (value other : Long) :
      (latches.set side value).set side other = latches.set side other := by
    cases side <;> rfl
  rw [readOperand, perform_append, Activity.read, Activity.read, perform_readWord, perform_readWord]
  simp only [withProcessor, Processor.resolve_ofSide, Processor.storeSlot, Adjustment.action,
    Processor.applyStepAction, Processor.effectiveAddress_timeless, Processor.data_timeless,
    Latches.get_set_self, hset]
  rfl

/-- Operands of any size are read at the effective address of their side. -/
theorem taken_latched (size : Size) (side : Side) :
    Taken side size (s.bus.memory.read size (s.processor.effectiveAddress.get side)) s
      (s.perform TestBench.access (readOperand side size (.ofSide side))) := by
  by_cases hsize : size = .long
  · subst hsize
    refine .of_latched (perform_readLong side) ?_ rfl
    rw [Size.truncate_long, Half.low_set_high_set]
    rfl
  · rw [← s.processor.resolve_ofSide side]
    exact taken_direct hsize side (.ofSide side)

/-- The two halves of a read are one access. -/
theorem reads_transfer (width : Width) (address : AddressSource) (slot : DataSlot)
    (action : StepAction) :
    s.readsDuring TestBench.access (.transfer true false width address slot action) =
      [s.processor.resolve address] := by
  have hfirst : BusStep.readsData ⟨.fixed 5, { newAddress := true, read := true }, address, slot,
      .none⟩ = false := rfl
  have hsecond : BusStep.readsData ⟨.fixed 3,
      { sameAddress := true, read := true, selectByte := width == .byte
        selectWord := width == .word }, address, slot, action⟩ = true := by
    cases width <;> rfl
  simp only [Activity.transfer, readsDuring, hfirst, hsecond, Bool.false_eq_true, if_false, if_true,
    List.nil_append, List.append_nil]
  rw [transact_of_not_read s (by rfl) (by rfl) (by rfl)]
  cases address <;> rfl

/-- Bytes and words are read wherever the bus step points. -/
theorem reads_direct {size : Size} (hsize : size ≠ .long) (side : Side) (address : AddressSource) :
    s.readsDuring TestBench.access (readOperand side size address) =
      operandAddresses size (s.processor.resolve address) := by
  cases size with
  | byte | word => exact reads_transfer _ address _ _
  | long => exact absurd rfl hsize

/-- Operands of any size are read from a latched address. -/
theorem reads_latched (size : Size) (side : Side) :
    s.readsDuring TestBench.access (readOperand side size (.ofSide side)) =
      operandAddresses size (s.processor.effectiveAddress.get side) := by
  by_cases hsize : size = .long
  · subst hsize
    rw [readOperand, readsDuring_append, Activity.read, Activity.read, reads_transfer,
      reads_transfer, perform_readWord, Processor.resolve_ofSide, Processor.resolve_ofSide]
    exact congrArg (fun second => [s.processor.effectiveAddress.get side] ++ [second])
      (Latches.get_set_self _ side _)
  · rw [← s.processor.resolve_ofSide side]
    exact reads_direct hsize side (.ofSide side)

/-! ## Operands in memory -/

/-- The stage that lets a register step down. -/
theorem fire_decrement (stride : Stride) (side : Side) (activity : Activity) {n : RegisterIndex}
    (hregister : (s.processor.instruction.register side).index = n) :
    s.fire ⟨.decrement stride, side.target, activity⟩ =
      s.withRegisters (s.processor.registers.setAddress n
        (s.processor.registers.address n - stride.bytes)) := by
  rw [BitVec.sub_eq_add_neg, ← hregister]
  cases side <;> rfl

/-- The stage that lets a register step up. -/
theorem fire_increment (stride : Stride) (side : Side) (activity : Activity) {n : RegisterIndex}
    (hregister : (s.processor.instruction.register side).index = n) :
    s.fire ⟨.increment stride, side.target, activity⟩ =
      s.withRegisters (s.processor.registers.setAddress n
        (s.processor.registers.address n + stride.bytes)) := by
  rw [← hregister]
  cases side <;> rfl

/-- An address of words of the program is formed first. -/
theorem readMemory_of_isExtended {mode : AddressMode} (h : mode.isExtended) (side : Side)
    (target : Target) (register : RegisterNumber) (size : Size) :
    readMemory side target mode register size =
      lead mode ++ [⟨mode.action, target,
        (indexDelay mode ++ .fetch) ++ readOperand side size (.ofSide side)⟩] := by
  cases mode <;> first | rfl | cases h

end Snapshot

/-- Where an operand in memory is read. Bytes and words at an address register are read there. -/
def Encoding.readAddress (side : Side) (mode : AddressMode) (n : RegisterNumber) :
    Size → AddressSource
  | .long => .ofSide side
  | _ =>
    match mode with
    | .indirect | .postIncrement | .preDecrement => .addressRegister n
    | _ => .ofSide side

theorem Encoding.readAddress_of_isExtended {mode : AddressMode} (h : mode.isExtended) (side : Side)
    (n : RegisterNumber) (size : Size) : readAddress side mode n size = .ofSide side := by
  cases size <;> cases mode <;> first | rfl | cases h

namespace Snapshot

variable {s : Snapshot TestBench}

/-- An operand in memory has been addressed, by stages that go on to read it. -/
structure Addressed (side : Side) (mode : AddressMode) (size : Size) (n : RegisterNumber)
    (address : Long) (r : Registers) (s s₁ : Snapshot TestBench) : Prop where
  registers : s₁.processor.registers = r
  coherent : s₁.Coherent
  data : s₁.processor.data = s.processor.data
  bus : s₁.bus = s.bus
  address : s₁.processor.resolve (readAddress side mode n size) = address
  execute : s.execute TestBench.access (readMemory side side.target mode n size) =
    s₁.perform TestBench.access (readOperand side size (readAddress side mode n size))
  reads : s.reads TestBench.access (readMemory side side.target mode n size) =
    s₁.readsDuring TestBench.access (readOperand side size (readAddress side mode n size))

theorem blind_fetch (mode : AddressMode) : Activity.Blind (indexDelay mode ++ .fetch) := by
  cases mode <;> decide

/-- An address that takes words of the program. -/
theorem addressed_of_isExtended {mode : AddressMode} (hextended : mode.isExtended) {side : Side}
    {size : Size} {n : RegisterNumber} {address : Long} {r : Registers} (hcoherent : s.Coherent)
    (hregister : s.processor.instruction.register side = n)
    (hlocate : locate s.bus.memory mode n.index size s.processor.registers =
      (.memory address, r)) : ∃ s₁, Addressed side mode size n address r s s₁ := by
  have hindex : (s.processor.instruction.register side).index = n.index := by rw [hregister]
  have hlocated := located hextended hcoherent hindex hlocate
    (indexDelay mode ++ .fetch ++ readOperand side size (.ofSide side))
  have hlead : ∀ stage ∈ lead mode, stage.activity.Blind := by cases mode <;> decide
  have hstages := readMemory_of_isExtended hextended side side.target n size
  have hsource := readAddress_of_isExtended hextended side n size
  refine ⟨_, hlocated.registers, hlocated.coherent, hlocated.data, hlocated.bus, ?_, ?_, ?_⟩
  · rw [hsource, Processor.resolve_ofSide, hlocated.address]
  · rw [hstages, hsource, execute_append, execute_cons, execute_nil, perform_append]
  · rw [hstages, hsource, reads_append, reads_of_blind TestBench.access hlead, reads_cons,
      readsDuring_append, readsDuring_of_blind TestBench.access (blind_fetch mode), reads_nil,
      List.append_nil]
    rfl

/-- An operand that an address register points at. -/
theorem addressed_indirect (side : Side) (size : Size) {n : RegisterNumber} {address : Long}
    (hcoherent : s.Coherent) (hregister : s.processor.instruction.register side = n)
    (haddress : s.processor.registers.address n.index = address) :
    ∃ s₁, Addressed side .indirect size n address s.processor.registers s s₁ := by
  subst haddress
  by_cases hsize : size = .long
  · subst hsize
    have hbase : s.processor.formAddress .register (s.processor.sideRegister side) =
        s.processor.registers.address n.index := by
      rw [← hregister]
      rfl
    have hfired := fire_address (s := s) .register side (readOperand side .long (.ofSide side))
    have hstages : readMemory side side.target .indirect n .long =
        [⟨.address .register, side.target, readOperand side .long (.ofSide side)⟩] := rfl
    rw [hbase] at hfired
    refine ⟨s.aim side (s.processor.registers.address n.index), rfl, hcoherent.congr rfl rfl rfl,
      rfl, rfl, ?_, ?_, ?_⟩
    · exact (Processor.resolve_ofSide _ side).trans (Latches.get_set_self _ _ _)
    · rw [hstages, execute_cons, execute_nil, hfired]
      rfl
    · rw [hstages, reads_cons, reads_nil, List.append_nil, hfired]
      rfl
  · have hstages : readMemory side side.target .indirect n size =
        [.bus (readOperand side size (readAddress side .indirect n size))] := by
      cases size <;> first | rfl | exact absurd rfl hsize
    have haddress : s.processor.resolve (readAddress side .indirect n size) =
        s.processor.registers.address n.index := by
      cases size <;> first | rfl | exact absurd rfl hsize
    refine ⟨s, rfl, hcoherent, rfl, rfl, haddress, ?_, ?_⟩
    · rw [hstages, execute_cons, execute_nil]
      rfl
    · rw [hstages, reads_cons, reads_nil, List.append_nil]
      rfl

/-- A register that steps down first points at its operand then. -/
theorem execute_preDecrement (side : Side) (size : Size) (n : RegisterNumber) :
    let stepped := (s.fire ⟨.decrement (stride size n), side.target, []⟩).timeless
    s.execute TestBench.access (readMemory side side.target .preDecrement n size) =
        stepped.execute TestBench.access (readMemory side side.target .indirect n size) ∧
      s.reads TestBench.access (readMemory side side.target .preDecrement n size) =
        stepped.reads TestBench.access (readMemory side side.target .indirect n size) := by
  have hidle (s : Snapshot TestBench) : s.perform TestBench.access (.idle 4) = s.timeless := rfl
  have hblind : Activity.Blind (.idle 4) := by decide
  have hbus (s : Snapshot TestBench) (activity : Activity) : s.fire (.bus activity) = s := rfl
  have hfire (activity : Activity) : s.fire ⟨.decrement (stride size n), side.target, activity⟩ =
      s.fire ⟨.decrement (stride size n), side.target, []⟩ := rfl
  generalize hstepped : s.fire ⟨.decrement (stride size n), side.target, []⟩ = stepped at hfire
  cases size with
  | byte | word =>
    simp only [readMemory, execute_cons, execute_nil, reads_cons, reads_nil, hfire, hbus,
      perform_append, readsDuring_append, readsDuring_of_blind TestBench.access hblind, hidle,
      List.nil_append]
    exact ⟨rfl, rfl⟩
  | long =>
    have hact : s.fire (.act (.decrement .four) side.target) = stepped := hfire []
    have haddress (activity : Activity) :
        (stepped.fire ⟨.address .register, side.target, activity⟩).timeless =
          stepped.timeless.fire ⟨.address .register, side.target, activity⟩ := by
      cases side <;> rfl
    have hactivity : (Stage.act (.decrement .four) side.target).activity = [] := rfl
    simp only [readMemory, execute_cons, execute_nil, reads_cons, reads_nil, hact, hactivity,
      perform_nil, readsDuring_nil, perform_append, readsDuring_append,
      readsDuring_of_blind TestBench.access hblind, hidle, List.nil_append, haddress]
    exact ⟨rfl, rfl⟩

/-- **An operand in memory is addressed** at the place that its mode names. -/
theorem addressed_readMemory {mode : AddressMode} (hmode : mode.isMemory) {side : Side}
    {size : Size} {n : RegisterNumber} {address : Long} {r : Registers} (hcoherent : s.Coherent)
    (hn : n.toNat < 8) (hregister : s.processor.instruction.register side = n)
    (hlocate : locate s.bus.memory mode n.index size s.processor.registers =
      (.memory address, r)) : ∃ s₁, Addressed side mode size n address r s s₁ := by
  by_cases hextended : mode.isExtended
  · exact addressed_of_isExtended hextended hcoherent hregister hlocate
  · cases mode with
    | indirect =>
      cases hlocate
      exact addressed_indirect side size hcoherent hregister rfl
    | postIncrement =>
      cases hlocate
      obtain ⟨s₁, h⟩ := addressed_indirect side size hcoherent hregister rfl
      have hstages : readMemory side side.target .postIncrement n size =
          readMemory side side.target .indirect n size := by cases size <;> rfl
      have hsource : readAddress side .postIncrement n size = readAddress side .indirect n size := by
        cases size <;> rfl
      refine ⟨s₁, h.registers, h.coherent, h.data, h.bus, ?_, ?_, ?_⟩
      · rw [hsource, h.address]
      · rw [hstages, hsource, h.execute]
      · rw [hstages, hsource, h.reads]
    | preDecrement =>
      cases hlocate
      obtain ⟨hexecute, hreads⟩ := execute_preDecrement (s := s) side size n
      have hindex : (s.processor.instruction.register side).index = n.index := by rw [hregister]
      rw [fire_decrement _ side [] hindex, stride_bytes size hn] at hexecute hreads
      obtain ⟨s₁, h⟩ := addressed_indirect
        (s := (s.withRegisters (s.processor.registers.setAddress n.index
          (s.processor.registers.address n.index - stepLength size n.index))).timeless)
        side size (hcoherent.congr rfl rfl rfl) hregister (Registers.address_setAddress_self _ _ _)
      have hsource : readAddress side .preDecrement n size = readAddress side .indirect n size := by
        cases size <;> rfl
      refine ⟨s₁, h.registers, h.coherent, h.data, h.bus, ?_, ?_, ?_⟩
      · rw [hsource, h.address]
      · rw [hexecute, hsource, h.execute]
      · rw [hreads, hsource, h.reads]
    | displacement | index | absoluteShort | absoluteLong | pcDisplacement | pcIndex =>
      exact absurd rfl hextended
    | dataRegister | addressRegister | immediate => cases hmode

/-- An operand that has been addressed is taken. -/
theorem Addressed.taken {side : Side} {mode : AddressMode} {size : Size} {n : RegisterNumber}
    {address : Long} {r : Registers} {s₁ : Snapshot TestBench}
    (h : Addressed side mode size n address r s s₁) :
    Taken side size (s.bus.memory.read size address) s₁
        (s.execute TestBench.access (readMemory side side.target mode n size)) ∧
      s.reads TestBench.access (readMemory side side.target mode n size) =
        operandAddresses size address := by
  have haddress := h.address
  rw [h.execute, h.reads, ← h.bus]
  by_cases hsize : size = .long
  · subst hsize
    rw [readAddress, Processor.resolve_ofSide] at haddress
    rw [← haddress]
    exact ⟨taken_latched .long side, reads_latched .long side⟩
  · rw [← haddress]
    exact ⟨taken_direct hsize side _, reads_direct hsize side _⟩

/-- An operand has been brought into the data latch of a side. -/
structure Brought (side : Side) (size : Size) (value : Long) (r : Registers)
    (s s' : Snapshot TestBench) : Prop where
  registers : s'.processor.registers = r
  coherent : s'.Coherent
  bus : s'.bus = s.bus
  value : size.truncate (s'.processor.data.get side) = value

/-- **An operand in memory is brought in** from the place that its mode names. -/
theorem brought_readMemory {mode : AddressMode} (hmode : mode.isMemory) {side : Side} {size : Size}
    {n : RegisterNumber} {address : Long} {r : Registers} (hcoherent : s.Coherent)
    (hn : n.toNat < 8) (hregister : s.processor.instruction.register side = n)
    (hlocate : locate s.bus.memory mode n.index size s.processor.registers =
      (.memory address, r)) :
    Brought side size (s.bus.memory.read size address) r s
      (s.execute TestBench.access (readMemory side side.target mode n size)) := by
  obtain ⟨s₁, haddressed⟩ := addressed_readMemory hmode hcoherent hn hregister hlocate
  obtain ⟨htaken, -⟩ := haddressed.taken
  exact
    { registers := htaken.registers.trans haddressed.registers
      coherent := haddressed.coherent.congr htaken.prefetch (congrArg (·.pc) htaken.registers)
        htaken.bus
      bus := htaken.bus.trans haddressed.bus
      value := htaken.value }

/-! ## Other operands -/

/-- Put a value into the data latch of a side. -/
def latch (side : Side) (value : Long) (s : Snapshot TestBench) : Snapshot TestBench :=
  s.withProcessor { s.processor with data := s.processor.data.set side value }

/-- The value in the latch is kept while the queue moves on. -/
theorem brought_latch (hcoherent : s.Coherent) (side : Side) (size : Size) (value : Long) :
    Brought side size (size.truncate value) (skipWord s.processor.registers) s
      ((s.latch side value).perform TestBench.access .fetch) := by
  have hlatched : (s.latch side value).Coherent := hcoherent.congr rfl rfl rfl
  refine ⟨?_, hlatched.fetch, ?_, ?_⟩ <;> rw [perform_fetch]
  · rfl
  · rfl
  · exact congrArg size.truncate (Latches.get_set_self _ _ _)

/-- An immediate operand is taken from the program. -/
theorem brought_fetchImmediate (size : Size) {n : RegisterIndex} {value : Long} {r : Registers}
    (hcoherent : s.Coherent)
    (hlocate : locate s.bus.memory .immediate n size s.processor.registers = (.constant value, r)) :
    Brought .source size (size.truncate value) r s
      (s.execute TestBench.access (fetchImmediate size)) := by
  have hword (activity : Activity) : s.fire ⟨.immediate, .src, activity⟩ =
      s.latch .source ((nextWord s.bus.memory s.processor.registers).setWidth 32) := by
    rw [← hcoherent.low]
    rfl
  cases size with
  | byte | word =>
    cases hlocate
    rw [fetchImmediate, execute_cons, execute_nil, hword]
    · exact brought_latch hcoherent .source _ _
    · exact nofun
  | long =>
    cases hlocate
    have hled : s.fire (.bus .fetch) = s := rfl
    have hlong (s : Snapshot TestBench) (activity : Activity) :
        s.fire ⟨.longImmediate, .src, activity⟩ = s.latch .source s.processor.prefetch := rfl
    have hbrought := brought_latch hcoherent.fetch .source .long
      (s.perform TestBench.access .fetch).processor.prefetch
    rw [fetchImmediate, execute_cons, execute_cons, execute_nil, hled, hlong,
      ← hcoherent.prefetch_fetch]
    refine ⟨hbrought.registers.trans ?_, hbrought.coherent, hbrought.bus.trans ?_, hbrought.value⟩
    · rw [perform_fetch]
      rfl
    · rw [perform_fetch]
      rfl

theorem exists_locate_of_isMemory {mode : AddressMode} (h : mode.isMemory) (memory : Memory)
    (n : RegisterIndex) (size : Size) (r : Registers) :
    ∃ address r', locate memory mode n size r = (.memory address, r') := by
  cases mode <;> first | exact ⟨_, _, rfl⟩ | cases h

theorem ofMode_of_isMemory {mode : AddressMode} (h : mode.isMemory) (n : RegisterNumber)
    (latch : Operand) : Operand.ofMode mode n latch = latch := by
  cases mode <;> first | rfl | cases h

/-- **A source operand of any mode** is the one at the place that the mode names. -/
theorem source_fetchSource {mode : AddressMode} {size : Size} {n : RegisterNumber} {place : Place}
    {r : Registers} (hcoherent : s.Coherent) (hn : n.toNat < 8)
    (hregister : s.processor.instruction.sourceRegister = n)
    (hlocate : locate s.bus.memory mode n.index size s.processor.registers = (place, r)) :
    let s' := s.execute TestBench.access (fetchSource mode n size)
    s'.processor.registers = r ∧ s'.Coherent ∧ s'.bus = s.bus ∧
      size.truncate (s'.processor.readOperand (.ofMode mode n .sourceLatch)) =
        place.read ⟨r, s.bus.memory⟩ size := by
  have hbrought {value : Long} {s' : Snapshot TestBench}
      (h : Brought .source size value r s s') :
      s'.processor.registers = r ∧ s'.Coherent ∧ s'.bus = s.bus ∧
        size.truncate (s'.processor.readOperand .sourceLatch) = value :=
    ⟨h.registers, h.coherent, h.bus, h.value⟩
  by_cases hmode : mode.isMemory
  · obtain ⟨address, r', hmemory⟩ :=
      exists_locate_of_isMemory hmode s.bus.memory n.index size s.processor.registers
    obtain ⟨rfl, rfl⟩ := Prod.mk.inj (hlocate.symm.trans hmemory)
    rw [fetchSource_of_isMemory hmode, ofMode_of_isMemory hmode]
    exact hbrought (brought_readMemory hmode hcoherent hn hregister hlocate)
  · cases mode with
    | dataRegister | addressRegister =>
      cases hlocate
      exact ⟨rfl, hcoherent, rfl, rfl⟩
    | immediate =>
      have hconstant : ∃ value, place = .constant value := by
        cases size <;> cases hlocate <;> exact ⟨_, rfl⟩
      obtain ⟨value, rfl⟩ := hconstant
      exact hbrought (brought_fetchImmediate size hcoherent hlocate)
    | _ => exact absurd rfl hmode

theorem blind_fetchImmediate (size : Size) :
    ∀ stage ∈ fetchImmediate size, stage.activity.Blind := by
  cases size <;> decide

/-- **A source operand is read once**, at the place that its mode names. -/
theorem reads_fetchSource {mode : AddressMode} {size : Size} {n : RegisterNumber} {place : Place}
    {r : Registers} (hcoherent : s.Coherent) (hn : n.toNat < 8)
    (hregister : s.processor.instruction.sourceRegister = n)
    (hlocate : locate s.bus.memory mode n.index size s.processor.registers = (place, r)) :
    s.reads TestBench.access (fetchSource mode n size) = place.addresses size := by
  by_cases hmode : mode.isMemory
  · obtain ⟨address, r', hmemory⟩ :=
      exists_locate_of_isMemory hmode s.bus.memory n.index size s.processor.registers
    obtain ⟨rfl, rfl⟩ := Prod.mk.inj (hlocate.symm.trans hmemory)
    have hside : s.processor.instruction.register .source = n := hregister
    obtain ⟨s₁, haddressed⟩ := addressed_readMemory hmode hcoherent hn hside hlocate
    rw [fetchSource_of_isMemory hmode]
    exact haddressed.taken.2
  · cases mode with
    | dataRegister | addressRegister =>
      cases hlocate
      rfl
    | immediate =>
      rw [fetchSource, reads_of_blind TestBench.access (blind_fetchImmediate size)]
      cases size <;> cases hlocate <;> rfl
    | _ => exact absurd rfl hmode

end Snapshot

end M68k
