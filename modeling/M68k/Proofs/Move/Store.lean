import M68k.Proofs.Memory.Words
import M68k.Proofs.Operand.Source

/-!
# Storing what is moved

The stages that write the destination latch of a move put the operand into memory at the place that
the destination mode names. Their order differs from mode to mode, and a long word goes out low word
first to a register that steps down, but memory and registers do not show it.

## Main definitions

* `Snapshot.Stored`: an operand has been stored and the next opcode fetched

## Main results

* `Snapshot.stored_storeMoved`: the stages of a move to memory
-/

namespace M68k

open Encoding Reference

theorem setWidth_low (value : Long) : (Half.low.get value).setWidth 8 = value.setWidth 8 := by
  rw [← setWidth_eq_low, BitVec.setWidth_setWidth_of_le _ (by decide)]

/-- The activity that writes the destination latch at the destination address. -/
def Encoding.writeMoved : Size → Activity
  | .long =>
    .write .high (some .increment) .word destinationAddress ++
      .write .low none .word destinationAddress
  | size => .write .low none (transferWidth size) destinationAddress

/-! ## Writes -/

namespace Snapshot

variable {s : Snapshot TestBench}

/-- Go on with another memory. -/
def withMemory (memory : Memory) (s : Snapshot TestBench) : Snapshot TestBench :=
  { s with bus := s.bus.withMemory memory }

/-- Bytes and words are written wherever the bus step points. -/
theorem perform_writeDirect {size : Size} (hsize : size ≠ .long) (address : AddressSource) :
    s.perform TestBench.access (.write .low none (transferWidth size) address) =
      s.timeless.withMemory
        (s.bus.memory.write size (s.processor.resolve address) s.processor.data.destination) := by
  cases size with
  | byte =>
    refine (perform_writeByte s false address (.latch .destination .low) .none).trans ?_
    simp only [Processor.loadSlot, setWidth_low]
    rfl
  | word => exact perform_writeWord s false address (.latch .destination .low) .none
  | long => exact absurd rfl hsize

/-- Operands of any size are written at the destination address. -/
theorem perform_writeMoved (size : Size) :
    ∃ addresses, s.perform TestBench.access (writeMoved size) =
      (s.withProcessor
        ({ s.processor with effectiveAddress := addresses } : Processor).timeless).withMemory
          (s.bus.memory.write size s.processor.effectiveAddress.destination
            s.processor.data.destination) := by
  by_cases hsize : size = .long
  · subst hsize
    refine ⟨s.processor.effectiveAddress.set .destination
      (s.processor.effectiveAddress.destination + 2), ?_⟩
    rw [writeMoved, perform_append, Activity.write, Activity.write, perform_writeWord,
      perform_writeWord]
    rfl
  · refine ⟨s.processor.effectiveAddress, ?_⟩
    have hactivity : writeMoved size = .write .low none (transferWidth size) destinationAddress := by
      cases size <;> first | exact absurd rfl hsize | rfl
    rw [hactivity]
    exact perform_writeDirect hsize destinationAddress

/-! ## Stages -/

/-- An operand has been stored, and the next opcode fetched. -/
structure Stored (size : Size) (address : Long) (r : Registers) (s s' : Snapshot TestBench) :
    Prop where
  registers : s'.processor.registers = skipWord r
  memory : ∀ place, s'.bus.memory.byte place =
    (s.bus.memory.write size address s.processor.data.destination).byte place

/-- The operand is written at the destination address, and a fetch follows. -/
theorem stored_writeMoved {size : Size} {address : Long} {r : Registers} {s₁ : Snapshot TestBench}
    (hregisters : s₁.processor.registers = r)
    (haddress : s₁.processor.effectiveAddress.destination = address)
    (hdata : s₁.processor.data = s.processor.data) (hbus : s₁.bus = s.bus) :
    Stored size address r s (s₁.perform TestBench.access (writeMoved size ++ .fetch)) := by
  obtain ⟨addresses, hwritten⟩ := perform_writeMoved (s := s₁) size
  rw [perform_append, hwritten, perform_fetch]
  refine ⟨?_, fun _ => ?_⟩
  · rw [← hregisters]
    rfl
  · rw [← haddress, ← hdata, ← hbus]
    rfl

theorem storeMoved_of_isExtended {mode : AddressMode} (h : mode.isExtended)
    (register : RegisterNumber) (size : Size) (increment : Target) :
    storeMoved mode register size increment =
      lead mode ++ [⟨mode.action, Side.destination.target,
        (indexDelay mode ++ .fetch) ++ (writeMoved size ++ .fetch)⟩] := by
  cases mode with
  | displacement | index | absoluteShort | absoluteLong | pcDisplacement | pcIndex =>
    cases size <;> rfl
  | _ => cases h

/-- An address of words of the program is formed before the write. -/
theorem stored_of_isExtended {mode : AddressMode} (hmode : mode.isExtended) {size : Size}
    {n : RegisterNumber} {address : Long} {r : Registers} (hcoherent : s.Coherent)
    (hregister : s.processor.instruction.destinationRegister = n)
    (hlocate : locate s.bus.memory mode n.index size s.processor.registers =
      (.memory address, r)) (increment : Target) :
    Stored size address r s (s.execute TestBench.access (storeMoved mode n size increment)) := by
  have hindex : (s.processor.instruction.register .destination).index = n.index := by
    rw [← hregister]
    rfl
  have hlocated := located hmode hcoherent hindex hlocate
    (indexDelay mode ++ .fetch ++ (writeMoved size ++ .fetch))
  rw [storeMoved_of_isExtended hmode, execute_append]
  generalize s.execute TestBench.access (lead mode) = led at hlocated ⊢
  rw [execute_cons, execute_nil, perform_append]
  generalize (led.fire _).perform TestBench.access (indexDelay mode ++ .fetch) = s₁ at hlocated ⊢
  exact stored_writeMoved hlocated.registers hlocated.address hlocated.data hlocated.bus

/-- An address register points at the place to write. -/
theorem stored_indirect {size : Size} {n : RegisterNumber}
    (hregister : s.processor.instruction.destinationRegister = n) (increment : Target) :
    Stored size (s.processor.registers.address n.index) s.processor.registers s
      (s.execute TestBench.access (storeMoved .indirect n size increment)) := by
  by_cases hsize : size = .long
  · subst hsize
    have hstages : storeMoved .indirect n .long increment =
        [⟨.address .register, Side.destination.target, writeMoved .long ++ .fetch⟩] := rfl
    have hbase : s.processor.formAddress .register (s.processor.sideRegister .destination) =
        s.processor.registers.address n.index := by
      rw [← hregister]
      rfl
    rw [hstages, execute_cons, execute_nil, fire_address, hbase]
    exact stored_writeMoved rfl rfl rfl rfl
  · have hstages : storeMoved .indirect n size increment =
        [.bus (.write .low none (transferWidth size) (.addressRegister n) ++ .fetch)] := by
      cases size <;> first | exact absurd rfl hsize | rfl
    have hfired : s.fire (.bus (.write .low none (transferWidth size) (.addressRegister n) ++
        .fetch)) = s := rfl
    rw [hstages, execute_cons, execute_nil, hfired, Stage.bus, perform_append,
      perform_writeDirect hsize, perform_fetch]
    exact ⟨rfl, fun _ => rfl⟩

/-- A register that steps down to a byte or a word is written at behind a fetch. -/
theorem stored_preDecrement {size : Size} (hsize : size ≠ .long) {n : RegisterNumber}
    (hn : n.toNat < 8) (hregister : s.processor.instruction.destinationRegister = n)
    {address : Long} (haddress : s.processor.registers.address n.index - stepLength size n.index =
      address) (increment : Target) :
    Stored size address (s.processor.registers.setAddress n.index address) s
      (s.execute TestBench.access (storeMoved .preDecrement n size increment)) := by
  have hstages : storeMoved .preDecrement n size increment =
      [⟨.decrement (stride size n), Side.destination.target,
        .fetch ++ .write .low none (transferWidth size) (.addressRegister n)⟩] := by
    cases size <;> first | exact absurd rfl hsize | rfl
  have hindex : (s.processor.instruction.register .destination).index = n.index := by
    rw [← hregister]
    rfl
  rw [hstages, execute_cons, execute_nil, fire_decrement _ .destination _ hindex,
    stride_bytes size hn, haddress, perform_append, perform_fetch, perform_writeDirect hsize]
  refine ⟨rfl, fun place => ?_⟩
  exact congrArg
    (fun a => (s.bus.memory.write size a s.processor.data.destination).byte place)
    (Registers.address_setAddress_self s.processor.registers n.index address)

/-- The two words of a long word can be stored in any order. -/
theorem byte_write_long (memory : Memory) (address value : Long) (place : Address) :
    (memory.write .long address value).byte place =
      ((memory.storeWordAt (address + 2) (Half.low.get value)).storeWordAt address
        (Half.high.get value)).byte place := by
  have hwidth : (address + 2).setWidth 24 = address.setWidth 24 + 2 :=
    BitVec.setWidth_add address 2 (by decide)
  refine Memory.byte_storeWord_comm memory ?_ _ _ place
  rw [hwidth]
  exact (Memory.wordAddress_add_two_ne _).symm

/-- A long word is written low word first. -/
theorem perform_writeDown :
    ∃ addresses, s.perform TestBench.access
        (.write .low (some .decrement) .word destinationAddress ++
          .write .high none .word destinationAddress) =
      (s.withProcessor
        ({ s.processor with effectiveAddress := addresses } : Processor).timeless).withMemory
          ((s.bus.memory.storeWordAt s.processor.effectiveAddress.destination
            (Half.low.get s.processor.data.destination)).storeWordAt
              (s.processor.effectiveAddress.destination - 2)
              (Half.high.get s.processor.data.destination)) := by
  refine ⟨s.processor.effectiveAddress.set .destination
    (s.processor.effectiveAddress.destination - 2), ?_⟩
  rw [perform_append, Activity.write, Activity.write, perform_writeWord, perform_writeWord]
  rfl

/-- A register that steps down to a long word is written at one word at a time, low word first. -/
theorem stored_preDecrement_long {n : RegisterNumber}
    (hregister : s.processor.instruction.destinationRegister = n)
    {address : Long} (haddress : s.processor.registers.address n.index - 4 = address)
    (increment : Target) :
    Stored .long address (s.processor.registers.setAddress n.index address) s
      (s.execute TestBench.access (storeMoved .preDecrement n .long increment)) := by
  have hstages : storeMoved .preDecrement n .long increment =
      [⟨.decrement .two, Side.destination.target, .fetch⟩,
        ⟨.address .register, Side.destination.target,
          .write .low (some .decrement) .word destinationAddress ++
            .write .high none .word destinationAddress⟩,
        ⟨.decrement .two, Side.destination.target, []⟩] := rfl
  have hindex : (s.processor.instruction.register .destination).index = n.index := by
    rw [← hregister]
    rfl
  have hhalfway : s.processor.registers.address n.index - 2 = address + 2 := by
    rw [← haddress]
    bv_omega
  have hback : address + 2 - 2 = address := by bv_omega
  rw [hstages, execute_cons, execute_cons, execute_cons, execute_nil, perform_nil]
  rw [fire_decrement _ .destination _ hindex, perform_fetch, Stride.bytes, hhalfway]
  generalize hstepped : (withProcessor _ _ : Snapshot TestBench) = s₁
  have hregisters : s₁.processor.registers =
      skipWord (s.processor.registers.setAddress n.index (address + 2)) := by
    rw [← hstepped]
    rfl
  have hdata : s₁.processor.data = s.processor.data := by
    rw [← hstepped]
    rfl
  have hbus : s₁.bus = s.bus := by
    rw [← hstepped]
    rfl
  have hself : s₁.processor.registers.address n.index = address + 2 := by
    rw [hregisters]
    exact Registers.address_setAddress_self _ _ _
  have hindex₁ : (s₁.processor.instruction.register .destination).index = n.index := by
    rw [← hstepped]
    exact hindex
  have hbase : s₁.processor.formAddress .register (s₁.processor.sideRegister .destination) =
      address + 2 := by
    rw [Processor.formAddress, Processor.sideRegister, hindex₁, hself]
  obtain ⟨addresses, hwritten⟩ := perform_writeDown (s := s₁.aim .destination (address + 2))
  rw [fire_address, hbase, hwritten, fire_decrement .two .destination [] (by exact hindex₁)]
  refine ⟨?_, fun place => ?_⟩
  · change s₁.processor.registers.setAddress n.index
      (s₁.processor.registers.address n.index - 2) = _
    rw [hself, hback, hregisters, skipWord, skipWord]
    simp only [Registers.setAddress, Vector.set_set]
  · change ((s₁.bus.memory.storeWordAt (address + 2)
      (Half.low.get s₁.processor.data.destination)).storeWordAt (address + 2 - 2)
        (Half.high.get s₁.processor.data.destination)).byte place = _
    rw [hback, hdata, hbus, byte_write_long]

/-- **What is moved is stored** at the place that the destination mode names. The step of a register
past its operand is left to the stages behind. -/
theorem stored_storeMoved {mode : AddressMode} (hmode : mode.isMemory)
    (hstep : mode ≠ .postIncrement) {size : Size} {n : RegisterNumber} {address : Long}
    {r : Registers} (hcoherent : s.Coherent) (hn : n.toNat < 8)
    (hregister : s.processor.instruction.destinationRegister = n)
    (hlocate : locate s.bus.memory mode n.index size s.processor.registers =
      (.memory address, r)) (increment : Target) :
    Stored size address r s (s.execute TestBench.access (storeMoved mode n size increment)) := by
  by_cases hextended : mode.isExtended
  · exact stored_of_isExtended hextended hcoherent hregister hlocate increment
  · cases mode with
    | indirect =>
      cases hlocate
      exact stored_indirect hregister increment
    | postIncrement => exact absurd rfl hstep
    | preDecrement =>
      cases hlocate
      by_cases hsize : size = .long
      · subst hsize
        exact stored_preDecrement_long hregister rfl increment
      · exact stored_preDecrement hsize hn hregister rfl increment
    | displacement | index | absoluteShort | absoluteLong | pcDisplacement | pcIndex =>
      exact absurd rfl hextended
    | dataRegister | addressRegister | immediate => cases hmode

end Snapshot

end M68k
