import M68k.Memory
import M68k.Proofs.Execution.Snapshot
import M68k.Proofs.Word

/-!
# Transfers from and to memory

What the pieces of bus programs do on a test bench. Of an address of the processor the bench sees 24
bits, a word transfer disregards the lowest of them, and a byte read brings in no more than a byte,
whatever is on the upper lane.

## Main definitions

* `Memory.byteAt`, `Memory.wordAt`: memory at an address of the processor

## Main results

* `Snapshot.perform_readWord`, `Snapshot.perform_readByte`: reads
* `Snapshot.perform_writeWord`, `Snapshot.perform_writeByte`: writes
* `Snapshot.perform_fetch`: a fetch into the prefetch queue
-/

namespace M68k

/-- The byte at an address of the processor. -/
def Memory.byteAt (memory : Memory) (address : Long) : Byte := memory.byte (address.setWidth 24)

/-- The word around an address of the processor. -/
def Memory.wordAt (memory : Memory) (address : Long) : Word := memory.word (address.setWidth 24)

/-- Replace the byte at an address of the processor. -/
def Memory.storeAt (memory : Memory) (address : Long) (value : Byte) : Memory :=
  memory.store (address.setWidth 24) value

/-- Replace the word around an address of the processor. -/
def Memory.storeWordAt (memory : Memory) (address : Long) (value : Word) : Memory :=
  memory.storeWord (address.setWidth 24) value

/-- The bench with another memory. -/
def TestBench.withMemory (bench : TestBench) (memory : Memory) : TestBench :=
  { bench with memory := memory }

/-- Fetch a word into the prefetch queue, whose low word moves up. -/
def Processor.fetch (p : Processor) (word : Word) : Processor :=
  { p with
    prefetch := Half.low.get p.prefetch ++ word
    registers := { p.registers with pc := p.registers.pc + 2 } }

namespace Processor

variable (p : Processor) {step : BusStep} {length : HalfCycles} (reply : Reply)

/-- What a read does to a processor. -/
theorem timeless_receive_of_read (hlength : step.length = .fixed length)
    (hread : step.signals.isRead) :
    (p.receive step reply).timeless =
      ((p.storeSlot step.slot reply.value step.signals.selectByte).applyStepAction
        step.action).timeless := by
  simp only [receive, hlength, hread, reduceCtorEq, if_false, if_true]
  rfl

/-- What any other step does. -/
theorem timeless_receive_of_not_read (hlength : step.length = .fixed length)
    (hread : step.signals.isRead = false) :
    (p.receive step reply).timeless = (p.applyStepAction step.action).timeless := by
  simp only [receive, hlength, hread, reduceCtorEq, if_false, Bool.false_eq_true]
  rfl

end Processor

namespace Snapshot

/-- A bus step disregards the time. -/
theorem transact_timeless {β : Type} (bus : Bus β) (s : Snapshot β) (step : BusStep) :
    (s.withProcessor s.processor.timeless).transact bus step = s.transact bus step := by
  simp only [transact, withProcessor, Processor.request_timeless]
  rw [← s.processor.timeless_receive step ⟨_, 0⟩]

section Steps

variable {β : Type} {bus : Bus β} (s : Snapshot β) {step : BusStep} {length : HalfCycles}
  {reply : Reply} {b : β}

/-- What a read does, once the answer of the bus is known. -/
theorem transact_of_read (hlength : step.length = .fixed length) (hread : step.signals.isRead)
    (haccess : bus s.bus (s.processor.request step) = (reply, b)) :
    s.transact bus step =
      ⟨((s.processor.storeSlot step.slot reply.value step.signals.selectByte).applyStepAction
        step.action).timeless, b⟩ := by
  simp only [transact, haccess, s.processor.timeless_receive_of_read _ hlength hread]

/-- What any other step does. -/
theorem transact_of_not_read (hlength : step.length = .fixed length)
    (hread : step.signals.isRead = false)
    (haccess : bus s.bus (s.processor.request step) = (reply, b)) :
    s.transact bus step = ⟨(s.processor.applyStepAction step.action).timeless, b⟩ := by
  simp only [transact, haccess, s.processor.timeless_receive_of_not_read _ hlength hread]

end Steps

variable (s : Snapshot TestBench) (isProgram : Bool) (address : AddressSource) (slot : DataSlot)
  (action : StepAction)

theorem perform_idle (duration : HalfCycles) :
    s.perform TestBench.access (.idle duration) = s.withProcessor s.processor.timeless := rfl

theorem perform_flexible :
    s.perform TestBench.access .flexible =
      s.withProcessor { s.processor with flexibleLength := 0 }.timeless := rfl

/-- The second half of a transfer. -/
def select (read : Bool) (width : Width) : BusStep where
  length := .fixed 3
  signals :=
    { sameAddress := true, read := read, isProgram := isProgram
      selectByte := width == .byte, selectWord := width == .word }
  address := address
  slot := slot
  action := action

/-- The first half of a transfer takes time only. -/
theorem perform_transfer (read : Bool) (width : Width) :
    s.perform TestBench.access (.transfer read isProgram width address slot action) =
      s.transact TestBench.access (select isProgram address slot action read width) := by
  simp only [perform, Activity.transfer, List.foldl_cons, List.foldl_nil]
  rw [transact_of_not_read s (by rfl) (by rfl) (by rfl)]
  exact transact_timeless TestBench.access s _

theorem perform_readWord :
    s.perform TestBench.access (.transfer true isProgram .word address slot action) =
      s.withProcessor
        ((s.processor.storeSlot slot (s.bus.memory.wordAt (s.processor.resolve address))
          false).applyStepAction action).timeless := by
  have haccess : s.bus.access (s.processor.request (select isProgram address slot action true .word)) =
      (⟨s.bus.memory.wordAt (s.processor.resolve address), s.bus.wait⟩, s.bus) := rfl
  rw [perform_transfer, transact_of_read s (by rfl) (by rfl) haccess]
  rfl

theorem perform_writeWord :
    s.perform TestBench.access (.transfer false isProgram .word address slot action) =
      ⟨(s.processor.applyStepAction action).timeless,
        s.bus.withMemory (s.bus.memory.storeWordAt (s.processor.resolve address)
          (s.processor.loadSlot slot))⟩ := by
  rw [perform_transfer, transact_of_not_read s (by rfl) (by rfl) (by rfl)]
  rfl

theorem perform_writeByte :
    s.perform TestBench.access (.transfer false isProgram .byte address slot action) =
      ⟨(s.processor.applyStepAction action).timeless,
        s.bus.withMemory (s.bus.memory.storeAt (s.processor.resolve address)
          ((s.processor.loadSlot slot).setWidth 8))⟩ := by
  rw [perform_transfer, transact_of_not_read s (by rfl) (by rfl) (by rfl)]
  rfl

/-- The upper lane does not matter for the low byte. -/
theorem extractLsb'_disturbed (byte : Byte) (lane : Word) :
    (byte.setWidth 16 ||| (lane &&& 0xFF00)).extractLsb' 0 8 = byte := by
  ext i hi
  interval_cases i <;> simp [BitVec.getElem_setWidth]

theorem perform_readByte (side : Side) (half : Half) :
    s.perform TestBench.access
        (.transfer true isProgram .byte address (.latch side half) action) =
      let latched := s.processor.data.get side
      let word := (half.get latched).extractLsb' 8 8 ++
        s.bus.memory.byteAt (s.processor.resolve address)
      s.withProcessor
        ({ s.processor with
          data := s.processor.data.set side (half.set latched word) }.applyStepAction
            action).timeless := by
  rw [perform_transfer, transact_of_read s (by rfl) (by rfl) (by rfl)]
  dsimp only []
  rw [← extractLsb'_disturbed (s.bus.memory.byteAt (s.processor.resolve address)) s.bus.highByte]
  rfl

theorem perform_fetch :
    s.perform TestBench.access .fetch =
      s.withProcessor (s.processor.fetch (s.bus.memory.wordAt s.processor.registers.pc)).timeless := by
  simp only [perform, Activity.fetch, List.foldl_cons, List.foldl_nil]
  rw [transact_of_not_read s (by rfl) (by rfl) (by rfl)]
  rw [transact_of_read _ (by rfl) (by rfl) (by rfl), Processor.fetch]
  rw [← Half.low_set_high_set s.processor.prefetch]
  rfl

/-- Idle time in front of a fetch only takes time. -/
theorem perform_idle_fetch (duration : HalfCycles) :
    s.perform TestBench.access (.idle duration ++ .fetch) = s.perform TestBench.access .fetch := by
  rw [perform_append, perform_idle, perform_fetch, perform_fetch]
  rfl

end Snapshot

end M68k
