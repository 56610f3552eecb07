import M68k.Proofs.Execution.Exchange
import M68k.Proofs.Memory.Transfers
import M68k.Proofs.Prefetch.Queue

/-!
# A program that stays

The memory that a program lies in may be slow, and part of a machine in which other things go on. To
a processor that fetches its instructions there and writes nothing, all that counts is that the
words of the program stay what they are.

## Main definitions

* `Bus.Supplies`: a bus answers fetches with the words of a program that stays
* `Fetched.refill`: the words that a refill of the prefetch queue takes in
* `Run.ComesTo`: what a run has come to on such a bus

## Main results

* `TestBench.supplies`: memory does
* `Run.ComesTo.refill`: the prefetch queue is filled with the words at the program counter
-/

namespace M68k

variable {β : Type}

/-- The step takes in a word of the program. -/
def Signals.fetchesWord (signals : Signals) : Bool :=
  signals.isRead && signals.isProgram && !signals.selectByte && !signals.interruptAcknowledge

/-- In the states of a bus for which `holds`, the program consists of `words`. Until something is
written the bus stays in such states, and it answers each fetch with the word at its address. -/
structure Bus.Supplies (bus : Bus β) (words : Long → Word) (holds : β → Prop) : Prop where
  stays : ∀ b request, holds b → request.signals.isWrite = false → holds (bus b request).2
  word : ∀ b request, holds b → request.signals.fetchesWord →
    (bus b request).1.value = words request.address

/-- **Memory keeps a program**, whatever the waits are. -/
theorem TestBench.supplies (memory : Memory) :
    Bus.Supplies TestBench.access memory.wordAt fun bench => bench.memory = memory where
  stays := by
    rintro bench ⟨signals, address, value⟩ rfl hwrite
    cases hdata : signals.transfersData with
    | false => simp [access, hdata]
    | true =>
      have hread : signals.read = true := by simpa [Signals.isWrite, hdata] using hwrite
      cases hacknowledge : signals.interruptAcknowledge <;> cases hbyte : signals.selectByte <;>
        simp [access, hdata, hacknowledge, hread, hbyte, Memory.transfer]
  word := by
    rintro bench ⟨signals, address, value⟩ rfl hfetches
    simp only [Signals.fetchesWord, Signals.isRead, Bool.and_eq_true, Bool.not_eq_true'] at hfetches
    obtain ⟨⟨⟨⟨hdata, hread⟩, -⟩, hbyte⟩, hacknowledge⟩ := hfetches
    simp only [access, hdata, hacknowledge, hread, hbyte, Memory.transfer, Memory.wordAt,
      Bool.not_true, Bool.false_eq_true, if_false, Bool.and_false]

/-- The words that a refill of the prefetch queue takes in, the last one first. -/
def Fetched.refill (words : Long → Word) (address : Long) : List Fetched :=
  [⟨address + 2, words (address + 2)⟩, ⟨address, words address⟩]

/-- Two fetches fill the queue. -/
theorem Processor.fetch_fetch (p : Processor) (first second : Word) :
    (p.fetch first).fetch second =
      { p with
        prefetch := first ++ second
        registers := { p.registers with pc := p.registers.pc + 4 } } := by
  have hlow : Half.low.get (Half.low.get p.prefetch ++ first) = first :=
    BitVec.extractLsb'_append_eq_right
  have hpc : p.registers.pc + 2 + 2 = p.registers.pc + 4 := by bv_omega
  simp only [fetch, hlow, hpc]

namespace Run

/-- Runs that differ in offsets and marks fetch the same. -/
theorem fetched_of_unplaced {run other : Run β} (h : run.unplaced = other.unplaced) :
    run.fetched = other.fetched := by
  have hmap : run.history.map StepRecord.fetched? = other.history.map StepRecord.fetched? :=
    map_history_of_unplaced h fun _ => rfl
  have hfetched (run : Run β) :
      run.fetched = (run.history.map StepRecord.fetched?).filterMap id := by
    rw [fetched, List.filterMap_map]
    rfl
  rw [hfetched, hmap, ← hfetched]

/-- A run has come to a processor, at whatever place and time, and has fetched some words, the last
one first. The program has stayed. -/
structure ComesTo (holds : β → Prop) (run : Run β) (p : Processor) (words : List Fetched) :
    Prop where
  processor : run.processor.timeless = p.timeless
  fetched : run.fetched = words
  bus : holds run.bus

namespace ComesTo

variable {bus : Bus β} {words : Long → Word} {holds : β → Prop} {run : Run β} {p : Processor}
  {earlier : List Fetched}

/-- A processor at another place and time asks for the same. -/
theorem request (h : run.ComesTo holds p earlier) (step : BusStep) :
    run.processor.request step = p.request step := by
  rw [← run.processor.request_timeless, h.processor, p.request_timeless]

/-- It also takes the answer in the same way. -/
theorem receive (h : run.ComesTo holds p earlier) (step : BusStep) (reply : Reply) :
    (run.processor.receive step reply).timeless = (p.receive step reply).timeless := by
  rw [← run.processor.timeless_receive_timeless, h.processor, p.timeless_receive_timeless]

section

variable (hbus : bus.Supplies words holds) (h : run.ComesTo holds p earlier)
include hbus h

/-- A step that transfers nothing. -/
theorem pass {step : BusStep} {length : HalfCycles} (hlength : step.length = .fixed length)
    (hpasses : step.signals.transfersData = false) :
    (run.transact bus none step).ComesTo holds (p.applyStepAction step.action) earlier := by
  have hread : step.signals.isRead = false := by simp [Signals.isRead, hpasses]
  have hwrite : step.signals.isWrite = false := by simp [Signals.isWrite, hpasses]
  exact
    { processor := (h.receive step _).trans
        (p.timeless_receive_of_not_read _ hlength hread)
      fetched := by
        rw [fetched_transact, hread]
        exact h.fetched
      bus := hbus.stays _ _ h.bus hwrite }

/-- A step that takes in a word of the program. -/
theorem take {step : BusStep} {length : HalfCycles} (hlength : step.length = .fixed length)
    (hfetches : step.signals.fetchesWord) :
    (run.transact bus none step).ComesTo holds
      ((p.storeSlot step.slot (words (p.resolve step.address)) false).applyStepAction step.action)
      (if step.slot = .prefetch then
        ⟨p.resolve step.address, words (p.resolve step.address)⟩ :: earlier
      else earlier) := by
  have hsignals := hfetches
  simp only [Signals.fetchesWord, Bool.and_eq_true, Bool.not_eq_true'] at hsignals
  obtain ⟨⟨⟨hread, -⟩, hbyte⟩, -⟩ := hsignals
  have hrequest := h.request step
  have haddress : run.processor.resolve step.address = p.resolve step.address :=
    congrArg Request.address hrequest
  have hwrite : step.signals.isWrite = false := by
    simp only [Signals.isRead, Bool.and_eq_true] at hread
    simp [Signals.isWrite, hread.2]
  have hword : (bus run.bus (run.processor.request step)).1.value =
      words (p.resolve step.address) := by
    rw [hbus.word _ _ h.bus hfetches, hrequest]
    rfl
  refine ⟨(h.receive step _).trans ?_, ?_, hbus.stays _ _ h.bus hwrite⟩
  · rw [p.timeless_receive_of_read _ hlength hread, hword, hbyte]
  · rw [fetched_transact, hword, haddress, h.fetched]
    simp [hread]

theorem idle (duration : HalfCycles) :
    (run.perform bus (.idle duration)).ComesTo holds p earlier :=
  h.pass hbus rfl rfl

/-- A fetch takes in the word at the program counter. -/
theorem fetch :
    (run.perform bus .fetch).ComesTo holds (p.fetch (words p.registers.pc))
      (⟨p.registers.pc, words p.registers.pc⟩ :: earlier) := by
  rw [Activity.fetch, perform_cons, perform_cons, perform_nil, Processor.fetch,
    ← Half.low_set_high_set p.prefetch]
  exact (h.pass hbus rfl rfl).take hbus rfl rfl

/-- **The prefetch queue is filled** with the words at the program counter. -/
theorem refill :
    (run.perform bus (.fetch ++ .fetch)).ComesTo holds
      { p with
        prefetch := words p.registers.pc ++ words (p.registers.pc + 2)
        registers := { p.registers with pc := p.registers.pc + 4 } }
      (Fetched.refill words p.registers.pc ++ earlier) := by
  rw [perform_append, ← p.fetch_fetch]
  exact (h.fetch hbus).fetch hbus

/-- The stray read of a loop that has run out only leaves a word in a latch. -/
theorem expiredLoopRead :
    ∃ data, (run.perform bus FixedPrograms.expiredLoopRead).ComesTo holds
      { p with data := data } earlier :=
  ⟨_, (h.pass hbus rfl rfl).take hbus rfl rfl⟩

end

end ComesTo

end Run

end M68k
