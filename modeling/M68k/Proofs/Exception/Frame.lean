import M68k.Proofs.Exception.Banks
import M68k.Proofs.Memory.Words
import M68k.Proofs.Operand.Locate

/-!
# Exception frames

An exception pushes three words below the supervisor stack pointer: from low to high addresses the
status register and the two halves of the return address. Its handler is where the vector points, be
the number of the vector fixed or supplied by the bench.

## Main definitions

* `Memory.HoldsFrame`: where a frame is in memory, and what it holds
* `Memory.Apart`: two stretches of memory without a byte in common
* `Cause.vector`: the vector of a cause

## Main results

* `Memory.holdsFrame_pushFrame`, `Memory.read_pushFrame`: the frame is written, and nothing else
* `Snapshot.perform_exceptionActivity`, `Snapshot.perform_interruptActivity`: what the sequences do
  on a bench
* `Cause.Entered.perform_activity`: what that of a cause does
-/

namespace M68k

open Encoding

/-! ## Memory -/

namespace Memory

/-- A frame lies at an address. -/
structure HoldsFrame (memory : Memory) (address : Long) (status : Word) (returnAddress : Long) :
    Prop where
  status : memory.wordAt address = status
  high : memory.wordAt (address + 2) = Half.high.get returnAddress
  low : memory.wordAt (address + 4) = Half.low.get returnAddress

/-- Two stretches of memory have no byte in common. -/
def Apart (first : Long) (length : Nat) (second : Long) (otherLength : Nat) : Prop :=
  ∀ place other : Long, (place - first).toNat < length → (other - second).toNat < otherLength →
    place.setWidth 24 ≠ other.setWidth 24

/-- Write a frame below a stack pointer, in the order of the bus. -/
def pushFrame (memory : Memory) (sp : Long) (status : Word) (returnAddress : Long) : Memory :=
  ((memory.storeWordAt (sp - 2) (Half.low.get returnAddress)).storeWordAt (sp - 6)
    status).storeWordAt (sp - 4) (Half.high.get returnAddress)

theorem wordAt_storeWordAt (memory : Memory) (address other : Long) (value : Word) :
    (memory.storeWordAt address value).wordAt other =
      if wordAddress (other.setWidth 24) = wordAddress (address.setWidth 24) then value
      else memory.wordAt other :=
  memory.word_storeWord _ _ _

/-- The words of a frame are different words. -/
theorem wordAddress_frame_ne (sp : Long) {m n : Long} (hm : m ∈ [2, 4, 6]) (hn : n ∈ [2, 4, 6])
    (hne : m ≠ n) : wordAddress ((sp - m).setWidth 24) ≠ wordAddress ((sp - n).setWidth 24) := by
  rw [ne_eq, wordAddress_eq_iff]
  simp only [BitVec.toNat_setWidth, BitVec.toNat_sub]
  simp only [List.mem_cons, List.not_mem_nil, or_false] at hm hn
  rcases hm with rfl | rfl | rfl <;> rcases hn with rfl | rfl | rfl <;>
    first
    | exact absurd rfl hne
    | simp
      omega

variable (memory : Memory) {sp vector : Long} (status : Word) (returnAddress : Long)

/-- The frame is there once it has been pushed. -/
theorem holdsFrame_pushFrame :
    (memory.pushFrame sp status returnAddress).HoldsFrame (sp - 6) status returnAddress := by
  have hlow : sp - 6 + 4 = sp - 2 := by bv_omega
  have hhigh : sp - 6 + 2 = sp - 4 := by bv_omega
  have hstatus := wordAddress_frame_ne sp (m := 6) (n := 4) (by simp) (by simp) (by decide)
  have hthird := wordAddress_frame_ne sp (m := 2) (n := 4) (by simp) (by simp) (by decide)
  have hsecond := wordAddress_frame_ne sp (m := 2) (n := 6) (by simp) (by simp) (by decide)
  constructor
  · rw [pushFrame, wordAt_storeWordAt, if_neg hstatus, wordAt_storeWordAt, if_pos rfl]
  · rw [hhigh, pushFrame, wordAt_storeWordAt, if_pos rfl]
  · rw [hlow, pushFrame, wordAt_storeWordAt, if_neg hthird, wordAt_storeWordAt, if_neg hsecond,
      wordAt_storeWordAt, if_pos rfl]

/-- Even addresses in stretches without a common byte are in different words. -/
theorem Apart.wordAddress_ne {first second place other : Long} {length otherLength : Nat}
    (h : Apart first length second otherLength) (hplace : (place - first).toNat < length)
    (hother : (other - second).toNat < otherLength) (hplaceEven : place.toNat % 2 = 0)
    (hotherEven : other.toNat % 2 = 0) :
    wordAddress (other.setWidth 24) ≠ wordAddress (place.setWidth 24) := by
  have hbyte := h place other hplace hother
  rw [ne_eq, ← BitVec.toNat_inj] at hbyte
  rw [ne_eq, wordAddress_eq_iff]
  simp only [BitVec.toNat_setWidth] at hbyte ⊢
  omega

/-- A frame that is apart from a vector leaves it alone. -/
theorem read_pushFrame (hsp : sp.toNat % 2 = 0) (hvector : vector.toNat % 2 = 0)
    (h : Apart (sp - 6) 6 vector 4) :
    (memory.pushFrame sp status returnAddress).read .long vector = memory.read .long vector := by
  have hword (other : Long) (hother : (other - vector).toNat < 4) (heven : other.toNat % 2 = 0) :
      (memory.pushFrame sp status returnAddress).wordAt other = memory.wordAt other := by
    have hapart (place : Long) (hplace : (place - (sp - 6)).toNat < 6)
        (hplaceEven : place.toNat % 2 = 0) :
        wordAddress (other.setWidth 24) ≠ wordAddress (place.setWidth 24) :=
      h.wordAddress_ne hplace hother hplaceEven heven
    have hfirst := hapart (sp - 2) (by bv_omega) (by bv_omega)
    have hsecond := hapart (sp - 6) (by bv_omega) (by bv_omega)
    have hthird := hapart (sp - 4) (by bv_omega) (by bv_omega)
    rw [pushFrame, wordAt_storeWordAt, if_neg hthird, wordAt_storeWordAt, if_neg hsecond,
      wordAt_storeWordAt, if_neg hfirst]
  rw [read, read, hword vector (by bv_omega) hvector, hword (vector + 2) (by bv_omega) (by bv_omega)]

end Memory

/-! ## Sequences -/

/-- Take the answer to an interrupt acknowledge. -/
def Processor.acknowledge (p : Processor) (answer : Word) : Processor :=
  let number := answer.extractLsb' 0 8
  { p with
    interruptVector := p.interruptVector.extractLsb' 8 8 ++ number
    effectiveAddress := p.effectiveAddress.set .source (number.setWidth 32 <<< 2) }

namespace Snapshot

/-- Load the program counter from a vector, half by half. -/
theorem perform_fetchVector (half : Half) (s : Snapshot TestBench) :
    s.perform TestBench.access (.fetchVector half) =
      let address := s.processor.effectiveAddress.source
      s.withProcessor
        ({ s.processor with
          registers :=
            { s.processor.registers with
              pc := half.set s.processor.registers.pc (s.bus.memory.wordAt address) }
          effectiveAddress :=
            s.processor.effectiveAddress.set .source (address + 2) } : Processor).timeless := by
  rw [Activity.fetchVector, perform_readWord]
  rfl

/-- **A handler begins where its vector points.** -/
theorem perform_enterHandler (s : Snapshot TestBench) :
    let entered := s.perform TestBench.access FixedPrograms.enterHandler
    let target := s.bus.memory.read .long s.processor.effectiveAddress.source
    entered.processor.registers = { s.processor.registers with pc := target + 4 } ∧
      entered.Coherent ∧ entered.bus = s.bus := by
  have hactivity : FixedPrograms.enterHandler =
      .fetchVector .high ++ .fetchVector .low ++ (.fetch ++ .idle 4 ++ .fetch) := rfl
  have hidle (s : Snapshot TestBench) :
      s.perform TestBench.access (.fetch ++ .idle 4 ++ .fetch) =
        s.perform TestBench.access (.fetch ++ .fetch) := by
    rw [perform_append, perform_append, perform_append, perform_idle, perform_fetch, perform_fetch,
      perform_fetch]
    rfl
  rw [hactivity, perform_append, hidle]
  refine ⟨?_, .refill _, ?_⟩
  · rw [perform_append, perform_append, perform_fetch, perform_fetch, perform_fetchVector,
      perform_fetchVector]
    simp only [withProcessor, Processor.fetch, Processor.registers_timeless,
      Processor.effectiveAddress_timeless, Half.low_set_high_set, BitVec.add_assoc]
    rfl
  · rw [perform_append, perform_append, perform_fetch, perform_fetch, perform_fetchVector,
      perform_fetchVector]
    rfl

/-- Write half of the program counter into a frame. -/
theorem perform_pushCounter (half : Half) (slot : FrameSlot) (s : Snapshot TestBench) :
    s.perform TestBench.access (FixedPrograms.pushCounter half slot) =
      ⟨s.processor.timeless, s.bus.withMemory (s.bus.memory.storeWordAt
        (s.processor.frame.get slot) (half.get s.processor.registers.pc))⟩ := by
  rw [FixedPrograms.pushCounter, perform_writeWord]
  cases slot <;> rfl

/-- Write the status register into a frame. -/
theorem perform_pushStatus (s : Snapshot TestBench) :
    s.perform TestBench.access FixedPrograms.pushStatus =
      ⟨s.processor.timeless, s.bus.withMemory (s.bus.memory.storeWordAt
        s.processor.frame.second (Half.low.get s.processor.data.destination))⟩ := by
  rw [FixedPrograms.pushStatus, Activity.write, perform_writeWord]
  rfl

/-- The low byte of the answer to an acknowledge is the number of the vector. -/
theorem perform_acknowledge (s : Snapshot TestBench) :
    s.perform TestBench.access .interruptAcknowledge =
      s.withProcessor (s.processor.acknowledge
        (s.bus.vector.getD s.processor.interruptVector)).timeless := by
  have haccess (request : Request) (htransfers : request.signals.transfersData)
      (hacknowledges : request.signals.interruptAcknowledge) :
      s.bus.access request = (⟨s.bus.vector.getD request.value, s.bus.wait⟩, s.bus) := by
    simp only [TestBench.access, htransfers, hacknowledges]
    rfl
  simp only [perform, Activity.interruptAcknowledge, Activity.transfer, List.map_cons, List.map_nil,
    List.foldl_cons, List.foldl_nil]
  rw [transact_of_not_read s (by rfl) (by rfl) (by rfl)]
  rw [transact_of_read _ (by rfl) (by rfl) (by exact haccess _ rfl rfl)]
  simp only [withProcessor, Processor.storeSlot, Processor.applyStepAction, beq_self_eq_true,
    if_true, setWidth_append_and, Processor.request, Processor.loadSlot, Processor.acknowledge]
  rfl

variable {sp : Long} (s : Snapshot TestBench)

/-- The sequence of an exception writes the frame before it enters the handler. -/
theorem perform_exceptionActivity (hframe : s.processor.frame = ⟨sp - 2, sp - 6, sp - 4⟩) :
    s.perform TestBench.access FixedPrograms.exceptionActivity =
      Snapshot.perform TestBench.access FixedPrograms.enterHandler
        ⟨s.processor.timeless, s.bus.withMemory (s.bus.memory.pushFrame sp
          (Half.low.get s.processor.data.destination) s.processor.registers.pc)⟩ := by
  have htimeless : s.processor.timeless.frame = ⟨sp - 2, sp - 6, sp - 4⟩ := hframe
  rw [FixedPrograms.exceptionActivity]
  simp only [perform_append, perform_idle, perform_pushCounter, perform_pushStatus, withProcessor,
    TestBench.withMemory, Processor.timeless_timeless, Processor.registers_timeless,
    Processor.data_timeless, htimeless, FrameAddresses.get, Memory.pushFrame]

/-- So does the sequence of an interrupt, which takes the vector in between. -/
theorem perform_interruptActivity (hframe : s.processor.frame = ⟨sp - 2, sp - 6, sp - 4⟩) :
    s.perform TestBench.access FixedPrograms.interruptActivity =
      Snapshot.perform TestBench.access FixedPrograms.enterHandler
        ⟨(s.processor.acknowledge (s.bus.vector.getD s.processor.interruptVector)).timeless,
          s.bus.withMemory (s.bus.memory.pushFrame sp
            (Half.low.get s.processor.data.destination) s.processor.registers.pc)⟩ := by
  have htimeless (answer : Word) :
      s.processor.timeless.acknowledge answer = (s.processor.acknowledge answer).timeless := rfl
  have hprocessor (answer : Word) :
      (s.processor.acknowledge answer).timeless.frame = ⟨sp - 2, sp - 6, sp - 4⟩ ∧
        (s.processor.acknowledge answer).timeless.data = s.processor.data ∧
        (s.processor.acknowledge answer).timeless.registers = s.processor.registers :=
    ⟨hframe, rfl, rfl⟩
  have hstart : s.processor.timeless.frame = ⟨sp - 2, sp - 6, sp - 4⟩ := hframe
  rw [FixedPrograms.interruptActivity]
  simp only [perform_append, perform_idle, perform_pushCounter, perform_pushStatus,
    perform_acknowledge, withProcessor, TestBench.withMemory, Processor.timeless_timeless,
    Processor.registers_timeless, hstart, htimeless, hprocessor, FrameAddresses.get,
    Memory.pushFrame]
  rfl

end Snapshot

namespace Cause

/-- The vector number of a cause. That of an interrupt is in the answer of the bench, or else the
autovector of the level. -/
def number (bench : TestBench) : Cause → Byte
  | interrupt level => (bench.vector.getD (24 + level.setWidth 16)).extractLsb' 0 8
  | refused vector => vector
  | trap number => 32 + number.setWidth 8

/-- The address of the vector of a cause. -/
def vector (bench : TestBench) (cause : Cause) : Long := (cause.number bench).setWidth 32 <<< 2

theorem toNat_vector_mod_two (bench : TestBench) (cause : Cause) :
    (cause.vector bench).toNat % 2 = 0 := by
  rw [vector, BitVec.toNat_shiftLeft, Nat.shiftLeft_eq]
  omega

theorem pc_registers (p : Processor) (cause : Cause) :
    (cause.registers p).pc = cause.returnAddress p.registers.pc := by
  cases cause <;> rfl

/-- The sequence of a cause writes the frame before it enters the handler. -/
theorem Entered.perform_activity {cause : Cause} {p q : Processor} (h : cause.Entered p q)
    (bench : TestBench) :
    ∃ framed : Processor,
      (Run.begin q bench).snapshot.perform TestBench.access cause.activity =
          Snapshot.perform TestBench.access FixedPrograms.enterHandler
            ⟨framed.timeless, bench.withMemory (bench.memory.pushFrame p.registers.ssp
              p.registers.sr (cause.returnAddress p.registers.pc))⟩ ∧
        framed.registers = cause.registers p ∧
        framed.effectiveAddress.source = cause.vector bench := by
  have hframe : (Run.begin q bench).snapshot.processor.frame =
      ⟨p.registers.ssp - 2, p.registers.ssp - 6, p.registers.ssp - 4⟩ := by
    refine h.frame.trans ?_
    rw [Processor.enterException_eq]
  have hpc : (Run.begin q bench).snapshot.processor.registers.pc =
      cause.returnAddress p.registers.pc := by
    rw [← pc_registers, ← h.registers]
    rfl
  have hstatus : Half.low.get (Run.begin q bench).snapshot.processor.data.destination =
      p.registers.sr := by
    have hdestination : (Run.begin q bench).snapshot.processor.data.destination =
        p.registers.sr.setWidth 32 := h.status
    rw [hdestination, ← setWidth_eq_low, BitVec.setWidth_setWidth_of_le _ (by decide),
      BitVec.setWidth_eq]
  cases cause with
  | interrupt level =>
    refine ⟨q.acknowledge (bench.vector.getD q.interruptVector), ?_, h.registers, ?_⟩
    · refine (Snapshot.perform_interruptActivity _ hframe).trans ?_
      rw [hpc, hstatus]
      rfl
    · rw [(h.autovector level rfl).2]
      rfl
  | refused number | trap number =>
    refine ⟨q, ?_, h.registers, h.vector _ rfl⟩
    refine (Snapshot.perform_exceptionActivity _ hframe).trans ?_
    rw [hpc, hstatus]
    rfl

end Cause

end M68k
