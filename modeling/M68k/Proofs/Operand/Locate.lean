import M68k.Proofs.Encoding.Operands
import M68k.Proofs.Operand.Reference

/-!
# Locating operands

As long as the prefetch queue agrees with memory, it holds the next word of the program in its low
half. So the stages that work out an effective address from it find the place that the programmer
means.

## Main definitions

* `Snapshot.Coherent`: the prefetch queue agrees with memory
* `AddressMode.isExtended`: an address that takes words of the program
* `Snapshot.Located`: the effective address of an operand is known

## Main results

* `Snapshot.Coherent.fetch`: fetches keep the queue in agreement
* `Snapshot.located`: the address of an operand is that of its place
-/

namespace M68k

open Encoding Reference

/-! ## Arithmetic -/

theorem setWidth_eq_low (x : Long) : x.setWidth 16 = Half.low.get x := by
  ext i hi
  simp [Half.get, BitVec.getElem_setWidth]

theorem Size.signExtend_word (x : Long) : Size.word.signExtend x = (Half.low.get x).signExtend 32 := by
  rw [Size.signExtend, setWidth_eq_low]

/-- A register of which an instruction speaks exists under its number. -/
theorem stride_bytes (size : Size) {n : RegisterNumber} (hn : n.toNat < 8) :
    (stride size n).bytes = stepLength size n.index := by
  have hindex : n = 7 ↔ n.index = stackPointer := by
    constructor
    · rintro rfl
      rfl
    · intro h
      have hval := congrArg Fin.val h
      simp only [RegisterNumber.index, RegisterIndex.ofField, stackPointer, Fin.ofNat] at hval
      have : n.toNat = 7 := by omega
      exact BitVec.eq_of_toNat_eq this
  cases size with
  | byte =>
    by_cases h : n = 7
    · simp only [stride, stepLength, h, if_true]
      rfl
    · simp only [stride, stepLength, h, hindex.not.1 h, if_false, and_false]
      rfl
  | word | long => rfl

/-! ## The prefetch queue -/

namespace Snapshot

/-- The prefetch queue holds the two words of memory before the program counter. -/
def Coherent (s : Snapshot TestBench) : Prop :=
  s.processor.prefetch =
    s.bus.memory.wordAt (s.processor.registers.pc - 4) ++
      s.bus.memory.wordAt (s.processor.registers.pc - 2)

namespace Coherent

variable {s : Snapshot TestBench}

/-- The next word of the program is in the low half of the queue. -/
theorem low (h : s.Coherent) :
    Half.low.get s.processor.prefetch = nextWord s.bus.memory s.processor.registers := by
  rw [h]
  exact BitVec.extractLsb'_append_eq_right

/-- Only the queue, the program counter and memory matter. -/
theorem congr (h : s.Coherent) {s' : Snapshot TestBench}
    (hprefetch : s'.processor.prefetch = s.processor.prefetch)
    (hpc : s'.processor.registers.pc = s.processor.registers.pc) (hbus : s'.bus = s.bus) :
    s'.Coherent := by
  rw [Coherent, hprefetch, hpc, hbus]
  exact h

/-- Fetches keep the queue in agreement. -/
theorem fetch (h : s.Coherent) : (s.perform TestBench.access .fetch).Coherent := by
  have hfirst : s.processor.registers.pc + 2 - 4 = s.processor.registers.pc - 2 := by bv_omega
  have hsecond : s.processor.registers.pc + 2 - 2 = s.processor.registers.pc := by bv_omega
  rw [perform_fetch]
  simp only [Coherent, withProcessor, Processor.prefetch_timeless, Processor.registers_timeless,
    Processor.fetch, h.low, nextWord, hfirst, hsecond]

/-- Two fetches bring any queue into agreement. -/
theorem refill (s : Snapshot TestBench) :
    (s.perform TestBench.access (.fetch ++ .fetch)).Coherent := by
  have hfirst : s.processor.registers.pc + 2 + 2 - 4 = s.processor.registers.pc := by bv_omega
  have hsecond : s.processor.registers.pc + 2 + 2 - 2 = s.processor.registers.pc + 2 := by bv_omega
  have hlow (first second : Word) : Half.low.get (first ++ second) = second :=
    BitVec.extractLsb'_append_eq_right
  rw [perform_append, perform_fetch, perform_fetch]
  simp only [Coherent, withProcessor, Processor.prefetch_timeless, Processor.registers_timeless,
    Processor.fetch, hfirst, hsecond, hlow]

/-- Two words of the program are in the queue after a fetch. -/
theorem prefetch_fetch (h : s.Coherent) :
    (s.perform TestBench.access .fetch).processor.prefetch =
      nextWord s.bus.memory s.processor.registers ++
        nextWord s.bus.memory (skipWord s.processor.registers) := by
  have hnext : s.processor.registers.pc + 2 - 2 = s.processor.registers.pc := by bv_omega
  rw [perform_fetch, ← h.low]
  simp only [nextWord, skipWord, hnext]
  rfl

theorem indexOffset (h : s.Coherent) :
    s.processor.indexOffset =
      Reference.indexOffset s.processor.registers (nextWord s.bus.memory s.processor.registers) := by
  have hbyte (word : Word) : Size.byte.signExtend (word.setWidth 32) =
      (word.setWidth 8).signExtend 32 := by
    rw [Size.signExtend, BitVec.setWidth_setWidth_of_le _ (by decide)]
  simp only [Processor.indexOffset, Reference.indexOffset, h.low, Size.signExtend_word, hbyte]

theorem displacement (h : s.Coherent) :
    Size.word.signExtend s.processor.prefetch =
      (nextWord s.bus.memory s.processor.registers).signExtend 32 := by
  rw [Size.signExtend_word, h.low]

end Coherent

end Snapshot

/-! ## Effective addresses -/

/-- The set of a side alone. -/
def Side.target : Side → Target
  | source => .src
  | destination => .dst

/-- The mode takes words of the program to address memory. -/
def AddressMode.isExtended : AddressMode → Bool
  | displacement | index | absoluteShort | absoluteLong | pcDisplacement | pcIndex => true
  | _ => false

namespace Snapshot

/-- Point the effective address of a side at an operand. -/
def aim (side : Side) (address : Long) (s : Snapshot TestBench) : Snapshot TestBench :=
  s.withProcessor
    { s.processor with effectiveAddress := s.processor.effectiveAddress.set side address }

/-- Go on with other registers. -/
def withRegisters (r : Registers) (s : Snapshot TestBench) : Snapshot TestBench :=
  s.withProcessor { s.processor with registers := r }

/-- Go on without a clock. -/
def timeless (s : Snapshot TestBench) : Snapshot TestBench := s.withProcessor s.processor.timeless

/-- The effective address of an operand is known. -/
structure Located (side : Side) (address : Long) (r : Registers) (s s' : Snapshot TestBench) :
    Prop where
  registers : s'.processor.registers = r
  address : s'.processor.effectiveAddress.get side = address
  coherent : s'.Coherent
  data : s'.processor.data = s.processor.data
  bus : s'.bus = s.bus

variable {s : Snapshot TestBench}

/-- The stage that sets an effective address. -/
theorem fire_address (form : AddressForm) (side : Side) (activity : Activity) :
    s.fire ⟨.address form, side.target, activity⟩ =
      s.aim side (s.processor.formAddress form (s.processor.sideRegister side)) := by
  cases side <;> rfl

/-- The idle time of an index only takes time. -/
theorem perform_indexDelay_fetch (mode : AddressMode) :
    s.perform TestBench.access (indexDelay mode ++ .fetch) = s.perform TestBench.access .fetch := by
  rw [indexDelay]
  split
  · exact perform_idle_fetch s _
  · rfl

/-- An address is formed from the queue, and the word is taken. -/
theorem located_form (hcoherent : s.Coherent) (form : AddressForm) (side : Side)
    (mode : AddressMode) (activity : Activity) :
    Located side (s.processor.formAddress form (s.processor.sideRegister side))
      (skipWord s.processor.registers) s
      ((s.fire ⟨.address form, side.target, activity⟩).perform TestBench.access
        (indexDelay mode ++ .fetch)) := by
  have haddressed : (s.fire ⟨.address form, side.target, activity⟩).Coherent := by
    rw [fire_address]
    exact hcoherent.congr rfl rfl rfl
  rw [perform_indexDelay_fetch]
  refine ⟨?_, ?_, haddressed.fetch, ?_, ?_⟩ <;> rw [fire_address, perform_fetch]
  · rfl
  · exact Latches.get_set_self _ _ _
  · rfl
  · rfl

end Snapshot

/-- What comes before an address of two words is formed. -/
def Encoding.lead (mode : AddressMode) : List Stage :=
  if mode = .absoluteLong then [.bus .fetch] else []

namespace Snapshot

variable {s : Snapshot TestBench}

/-- **The address of an operand is that of its place.** -/
theorem located {mode : AddressMode} (hmode : mode.isExtended) {side : Side} {size : Size}
    {n : RegisterIndex} {address : Long} {r : Registers} (hcoherent : s.Coherent)
    (hregister : (s.processor.instruction.register side).index = n)
    (hlocate : locate s.bus.memory mode n size s.processor.registers = (.memory address, r))
    (activity : Activity) :
    Located side address r s
      (((s.execute TestBench.access (lead mode)).fire
        ⟨mode.action, side.target, activity⟩).perform TestBench.access
          (indexDelay mode ++ .fetch)) := by
  have hbase : s.processor.sideRegister side = s.processor.registers.address n := by
    rw [Processor.sideRegister, hregister]
  have hform (form : AddressForm) (haction : mode.action = .address form)
      (hlead : mode ≠ .absoluteLong) (hr : r = skipWord s.processor.registers)
      (haddress : s.processor.formAddress form (s.processor.registers.address n) = address) :
      Located side address r s
        (((s.execute TestBench.access (lead mode)).fire
          ⟨mode.action, side.target, activity⟩).perform TestBench.access
            (indexDelay mode ++ .fetch)) := by
    rw [lead, if_neg hlead, haction, hr, ← haddress, ← hbase]
    exact located_form hcoherent form side mode activity
  cases mode with
  | displacement =>
    cases hlocate
    refine hform .displacement rfl nofun rfl ?_
    simp only [Processor.formAddress, hcoherent.displacement]
  | index =>
    cases hlocate
    refine hform .index rfl nofun rfl ?_
    simp only [Processor.formAddress, hcoherent.indexOffset]
  | absoluteShort =>
    cases hlocate
    refine hform .short rfl nofun rfl ?_
    simp only [Processor.formAddress, hcoherent.displacement]
  | pcDisplacement =>
    cases hlocate
    refine hform .pcDisplacement rfl nofun rfl ?_
    simp only [Processor.formAddress, hcoherent.displacement]
  | pcIndex =>
    cases hlocate
    refine hform .pcIndex rfl nofun rfl ?_
    simp only [Processor.formAddress, hcoherent.indexOffset]
  | absoluteLong =>
    cases hlocate
    have hled : s.execute TestBench.access (lead .absoluteLong) =
        s.perform TestBench.access .fetch := rfl
    have hlocated := located_form hcoherent.fetch .long side .absoluteLong activity
    rw [hled]
    refine ⟨hlocated.registers, hlocated.address.trans hcoherent.prefetch_fetch,
      hlocated.coherent, hlocated.data, hlocated.bus⟩
  | _ => cases hmode

end Snapshot

end M68k
