import M68k.Proofs.Move.Reference

/-!
# Operations on memory as the programmer sees them

An operation on an operand in memory finds it, reads it, combines it with a source, and puts the
result back in its place. The source is a data register, a number in the opcode or words of the
program. Comparisons and tests put nothing back.

## Main definitions

* `Operation.modify`: what an operation makes of its operands
* `Reference.modifier`, `Reference.modify`: an operation on memory

## Main results

* `Operation.modify_truncate`: bits above the size of the operands do not matter
* `Processor.compute_modify`: the processor carries these operations out in its latches
-/

namespace M68k

open Status Reference

namespace Operation

/-- The operation is one of those that work on memory in place. -/
def modifies : Operation → Bool
  | add | sub | bitwise _ | cmp | moveFromSr | scc | bit _ | clr | neg | negx | not | tst | tas
  | shift _ => true
  | _ => false

/-- The operation only looks at its operand in memory. -/
def looks : Operation → Bool
  | cmp | tst | bit .test => true
  | _ => false

/-- What an operation makes of an operand in memory, and the status register it leaves. Memory is
shifted by one bit, and a condition is that of the opcode. -/
def modify (operation : Operation) (opcode : Word) (size : Size) (sr : Status)
    (source old : Long) : Computed :=
  let describing (value : Long) : Computed := ⟨value, Status.logical sr value size⟩
  let mask : Long := 1 <<< (source.toNat % size.bits)
  let coded (computed : Computed) : Computed := ⟨computed.value, computed.status &&& implemented⟩
  match operation with
  | add => coded (Arithmetic.add source old size sr)
  | sub => coded (Arithmetic.sub source old size sr)
  | cmp => coded (Arithmetic.compare source old size sr)
  | bitwise kind => coded (describing (kind.apply source old))
  | clr => coded ⟨0, (sr &&& ~~~(negative ||| overflow ||| carry)) ||| zero⟩
  | neg => coded (Arithmetic.neg old size sr)
  | negx => coded (Arithmetic.negx old size sr)
  | not => coded (describing (~~~old))
  | tst => coded (describing old)
  | tas => coded ⟨old ||| 0x80, (describing old).status⟩
  | bit kind => coded ⟨kind.apply old mask, Status.setIf sr zero (old &&& mask == 0)⟩
  | shift kind => coded (kind.apply old 1 size sr)
  | scc => ⟨if (Condition.ofField (opcode.toNat / 256)).holds sr then 0xFF else 0, sr⟩
  | moveFromSr => ⟨sr.setWidth 32, sr⟩
  | _ => ⟨old, sr⟩

end Operation

namespace Reference

/-- The source of an operation on memory, and the registers when it is known. -/
def modifier (memory : Memory) (instruction : Instruction) (opcode : Word) (r : Registers) :
    Long × Registers :=
  match instruction.source with
  | .dataRegister n => (r.data n.index, r)
  | .quick =>
    let number := opcode.toNat / 512 % 8
    (if number = 0 then 8 else BitVec.ofNat 32 number, r)
  | .sourceLatch =>
    match instruction.size with
    | .long => (nextWord memory r ++ nextWord memory (skipWord r), skipWord (skipWord r))
    | _ => ((nextWord memory r).setWidth 32, skipWord r)
  | _ => (0, r)

/-- The place of the operand, and the registers when it is known. -/
def modified (memory : Memory) (instruction : Instruction) (opcode : Word) (mode : AddressMode)
    (n : RegisterIndex) (r : Registers) : Place × Registers :=
  locate memory mode n instruction.size (modifier memory instruction opcode r).2

/-- Carry out an operation on memory, and go on to the next instruction. -/
def modify (instruction : Instruction) (opcode : Word) (mode : AddressMode) (n : RegisterIndex)
    (machine : Machine) : Machine :=
  let size := instruction.size
  let source := (modifier machine.memory instruction opcode machine.registers).1
  match modified machine.memory instruction opcode mode n machine.registers with
  | (.memory address, r) =>
    let old := machine.memory.read size address
    let computed := instruction.operation.modify opcode size r.sr (size.truncate source) old
    { registers := skipWord (stepPast mode n size { r with sr := computed.status })
      memory :=
        if instruction.operation.looks then machine.memory
        else machine.memory.write size address computed.value }
  | _ => machine

/-- An operation on memory whose source and place are known. -/
theorem modify_of_locate {instruction : Instruction} {opcode : Word} {mode : AddressMode}
    {n : RegisterIndex} {memory : Memory} {r r₀ r₁ : Registers} {source address : Long}
    (hmodifier : modifier memory instruction opcode r = (source, r₀))
    (hlocate : locate memory mode n instruction.size r₀ = (.memory address, r₁)) :
    let size := instruction.size
    let computed := instruction.operation.modify opcode size r₁.sr (size.truncate source)
      (memory.read size address)
    modified memory instruction opcode mode n r = (.memory address, r₁) ∧
      modify instruction opcode mode n ⟨r, memory⟩ =
        { registers := skipWord (stepPast mode n size { r₁ with sr := computed.status })
          memory :=
            if instruction.operation.looks then memory
            else memory.write size address computed.value } := by
  intro size computed
  have hmodified : modified memory instruction opcode mode n r = (.memory address, r₁) := by
    rw [modified, hmodifier, hlocate]
  refine ⟨hmodified, ?_⟩
  simp only [modify, hmodified, hmodifier]
  rfl

end Reference

/-! ## Registers -/

/-- How far a mode lets its register step, before the operand or past it. -/
def AddressMode.travel (size : Size) (n : RegisterIndex) : AddressMode → Long
  | postIncrement => stepLength size n
  | preDecrement => -stepLength size n
  | _ => 0

/-- Of data registers, address registers and banks, one address register has stepped. -/
structure Registers.Stepped (n : RegisterIndex) (distance : Long) (r r' : Registers) : Prop where
  data : r'.d = r.d
  stepping : r'.address n = r.address n + distance
  others : ∀ m ≠ n, r'.address m = r.address m
  userBank : r'.userBank = r.userBank
  supervisorBank : r'.supervisorBank = r.supervisorBank

namespace Registers.Stepped

variable {n : RegisterIndex} {r r' : Registers}

/-- Nothing has stepped if the registers are the same but for the program counter and the status
register. -/
theorem zero (hd : r'.d = r.d) (ha : r'.a = r.a) (huser : r'.userBank = r.userBank)
    (hsupervisor : r'.supervisorBank = r.supervisorBank) : Stepped n 0 r r' where
  data := hd
  stepping := by simp [address, ha]
  others m _ := by simp only [address, ha]
  userBank := huser
  supervisorBank := hsupervisor

theorem setAddress (r : Registers) (n : RegisterIndex) (distance : Long) :
    Stepped n distance r (r.setAddress n (r.address n + distance)) where
  data := rfl
  stepping := address_setAddress_self r n _
  others _ hm := address_setAddress_of_ne r hm _
  userBank := rfl
  supervisorBank := rfl

theorem trans {r'' : Registers} {distance further : Long} (h : Stepped n distance r r')
    (h' : Stepped n further r' r'') : Stepped n (distance + further) r r'' where
  data := h'.data.trans h.data
  stepping := by rw [h'.stepping, h.stepping, BitVec.add_assoc]
  others m hm := (h'.others m hm).trans (h.others m hm)
  userBank := h'.userBank.trans h.userBank
  supervisorBank := h'.supervisorBank.trans h.supervisorBank

end Registers.Stepped

namespace Reference

theorem stepped_modifier (memory : Memory) (instruction : Instruction) (opcode : Word)
    (n : RegisterIndex) (r : Registers) :
    Registers.Stepped n 0 r (modifier memory instruction opcode r).2 := by
  obtain ⟨operation, size, source, destination, m, k, privileged⟩ := instruction
  cases source <;> cases size <;> exact .zero rfl rfl rfl rfl

/-- **An operation on memory changes no register** but the status register and the one that
steps. -/
theorem stepped_modify (instruction : Instruction) (opcode : Word) {mode : AddressMode}
    (hmode : mode.isMemory) (n : RegisterIndex) (machine : Machine) :
    Registers.Stepped n (mode.travel instruction.size n) machine.registers
      (modify instruction opcode mode n machine).registers := by
  have hmodifier := stepped_modifier machine.memory instruction opcode n machine.registers
  rw [← BitVec.zero_add (mode.travel instruction.size n)]
  refine hmodifier.trans ?_
  rw [modify, modified]
  generalize (modifier machine.memory instruction opcode machine.registers).2 = r
  cases mode with
  | preDecrement =>
    have hstepped := Registers.Stepped.setAddress r n (-stepLength instruction.size n)
    rw [← BitVec.sub_eq_add_neg] at hstepped
    exact ⟨hstepped.data, hstepped.stepping, hstepped.others, rfl, rfl⟩
  | postIncrement =>
    have hstepped := Registers.Stepped.setAddress r n (stepLength instruction.size n)
    exact ⟨hstepped.data, hstepped.stepping, hstepped.others, rfl, rfl⟩
  | dataRegister | addressRegister | immediate => cases hmode
  | _ => exact .zero rfl rfl rfl rfl

end Reference

/-! ## Bits above the size of the operands -/

namespace Size

variable (size : Size) (value other : Long)

@[simp] theorem truncate_and_mask : size.truncate value &&& size.mask = value &&& size.mask :=
  size.truncate_truncate value

@[simp] theorem truncate_and_msb : size.truncate value &&& size.msb = value &&& size.msb := by
  rw [truncate, BitVec.and_assoc]
  cases size <;> rfl

theorem truncate_bitwise (kind : BitwiseKind) :
    size.truncate (kind.apply (size.truncate value) (size.truncate other)) =
      size.truncate (kind.apply value other) := by
  cases kind <;>
    simp only [truncate, BitwiseKind.apply] <;> ext i hi <;>
      simp only [BitVec.getElem_and, BitVec.getElem_or, BitVec.getElem_xor] <;> grind

theorem truncate_not : size.truncate (~~~(size.truncate value)) = size.truncate (~~~value) := by
  simp only [truncate]
  ext i hi
  simp only [BitVec.getElem_and, BitVec.getElem_not]
  grind

theorem truncate_or :
    size.truncate (size.truncate value ||| other) = size.truncate (value ||| other) := by
  simp only [truncate]
  ext i hi
  simp only [BitVec.getElem_and, BitVec.getElem_or]
  grind

theorem truncate_bit (kind : BitKind) :
    size.truncate (kind.apply (size.truncate value) other) =
      size.truncate (kind.apply value other) := by
  cases kind <;> simp only [truncate, BitKind.apply] <;> ext i hi <;>
    simp only [BitVec.getElem_and, BitVec.getElem_or, BitVec.getElem_xor] <;> grind

/-- A bit of an operand is one of its long word. -/
theorem truncate_and_bit {number : Nat} (h : number < size.bits) :
    size.truncate value &&& (1 <<< number : Long) = value &&& (1 <<< number : Long) := by
  have hwidth : size.bits ≤ 32 := by cases size <;> decide
  have hnumber : number < 32 := by omega
  have hbit : (size.truncate value).getLsbD number = value.getLsbD number := by
    rw [truncate, BitVec.getLsbD_and, BitVec.getLsbD_eq_getElem hnumber (x := size.mask),
      getElem_mask size hnumber, decide_eq_true h, Bool.and_true]
  have hpower : (1 <<< number : Long) = BitVec.twoPow 32 number := rfl
  rw [hpower, BitVec.and_twoPow, BitVec.and_twoPow, hbit]

theorem toNat_truncate_mod : (size.truncate value).toNat % size.bits = value.toNat % size.bits := by
  cases size with
  | byte =>
    rw [truncate_byte, BitVec.toNat_setWidth, BitVec.toNat_setWidth]
    simp only [bits, bytes]
    omega
  | word =>
    rw [truncate_word, ← setWidth_eq_low, BitVec.toNat_setWidth, BitVec.toNat_setWidth]
    simp only [bits, bytes]
    omega
  | long => rw [truncate_long]

end Size

/-- Only the bits within the size are described. -/
theorem Status.logical_truncate (sr : Status) (size : Size) (value : Long) :
    logical sr (size.truncate value) size = logical sr value size := by
  simp only [logical, setNZ, Size.truncate_and_mask, Size.truncate_and_msb]

namespace Operation

/-- Two results agree within a size. -/
def SameWithin (size : Size) (first second : Computed) : Prop :=
  first.status = second.status ∧ size.truncate first.value = size.truncate second.value

/-- **Bits above the size of the operands do not matter**: neither for the status register nor for
the result within that size. -/
theorem modify_truncate (operation : Operation) (opcode : Word) (size : Size) (sr : Status)
    (source old : Long) :
    SameWithin size (operation.modify opcode size sr (size.truncate source) (size.truncate old))
      (operation.modify opcode size sr source old) := by
  have hlogical {value other : Long} (h : size.truncate value = size.truncate other) :
      Status.logical sr value size = Status.logical sr other size := by
    rw [← Status.logical_truncate, h, Status.logical_truncate]
  cases operation with
  | add | sub | cmp | neg | negx =>
    simp only [modify, Arithmetic.add, Arithmetic.sub, Arithmetic.compare, Arithmetic.neg,
      Arithmetic.negx, Arithmetic.subx, Size.truncate_and_mask, SameWithin, and_self]
  | bitwise kind =>
    have hvalue := size.truncate_bitwise source old kind
    exact ⟨congrArg (· &&& implemented) (hlogical hvalue), hvalue⟩
  | not =>
    have hvalue := size.truncate_not old
    exact ⟨congrArg (· &&& implemented) (hlogical hvalue), hvalue⟩
  | tst =>
    have hvalue := size.truncate_truncate old
    exact ⟨congrArg (· &&& implemented) (hlogical hvalue), hvalue⟩
  | tas =>
    refine ⟨congrArg (· &&& implemented) (hlogical (size.truncate_truncate old)), ?_⟩
    exact size.truncate_or old 0x80
  | bit kind =>
    have hbits : 0 < size.bits := by cases size <;> decide
    have hmask := size.truncate_and_bit old (Nat.mod_lt source.toNat hbits)
    simp only [modify, Size.toNat_truncate_mod, hmask, SameWithin, size.truncate_bit, and_self]
  | shift kind =>
    simp only [modify, ShiftKind.apply, Size.truncate_and_mask, SameWithin, and_self]
  | clr | scc | moveFromSr => exact ⟨rfl, rfl⟩
  | _ => exact ⟨rfl, size.truncate_truncate old⟩

end Operation

/-! ## In the latches -/

namespace Processor

variable {p : Processor}

/-- A status register with the same system part is loaded into its implemented bits. -/
theorem setStatus_of_system {sr : Status} (h : sr.system = p.registers.sr.system) :
    p.setStatus sr = { p with registers := { p.registers with sr := sr &&& implemented } } := by
  have hmode : has sr supervisor = p.registers.isSupervisor := by
    rw [← has_supervisor_system, h, has_supervisor_system, Registers.isSupervisor]
  rw [setStatus, Registers.setStatus_of_mode hmode]

/-- A result for memory goes into the destination latch. -/
theorem finish_of_destinationLatch (h : p.instruction.destination = .destinationLatch)
    (size : Size) {computed : Computed} (hsystem : computed.status.system = p.registers.sr.system) :
    p.finish size computed =
      { p with
        registers := { p.registers with sr := computed.status &&& implemented }
        data := p.data.set .destination computed.value } := by
  rw [finish, setStatus_of_system hsystem, writeDestination]
  simp only [h]
  rfl

/-- **The processor carries these operations out in its latches.** -/
theorem compute_modify (hoperation : p.instruction.operation.modifies)
    (hdestination : p.instruction.destination = .destinationLatch)
    (hsize : p.instruction.operation = .tas → p.instruction.size = .byte) :
    let computed := p.instruction.operation.modify p.opcode p.instruction.size p.registers.sr
      p.source p.data.destination
    p.compute =
      { p with
        registers := { p.registers with sr := computed.status }
        data :=
          if p.instruction.operation.looks then p.data
          else p.data.set .destination computed.value } := by
  have hread : p.destination = p.data.destination := by rw [destination, hdestination]; rfl
  have hfinish (size : Size) (computed : Computed)
      (hsystem : computed.status.system = p.registers.sr.system) :=
    finish_of_destinationLatch hdestination size hsystem
  rcases hcase : p.instruction.operation <;> rw [hcase] at hoperation hsize <;>
    try cases hoperation
  case add =>
    simp only [compute, hcase, hread]
    exact hfinish _ _ (Arithmetic.system_add _ _ _ _)
  case sub =>
    simp only [compute, hcase, hread]
    exact hfinish _ _ (Arithmetic.system_sub _ _ _ _)
  case neg =>
    simp only [compute, hcase, hread]
    exact hfinish _ _ (Arithmetic.system_sub _ _ _ _)
  case negx =>
    simp only [compute, hcase, hread]
    exact hfinish _ _ (Arithmetic.system_subx _ _ _ _)
  case bitwise kind =>
    simp only [compute, hcase, hread]
    exact hfinish _ _ (Status.system_logical _ _)
  case not =>
    simp only [compute, hcase, hread]
    exact hfinish _ _ (Status.system_logical _ _)
  case cmp =>
    simp only [compute, hcase, hread]
    exact setStatus_of_system (Arithmetic.system_compare _ _ _ _)
  case tst =>
    simp only [compute, hcase, hread]
    exact setStatus_of_system (Status.system_logical _ _)
  case clr =>
    simp only [compute, hcase]
    refine hfinish _ _ ?_
    rw [system_or (by decide), system_clear (by decide)]
  case tas =>
    simp only [compute, hcase, hread]
    rw [hsize rfl]
    exact hfinish _ _ (Status.system_logical _ _)
  case shift kind =>
    simp only [compute, hcase, shift, hdestination, Operand.isDataRegister, hread]
    exact hfinish _ _ (Operation.system_applyShift _ _ _ _ _)
  case bit kind =>
    simp only [compute, hcase, operateOnBit, hread]
    rw [setStatus_of_system (system_setIf (by decide) _)]
    cases kind <;> simp only [hdestination, writeDestination] <;> rfl
  case scc =>
    simp only [compute, hcase, setOnCondition, hdestination, writeDestination]
    rfl
  case moveFromSr =>
    simp only [compute, hcase, hdestination, writeDestination]
    rfl

end Processor

end M68k
