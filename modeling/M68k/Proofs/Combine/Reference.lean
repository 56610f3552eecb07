import M68k.Proofs.Modify.Reference
import M68k.Proofs.Registers

/-!
# Operations on registers as the programmer sees them

An operation on a register takes a source, which an addressing mode names or which is a number in
the opcode, lets a register step past it, and combines it with a data register, an address register
or the status register. Memory is only read.

## Main definitions

* `Reference.Combination`: an operation on a register
* `Reference.Supply.take`: the source of the operation
* `Reference.combine`, `Reference.operateOnRegister`: the operation
* `Reference.Combination.Apart`: operations in which the step past the source does not matter

## Main results

* `Processor.registers_compute`: the processor carries these operations out in its registers
* `Reference.stepPast_combine`: the step past the source might as well come last
-/

namespace M68k

open Status

namespace Reference

/-- Where the source of an operation on a register comes from. -/
inductive Supply
  /-- An operand that an addressing mode names. -/
  | operand (mode : AddressMode) (n : RegisterIndex)
  /-- A number in the opcode. -/
  | number (value : Long)

/-- What an operation on a register changes. -/
inductive Recipient
  | data (n : RegisterIndex)
  | address (n : RegisterIndex)
  | status

/-- An operation on a register. -/
structure Combination where
  operation : Operation
  size : Size
  supply : Supply
  recipient : Recipient

/-- The number in an opcode counts from 1 to 8. -/
def quickNumber (opcode : Word) : Long :=
  let number := opcode.toNat / 512 % 8
  if number = 0 then 8 else BitVec.ofNat 32 number

namespace Supply

/-- The source, and the registers when it has been read and stepped past. -/
def take (memory : Memory) (size : Size) (r : Registers) : Supply → Long × Registers
  | operand mode n =>
    let (place, r) := locate memory mode n size r
    (place.read ⟨r, memory⟩ size, stepPast mode n size r)
  | number value => (value, r)

/-- The addresses at which the source is read. -/
def addresses (memory : Memory) (size : Size) (r : Registers) : Supply → List Long
  | operand mode n => (locate memory mode n size r).1.addresses size
  | number _ => []

end Supply

/-- Combine a source with a register. Data registers keep the bits above the size, products are long
words, and address registers are added to and compared as a whole, with words extended by their
sign. Of the operations on address registers only the comparison touches the condition codes. -/
def combine (opcode : Word) (operation : Operation) (size : Size) (source : Long)
    (r : Registers) : Recipient → Registers
  | .data n =>
    let old := r.data n
    let multiplied (product : Long) : Registers :=
      { r.setData n product with sr := moveStatus r.sr .long product }
    let (first, second) := (Half.low.get source, Half.low.get old)
    match operation with
    | .mulu => multiplied (BitVec.ofNat 32 (first.toNat * second.toNat))
    | .muls => multiplied (BitVec.ofInt 32 (first.toInt * second.toInt))
    | _ =>
      let computed := operation.modify opcode size r.sr source (size.truncate old)
      let described : Registers := { r with sr := computed.status }
      if operation.looks then described
      else described.setData n (size.merge old computed.value)
  | .address n =>
    let old := r.address n
    let operand := size.signExtend source
    match operation with
    | .cmpa => { r with sr := (Operation.cmp.modify opcode .long r.sr operand old).status }
    | .suba => r.setAddress n (old - operand)
    | _ => r.setAddress n (old + operand)
  | .status =>
    match operation with
    | .moveToSr => r.setStatus (Half.low.get source)
    | _ => r.setCcr (source.setWidth 8)

/-- No register steps behind its own comparison. -/
def Combination.Apart (combination : Combination) : Prop :=
  ∀ n, combination.supply = .operand .postIncrement n → combination.operation = .cmpa →
    combination.recipient ≠ .address n

/-- Carry out an operation on a register, and go on to the next instruction. -/
def operateOnRegister (opcode : Word) (combination : Combination) (machine : Machine) :
    Registers :=
  let (source, r) :=
    combination.supply.take machine.memory combination.size machine.registers
  skipWord (combine opcode combination.operation combination.size source r combination.recipient)

/-! ## Which operations there are -/

/-- The operation can work on such a register. -/
def Recipient.admits (size : Size) : Recipient → Operation → Bool
  | data _, .add | data _, .sub | data _, .cmp | data _, .bitwise _ => true
  | data _, .mulu | data _, .muls => size = .word
  | address _, .adda | address _, .suba | address _, .cmpa => true
  | status, .moveToSr | status, .moveToCcr => size = .word
  | _, _ => false

/-- Where an operand of an instruction that is a register is. -/
def recipientOf : Operand → Recipient
  | .dataRegister n => .data n.index
  | .addressRegister n => .address n.index
  | _ => .status

end Reference

open Reference

/-! ## In the registers -/

theorem Multiply.unsigned_eq (src dst : Word) :
    unsigned src dst = BitVec.ofNat 32 (src.toNat * dst.toNat) := by
  apply BitVec.eq_of_toNat_eq
  simp [unsigned, BitVec.toNat_mul, BitVec.toNat_setWidth]

theorem Multiply.signed_eq (src dst : Word) :
    signed src dst = BitVec.ofInt 32 (src.toInt * dst.toInt) := by
  rw [signed, BitVec.signExtend, BitVec.signExtend, ← BitVec.ofInt_mul]

namespace Processor

variable {p : Processor} {instruction : Instruction} {n : RegisterNumber}

/-- A result for a data register is merged into it. -/
theorem registers_finish (h : p.instruction.destination = .dataRegister n) (size : Size)
    {computed : Computed} (hsystem : computed.status.system = p.registers.sr.system) :
    (p.finish size computed).registers =
      Registers.setData { p.registers with sr := computed.status &&& implemented } n.index
        (size.merge (p.registers.data n.index) computed.value) := by
  rw [finish, setStatus_of_system hsystem, writeDestination]
  simp only [h]
  rfl

theorem registers_multiply (h : p.instruction.destination = .dataRegister n)
    (product : Word → Word → Long) (cycles : Word → Nat) :
    let value := product (Half.low.get p.source) (Half.low.get (p.registers.data n.index))
    (p.multiply product cycles).registers =
      { p.registers.setData n.index value with sr := moveStatus p.registers.sr .long value } := by
  intro value
  have hsystem : (⟨value, Status.logical p.registers.sr value .long⟩ : Computed).status.system =
      p.registers.sr.system :=
    Status.system_logical _ _
  have hfinish := registers_finish h .long hsystem
  rw [logical_and_implemented, Size.truncate_long, Size.merge_long] at hfinish
  rw [multiply, finishLogical, destination, h]
  exact hfinish

/-- An operation on a data register. -/
theorem registers_compute_data (hdestination : p.instruction.destination = .dataRegister n)
    (hadmits : (Recipient.data n.index).admits p.instruction.size p.instruction.operation) :
    p.compute.registers =
      combine p.opcode p.instruction.operation p.instruction.size
        (p.instruction.size.truncate p.source) p.registers (.data n.index) := by
  have hread : p.destination = p.registers.data n.index := by rw [destination, hdestination]; rfl
  have hfinish (computed : Computed) (hsystem : computed.status.system = p.registers.sr.system) :=
    registers_finish hdestination p.instruction.size hsystem
  obtain ⟨hstatus, hvalue⟩ := p.instruction.operation.modify_truncate p.opcode p.instruction.size
    p.registers.sr p.source (p.registers.data n.index)
  have hmerge := congrArg (p.instruction.size.merge (p.registers.data n.index)) hvalue
  rw [Size.merge_truncate, Size.merge_truncate] at hmerge
  cases hcase : p.instruction.operation <;> rw [hcase] at hadmits hstatus hmerge <;>
    try cases hadmits
  case add =>
    simp only [compute, hcase, hread, combine, hstatus, hmerge, Operation.looks,
      Bool.false_eq_true, if_false]
    exact hfinish _ (Arithmetic.system_add _ _ _ _)
  case sub =>
    simp only [compute, hcase, hread, combine, hstatus, hmerge, Operation.looks,
      Bool.false_eq_true, if_false]
    exact hfinish _ (Arithmetic.system_sub _ _ _ _)
  case bitwise kind =>
    simp only [compute, hcase, hread, combine, hstatus, hmerge, Operation.looks,
      Bool.false_eq_true, if_false]
    exact hfinish _ (Status.system_logical _ _)
  case cmp =>
    simp only [compute, hcase, hread, combine, hstatus, Operation.looks, if_true]
    rw [setStatus_of_system (Arithmetic.system_compare _ _ _ _)]
    rfl
  case mulu =>
    have hword : p.instruction.size = .word := by simpa [Recipient.admits] using hadmits
    simp only [compute, hcase, combine, hword, Size.low_truncate_word, ← Multiply.unsigned_eq]
    exact registers_multiply hdestination _ _
  case muls =>
    have hword : p.instruction.size = .word := by simpa [Recipient.admits] using hadmits
    simp only [compute, hcase, combine, hword, Size.low_truncate_word, ← Multiply.signed_eq]
    exact registers_multiply hdestination _ _

/-- An operation on an address register. -/
theorem registers_compute_address
    (hdestination : p.instruction.destination = .addressRegister n)
    (hadmits : (Recipient.address n.index).admits p.instruction.size p.instruction.operation) :
    p.compute.registers =
      combine p.opcode p.instruction.operation p.instruction.size
        (p.instruction.size.truncate p.source) p.registers (.address n.index) := by
  have hread : p.destination = p.registers.address n.index := by
    rw [destination, hdestination]
    rfl
  cases hcase : p.instruction.operation <;> rw [hcase] at hadmits <;> try cases hadmits
  case adda | suba =>
    simp only [compute, hcase, hread, combine, writeDestination, hdestination,
      Size.signExtend_truncate]
    rfl
  case cmpa =>
    simp only [compute, hcase, hread, combine, Size.signExtend_truncate]
    rw [setStatus_of_system (Arithmetic.system_compare _ _ _ _)]
    rfl

/-- A load of the status register. -/
theorem registers_compute_status
    (hadmits : Recipient.status.admits p.instruction.size p.instruction.operation) :
    p.compute.registers =
      combine p.opcode p.instruction.operation p.instruction.size
        (p.instruction.size.truncate p.source) p.registers .status := by
  cases hcase : p.instruction.operation <;> rw [hcase] at hadmits <;> try cases hadmits
  case moveToSr =>
    have hword : p.instruction.size = .word := by simpa [Recipient.admits] using hadmits
    simp only [compute, hcase, combine, hword, Size.low_truncate_word]
    rfl
  case moveToCcr =>
    have hword : p.instruction.size = .word := by simpa [Recipient.admits] using hadmits
    have hcodes : (Size.word.truncate p.source).setWidth 8 = p.source.setWidth 8 := by
      rw [Size.truncate_word, ← setWidth_eq_low, BitVec.setWidth_setWidth_of_le _ (by decide),
        BitVec.setWidth_setWidth_of_le _ (by decide)]
    simp only [compute, hcase, combine, hword, hcodes]

/-- **The processor carries these operations out in its registers.** -/
theorem registers_compute
    (hadmits : (recipientOf p.instruction.destination).admits p.instruction.size
      p.instruction.operation) :
    p.compute.registers =
      combine p.opcode p.instruction.operation p.instruction.size
        (p.instruction.size.truncate p.source) p.registers
        (recipientOf p.instruction.destination) := by
  cases hcase : p.instruction.destination <;> rw [hcase] at hadmits
  case dataRegister n => exact registers_compute_data hcase hadmits
  case addressRegister n => exact registers_compute_address hcase hadmits
  all_goals exact registers_compute_status hadmits

end Processor

/-! ## The order of things -/

namespace Reference

variable {opcode : Word} {operation : Operation} {size : Size} {source : Long} {r : Registers}
  {recipient : Recipient}

/-- A sum does not depend on the order of its terms. -/
theorem setAddress_add_comm (n m : RegisterIndex) (first second : Long) :
    let stepped := r.setAddress m (r.address m + second)
    let summed := r.setAddress n (r.address n + first)
    summed.setAddress m (summed.address m + second) =
      stepped.setAddress n (stepped.address n + first) := by
  intro stepped summed
  by_cases h : m = n
  · subst h
    simp only [stepped, summed, Registers.setAddress_setAddress, Registers.address_setAddress_self]
    congr 1
    ac_rfl
  · simp only [stepped, summed, Registers.address_setAddress_of_ne _ h,
      Registers.address_setAddress_of_ne _ (Ne.symm h)]
    exact Registers.setAddress_comm _ h _ _

/-- A product does not depend on the program counter. -/
theorem combine_skipWord (hmultiply : operation = .mulu ∨ operation = .muls)
    (hadmits : recipient.admits size operation) :
    combine opcode operation size source (skipWord r) recipient =
      skipWord (combine opcode operation size source r recipient) := by
  cases recipient with
  | data n => rcases hmultiply with rfl | rfl <;> rfl
  | address n | status => rcases hmultiply with rfl | rfl <;> cases hadmits

/-- **The step past the source might as well come last**, unless the register that steps is compared
or the status register is loaded. -/
theorem stepPast_combine (mode : AddressMode) (m : RegisterIndex)
    (hstatus : recipient ≠ .status)
    (hcompared : operation = .cmpa → mode = .postIncrement → recipient ≠ .address m) :
    stepPast mode m size (combine opcode operation size source r recipient) =
      combine opcode operation size source (stepPast mode m size r) recipient := by
  by_cases hmode : mode = .postIncrement
  · subst hmode
    cases recipient with
    | data n => cases operation <;> first | rfl | (simp only [combine]; split <;> rfl)
    | address n =>
      cases operation with
      | cmpa =>
        have hne : n ≠ m := fun h => hcompared rfl rfl (congrArg _ h)
        simp only [combine, stepPast, Registers.address_setAddress_of_ne _ hne]
        rfl
      | suba =>
        simp only [combine, BitVec.sub_eq_add_neg]
        exact setAddress_add_comm n m _ _
      | _ => exact setAddress_add_comm n m _ _
    | status => exact absurd rfl hstatus
  · have hstay (r : Registers) : stepPast mode m size r = r := by
      cases mode <;> first | rfl | exact absurd rfl hmode
    rw [hstay, hstay]

end Reference

end M68k
