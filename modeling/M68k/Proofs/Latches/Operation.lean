import M68k.Proofs.Execution.Control
import M68k.Proofs.Latches.Agreement
import M68k.Proofs.Modify.Reference

/-!
# Agreement through operations

An operation looks at its operands within its size, and at nothing else in the latches. So two
processors that agree on what it uses give results that agree on what is wanted.

## Main results

* `Processor.Agree.readOperand`, `Processor.Agree.writeOperand`: operands
* `Processor.Agree.compute`: operations that choose no bus program
-/

namespace M68k

/-! ## Arithmetic within a size -/

section Arithmetic

variable {src src' dst dst' : Long} {size : Size} (sr : Status)

theorem Arithmetic.add_sameOn (hsrc : SameOn size.mask src src')
    (hdst : SameOn size.mask dst dst') :
    Arithmetic.add src dst size sr = Arithmetic.add src' dst' size sr := by
  rw [SameOn] at hsrc hdst
  simp only [Arithmetic.add, hsrc, hdst]

theorem Arithmetic.compare_sameOn (hsrc : SameOn size.mask src src')
    (hdst : SameOn size.mask dst dst') :
    Arithmetic.compare src dst size sr = Arithmetic.compare src' dst' size sr := by
  rw [SameOn] at hsrc hdst
  simp only [Arithmetic.compare, hsrc, hdst]

theorem Arithmetic.sub_sameOn (hsrc : SameOn size.mask src src')
    (hdst : SameOn size.mask dst dst') :
    Arithmetic.sub src dst size sr = Arithmetic.sub src' dst' size sr := by
  simp only [Arithmetic.sub, Arithmetic.compare_sameOn sr hsrc hdst]

theorem Arithmetic.negx_sameOn (hdst : SameOn size.mask dst dst') :
    Arithmetic.negx dst size sr = Arithmetic.negx dst' size sr := by
  rw [SameOn] at hdst
  simp only [Arithmetic.negx, Arithmetic.subx, hdst]

theorem Status.logical_sameOn (hdst : SameOn size.mask dst dst') :
    Status.logical sr dst size = Status.logical sr dst' size := by
  have htruncate : size.truncate dst = size.truncate dst' := hdst
  rw [← Status.logical_truncate, htruncate, Status.logical_truncate]

theorem ShiftKind.apply_sameOn (kind : ShiftKind) (count : Nat)
    (hdst : SameOn size.mask dst dst') :
    kind.apply dst count size sr = kind.apply dst' count size sr := by
  rw [SameOn] at hdst
  simp only [ShiftKind.apply, hdst]

theorem Size.signExtend_sameOn (hsrc : SameOn size.mask src src') :
    size.signExtend src = size.signExtend src' := by
  have htruncate : size.truncate src = size.truncate src' := hsrc
  rw [← Size.signExtend_truncate, htruncate, Size.signExtend_truncate]

/-- The digits of a byte are within it. -/
theorem SameOn.digits (h : SameOn 0xFF src src') :
    src &&& 0x0F = src' &&& 0x0F ∧ src &&& 0xF0 = src' &&& 0xF0 :=
  ⟨h.mono (by decide), h.mono (by decide)⟩

theorem PackedDecimal.add_sameOn (hsrc : SameOn 0xFF src src') (hdst : SameOn 0xFF dst dst') :
    PackedDecimal.add src dst sr = PackedDecimal.add src' dst' sr := by
  simp only [PackedDecimal.add, hsrc.digits, hdst.digits]

theorem PackedDecimal.sub_sameOn (hsrc : SameOn 0xFF src src') (hdst : SameOn 0xFF dst dst') :
    PackedDecimal.sub src dst sr = PackedDecimal.sub src' dst' sr := by
  simp only [PackedDecimal.sub, hsrc.digits, hdst.digits]

/-- A bit within the size. -/
theorem SameOn.and_bit {number : Nat} (hdst : SameOn size.mask dst dst')
    (hnumber : number < size.bits) :
    dst &&& (1 <<< number : Long) = dst' &&& (1 <<< number : Long) := by
  have htruncate : size.truncate dst = size.truncate dst' := hdst
  rw [← size.truncate_and_bit dst hnumber, htruncate, size.truncate_and_bit dst' hnumber]

end Arithmetic

namespace Processor.Agree

variable {live : Live} {p q : Processor}

/-! ## Operands -/

theorem readOperand {operand : Operand} {bits : Long} (h : Agree (live.use operand bits) p q)
    (hopcode : p.opcode = q.opcode) :
    SameOn bits (p.readOperand operand) (q.readOperand operand) := by
  cases operand with
  | none => exact .refl bits 0
  | dataRegister register => exact .of_eq (h.registers.data _)
  | addressRegister register => exact .of_eq (h.registers.address _)
  | sourceLatch | destinationLatch => exact h.data_of_use
  | prefetch => exact .of_eq (by simp only [Processor.readOperand, h.prefetch])
  | effectiveAddress side => exact .of_eq h.address_of_use
  | quick => exact .of_eq (by simp only [Processor.readOperand, hopcode])

theorem writeOperand {operand : Operand} {size : Size} {x y : Long}
    (h : Agree (live.fill operand) p q) (hvalue : SameOn (live.wanted operand size) x y) :
    Agree live (p.writeOperand operand size x) (q.writeOperand operand size y) := by
  cases operand with
  | dataRegister register =>
    have hmerged : size.merge (p.registers.data register.index) x =
        size.merge (q.registers.data register.index) y := by
      have hwithin : x &&& size.mask = y &&& size.mask := hvalue.left
      rw [Size.merge, Size.merge, h.registers.data, hwithin]
    simp only [Processor.writeOperand, hmerged]
    exact h.withRegisters (h.registers.setData _ _)
  | addressRegister register =>
    obtain rfl : x = y := hvalue.right.eq
    exact h.withRegisters (h.registers.setAddress _ _)
  | sourceLatch | destinationLatch => exact h.setData hvalue.right
  | none | prefetch | effectiveAddress | quick => exact h

theorem setStatus (h : Agree live p q) (sr : Status) :
    Agree live (p.setStatus sr) (q.setStatus sr) :=
  h.withRegisters (h.registers.setStatus sr)

theorem setPc (h : Agree live p q) (pc : Long) : Agree live (p.setPc pc) (q.setPc pc) :=
  h.withRegisters (h.registers.setPc pc)

theorem rewind (h : Agree live p q) : Agree live p.rewind q.rewind := by
  rw [Processor.rewind, Processor.rewind, h.registers.pc]
  exact h.setPc _

theorem withLength (h : Agree live p q) (length : HalfCycles) :
    Agree live { p with flexibleLength := length } { q with flexibleLength := length } :=
  { h with flexibleLength := rfl }

end Processor.Agree

namespace Processor

variable {live : Live} {p q : Processor}

section Results

variable (hinstruction : p.instruction = q.instruction) {size : Size} {x y : Long}
  (h : Agree (live.fill p.instruction.destination) p q)
include hinstruction h

theorem Agree.writeDestination (hvalue : SameOn (live.wanted p.instruction.destination size) x y) :
    Agree live (p.writeDestination size x) (q.writeDestination size y) := by
  rw [Processor.writeDestination, Processor.writeDestination, ← hinstruction]
  exact h.writeOperand hvalue

theorem Agree.finish {computed computed' : Computed} (hstatus : computed.status = computed'.status)
    (hvalue : SameOn (live.wanted p.instruction.destination size) computed.value computed'.value) :
    Agree live (p.finish size computed) (q.finish size computed') := by
  rw [Processor.finish, Processor.finish, hstatus]
  exact Agree.writeDestination (by exact hinstruction) (h.setStatus _) hvalue

theorem Agree.finish_of_eq {computed computed' : Computed} (heq : computed = computed') :
    Agree live (p.finish size computed) (q.finish size computed') := by
  rw [heq]
  exact Agree.finish hinstruction h rfl (.refl _ _)

theorem Agree.finishLogical (hvalue : SameOn (live.wanted p.instruction.destination size) x y) :
    Agree live (p.finishLogical size x) (q.finishLogical size y) := by
  rw [Processor.finishLogical, Processor.finishLogical, h.registers.sr]
  exact Agree.finish hinstruction h (Status.logical_sameOn _ hvalue.left) hvalue

end Results

/-- The bit that the source selects. -/
def selectedBit (p : Processor) : Long := 1 <<< (p.source.toNat % p.instruction.size.bits)

/-- The length that a change of the selected bit asks for. -/
def bitDelay (p : Processor) (kind : BitKind) : HalfCycles :=
  if p.instruction.destination.isDataRegister then
    (if kind == .clear then 8 else 4) +
      (if p.source.toNat % p.instruction.size.bits ≥ 16 then 4 else 0)
  else p.flexibleLength

theorem operateOnBit_eq (p : Processor) (kind : BitKind) :
    p.operateOnBit kind =
      let tested := p.setStatus
        (Status.setIf p.registers.sr Status.zero (p.destination &&& p.selectedBit == 0))
      if kind == .test then tested
      else
        { tested with flexibleLength := p.bitDelay kind }.writeDestination p.instruction.size
          (kind.apply p.destination p.selectedBit) := rfl

/-- What an operation finds in two processors that agree on all that it uses. -/
structure Supplied (live : Live) (p q : Processor) : Prop where
  opcode : p.opcode = q.opcode
  instruction : p.instruction = q.instruction
  source : SameOn (p.instruction.operation.usesSource p.instruction.size
    (live.wantedBy p.instruction)) p.source q.source
  destination : SameOn (p.instruction.operation.usesDestination p.instruction.size
    (live.wantedBy p.instruction)) p.destination q.destination
  filled : Agree (live.filledBy p.instruction) p q

theorem Agree.supplied (h : Agree (live.beforeCompute p.instruction) p q)
    (hopcode : p.opcode = q.opcode) (hinstruction : p.instruction = q.instruction) :
    Supplied live p q where
  opcode := hopcode
  instruction := hinstruction
  source := by
    rw [source, source, ← hinstruction]
    exact h.readOperand hopcode
  destination := by
    rw [destination, destination, ← hinstruction]
    exact (h.mono (Live.within_use _ _ _)).readOperand hopcode
  filled := (h.mono (Live.within_use _ _ _)).mono (Live.within_use _ _ _)

namespace Supplied

variable {operation : Operation} {size : Size}

theorem sr (h : Supplied live p q) : p.registers.sr = q.registers.sr := h.filled.registers.sr

/-- The operands of an operation. -/
theorem operands (h : Supplied live p q) (hoperation : p.instruction.operation = operation) :
    SameOn (operation.usesSource p.instruction.size (live.wantedBy p.instruction)) p.source
        q.source ∧
      SameOn (operation.usesDestination p.instruction.size (live.wantedBy p.instruction))
        p.destination q.destination := by
  subst hoperation
  exact ⟨h.source, h.destination⟩

/-- An operation that stores nothing leaves everything live as it is. -/
theorem kept (h : Supplied live p q) (hoperation : p.instruction.operation = operation)
    (hstores : operation.stores p.instruction.size = none) : Agree live p q := by
  have hfilled := h.filled
  rw [Live.filledBy, hoperation, hstores] at hfilled
  exact hfilled

/-- An operation that stores at a size. -/
theorem fill (h : Supplied live p q) (hoperation : p.instruction.operation = operation)
    (hstores : operation.stores p.instruction.size = some size) :
    Agree (live.fill p.instruction.destination) p q ∧
      live.wantedBy p.instruction = live.wanted p.instruction.destination size := by
  have hfilled := h.filled
  rw [Live.filledBy, hoperation, hstores] at hfilled
  exact ⟨hfilled, by rw [Live.wantedBy, hoperation, hstores]; rfl⟩

/-! ## Operations with a duration of their own -/

theorem conditionHolds (h : Supplied live p q) : p.conditionHolds = q.conditionHolds := by
  simp only [Processor.conditionHolds, h.opcode, h.sr]

theorem setOnCondition (h : Supplied live p q) (hoperation : p.instruction.operation = .scc) :
    Agree live p.setOnCondition q.setOnCondition := by
  obtain ⟨hfill, -⟩ := h.fill hoperation rfl
  have hdelay :
      (if p.instruction.destination.isDataRegister && p.conditionHolds then 4
        else p.flexibleLength) =
      (if q.instruction.destination.isDataRegister && q.conditionHolds then 4
        else q.flexibleLength) := by
    rw [h.instruction, h.conditionHolds, hfill.flexibleLength]
  unfold Processor.setOnCondition
  dsimp only []
  rw [hdelay, h.conditionHolds]
  exact Agree.writeDestination (by exact h.instruction) (hfill.withLength _) (.refl _ _)

theorem multiply (h : Supplied live p q)
    (hoperation : p.instruction.operation = .mulu ∨ p.instruction.operation = .muls)
    (product : Word → Word → Long) (cycles : Word → Nat) :
    Agree live (p.multiply product cycles) (q.multiply product cycles) := by
  have hlow : Half.low.get p.source = Half.low.get q.source ∧
      Half.low.get p.destination = Half.low.get q.destination ∧
      Agree (live.fill p.instruction.destination) p q := by
    rcases hoperation with hoperation | hoperation <;>
      exact ⟨SameOn.low (h.operands hoperation).1, SameOn.low (h.operands hoperation).2,
        (h.fill hoperation rfl).1⟩
  obtain ⟨hsource, hdestination, hfill⟩ := hlow
  simp only [Processor.multiply, ← hsource, ← hdestination]
  exact (Agree.finishLogical h.instruction hfill (.refl _ _)).withLength _

theorem shift {kind : ShiftKind} (h : Supplied live p q)
    (hoperation : p.instruction.operation = .shift kind) : Agree live p.shift q.shift := by
  obtain ⟨hsource, hdestination⟩ := h.operands hoperation
  have hcount : p.source = q.source := SameOn.eq hsource
  have hquick : p.readOperand .quick = q.readOperand .quick := by
    simp only [Processor.readOperand, h.opcode]
  obtain ⟨hfill, -⟩ := h.fill hoperation rfl
  simp only [Processor.shift, ← h.instruction, ← hcount, ← hquick, ← h.sr, hoperation,
    Operation.applyShift, ← ShiftKind.apply_sameOn _ kind _ hdestination]
  split
  · exact (Agree.finish_of_eq h.instruction hfill rfl).withLength _
  · exact Agree.finish_of_eq h.instruction hfill rfl

theorem operateOnBit {kind : BitKind} (h : Supplied live p q)
    (hoperation : p.instruction.operation = .bit kind) :
    Agree live (p.operateOnBit kind) (q.operateOnBit kind) := by
  obtain ⟨hsource, hdestination⟩ := h.operands hoperation
  have hnumber : p.source = q.source := SameOn.eq hsource
  have hselected : p.selectedBit = q.selectedBit := by
    rw [selectedBit, selectedBit, hnumber, h.instruction]
  have hwanted : live.wantedBy p.instruction =
      live.wanted p.instruction.destination p.instruction.size := by
    rw [Live.wantedBy, hoperation]
    cases kind <;> rfl
  rw [Operation.usesDestination, hwanted] at hdestination
  have htested : p.destination &&& p.selectedBit = q.destination &&& q.selectedBit := by
    rw [← hselected]
    exact hdestination.left.and_bit (Nat.mod_lt _ (by cases p.instruction.size <;> decide))
  rw [operateOnBit_eq, operateOnBit_eq, htested, h.sr]
  cases kind with
  | test => exact (h.kept hoperation rfl).setStatus _
  | change | clear | set =>
    obtain ⟨hfill, -⟩ := h.fill hoperation rfl
    have hdelay (kind : BitKind) : p.bitDelay kind = q.bitDelay kind := by
      simp only [bitDelay, h.instruction, hnumber, hfill.flexibleLength]
    have hsize : q.instruction.size = p.instruction.size := by rw [h.instruction]
    rw [hdelay, hsize, ← hselected]
    exact Agree.writeDestination (by exact h.instruction) ((hfill.setStatus _).withLength _)
      (hdestination.bit _ _)

end Supplied

/-- **Operations that choose no bus program** give results that agree on what is wanted. -/
theorem Agree.compute (h : Agree (live.beforeCompute p.instruction) p q)
    (hopcode : p.opcode = q.opcode) (hinstruction : p.instruction = q.instruction) :
    Agree live p.compute q.compute := by
  have hsupplied := h.supplied hopcode hinstruction
  have hregisters := hsupplied.filled.registers
  have hsr : q.registers.sr = p.registers.sr := hregisters.sr.symm
  have hsize : q.instruction.size = p.instruction.size := by rw [hinstruction]
  have hkind : q.instruction.operation = p.instruction.operation := by rw [hinstruction]
  have hstore {size : Size}
      (hstores : p.instruction.operation.stores p.instruction.size = some size)
      {x y : Long} (hvalue : SameOn (live.wantedBy p.instruction) x y) :
      Agree live (p.writeDestination size x) (q.writeDestination size y) := by
    obtain ⟨hfill, hwanted⟩ := hsupplied.fill rfl hstores
    exact Agree.writeDestination hinstruction hfill (hwanted ▸ hvalue)
  have hcomputed {size : Size}
      (hstores : p.instruction.operation.stores p.instruction.size = some size)
      {computed computed' : Computed} (heq : computed = computed') :
      Agree live (p.finish size computed) (q.finish size computed') :=
    Agree.finish_of_eq hinstruction (hsupplied.fill rfl hstores).1 heq
  have hlogical {size : Size}
      (hstores : p.instruction.operation.stores p.instruction.size = some size)
      {x y : Long} (hvalue : SameOn (live.wantedBy p.instruction) x y) :
      Agree live (p.finishLogical size x) (q.finishLogical size y) := by
    obtain ⟨hfill, hwanted⟩ := hsupplied.fill rfl hstores
    exact Agree.finishLogical hinstruction hfill (hwanted ▸ hvalue)
  obtain ⟨hsource, hdestination⟩ := hsupplied.operands rfl
  unfold Processor.compute
  dsimp only []
  rw [hkind, hsize, hsr]
  cases hoperation : p.instruction.operation <;>
    rw [hoperation] at hsource hdestination hstore hcomputed hlogical <;> dsimp only []
  case nop | reset | bcc | bsr | dbcc | trap | movem =>
    exact hsupplied.kept hoperation rfl
  case scc => exact hsupplied.setOnCondition hoperation
  case bit => exact hsupplied.operateOnBit hoperation
  case shift => exact hsupplied.shift hoperation
  case mulu => exact hsupplied.multiply (.inl hoperation) _ _
  case muls => exact hsupplied.multiply (.inr hoperation) _ _
  case abcd => exact hcomputed rfl (PackedDecimal.add_sameOn _ hsource hdestination)
  case sbcd => exact hcomputed rfl (PackedDecimal.sub_sameOn _ hsource hdestination)
  case add => exact hcomputed rfl (Arithmetic.add_sameOn _ hsource hdestination)
  case sub => exact hcomputed rfl (Arithmetic.sub_sameOn _ hsource hdestination)
  case neg => exact hcomputed rfl (Arithmetic.sub_sameOn _ hdestination (.refl _ 0))
  case negx => exact hcomputed rfl (Arithmetic.negx_sameOn _ hdestination)
  case clr => exact hcomputed rfl rfl
  case adda | suba =>
    rw [SameOn.eq hdestination, Size.signExtend_sameOn hsource]
    exact hstore rfl (.refl _ _)
  case movea => exact hstore rfl (.of_eq (Size.signExtend_sameOn hsource))
  case lea => exact hstore rfl (.of_eq (SameOn.eq hsource))
  case moveFromSr => exact hstore rfl (.refl _ _)
  case moveFromUsp => exact hstore rfl (.of_eq hregisters.usp)
  case bitwise kind => exact hlogical rfl (hsource.bitwise hdestination kind)
  case move => exact hlogical rfl hsource
  case not => exact hlogical rfl hdestination.not
  case moveq =>
    rw [hopcode]
    exact hlogical rfl (.refl _ _)
  case swap | ext =>
    rw [SameOn.eq hdestination]
    exact hlogical rfl (.refl _ _)
  case tas =>
    obtain ⟨hfill, hwanted⟩ := hsupplied.fill hoperation rfl
    rw [Operation.usesDestination, hwanted] at hdestination
    exact Agree.finish hinstruction hfill (Status.logical_sameOn _ hdestination.left)
      (hdestination.bitwise (.refl _ 0x80) .or)
  case exg =>
    obtain ⟨hfill, -⟩ := hsupplied.fill hoperation rfl
    rw [SameOn.eq hsource, SameOn.eq hdestination, ← hinstruction]
    have hkept (r : Processor) (operand : Operand) (value : Long) :
        (r.writeOperand operand .long value).instruction = r.instruction :=
      congrArg (·.instruction) (r.standing_writeOperand operand .long value)
    have hfirst := (hfill.mono (Live.fill_within _ p.instruction.source)).writeOperand
      (.refl (Live.wanted _ _ .long) q.destination)
    refine Agree.writeDestination ?_ ?_ (.refl _ _)
    · rw [hkept, hkept, hinstruction]
    · rw [hkept]
      exact hfirst
  case tst =>
    rw [Status.logical_sameOn _ hdestination]
    exact (hsupplied.kept hoperation rfl).setStatus _
  case cmp =>
    rw [Arithmetic.compare_sameOn _ hsource hdestination]
    exact (hsupplied.kept hoperation rfl).setStatus _
  case cmpa =>
    rw [SameOn.eq hdestination, Size.signExtend_sameOn hsource]
    exact (hsupplied.kept hoperation rfl).setStatus _
  case moveToSr | rte =>
    rw [SameOn.low hsource]
    exact (hsupplied.kept hoperation rfl).setStatus _
  case moveToCcr | rtr =>
    rw [SameOn.byte hsource]
    exact (hsupplied.kept hoperation rfl).withRegisters (hregisters.setCcr _)
  case jmp | jsr | rts =>
    rw [SameOn.eq hsource]
    exact (hsupplied.kept hoperation rfl).setPc _
  case moveToUsp =>
    rw [SameOn.eq hsource]
    exact (hsupplied.kept hoperation rfl).withRegisters (hregisters.setUsp _)
  case bitwiseToCcr kind =>
    have hcodes : p.registers.ccr = q.registers.ccr := by rw [Registers.ccr, Registers.ccr, hsr]
    have hrewound := (hsupplied.kept hoperation rfl).rewind
    rw [SameOn.byte hsource, hcodes]
    exact hrewound.withRegisters (hrewound.registers.setCcr _)
  case bitwiseToSr kind =>
    rw [SameOn.low hsource]
    exact (hsupplied.kept hoperation rfl).rewind.setStatus _

end Processor

end M68k
