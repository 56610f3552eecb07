import M68k.Processor.Operation

/-!
# Actions

What a micro-operation does when it is entered: addresses and immediates are assembled from the
prefetch queue, address registers step, return addresses are stacked, and at one point the operation
is carried out.

## Main definitions

* `Processor.formAddress`: the effective addresses
* `Processor.prepare`, `Processor.act`: fire an action
-/

namespace M68k.Processor

/-- Apply `f` to each selected side, source first. -/
def onSides (p : Processor) (target : Target) (f : Processor → Side → Processor) : Processor :=
  target.sides.foldl f p

/-- Set the effective-address latch of each selected side from that side's address register. -/
def setEffectiveAddress (p : Processor) (target : Target) (address : Long → Long) : Processor :=
  p.onSides target fun p side =>
    { p with effectiveAddress := p.effectiveAddress.set side (address (p.sideRegister side)) }

/-- Set the data latch of each selected side. -/
def setData (p : Processor) (target : Target) (value : Long) : Processor :=
  p.onSides target fun p side => { p with data := p.data.set side value }

/-- Let the address register of each selected side step by `distance`. -/
def stepRegisters (p : Processor) (target : Target) (distance : Long) : Processor :=
  p.onSides target fun p side =>
    let register := (p.instruction.register side).index
    { p with registers := p.registers.setAddress register (p.sideRegister side + distance) }

/-- Index plus displacement of the brief extension word in the low half of the prefetch queue. The
index is a whole register, or its sign-extended low word. -/
def indexOffset (p : Processor) : Long :=
  let extension := Half.low.get p.prefetch
  let number := RegisterIndex.ofField (extension.toNat / 4096)
  let register :=
    if extension.getLsbD 15 then p.registers.address number else p.registers.data number
  let index := if extension.getLsbD 11 then register else Size.word.signExtend register
  index + Size.byte.signExtend (extension.setWidth 32)

/-- Make room on the stack for `returnAddress`, ready to be written. -/
def pushReturnAddress (p : Processor) (returnAddress : Long) : Processor :=
  let sp := p.registers.sp - 4
  { p with
    data := p.data.set .destination returnAddress
    registers := p.registers.setSp sp
    effectiveAddress := p.effectiveAddress.set .destination sp }

/-- Write back the address register of a finished register-list transfer, if the addressing mode
lets it step. -/
def finishList (p : Processor) (direction : ListDirection) : Processor :=
  let steps :=
    match direction with
    | .toMemory => p.modeField == 4
    | .toRegisters => p.modeField == 3
  if steps then
    { p with
      registers :=
        p.registers.setAddress p.instruction.destinationRegister.index p.transfer.finalAddress }
  else p

/-- The address of a form, from the address register of its side. -/
def formAddress (p : Processor) (form : AddressForm) (base : Long) : Long :=
  let displacement := Size.word.signExtend p.prefetch
  match form with
  | .register => base
  | .displacement => base + displacement
  | .index => base + p.indexOffset
  | .pcDisplacement => p.registers.pc - 2 + displacement
  | .pcIndex => p.registers.pc - 2 + p.indexOffset
  | .short => displacement
  | .long => p.prefetch

/-- Fire an action other than the operation itself. -/
def prepare (p : Processor) (action : Action) (target : Target) : Processor :=
  let pc := p.registers.pc
  let sp := p.registers.sp
  match action with
  | .none | .operate => p
  | .address form => p.setEffectiveAddress target (p.formAddress form)
  | .immediate | .latchList => p.setData target ((Half.low.get p.prefetch).setWidth 32)
  | .longImmediate => p.setData target p.prefetch
  | .increment stride => p.stepRegisters target stride.bytes
  | .decrement stride => p.stepRegisters target (-stride.bytes)
  -- a jump through an address register has fetched one word fewer than the others
  | .pushJumpReturn => p.pushReturnAddress (if p.modeField = 2 then pc - 2 else pc)
  | .pushBranchReturn => p.pushReturnAddress (if p.hasWordDisplacement then pc else pc - 2)
  | .popReturn =>
    { p with
      effectiveAddress := p.effectiveAddress.set .source sp
      registers := p.registers.setSp (sp + 4) }
  | .locateFrame =>
    { p with
      frame := ⟨sp + 2, sp, sp + 4⟩
      registers := p.registers.setSp (sp + 6) }
  | .finishList direction => p.finishList direction

/-- Fire an action. The offset is that of the bus program to run in place of the
micro-operation's own, if the operation chooses one. -/
def act (tables : Tables) (p : Processor) (action : Action) (target : Target) :
    Processor × Option Nat :=
  match action with
  | .operate => p.operate tables
  | action => (p.prepare action target, none)

/-! ## The position in the chain is kept -/

theorem microOp_onSides (p : Processor) (target : Target) (f : Processor → Side → Processor)
    (h : ∀ p side, (f p side).microOp = p.microOp) : (p.onSides target f).microOp = p.microOp := by
  unfold onSides
  induction target.sides generalizing p with
  | nil => rfl
  | cons side sides ih => simp [ih, h]

@[simp] theorem microOp_finishList (p : Processor) (direction : ListDirection) :
    (p.finishList direction).microOp = p.microOp := by
  cases direction <;> simp only [finishList] <;> split <;> rfl

@[simp] theorem microOp_prepare (p : Processor) (action : Action) (target : Target) :
    (p.prepare action target).microOp = p.microOp := by
  cases action <;>
    simp [prepare, setEffectiveAddress, setData, stepRegisters, microOp_onSides, pushReturnAddress]

@[simp] theorem microOp_act (tables : Tables) (p : Processor) (action : Action) (target : Target) :
    (p.act tables action target).1.microOp = p.microOp := by
  unfold act
  split <;> simp

end M68k.Processor
