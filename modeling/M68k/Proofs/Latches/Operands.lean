import M68k.Proofs.Encoding.Operands
import M68k.Proofs.Latches.Live

/-!
# Live latches around operands

An operand that is read from memory fills its data latch as far as its size goes, and the address
latch that it goes through. So nothing of an operand is live in front of the stages that bring it
in.

## Main definitions

* `AddressMode.isLatched`: the operand is addressed through an effective-address latch

## Main results

* `Encoding.before_readMemory`, `Encoding.before_fetchSource`: what reading an operand fills
* `Encoding.liveBefore_readModifyWrite`: of a memory destination nothing is live
-/

namespace M68k

namespace Live

variable (live : Live) (side : Side)

theorem fillData_fillData (bits more : Long) :
    (live.fillData side bits).fillData side more = live.fillData side (bits ||| more) := by
  cases side <;> simp [fillData, Latches.set, Latches.get, BitVec.not_or, BitVec.and_assoc]

/-- What is filled after it has been used alone is no longer live. -/
theorem fillData_useData_nothing {bits filled : Long} (h : bits &&& ~~~filled = 0) :
    (nothing.useData side bits).fillData side filled = nothing := by
  have hnone : (0 ||| bits) &&& ~~~filled = 0 := by simpa using h
  cases side with
  | source => exact congrArg (fun data : Long => { nothing with data := ⟨data, 0⟩ }) hnone
  | destination => exact congrArg (fun data : Long => { nothing with data := ⟨0, data⟩ }) hnone

theorem fillData_beforeAddress (source : AddressSource) (bits : Long) :
    (live.beforeAddress source).fillData side bits =
      (live.fillData side bits).beforeAddress source := by
  cases source <;> rfl

@[simp] theorem beforeAddress_beforeAddress (source : AddressSource) :
    (live.beforeAddress source).beforeAddress source = live.beforeAddress source := by
  cases source with
  | effectiveAddress number =>
    simp only [beforeAddress]
    cases Side.ofNumber number <;> rfl
  | _ => rfl

@[simp] theorem fillAddress_useAddress :
    (live.useAddress side).fillAddress side = live.fillAddress side := by
  cases side <;> rfl

end Live

/-! ## Activities -/

namespace Activity

variable (live : Live)

@[simp] theorem liveBefore_idle (duration : HalfCycles) : liveBefore (idle duration) live = live :=
  rfl

@[simp] theorem liveBefore_fetch : liveBefore fetch live = live := rfl

/-- A read fills a byte or a word. -/
@[simp] theorem liveBefore_read (side : Side) (half : Half) (adjustment : Option Adjustment)
    (width : Width) (address : AddressSource) :
    liveBefore (read side half adjustment width address) live =
      (live.fillData side (half.set 0 (Live.readBits (width == .byte)))).beforeAddress address := by
  have hnone : half.set 0 0 = 0 := by cases half <;> rfl
  have hstep : liveBefore (read side half adjustment width address) live =
      ((((live.fillData side (half.set 0 (Live.readBits (width == .byte)))).useData side
        (half.set 0 0)).beforeAddress address).useData side (half.set 0 0)).beforeAddress
          address := by
    rcases adjustment with _ | _ | _ <;> cases width <;> rfl
  rw [hstep, hnone, Live.useData_zero, Live.useData_zero, Live.beforeAddress_beforeAddress]

/-- A write uses a byte or a word. -/
@[simp] theorem liveBefore_write (half : Half) (adjustment : Option Adjustment) (width : Width)
    (address : AddressSource) :
    liveBefore (write half adjustment width address) live =
      (live.useData .destination (half.set 0 (Live.readBits (width == .byte)))).beforeAddress
        address := by
  have hnone : half.set 0 0 = 0 := by cases half <;> rfl
  have hstep : liveBefore (write half adjustment width address) live =
      (((live.useData .destination (half.set 0 (Live.readBits (width == .byte)))).beforeAddress
        address).useData .destination (half.set 0 0)).beforeAddress address := by
    rcases adjustment with _ | _ | _ <;> cases width <;> rfl
  rw [hstep, hnone, Live.useData_zero, Live.beforeAddress_beforeAddress]

/-- The byte that is held and written back. -/
theorem liveBefore_testAndSet (address : AddressSource) :
    liveBefore (testAndSet address) live =
      (live.useData .destination Size.byte.mask).beforeAddress address := by
  have hstep : liveBefore (testAndSet address) live =
      (((live.useData .destination (Half.low.set 0 (0xFF : Word))).beforeAddress address).useData
        .destination (Half.low.set 0 0)).beforeAddress address := rfl
  have hnone : Half.low.set 0 0 = 0 := rfl
  rw [hstep, hnone, Live.useData_zero, Live.beforeAddress_beforeAddress]
  rfl

end Activity

/-! ## Stages -/

namespace Stage

variable (instruction : Instruction) (target : Target) (activity : Activity) (live : Live)

@[simp] theorem before_bus : before instruction (.bus activity) live = activity.liveBefore live :=
  rfl

@[simp] theorem before_perform :
    before instruction (.perform activity) live =
      (activity.liveBefore live).beforeOperate instruction := rfl

@[simp] theorem before_operate :
    before instruction (.act .operate target) live = live.beforeOperate instruction := rfl

@[simp] theorem before_increment (stride : Stride) :
    before instruction ⟨.increment stride, target, activity⟩ live = activity.liveBefore live := rfl

@[simp] theorem before_decrement (stride : Stride) :
    before instruction ⟨.decrement stride, target, activity⟩ live = activity.liveBefore live := rfl

theorem before_address (form : AddressForm) {side : Side} (htarget : target.sides = [side]) :
    before instruction ⟨.address form, target, activity⟩ live =
      (activity.liveBefore live).fillAddress side := by
  simp [before, Live.beforeAct, Live.beforePrepare, htarget]

end Stage

/-- The operand is addressed through an effective-address latch. -/
def AddressMode.isLatched (mode : AddressMode) (size : Size) : Bool :=
  match mode with
  | .indirect | .postIncrement | .preDecrement => size == .long
  | _ => true

namespace Encoding

open Stage

variable (live : Live) (instruction : Instruction)

/-- Reading an operand fills its latch. -/
@[simp] theorem liveBefore_readOperand (side : Side) (size : Size) (address : AddressSource) :
    (readOperand side size address).liveBefore live =
      (live.fillData side size.mask).beforeAddress address := by
  cases size with
  | byte | word => exact Activity.liveBefore_read live side .low none _ address
  | long =>
    simp only [readOperand, Activity.liveBefore_append, Activity.liveBefore_read,
      Live.fillData_beforeAddress, Live.fillData_fillData, Live.beforeAddress_beforeAddress]
    rfl

@[simp] theorem liveBefore_indexDelay (mode : AddressMode) :
    (indexDelay mode).liveBefore live = live := by
  unfold indexDelay
  split <;> rfl

@[simp] theorem liveBefore_registerTail (mode : AddressMode) (size : Size) :
    (registerTail mode size).liveBefore live = live := by
  cases size <;> rfl

/-- A register steps past its operand without a look at any latch. -/
@[simp] theorem before_stepPast (mode : AddressMode) (register : RegisterNumber) (size : Size)
    (target : Target) :
    (stepPast mode register size target).foldr (before instruction) live = live := by
  cases mode <;> rfl

/-- An immediate fills the source latch. -/
theorem before_fetchImmediate (size : Size) :
    (fetchImmediate size).foldr (before instruction) live =
      live.fillData .source (.allOnes 32) := by
  cases size <;> rfl

/-- **An operand that is read from memory** fills its data latch, and the address latch that it goes
through. -/
theorem before_readMemory {side : Side} {target : Target} (htarget : target.sides = [side])
    {mode : AddressMode} (hmemory : mode.isMemory) (register : RegisterNumber) (size : Size) :
    (readMemory side target mode register size).foldr (before instruction) live =
      if mode.isLatched size then (live.fillData side size.mask).fillAddress side
      else live.fillData side size.mask := by
  have hlatched (live : Live) : live.beforeAddress (.ofSide side) = live.useAddress side := by
    cases side <;> rfl
  have hdirect (live : Live) : live.beforeAddress (.addressRegister register) = live := rfl
  cases mode with
  | dataRegister | addressRegister | immediate => cases hmemory
  | indirect | postIncrement | preDecrement =>
    cases size <;>
      simp [readMemory, AddressMode.isLatched, act, before_address, htarget, hlatched, hdirect]
  | _ =>
    simp [readMemory, AddressMode.isLatched, AddressMode.action, before_address, htarget, hlatched]

/-- An operand that is brought into the source latch is no longer live. -/
theorem before_fetchSource (mode : AddressMode) (register : RegisterNumber) (size : Size) :
    (fetchSource mode register size).foldr (before instruction)
      (Live.nothing.use (.ofMode mode register .sourceLatch) size.mask) = .nothing := by
  have hwhole : size.mask &&& ~~~(BitVec.allOnes 32) = 0 := by cases size <;> decide
  have hfilled : (Live.nothing.useData .source size.mask).fillData .source size.mask = .nothing :=
    Live.fillData_useData_nothing _ (by cases size <;> decide)
  by_cases hmemory : mode.isMemory
  · have hlatch : Operand.ofMode mode register .sourceLatch = .sourceLatch := by
      cases mode <;> first | rfl | cases hmemory
    rw [fetchSource_of_isMemory hmemory, before_readMemory _ _ rfl hmemory, hlatch, Live.use,
      hfilled]
    split <;> rfl
  · cases mode with
    | dataRegister | addressRegister => rfl
    | immediate =>
      rw [fetchSource, before_fetchImmediate]
      exact Live.fillData_useData_nothing _ hwhole
    | _ => exact absurd rfl hmemory

/-- What is live behind the operation on a memory destination. -/
def behindOperation (mode : AddressMode) (size : Size) : Writeback → Live
  | .store | .testAndSet =>
    let written := Live.nothing.useData .destination size.mask
    if mode.isLatched size then written.useAddress .destination else written
  | .discard => .nothing

theorem beforeAddress_writeAddress (mode : AddressMode) (register : RegisterNumber) {size : Size}
    (hsize : size ≠ .long) :
    live.beforeAddress (writeAddress mode register) =
      if mode.isLatched size then live.useAddress .destination else live := by
  cases mode <;> cases size <;> first | rfl | exact absurd rfl hsize

theorem before_operateAndWrite (mode : AddressMode) (register : RegisterNumber) {size : Size}
    {writeback : Writeback} (htest : writeback = .testAndSet → size = .byte) :
    (operateAndWrite mode register size writeback).before instruction .nothing =
      (behindOperation mode size writeback).beforeOperate instruction := by
  cases writeback with
  | discard => rfl
  | testAndSet =>
    obtain rfl := htest rfl
    simp only [operateAndWrite, before_perform, Activity.liveBefore_append,
      Activity.liveBefore_fetch, Activity.liveBefore_testAndSet,
      beforeAddress_writeAddress _ mode register (show Size.byte ≠ .long by decide),
      behindOperation]
  | store =>
    cases size with
    | byte =>
      simp only [operateAndWrite, before_perform, Activity.liveBefore_append,
        Activity.liveBefore_fetch, Activity.liveBefore_write, behindOperation,
        beforeAddress_writeAddress _ mode register (show Size.byte ≠ .long by decide)]
      rfl
    | word =>
      simp only [operateAndWrite, before_perform, Activity.liveBefore_append,
        Activity.liveBefore_fetch, Activity.liveBefore_write, behindOperation,
        beforeAddress_writeAddress _ mode register (show Size.word ≠ .long by decide)]
      rfl
    | long =>
      have hlatched : mode.isLatched .long := by cases mode <;> rfl
      simp only [operateAndWrite, before_perform, Activity.liveBefore_append,
        Activity.liveBefore_fetch, Activity.liveBefore_write, behindOperation, hlatched]
      rfl

end Encoding

/-! ## Memory destinations -/

/-- The operand has nothing to do with the latches of the destination. -/
def Operand.isAside : Operand → Bool
  | destinationLatch | effectiveAddress _ => false
  | _ => true

namespace Live

variable (live : Live) {operand : Operand} (h : operand.isAside) (bits : Long)
include h

theorem fillData_use (filled : Long) :
    (live.use operand bits).fillData .destination filled =
      (live.fillData .destination filled).use operand bits := by
  cases operand <;> first | rfl | cases h

theorem fillAddress_use :
    (live.use operand bits).fillAddress .destination =
      (live.fillAddress .destination).use operand bits := by
  cases operand <;> first | rfl | cases h

end Live

/-- An instruction with a memory destination uses it within its size, and fills it if it is written
back. -/
structure Instruction.Modifies (instruction : Instruction) (writeback : Encoding.Writeback) : Prop
    where
  plain : instruction.operation.redirects = false
  destination : instruction.destination = .destinationLatch
  source : instruction.source.isAside
  stores : instruction.operation.stores instruction.size =
    if writeback = .discard then none else some instruction.size
  uses : instruction.operation.usesDestination instruction.size instruction.size.mask &&&
    ~~~instruction.size.mask = 0
  test : writeback = .testAndSet → instruction.size = .byte

namespace Encoding

variable {instruction : Instruction} {writeback : Writeback}

/-- The bits of its result that an operation on a memory destination has to get right. -/
theorem wantedBy_behindOperation (h : instruction.Modifies writeback) (mode : AddressMode) :
    (behindOperation mode instruction.size writeback).wantedBy instruction =
      instruction.size.mask := by
  have hstored : (instruction.operation.stores instruction.size).getD instruction.size =
      instruction.size := by
    rw [h.stores]
    split <;> rfl
  have hdata : (behindOperation mode instruction.size writeback).data.destination =
      if writeback = .discard then 0 else 0 ||| instruction.size.mask := by
    cases writeback <;> cases hlatched : mode.isLatched instruction.size <;>
      simp only [behindOperation, hlatched] <;> rfl
  rw [Live.wantedBy, hstored, h.destination]
  simp only [Live.wanted, hdata]
  split <;> simp

/-- Only the address is live behind an operation that fills a memory destination. -/
theorem filledBy_behindOperation (h : instruction.Modifies writeback) (mode : AddressMode) :
    (behindOperation mode instruction.size writeback).filledBy instruction =
      if mode.isLatched instruction.size ∧ writeback ≠ .discard then
        Live.nothing.useAddress .destination
      else .nothing := by
  have hfilled : (Live.nothing.useData .destination instruction.size.mask).fill .destinationLatch =
      .nothing :=
    Live.fillData_useData_nothing _ (by cases instruction.size <;> decide)
  have haddressed :
      ((Live.nothing.useData .destination instruction.size.mask).useAddress .destination).fill
        .destinationLatch = Live.nothing.useAddress .destination :=
    congrArg (Live.useAddress · .destination) hfilled
  rw [Live.filledBy, h.stores, h.destination]
  cases writeback with
  | discard => simp [behindOperation]
  | store | testAndSet =>
    cases hlatched : mode.isLatched instruction.size with
    | false => simpa [behindOperation, hlatched] using hfilled
    | true => simpa [behindOperation, hlatched] using haddressed

/-- **Of a memory destination nothing is live** in front of the stages that read, modify and write
it. Only the source is. -/
theorem liveBefore_readModifyWrite (h : instruction.Modifies writeback) {mode : AddressMode}
    (hmemory : mode.isMemory) (register : RegisterNumber) :
    Stage.liveBefore instruction (readModifyWrite mode register instruction.size writeback) =
      Live.nothing.use instruction.source
        (instruction.operation.usesSource instruction.size instruction.size.mask) := by
  have hstep := before_stepPast .nothing instruction mode register instruction.size .dst
  have hoperate := before_operateAndWrite instruction mode register h.test
  have hbits := Live.fillData_useData_nothing .destination h.uses
  rw [Live.beforeOperate_of_plain _ h.plain, Live.beforeCompute, wantedBy_behindOperation h,
    filledBy_behindOperation h, h.destination] at hoperate
  rw [readModifyWrite, Stage.liveBefore, List.foldr_append, hstep, List.foldr_append,
    List.foldr_cons, List.foldr_nil, hoperate, before_readMemory _ _ rfl hmemory,
    Live.fillData_use _ h.source, Live.fillAddress_use _ h.source]
  generalize instruction.operation.usesDestination instruction.size instruction.size.mask = bits
    at hbits
  have haddress : ((Live.nothing.useAddress .destination).useData .destination bits).fillData
      .destination instruction.size.mask = Live.nothing.useAddress .destination :=
    congrArg (Live.useAddress · .destination) hbits
  by_cases hwritten : mode.isLatched instruction.size ∧ writeback ≠ .discard
  · rw [if_pos hwritten, if_pos hwritten.1, Live.use, haddress]
    rfl
  · rw [if_neg hwritten, Live.use, hbits]
    split <;> rfl

end Encoding

end M68k
