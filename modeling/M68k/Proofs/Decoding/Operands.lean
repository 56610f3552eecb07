import M68k.Proofs.Decoding.Basic

/-!
# Writing operand stages down

The parts of a decoder that bring operands in and results out. Their patterns spell the bus activity
of the operand stages.

## Main definitions

* `Decoding.fetchSource`, `Decoding.fetchImmediate`: bring a source operand into the source latch
* `Decoding.readModifyWrite`: read a memory destination, operate, and write it back
* `Decoding.stepPast`: the trailing step of a register past its operand

## Main results

* `Decoding.records_fetchSource`, `Decoding.records_readModifyWrite`, `Decoding.records_stepPast`:
  they write down the stages that they are named for
-/

namespace M68k.Decoding

/-- The spelling of the read of an operand. -/
def readPattern : Side → Size → String
  | .source, .long => "nR+ nr"
  | .source, _ => "nr"
  | .destination, .long => "nRd+ nrd"
  | .destination, _ => "nrd"

/-- The spelling of the closing activity of an operation whose result lands in a data register. -/
def registerTail (mode : AddressMode) (size : Size) : String :=
  match size with
  | .long => if mode.isRegister || mode == .immediate then "np nn" else "np n"
  | _ => "np"

/-- Assemble an immediate operand from the instruction stream into the source latch. -/
def fetchImmediate (size : Size) : Decoding Unit :=
  if size == .long then do
    bus "np"
    op .longImmediate .src "np"
  else op .immediate .src "np"

/-- Address an operand in memory and read it into the latch of `side`, whose set is `target`. -/
def readMemory (side : Side) (target : Target) (mode : AddressMode) (register : RegisterNumber)
    (size : Size) : Decoding Unit :=
  let read := readPattern side size
  let latch := [AddressSource.ofSide side, AddressSource.ofSide side]
  let direct := [AddressSource.addressRegister register]
  let width := Encoding.transferWidth size
  match mode with
  | .indirect | .postIncrement =>
    if size == .long then opAt (.address .register) target read latch .word
    else opAt .none .nowhere read direct width
  | .preDecrement =>
    if size == .long then do
      act (.decrement .four) target
      opAt (.address .register) target ("n " ++ read) latch .word
    else opAt (.decrement (stride size register)) target ("n " ++ read) direct width
  | .absoluteLong => do
    bus "np"
    opAt mode.action target ("np " ++ read) latch width
  | _ => opAt mode.action target (indexed mode ("np " ++ read)) latch width

/-- Load a memory or immediate operand into the source latch. Registers need no bus activity. -/
def fetchSource (mode : AddressMode) (register : RegisterNumber) (size : Size) : Decoding Unit :=
  match mode with
  | .dataRegister | .addressRegister => pure ()
  | .immediate => fetchImmediate size
  | _ => readMemory .source .src mode register size

/-- Append the trailing step of a register past its operand, if the mode has one. -/
def stepPast (mode : AddressMode) (register : RegisterNumber) (size : Size) (target : Target) :
    Decoding Unit :=
  if mode == .postIncrement then act (.increment (stride size register)) target else pure ()

/-- Operate on the destination latch and finish according to `writeback`. -/
def operateAndWrite (mode : AddressMode) (register : RegisterNumber) (size : Size)
    (writeback : Encoding.Writeback) : Decoding Unit :=
  let latch := [AddressSource.ofSide .destination, AddressSource.ofSide .destination]
  let throughRegister := mode == .indirect || mode == .postIncrement || mode == .preDecrement
  let address :=
    if throughRegister && size != .long then [AddressSource.addressRegister register] else latch
  match writeback with
  | .store =>
    if size == .long then opAt .operate .nowhere "np nw- nW" latch .word
    else opAt .operate .nowhere "np nw" address (Encoding.transferWidth size)
  | .discard => perform "np"
  | .testAndSet => opAt .operate .nowhere "tas np" address .byte

/-- Read a memory destination into the destination latch, operate and finish according to
`writeback`. -/
def readModifyWrite (mode : AddressMode) (register : RegisterNumber) (size : Size)
    (writeback : Encoding.Writeback) : Decoding Unit := do
  readMemory .destination .dst mode register size
  operateAndWrite mode register size writeback
  stepPast mode register size .dst

/-! ## What is written down -/

variable (mode : AddressMode) (register : RegisterNumber) (size : Size)

theorem records_fetchImmediate :
    (fetchImmediate size).Records () (Encoding.fetchImmediate size) := by
  cases size with
  | long => exact (records_bus rfl).andThen (records_op rfl .longImmediate .src)
  | _ => exact records_op rfl .immediate .src

theorem records_readMemory (side : Side) (target : Target) :
    (readMemory side target mode register size).Records ()
      (Encoding.readMemory side target mode register size) := by
  cases mode with
  | preDecrement =>
    cases size with
    | long =>
      refine (records_act (.decrement .four) target).andThen (records_opAt ?_ _ target)
      cases side <;> rfl
    | _ =>
      refine records_opAt ?_ _ target
      cases side <;> rfl
  | absoluteLong =>
    refine (records_bus rfl).andThen (records_opAt ?_ _ target)
    cases size <;> cases side <;> rfl
  | indirect | postIncrement => cases size <;> cases side <;> exact records_opAt rfl _ _
  | _ =>
    refine records_opAt ?_ _ target
    cases size <;> cases side <;> rfl

theorem records_fetchSource :
    (fetchSource mode register size).Records () (Encoding.fetchSource mode register size) := by
  have hmemory := records_readMemory mode register size .source .src
  cases mode with
  | dataRegister | addressRegister => exact records_pure ()
  | immediate => exact records_fetchImmediate size
  | _ => exact hmemory

theorem records_stepPast (target : Target) :
    (stepPast mode register size target).Records ()
      (Encoding.stepPast mode register size target) := by
  cases mode with
  | postIncrement => exact records_act _ target
  | _ => exact records_pure ()

/-- The byte of a held bus cycle goes where a byte is written in any case. -/
theorem records_operateAndWrite (writeback : Encoding.Writeback)
    (hbyte : writeback = .testAndSet → size = .byte) :
    (operateAndWrite mode register size writeback).Records ()
      [Encoding.operateAndWrite mode register size writeback] := by
  cases writeback with
  | store => cases mode <;> cases size <;> exact records_opAt rfl _ _
  | discard => exact records_perform rfl
  | testAndSet =>
    cases hbyte rfl
    cases mode <;> exact records_opAt rfl _ _

theorem records_readModifyWrite (writeback : Encoding.Writeback)
    (hbyte : writeback = .testAndSet → size = .byte) :
    (readModifyWrite mode register size writeback).Records ()
      (Encoding.readModifyWrite mode register size writeback) := by
  rw [Encoding.readModifyWrite, List.append_assoc]
  exact (records_readMemory mode register size .destination .dst).andThen
    ((records_operateAndWrite mode register size writeback hbyte).andThen
      (records_stepPast mode register size .dst))

end M68k.Decoding
