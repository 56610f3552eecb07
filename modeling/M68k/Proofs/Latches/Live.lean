import M68k.Processor.Basic
import M68k.Proofs.Encoding.Shape
import M68k.Proofs.Latches.Discreet

/-!
# Live latches

Between two instructions nothing that the programmer cannot see should matter. A latch is live where
its content may still get out before something else is put into it. What is live is worked out
backwards: from what is live behind a bus step, an action or an operation follows what is live in
front of it. A data latch is live bit by bit, as bytes and words only fill a part of it.

## Main definitions

* `Live`: what may still get out
* `BusStep.liveBefore`, `Activity.liveBefore`: bus steps
* `Live.beforePrepare`, `Live.beforeOperate`: actions
* `Stage.liveBefore`: the stages of an instruction
* `Recipe.Dead`: nothing is live when the instruction starts
-/

namespace M68k

namespace Target

/-- The side is selected. -/
def has (target : Target) : Side → Bool
  | .source => target.source
  | .destination => target.destination

/-- Select a side, or do so no longer. -/
def put (target : Target) (side : Side) (selected : Bool) : Target :=
  match side with
  | .source => { target with source := selected }
  | .destination => { target with destination := selected }

@[simp] theorem has_put_self (target : Target) (side : Side) (selected : Bool) :
    (target.put side selected).has side = selected := by
  cases side <;> rfl

theorem has_put_of_ne (target : Target) {side other : Side} (selected : Bool)
    (h : other ≠ side) : (target.put side selected).has other = target.has other := by
  cases side <;> cases other <;> simp_all [has, put]

end Target

/-- What may still get out of the latches of a processor. -/
structure Live where
  /-- The live bits of the data latches. -/
  data : Latches
  /-- The sides whose effective-address latches are live. -/
  address : Target
  frame : Bool
  expiredTarget : Bool
  transfer : Bool
  /-- The level being acknowledged, and the vector number. -/
  acknowledge : Bool
deriving DecidableEq

namespace Live

/-- Nothing is live. -/
def nothing : Live where
  data := .zero
  address := .nowhere
  frame := false
  expiredTarget := false
  transfer := false
  acknowledge := false

variable (live : Live)

/-- Some bits of a data latch get out. -/
def useData (side : Side) (bits : Long) : Live :=
  { live with data := live.data.set side (live.data.get side ||| bits) }

/-- Some bits of a data latch are overwritten. -/
def fillData (side : Side) (bits : Long) : Live :=
  { live with data := live.data.set side (live.data.get side &&& ~~~bits) }

@[simp] theorem useData_zero (side : Side) : live.useData side 0 = live := by
  cases side <;> simp [useData, Latches.set, Latches.get]

/-- An effective-address latch gets out. -/
def useAddress (side : Side) : Live := { live with address := live.address.put side true }

/-- An effective-address latch is overwritten. -/
def fillAddress (side : Side) : Live := { live with address := live.address.put side false }

/-! ## Bus steps -/

/-- In front of the address of a step. -/
def beforeAddress : AddressSource → Live
  | .effectiveAddress number => live.useAddress (.ofNumber number)
  | .frame _ => { live with frame := true }
  | .expiredTarget => { live with expiredTarget := true }
  | .listTransfer => { live with transfer := true }
  | .acknowledge => { live with acknowledge := true }
  | .none | .programCounter | .addressRegister _ => live

/-- In front of a word of which some bits are shown to the machine. -/
def beforeLoad (slot : DataSlot) (bits : Word) : Live :=
  match slot with
  | .latch side half => live.useData side (half.set 0 bits)
  | .listWord => { live with transfer := true }
  | .interruptVector => { live with acknowledge := true }
  | .none | .prefetch | .stackPointer _ | .programCounter _ => live

/-- The bits of a word that a read replaces. -/
def readBits (byte : Bool) : Word := if byte then 0x00FF else 0xFFFF

/-- In front of a read. Which register a word of a list goes into is settled by the transfer. -/
def beforeStore (slot : DataSlot) (byte : Bool) : Live :=
  match slot with
  | .latch side half => live.fillData side (half.set 0 (readBits byte))
  | .listWord => { live with transfer := true }
  | .none | .prefetch | .stackPointer _ | .programCounter _ | .interruptVector => live

/-- In front of a step action. -/
def beforeStepAction : StepAction → Live
  | .vectorFromAcknowledge => { live.fillAddress .source with acknowledge := true }
  | _ => live

end Live

/-- What is live in front of a bus step. -/
def BusStep.liveBefore (step : BusStep) (live : Live) : Live :=
  let moved := live.beforeStepAction step.action
  let read :=
    if step.signals.isRead then moved.beforeStore step.slot step.signals.selectByte else moved
  (read.beforeLoad step.slot step.signals.shown).beforeAddress step.address

/-- What is live in front of an activity. -/
def Activity.liveBefore (activity : Activity) (live : Live) : Live :=
  activity.foldr BusStep.liveBefore live

namespace Activity

@[simp] theorem liveBefore_nil (live : Live) : liveBefore [] live = live := rfl

@[simp] theorem liveBefore_cons (step : BusStep) (activity : Activity) (live : Live) :
    liveBefore (step :: activity) live = step.liveBefore (activity.liveBefore live) := rfl

@[simp] theorem liveBefore_append (first second : Activity) (live : Live) :
    liveBefore (first ++ second) live = first.liveBefore (second.liveBefore live) :=
  List.foldr_append

end Activity

/-! ## Actions -/

namespace Live

variable (live : Live)

/-- In front of an action other than the operation. -/
def beforePrepare (action : Action) (target : Target) : Live :=
  match action with
  | .address _ => target.sides.foldr (fun side live => live.fillAddress side) live
  | .immediate | .longImmediate | .latchList =>
    target.sides.foldr (fun side live => live.fillData side (.allOnes 32)) live
  | .pushJumpReturn | .pushBranchReturn =>
    (live.fillData .destination (.allOnes 32)).fillAddress .destination
  | .popReturn => live.fillAddress .source
  | .locateFrame => { live with frame := false }
  | .finishList _ => { live with transfer := true }
  | .none | .operate | .increment _ | .decrement _ => live

end Live

namespace Operation

/-- The size at which an operation stores into its destination, if it does. -/
def stores (operation : Operation) (size : Size) : Option Size :=
  match operation with
  | abcd | sbcd | scc | tas => some .byte
  | add | sub | bitwise _ | move | bit .change | bit .clear | bit .set | clr | neg | negx | not
  | ext | shift _ => some size
  | moveFromSr => some .word
  | adda | suba | movea | moveq | moveFromUsp | lea | swap | exg | mulu | muls => some .long
  | _ => none

/-- The bits of the source that an operation looks at, when some bits of its result are wanted. -/
def usesSource (operation : Operation) (size : Size) (wanted : Long) : Long :=
  match operation with
  | abcd | sbcd => 0xFF
  | add | sub | cmp | adda | suba | movea | cmpa => size.mask
  | bitwise _ | move => wanted
  | moveToCcr | moveToSr | rtr | rte | bitwiseToCcr _ | bitwiseToSr _ | mulu | muls => 0xFFFF
  | moveToUsp | jmp | jsr | rts | lea | bit _ | exg | shift _ => .allOnes 32
  | _ => 0

/-- The bits of the destination that an operation looks at, in the same way. -/
def usesDestination (operation : Operation) (size : Size) (wanted : Long) : Long :=
  match operation with
  | abcd | sbcd => 0xFF
  | add | sub | cmp | neg | negx | tst | shift _ => size.mask
  | bitwise _ | not | tas | bit _ => wanted
  | mulu | muls => 0xFFFF
  | adda | suba | cmpa | swap | ext | exg => .allOnes 32
  | _ => 0

end Operation

namespace Live

variable (live : Live)

/-- In front of a look at some bits of an operand. -/
def use (operand : Operand) (bits : Long) : Live :=
  match operand with
  | .sourceLatch => live.useData .source bits
  | .destinationLatch => live.useData .destination bits
  | .effectiveAddress side => live.useAddress side
  | .none | .dataRegister _ | .addressRegister _ | .prefetch | .quick => live

/-- In front of a result for an operand. -/
def fill : Operand → Live
  | .sourceLatch => live.fillData .source (.allOnes 32)
  | .destinationLatch => live.fillData .destination (.allOnes 32)
  | _ => live

/-- The bits of a result that have to be right. Those of its size always matter, for the condition
codes. -/
def wanted (operand : Operand) (size : Size) : Long :=
  size.mask |||
    match operand with
    | .addressRegister _ => .allOnes 32
    | .sourceLatch => live.data.source
    | .destinationLatch => live.data.destination
    | _ => 0

/-- The bits of its result that an instruction has to get right. -/
def wantedBy (instruction : Instruction) : Long :=
  live.wanted instruction.destination
    ((instruction.operation.stores instruction.size).getD instruction.size)

/-- In front of the result of an instruction, if there is one. -/
def filledBy (instruction : Instruction) : Live :=
  if (instruction.operation.stores instruction.size).isSome then
    live.fill instruction.destination
  else live

/-- In front of an operation that chooses no bus program. -/
def beforeCompute (instruction : Instruction) : Live :=
  let wanted := live.wantedBy instruction
  ((live.filledBy instruction).use instruction.destination
    (instruction.operation.usesDestination instruction.size wanted)).use instruction.source
      (instruction.operation.usesSource instruction.size wanted)

/-- In front of an operation. One that redirects is followed by a program of its own, and a trap by
an exception, which fills all that it needs. -/
def beforeOperate (instruction : Instruction) : Live :=
  match instruction.operation with
  | .bcc | .bsr | .dbcc => live
  | .movem _ => ({ live with transfer := false }.useData .source 0xFFFF).useAddress .destination
  | .trap => nothing
  | _ => live.beforeCompute instruction

theorem beforeOperate_of_plain {instruction : Instruction}
    (h : instruction.operation.redirects = false) :
    live.beforeOperate instruction = live.beforeCompute instruction := by
  unfold beforeOperate
  split <;> simp_all [Operation.redirects]

/-- In front of an action. -/
def beforeAct (instruction : Instruction) (action : Action) (target : Target) : Live :=
  match action with
  | .operate => live.beforeOperate instruction
  | action => live.beforePrepare action target

end Live

namespace Stage

variable (instruction : Instruction)

/-- What is live in front of a stage. -/
def before (stage : Stage) (live : Live) : Live :=
  (stage.activity.liveBefore live).beforeAct instruction stage.action stage.target

/-- What is live in front of stages, behind which nothing is. -/
def liveBefore (stages : List Stage) : Live := stages.foldr (before instruction) .nothing

@[simp] theorem liveBefore_nil : liveBefore instruction [] = .nothing := rfl

@[simp] theorem liveBefore_cons (stage : Stage) (stages : List Stage) :
    liveBefore instruction (stage :: stages) =
      stage.before instruction (liveBefore instruction stages) := rfl

theorem liveBefore_append (first second : List Stage) :
    liveBefore instruction (first ++ second) =
      first.foldr (before instruction) (liveBefore instruction second) :=
  List.foldr_append

end Stage

/-- Of the latches nothing is live when the instruction starts. -/
def Recipe.Dead (recipe : Recipe) : Prop :=
  Stage.liveBefore recipe.instruction recipe.stages = .nothing

end M68k
