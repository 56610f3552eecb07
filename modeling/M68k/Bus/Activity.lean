import M68k.Bus.Step

/-!
# Bus activities

The pieces that bus programs are made of: idle times, program fetches, and transfers of words and
bytes. A transfer is two steps, five half-cycles with the address strobed and three with the data
selected. A program is an activity followed by the sentinel.

## Main definitions

* `Activity`: bus steps in a row, without an end
* `Activity.fetch`, `Activity.read`, `Activity.write`: the transfers
* `Activity.toProgram`: the activity as a whole program
-/

namespace M68k

/-- Bus steps in a row. -/
abbrev Activity := List BusStep

/-- How an effective-address latch moves past the word just transferred. -/
inductive Adjustment
  | increment
  | decrement
deriving DecidableEq, Repr

/-- The step action that adjusts the effective address of a side. -/
def Adjustment.action (side : Side) : Option Adjustment → StepAction
  | none => .none
  | some .increment => .incrementEffectiveAddress side
  | some .decrement => .decrementEffectiveAddress side

namespace Activity

/-- No bus activity for `duration`. -/
def idle (duration : HalfCycles) : Activity := [⟨.fixed duration, .idle, .none, .none, .none⟩]

/-- No bus activity, for as long as the operation asks. -/
def flexible : Activity := [⟨.flexible, .idle, .none, .none, .none⟩]

/-- The two halves of a data transfer; `action` follows the second. -/
def transfer (read isProgram : Bool) (width : Width) (address : AddressSource) (slot : DataSlot)
    (action : StepAction) : Activity :=
  [{ length := .fixed 5
     signals := { newAddress := true, read := read, isProgram := isProgram }
     address := address
     slot := slot
     action := .none },
   { length := .fixed 3
     signals :=
       { sameAddress := true, read := read, isProgram := isProgram
         selectByte := width == .byte, selectWord := width == .word }
     address := address
     slot := slot
     action := action }]

/-- Fetch the next program word into the prefetch queue, whose low word moves up first. -/
def fetch : Activity :=
  [{ length := .fixed 5
     signals := { newAddress := true, read := true, isProgram := true }
     address := .programCounter
     slot := .prefetch
     action := .advancePrefetch },
   { length := .fixed 3
     signals := { sameAddress := true, read := true, selectWord := true, isProgram := true }
     address := .programCounter
     slot := .prefetch
     action := .incrementProgramCounter }]

/-- Read half of the stack pointer from the vector that the source address points at. -/
def fetchStackPointer (half : Half) : Activity :=
  transfer true true .word (.ofSide .source) (.stackPointer half)
    (.incrementEffectiveAddress .source)

/-- Read half of the program counter from the vector that the source address points at. -/
def fetchVector (half : Half) : Activity :=
  transfer true true .word (.ofSide .source) (.programCounter half)
    (.incrementEffectiveAddress .source)

/-- Read half of a side's data latch. -/
def read (side : Side) (half : Half) (adjustment : Option Adjustment) (width : Width)
    (address : AddressSource) : Activity :=
  transfer true false width address (.latch side half) (Adjustment.action side adjustment)

/-- Write half of the destination data latch. -/
def write (half : Half) (adjustment : Option Adjustment) (width : Width)
    (address : AddressSource) : Activity :=
  transfer false false width address (.latch .destination half)
    (Adjustment.action .destination adjustment)

/-- Write half of the destination data latch at the destination address, which then drops. -/
def stackWrite (half : Half) : Activity :=
  transfer false false .word (.ofSide .destination) (.latch .destination half)
    (.decrementEffectiveAddress .destination)

/-- Read half of the source data latch at the source address, which then rises. -/
def stackRead (half : Half) : Activity :=
  transfer true false .word (.ofSide .source) (.latch .source half)
    (.incrementEffectiveAddress .source)

/-- Hold the reset output. -/
def resetHold : Activity := [⟨.fixed 248, { reset := true }, .none, .none, .none⟩]

/-- Hold the address of the byte just read, then write it back. -/
def testAndSet (address : AddressSource) : Activity :=
  [{ length := .fixed 9
     signals := { sameAddress := true }
     address := address
     slot := .latch .destination .low
     action := .none },
   { length := .fixed 3
     signals := { sameAddress := true, selectByte := true }
     address := address
     slot := .latch .destination .low
     action := .none }]

/-- Acknowledge an interrupt, then point the source address at the vector in the answer. -/
def interruptAcknowledge : Activity :=
  (transfer true false .byte .acknowledge .interruptVector .vectorFromAcknowledge).map
    fun step => { step with signals := { step.signals with interruptAcknowledge := true } }

/-- The activity as a whole program. -/
def toProgram (activity : Activity) : List BusStep := activity ++ [.sentinel]

end Activity

end M68k
