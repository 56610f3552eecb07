import M68k.HalfCycles
import M68k.Word

/-!
# The bus

The processor talks to its surroundings one bus step at a time. Each step asserts some signals,
presents an address and a word, and is answered by a word and a wait. Steps that move no data are
offered too, so that a machine can keep its own clocks in step with the processor.

## Main definitions

* `Signals`: the signals of one step, with their numbering and their text
* `Request`, `Reply`, `Bus`: a machine's side of the bus, as an automaton
-/

namespace M68k

/-- Signals asserted during one bus step. A step that selects neither a byte nor a word moves no
data; a selecting step without `read` is a write. -/
structure Signals where
  /-- Strobe of a new address. -/
  newAddress : Bool := false
  /-- The address is held over from the step before. -/
  sameAddress : Bool := false
  read : Bool := false
  /-- A byte travels, in the low byte of the word. -/
  selectByte : Bool := false
  selectWord : Bool := false
  /-- Instruction stream and vectors. -/
  isProgram : Bool := false
  /-- The reset output. -/
  reset : Bool := false
  /-- Interrupt acknowledge; the address carries the level. -/
  interruptAcknowledge : Bool := false
deriving DecidableEq, Repr, Hashable

namespace Signals

/-- No signal at all. -/
def idle : Signals := {}

/-- The step moves data in some direction. -/
def transfersData (signals : Signals) : Bool := signals.selectByte || signals.selectWord

/-- The step moves data to the processor. -/
def isRead (signals : Signals) : Bool := signals.transfersData && signals.read

/-- The step moves data from the processor. -/
def isWrite (signals : Signals) : Bool := signals.transfersData && !signals.read

/-- The signals in the order of their numbers, from bit 0 up. -/
def toList (signals : Signals) : List Bool :=
  [signals.newAddress, signals.sameAddress, signals.read, signals.selectByte, signals.selectWord,
    signals.isProgram, signals.reset, signals.interruptAcknowledge]

/-- The names of the signals in the order of their numbers. -/
def names : List String :=
  ["NEW_ADDRESS", "SAME_ADDRESS", "READ", "SELECT_BYTE", "SELECT_WORD", "IS_PROGRAM", "RESET",
    "INTERRUPT_ACKNOWLEDGE"]

/-- The signals as a number, one bit each. -/
def toNat (signals : Signals) : Nat :=
  signals.toList.foldr (fun signal n => signal.toNat + 2 * n) 0

/-- The signals whose bits are set in `n`. -/
def ofNat (n : Nat) : Signals where
  newAddress := n.testBit 0
  sameAddress := n.testBit 1
  read := n.testBit 2
  selectByte := n.testBit 3
  selectWord := n.testBit 4
  isProgram := n.testBit 5
  reset := n.testBit 6
  interruptAcknowledge := n.testBit 7

@[simp] theorem ofNat_toNat (signals : Signals) : ofNat signals.toNat = signals := by
  rcases signals with ⟨a, b, c, d, e, f, g, h⟩
  revert a b c d e f g h
  decide

/-- The names of the asserted signals, with bars between them, or a zero if there are none. -/
def text (signals : Signals) : String :=
  let asserted := (signals.toList.zip names).filterMap fun p => if p.1 then some p.2 else none
  "BusOperation(" ++ (if asserted.isEmpty then "0x0" else " | ".intercalate asserted) ++ ")"

end Signals

/-- What the processor puts on the bus in one step. -/
structure Request where
  signals : Signals
  address : Long
  /-- The outgoing word of a write; in an interrupt acknowledge the vector number to use if the
  machine supplies none; otherwise the former content of the place that a read will fill. -/
  value : Word
deriving DecidableEq, Repr

/-- What the machine answers. -/
structure Reply where
  /-- The word fetched, with a byte in its low half. Only reads look at it. -/
  value : Word
  /-- Time inserted after the step. -/
  wait : HalfCycles
deriving DecidableEq, Repr

/-- A machine's side of the bus: an automaton that answers requests. -/
abbrev Bus (β : Type) := β → Request → Reply × β

end M68k
