import M68k.Bus.Store
import M68k.Encoding.ProgramControl

/-!
# Fixed programs

Bus programs that belong to no single opcode: those that branches, loops and register-list transfers
switch to once they know how they turn out, and the sequences of reset, exceptions and interrupts.

## Main definitions

* `FixedPrograms`: the offsets of these programs
* `FixedPrograms.place`: put them into a store
* `FixedPrograms.listEntry`: where a register-list transfer of some length begins
-/

namespace M68k

/-- Offsets of the programs that are chosen at run time. -/
structure FixedPrograms where
  /-- No step at all. -/
  empty : Nat
  reset : Nat
  branchTaken : Nat
  /-- A branch that falls through, with its displacement in the opcode. -/
  branchByteNotTaken : Nat
  /-- A branch that falls through, with its displacement in the word that follows. -/
  branchWordNotTaken : Nat
  /-- A branch to a subroutine, once the return address has been written. -/
  subroutine : Nat
  /-- A counted loop left because its condition holds. -/
  loopLeft : Nat
  /-- A counted loop left because its counter has run out. -/
  loopExpired : Nat
  loopTaken : Nat
  /-- Word reads of a register-list transfer, entered part-way along. -/
  listRead : Nat
  /-- Word writes of a register-list transfer, entered part-way along. -/
  listWrite : Nat
  exception : Nat
  interrupt : Nat
  /-- Pops the frame of an exception. -/
  popFrame : Nat
deriving DecidableEq, Repr

namespace FixedPrograms

/-- The room that the register-list programs have: sixteen long registers take half of it. -/
def maxListWords : Nat := 64

/-- The entry into a register-list program that transfers `words` words. -/
def listEntry (program words : Nat) : Nat := program + (maxListWords - words) * 2

/-- Idle times, then the initial stack pointer, the initial program counter and a full prefetch
queue. -/
def resetActivity : Activity :=
  .idle 4 ++ .idle 4 ++ .idle 4 ++ .idle 4 ++ .idle 4 ++ .idle 8 ++ .fetchStackPointer .high ++
    .fetchStackPointer .low ++ .fetchVector .high ++ .fetchVector .low ++ .fetch ++ .fetch

/-- The stray read of a counted loop that has run out: it looks like a program fetch from the branch
target, but the word is dropped. -/
def expiredLoopRead : Activity :=
  .transfer true true .word .expiredTarget (.latch .source .low) .none

/-- `count` transfers of the words of a register list. -/
def listTransfers (read : Bool) (count : Nat) : Activity :=
  let transfer := Activity.transfer read false .word .listTransfer .listWord .advanceList
  (List.replicate count transfer).flatten

/-- Write a half of the program counter into an exception frame. -/
def pushCounter (half : Half) (slot : FrameSlot) : Activity :=
  .transfer false false .word (.ofSlot slot) (.programCounter half) .none

/-- Write the status register, kept in the destination latch, into an exception frame. -/
def pushStatus : Activity := .write .low none .word (.ofSlot .second)

/-- Load the program counter from the vector, and refill the prefetch queue. -/
def enterHandler : Activity :=
  .fetchVector .high ++ .fetchVector .low ++ .fetch ++ .idle 4 ++ .fetch

/-- The frame goes out as program counter low, status, program counter high. -/
def exceptionActivity : Activity :=
  .idle 8 ++ pushCounter .low .first ++ pushStatus ++ pushCounter .high .third ++ enterHandler

/-- An interrupt is acknowledged after the first word of its frame has gone out. -/
def interruptActivity : Activity :=
  .idle 8 ++ .idle 4 ++ pushCounter .low .first ++ .interruptAcknowledge ++ .idle 4 ++ pushStatus ++
    pushCounter .high .third ++ enterHandler

/-- Put the fixed programs into a store, each by `place`. -/
def place (place : Placement) (store : ProgramStore) : FixedPrograms × ProgramStore :=
  let (empty, store) := place store (Activity.toProgram [])
  let (reset, store) := place store resetActivity.toProgram
  let (taken, store) := place store (Activity.toProgram (.idle 4 ++ .fetch ++ .fetch))
  let (byteNotTaken, store) := place store (Activity.toProgram (.idle 8 ++ .fetch))
  let (wordNotTaken, store) := place store (Activity.toProgram (.idle 8 ++ .fetch ++ .fetch))
  let (refill, store) := place store (Activity.toProgram (.fetch ++ .fetch))
  let (expired, store) := place store
    (Activity.toProgram (.idle 4 ++ expiredLoopRead ++ .fetch ++ .fetch))
  let (listRead, store) := place store (listTransfers true (maxListWords + 1)).toProgram
  let (listWrite, store) := place store (listTransfers false maxListWords).toProgram
  let (exception, store) := place store exceptionActivity.toProgram
  let (interrupt, store) := place store interruptActivity.toProgram
  let (pop, store) := place store Encoding.popFrame.toProgram
  ({ empty := empty
     reset := reset
     branchTaken := taken
     branchByteNotTaken := byteNotTaken
     branchWordNotTaken := wordNotTaken
     subroutine := refill
     loopLeft := wordNotTaken
     loopExpired := expired
     loopTaken := taken
     listRead := listRead
     listWrite := listWrite
     exception := exception
     interrupt := interrupt
     popFrame := pop },
    store)

end FixedPrograms

end M68k
