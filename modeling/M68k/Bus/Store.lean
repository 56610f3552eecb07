import M68k.Bus.Pattern
import Std.Data.HashMap

/-!
# The program store

All bus programs are kept end to end in one array of steps, and a program is known by the offset of
its first step. A program that already occurs, perhaps at the end of a longer one, is not stored
again. The store only grows, at its end.

## Main definitions

* `ProgramStore`: the steps, with an index of the programs placed so far
* `Placement`: a way to put a program into a store
* `ProgramStore.place`: share or append a program
* `ProgramStore.append`: append a program in any case
* `ProgramKey`: a pattern with what it is bound to
* `ProgramStore.assemble`, `ProgramStore.assembleFresh`: the same for a pattern
* `ProgramStore.patch`: change a program that has just been appended
* `programAt`: the program at an offset
-/

namespace M68k

/-- The program at `offset`: the steps from there up to the first sentinel. -/
def programAt (steps : Array BusStep) (offset : Nat) : List BusStep :=
  let rest := steps.toList.drop offset
  let body := rest.takeWhile (!·.isTerminal)
  body ++ (rest.drop body.length).take 1

/-- The offset at which `run` first occurs in `steps`. -/
def firstOccurrence? (run : List BusStep) : List BusStep → Option Nat
  | [] => if run.isEmpty then some 0 else none
  | step :: steps =>
    if run.isPrefixOf (step :: steps) then some 0
    else (firstOccurrence? run steps).map (· + 1)

/-- A pattern with the addresses that are bound to its tokens and the width of its transfers. -/
structure ProgramKey where
  pattern : String
  addresses : List AddressSource
  width : Width
deriving DecidableEq, Repr, Hashable

/-- The program that a pattern stands for. -/
def ProgramKey.parse (key : ProgramKey) : Except PatternError (List BusStep) :=
  parsePattern key.pattern key.addresses key.width

/-- Bus programs, stored end to end. -/
structure ProgramStore where
  steps : Array BusStep
  /-- Where the programs placed so far are, so that repeats need no search. -/
  placed : Std.HashMap (List BusStep) Nat
  /-- Where the patterns assembled so far are, so that repeats are not even parsed. -/
  assembled : Std.HashMap ProgramKey Nat

/-- A way to put a program into a store, with the offset at which it can be found afterwards. -/
abbrev Placement := ProgramStore → List BusStep → Nat × ProgramStore

namespace ProgramStore

/-- The store without programs. -/
def empty : ProgramStore := ⟨#[], ∅, ∅⟩

/-- The number of steps stored. -/
def size (store : ProgramStore) : Nat := store.steps.size

/-- Store `program` at the end, and give its offset. -/
def append : Placement := fun store program =>
  (store.size, { store with steps := store.steps ++ program })

/-- The offset of `program`, which is stored at the end unless it already occurs. -/
def place : Placement := fun store program =>
  match store.placed[program]? with
  | some offset => (offset, store)
  | none =>
    let (offset, store) :=
      match firstOccurrence? program store.steps.toList with
      | some offset => (offset, store)
      | none => store.append program
    (offset, { store with placed := store.placed.insert program offset })

/-- Place the program of a pattern, unless the pattern is known. -/
def assemble (store : ProgramStore) (pattern : String) (addresses : List AddressSource)
    (width : Width) : Except PatternError (Nat × ProgramStore) :=
  let key : ProgramKey := ⟨pattern, addresses, width⟩
  match store.assembled[key]? with
  | some offset => .ok (offset, store)
  | none =>
    key.parse.map fun program =>
      let (offset, store) := store.place program
      (offset, { store with assembled := store.assembled.insert key offset })

/-- Append the program of a pattern, even if it already occurs. -/
def assembleFresh (store : ProgramStore) (pattern : String) (addresses : List AddressSource)
    (width : Width) : Except PatternError (Nat × ProgramStore) :=
  (parsePattern pattern addresses width).map store.append

/-- Change steps of the program at `offset`, each known by its number in the program. -/
def patch (store : ProgramStore) (offset : Nat) (patches : List (Nat × (BusStep → BusStep))) :
    ProgramStore :=
  { store with
    steps := patches.foldl (fun steps (number, change) => steps.modify (offset + number) change)
      store.steps }

/-- The program at `offset`. -/
def program (store : ProgramStore) (offset : Nat) : List BusStep := programAt store.steps offset

end ProgramStore

end M68k
