import M68k.Encoding.Forms
import M68k.Tables.Fixed

/-!
# Tables

The processor runs on tables made once from the opcode forms: all bus programs end to end, all
chains of micro-operations end to end, and for each of the 65536 opcodes the instruction and the
start of its chain. Opcodes that no form accepts have no entry.

## Main definitions

* `Tables`: the tables, with total look-ups `Tables.step`, `Tables.microOp`, `Tables.entry?`
* `Tables.compileBy`, `Tables.compile`: the tables of a list of forms
* `Tables.build`: the same, refused if two forms accept an opcode and the configuration asks
-/

namespace M68k

/-- Options of a processor. -/
structure Config where
  /-- Refuse to make tables from forms that overlap. -/
  refuseOverlaps : Bool
  /-- Report every bus transfer. -/
  reportTransfers : Bool
deriving DecidableEq, Repr

/-- What the tables know about an opcode. -/
structure TableEntry where
  instruction : Instruction
  /-- Offset of the chain of micro-operations. -/
  start : Nat
deriving DecidableEq, Repr

/-- The tables that the processor runs on. -/
structure Tables where
  steps : Array BusStep
  microOps : Array MicroOp
  entries : Array (Option TableEntry)
  programs : FixedPrograms

namespace Tables

/-- The bus step at an offset. Behind the last one there are only ends. -/
def step (tables : Tables) (offset : Nat) : BusStep := tables.steps.getD offset .sentinel

/-- The micro-operation at an offset. Behind the last one there are only ends. -/
def microOp (tables : Tables) (offset : Nat) : MicroOp := tables.microOps.getD offset .terminal

/-- The entry of an opcode, if it is legal. -/
def entry? (tables : Tables) (opcode : Word) : Option TableEntry :=
  tables.entries.getD opcode.toNat none

/-- The number of legal opcodes. -/
def mapped (tables : Tables) : Nat := tables.entries.countP Option.isSome

/-- The bus program at an offset, up to and including its end. -/
def program (tables : Tables) (offset : Nat) : List BusStep := programAt tables.steps offset

/-- The chain of micro-operations at an offset, up to and including its end. -/
def chain (tables : Tables) (start : Nat) : List MicroOp :=
  let rest := tables.microOps.toList.drop start
  let body := rest.takeWhile (!·.isTerminal)
  body ++ (rest.drop body.length).take 1

/-- Tables in the making. -/
structure Draft where
  store : ProgramStore
  microOps : Array MicroOp
  entries : Array (Option TableEntry)

namespace Draft

/-- Append the micro-operation of a stage. -/
def addStage (place : Placement) (draft : Draft) (stage : Stage) : Draft :=
  let (offset, store) := place draft.store stage.activity.toProgram
  { draft with
    store := store
    microOps := draft.microOps.push ⟨stage.action, stage.target, some offset⟩ }

/-- Append a chain of micro-operations and its end. -/
def addChain (place : Placement) (draft : Draft) (stages : List Stage) : Draft :=
  let draft := stages.foldl (addStage place) draft
  { draft with microOps := draft.microOps.push .terminal }

/-- Append the entry of the next opcode, with its chain if it is legal. -/
def addOpcode (place : Placement) (draft : Draft) : Option Recipe → Draft
  | none => { draft with entries := draft.entries.push none }
  | some recipe =>
    let entry : TableEntry := ⟨recipe.instruction, draft.microOps.size⟩
    { draft with entries := draft.entries.push (some entry) }.addChain place recipe.stages

end Draft

/-- The tables of a list of forms, with every bus program put into the store by `place`. -/
def compileBy (place : Placement) (forms : List Form) : Tables :=
  let (programs, store) := FixedPrograms.place place .empty
  let draft := (List.range 0x10000).foldl
    (fun draft n => draft.addOpcode place (decode? forms (BitVec.ofNat 16 n)))
    (Draft.mk store #[] #[])
  { steps := draft.store.steps, microOps := draft.microOps, entries := draft.entries,
    programs := programs }

/-- The tables of a list of forms, in which opcodes share their bus programs. -/
def compile (forms : List Form) : Tables := compileBy ProgramStore.place forms

/-- The tables of a list of forms, unless the configuration asks for a check and forms overlap. -/
def build (config : Config) (forms : List Form) : Except Overlap Tables :=
  match (if config.refuseOverlaps then overlap? forms else none) with
  | some overlap => .error overlap
  | none => .ok (compile forms)

end Tables

end M68k
