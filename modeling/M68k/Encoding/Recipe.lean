import M68k.Bus.Activity
import M68k.Instruction

/-!
# Recipes

A recipe says all there is to say about an opcode: the instruction it stands for, and the stages in
which the processor carries it out. Each stage fires an action and then has some bus activity, which
may be none.

## Main definitions

* `Stage`: an action with the bus activity that follows it
* `Recipe`: an instruction with its stages
* `upperRegister`, `lowerRegister`, `sizeField?`: the usual fields of an opcode
-/

namespace M68k

/-- An action with the bus activity that follows it. -/
structure Stage where
  action : Action
  target : Target
  activity : Activity
deriving DecidableEq, Repr

namespace Stage

/-- A stage with bus activity only. -/
def bus (activity : Activity) : Stage := ⟨.none, .nowhere, activity⟩

/-- A stage without bus activity. -/
def act (action : Action) (target : Target) : Stage := ⟨action, target, []⟩

/-- The stage that carries out the operation. -/
def perform (activity : Activity) : Stage := ⟨.operate, .nowhere, activity⟩

end Stage

/-- An instruction with the stages in which it is carried out. -/
structure Recipe where
  instruction : Instruction
  stages : List Stage
deriving DecidableEq, Repr

namespace Encoding

/-- The register field in bits 9 to 11. -/
def upperRegister (opcode : Word) : RegisterNumber :=
  .ofField (opcode.toNat / 512)

/-- The register field in bits 0 to 2. -/
def lowerRegister (opcode : Word) : RegisterNumber := .ofField opcode.toNat

/-- The usual size field in bits 6 and 7. -/
def sizeField? (opcode : Word) : Option Size := Size.ofField? (opcode >>> 6)

end Encoding

end M68k
