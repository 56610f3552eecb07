import M68k.Encoding.DataMovement
import M68k.Encoding.IntegerArithmetic
import M68k.Encoding.Logical
import M68k.Encoding.ProgramControl

/-!
# Opcode forms

The opcodes fall into forms. The opcodes of a form agree in the bits of a mask, and an encoding
tells which of them are legal and gives their recipes. Forms are listed in a fixed order, and an
opcode belongs to the first form that accepts it. An opcode that no form accepts is illegal.

## Main definitions

* `Form`: fixed bits and an encoding
* `forms`: all forms
* `decode?`: the recipe of an opcode
* `Overlap`, `overlap?`: an opcode that two forms accept
-/

namespace M68k

/-- A family of opcodes that share fixed bits. -/
structure Form where
  mask : Word
  value : Word
  encoding : Word → Option Recipe

/-- The recipe of an opcode that belongs to the form. -/
def Form.decode? (form : Form) (opcode : Word) : Option Recipe :=
  if opcode &&& form.mask = form.value then form.encoding opcode else none

open Encoding in
/-- The forms of the instruction set. -/
def forms : List Form :=
  [ ⟨0xF1F0, 0xC100, packedDecimal .abcd⟩,
    ⟨0xF1F0, 0x8100, packedDecimal .sbcd⟩,
    -- bitwise operations
    ⟨0xF000, 0xC000, logical .and⟩,
    ⟨0xF000, 0x8000, logical .or⟩,
    ⟨0xF000, 0xB000, logical .eor⟩,
    -- immediates
    ⟨0xFF00, 0x0600, immediate .add⟩,
    ⟨0xFF00, 0x0200, immediate (.bitwise .and)⟩,
    ⟨0xFF00, 0x0000, immediate (.bitwise .or)⟩,
    ⟨0xFF00, 0x0A00, immediate (.bitwise .eor)⟩,
    ⟨0xFF00, 0x0400, immediate .sub⟩,
    ⟨0xFF00, 0x0C00, compareImmediate⟩,
    ⟨0xFFFF, 0x027C, immediateToSr .and⟩,
    ⟨0xFFFF, 0x023C, immediateToCcr .and⟩,
    ⟨0xFFFF, 0x0A7C, immediateToSr .eor⟩,
    ⟨0xFFFF, 0x0A3C, immediateToCcr .eor⟩,
    ⟨0xFFFF, 0x007C, immediateToSr .or⟩,
    ⟨0xFFFF, 0x003C, immediateToCcr .or⟩,
    -- moves
    ⟨0xF000, 0x1000, move⟩,
    ⟨0xF000, 0x3000, move⟩,
    ⟨0xF000, 0x2000, move⟩,
    ⟨0xFFC0, 0x46C0, moveToStatus .moveToSr⟩,
    ⟨0xFFC0, 0x44C0, moveToStatus .moveToCcr⟩,
    ⟨0xFFC0, 0x40C0, moveFromStatus⟩,
    ⟨0xF100, 0x7000, moveQuick⟩,
    ⟨0xFFF0, 0x4E60, moveUserStack⟩,
    ⟨0xFF80, 0x4880, moveRegisters .toMemory⟩,
    ⟨0xFF80, 0x4C80, moveRegisters .toRegisters⟩,
    -- comparisons
    ⟨0xF100, 0xB000, compareRegister⟩,
    ⟨0xF0C0, 0xB0C0, compareAddress⟩,
    ⟨0xF138, 0xB108, compareMemory⟩,
    -- program control
    ⟨0xF000, 0x6000, branch⟩,
    ⟨0xF0C0, 0x50C0, setOrLoop⟩,
    ⟨0xFFC0, 0x4EC0, jump⟩,
    ⟨0xFFC0, 0x4E80, jumpToSubroutine⟩,
    ⟨0xFFFF, 0x4E75, returnFromSubroutine⟩,
    ⟨0xFFFF, 0x4E73, returnFromException .rte⟩,
    ⟨0xFFFF, 0x4E77, returnFromException .rtr⟩,
    ⟨0xFFF0, 0x4E40, trap⟩,
    ⟨0xFFFF, 0x4E71, noOperation⟩,
    ⟨0xFFFF, 0x4E70, resetDevices⟩,
    ⟨0xF1C0, 0x41C0, loadAddress⟩,
    -- additions and subtractions
    ⟨0xF000, 0x9000, addSub .sub⟩,
    ⟨0xF000, 0xD000, addSub .add⟩,
    ⟨0xF0C0, 0xD0C0, addressAddSub .adda⟩,
    ⟨0xF0C0, 0x90C0, addressAddSub .suba⟩,
    ⟨0xF100, 0x5000, quickAddSub .add⟩,
    ⟨0xF100, 0x5100, quickAddSub .sub⟩,
    -- single bits
    ⟨0xF1C0, 0x0100, bitInRegister .test⟩,
    ⟨0xFFC0, 0x0800, bitInWord .test⟩,
    ⟨0xF1C0, 0x0180, bitInRegister .clear⟩,
    ⟨0xFFC0, 0x0880, bitInWord .clear⟩,
    ⟨0xF1C0, 0x0140, bitInRegister .change⟩,
    ⟨0xFFC0, 0x0840, bitInWord .change⟩,
    ⟨0xF1C0, 0x01C0, bitInRegister .set⟩,
    ⟨0xFFC0, 0x08C0, bitInWord .set⟩,
    -- single operands
    ⟨0xFF00, 0x4200, singleOperand .clr⟩,
    ⟨0xFF00, 0x4400, singleOperand .neg⟩,
    ⟨0xFF00, 0x4000, singleOperand .negx⟩,
    ⟨0xFF00, 0x4600, singleOperand .not⟩,
    ⟨0xFF00, 0x4A00, test⟩,
    ⟨0xFFC0, 0x4AC0, testAndSet⟩,
    -- shifts and rotates
    ⟨0xF118, 0xE100, shiftRegister .asl⟩,
    ⟨0xF118, 0xE000, shiftRegister .asr⟩,
    ⟨0xF118, 0xE108, shiftRegister .lsl⟩,
    ⟨0xF118, 0xE008, shiftRegister .lsr⟩,
    ⟨0xF118, 0xE118, shiftRegister .rol⟩,
    ⟨0xF118, 0xE018, shiftRegister .ror⟩,
    ⟨0xF118, 0xE110, shiftRegister .roxl⟩,
    ⟨0xF118, 0xE010, shiftRegister .roxr⟩,
    ⟨0xFFC0, 0xE1C0, shiftMemory .asl⟩,
    ⟨0xFFC0, 0xE0C0, shiftMemory .asr⟩,
    ⟨0xFFC0, 0xE3C0, shiftMemory .lsl⟩,
    ⟨0xFFC0, 0xE2C0, shiftMemory .lsr⟩,
    ⟨0xFFC0, 0xE7C0, shiftMemory .rol⟩,
    ⟨0xFFC0, 0xE6C0, shiftMemory .ror⟩,
    ⟨0xFFC0, 0xE5C0, shiftMemory .roxl⟩,
    ⟨0xFFC0, 0xE4C0, shiftMemory .roxr⟩,
    -- multiplications, exchanges and extensions
    ⟨0xF1C0, 0xC0C0, multiply .mulu⟩,
    ⟨0xF1C0, 0xC1C0, multiply .muls⟩,
    ⟨0xF1F8, 0xC140, exchange⟩,
    ⟨0xF1F8, 0xC148, exchange⟩,
    ⟨0xF1F8, 0xC188, exchange⟩,
    ⟨0xFFF8, 0x4840, swapHalves⟩,
    ⟨0xFFB8, 0x4880, extendSign⟩ ]

/-- The recipe of an opcode: that of the first form that accepts it. -/
def decode? (forms : List Form) (opcode : Word) : Option Recipe :=
  forms.findSome? (·.decode? opcode)

/-- An opcode that two forms accept. -/
structure Overlap where
  opcode : Word
  first : Operation
  second : Operation
deriving DecidableEq, Repr

namespace Overlap

/-- The wording of an overlap. -/
def message (overlap : Overlap) : String :=
  "opcode 0x" ++ hexDigits 4 overlap.opcode.toNat ++ " decodes as both " ++ overlap.first.name ++
    " and " ++ overlap.second.name

/-- The overlap at an opcode, if two forms accept it. -/
def at? (forms : List Form) (opcode : Word) : Option Overlap :=
  match forms.filterMap (·.decode? opcode) with
  | first :: second :: _ =>
    some ⟨opcode, first.instruction.operation, second.instruction.operation⟩
  | _ => none

end Overlap

/-- The first opcode that two forms accept, if there is one. -/
def overlap? (forms : List Form) : Option Overlap :=
  (List.range 0x10000).findSome? fun n => Overlap.at? forms (BitVec.ofNat 16 n)

end M68k
