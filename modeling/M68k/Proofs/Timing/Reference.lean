import M68k.Arithmetic.Multiply
import M68k.Proofs.Encoding.Lines
import M68k.Proofs.Execution.Reads
import M68k.Proofs.Flow.Reference

/-!
# Times that depend on data

Most instructions take the same time whatever their operands are. Here are the others, in
half-cycles on a bus without waits: shifts of data registers, multiplications, changes of bits of
data registers, conditional sets of them, branches, loops, and moves of register lists.

## Main definitions

* `ShiftKind.pattern`, `BitKind.pattern`: the bits of the opcode that these instructions fix
* `Reference.shiftTime`, `Reference.multiplyTime`, `Reference.bitTime`, `Reference.listTime`: times
  that grow with a number
* `Reference.setTime`, `Reference.branchTime`, `Reference.loopTime`: times that depend on a
  condition
-/

namespace M68k

/-- The bits that a shift of a data register fixes. -/
def ShiftKind.pattern : ShiftKind → Word
  | asl => 0xE100
  | asr => 0xE000
  | lsl => 0xE108
  | lsr => 0xE008
  | rol => 0xE118
  | ror => 0xE018
  | roxl => 0xE110
  | roxr => 0xE010

/-- The bits that count in an operation on one bit of a data register. In a `static` one the bit
number is in the word after the opcode, in others it is in a data register. -/
def BitKind.mask (static : Bool) : Word := if static then 0xFFF8 else 0xF1F8

/-- The bits that such an operation fixes. -/
def BitKind.pattern (static : Bool) : BitKind → Word
  | test => if static then 0x0800 else 0x0100
  | change => if static then 0x0840 else 0x0140
  | clear => if static then 0x0880 else 0x0180
  | set => if static then 0x08C0 else 0x01C0

namespace Reference

/-- By how many bits a data register is shifted: by a number in the opcode, in which 0 stands for 8,
or by the content of a data register modulo 64. -/
def shiftCount (opcode : Word) (r : Registers) : Nat :=
  if opcode.getLsbD 5 then (r.data (.ofField (opcode.toNat / 512))).toNat % 64
  else if opcode.toNat / 512 % 8 = 0 then 8
  else opcode.toNat / 512 % 8

/-- The time of a shift of a data register: two cycles for each bit. -/
def shiftTime (size : Size) (count : Nat) : HalfCycles :=
  (if size = .long then 16 else 12) + 4 * count

/-- The time it takes to bring in a word operand. -/
def operandTime : AddressMode → HalfCycles
  | .dataRegister | .addressRegister => 0
  | .immediate | .indirect | .postIncrement => 8
  | .preDecrement => 12
  | .displacement | .pcDisplacement | .absoluteShort => 16
  | .index | .pcIndex => 20
  | .absoluteLong => 24

/-- The neighbouring pairs of unequal bits in a word with a zero appended below it. -/
def changes (word : Word) : Nat :=
  let appended := word ++ (0 : BitVec 1)
  (List.range 16).countP fun i => appended.getLsbD (i + 1) != appended.getLsbD i

/-- The bits that a multiplication fixes. -/
def multiplyPattern (signed : Bool) : Word := if signed then 0xC1C0 else 0xC0C0

/-- The time of a multiplication: two cycles for each set bit of the source or, if signs count, for
each of its bits that differs from the one below. -/
def multiplyTime (signed : Bool) (mode : AddressMode) (source : Word) : HalfCycles :=
  76 + 4 * (if signed then changes source else Multiply.setBits source) + operandTime mode

/-- The source of a multiplication that has run: a word of a data register, the word after the
opcode, or the only word of data that has been read. -/
def MultipliesBy {β : Type} (opcode next : Word) (r : Registers) (final : Run β) (source : Word) :
    AddressMode → Prop
  | .dataRegister => source = Half.low.get (r.data (.ofField opcode.toNat))
  | .immediate => source = next
  | _ => final.words = [source]

/-- The time of a conditional set of a data register. -/
def setTime (holds : Bool) : HalfCycles := if holds then 12 else 8

/-- The number of the bit of a data register that an operation is about. -/
def bitNumber (static : Bool) (opcode next : Word) (r : Registers) : Nat :=
  (if static then next.toNat else (r.data (.ofField (opcode.toNat / 512))).toNat) % 32

/-- The time of a change of one bit of a data register. -/
def bitTime (static : Bool) (kind : BitKind) (number : Nat) : HalfCycles :=
  (if kind = .clear then 16 else 12) + (if 16 ≤ number then 4 else 0) + if static then 8 else 0

/-- The time of a branch, unless it is one to a subroutine. -/
def branchTime (opcode : Word) (r : Registers) : HalfCycles :=
  if conditionHolds opcode r then 20 else if shortDisplacement opcode = 0 then 24 else 16

/-- The time of a loop, whose counter runs out when it is zero. -/
def loopTime (opcode : Word) (r : Registers) : HalfCycles :=
  if conditionHolds opcode r then 24
  else if Half.low.get (r.data (.ofField opcode.toNat)) = 0 then 28
  else 20

/-- The time it takes to address the memory of a register list. -/
def listAddressTime : AddressMode → HalfCycles
  | .displacement | .pcDisplacement | .absoluteShort => 8
  | .index | .pcIndex => 12
  | .absoluteLong => 16
  | _ => 0

/-- The time of a move of a register list: four cycles for each word, and for one more that is read
in vain. -/
def listTime (direction : ListDirection) (mode : AddressMode) (words : Nat) : HalfCycles :=
  (match direction with
    | .toMemory => 16
    | .toRegisters => 24) + listAddressTime mode + 8 * words

/-- The words of a register list: one for each bit or, if `s` is set in `0100 1d00 1smm mxxx`,
two. -/
def listLength (opcode list : Word) : Nat :=
  Multiply.setBits list * if opcode.getLsbD 6 then 2 else 1

end Reference

end M68k
