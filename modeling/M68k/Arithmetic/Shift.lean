import M68k.Arithmetic.Binary
import M68k.Operation

/-!
# Shifts and rotates

Every kind has a closed form for any count. A count of zero leaves the operand and X alone; it
clears C, except that the rotates through X copy X there. After a positive count C is the last bit
shifted out, and X follows it for every kind but the plain rotates. V is only ever set by the
arithmetic left shift, when the sign bit changes on the way.

## Main definitions

* `ShiftKind.move`: the bits after a positive count, and the last bit out
* `ShiftKind.apply`: the shift with its condition codes
* `Operation.applyShift`: the same for any operation, of which those outside the family move nothing
-/

namespace M68k

namespace ShiftKind

/-- The kind rotates through the extend bit. -/
def throughExtend : ShiftKind → Bool
  | roxl | roxr => true
  | _ => false

/-- The kind leaves the extend bit alone. -/
def keepsExtend : ShiftKind → Bool
  | rol | ror => true
  | _ => false

/-- The operand `value`, already cut to `size`, after `count > 0` single-bit moves, with the last
bit that left it. `x` is the incoming extend bit. -/
def move (kind : ShiftKind) (value : Long) (count : Nat) (size : Size) (x : Bool) : Long × Bool :=
  let bits := size.bits
  match kind with
  | asl | lsl =>
    let wide := value.setWidth 64 <<< min count (bits + 1)
    (wide.setWidth 32 &&& size.mask, decide (count ≤ bits) && wide.getLsbD bits)
  | lsr =>
    (if count ≥ bits then 0 else value >>> count,
      decide (count ≤ bits) && value.getLsbD (count - 1))
  | asr =>
    let signed := (size.signExtend value).signExtend 64
    let shift := min count bits
    ((signed.sshiftRight shift).setWidth 32 &&& size.mask,
      (signed.sshiftRight (shift - 1)).getLsbD 0)
  | rol =>
    let turn := count % bits
    let result :=
      if turn = 0 then value else (value <<< turn ||| value >>> (bits - turn)) &&& size.mask
    (result, result.getLsbD 0)
  | ror =>
    let turn := count % bits
    let result :=
      if turn = 0 then value else (value >>> turn ||| value <<< (bits - turn)) &&& size.mask
    (result, result &&& size.msb != 0)
  | roxl =>
    let width := bits + 1
    let turn := count % width
    let extended : BitVec 64 := (if x then 1 <<< bits else 0) ||| value.setWidth 64
    let all : BitVec 64 := (1 <<< width) - 1
    let rotated :=
      if turn = 0 then extended else (extended <<< turn ||| extended >>> (width - turn)) &&& all
    (rotated.setWidth 32 &&& size.mask, rotated.getLsbD bits)
  | roxr =>
    let width := bits + 1
    let turn := count % width
    let extended : BitVec 64 := (if x then 1 <<< bits else 0) ||| value.setWidth 64
    let all : BitVec 64 := (1 <<< width) - 1
    let rotated :=
      if turn = 0 then extended else (extended >>> turn ||| extended <<< (width - turn)) &&& all
    (rotated.setWidth 32 &&& size.mask, rotated.getLsbD bits)

/-- The top `count + 1` bits of `value` are not all equal. From one bit less than the width on, the
zeros shifted in take part, and only an operand of equal bits keeps its sign. -/
def signChanges (value : Long) (count : Nat) (size : Size) : Bool :=
  let bits := size.bits
  if count ≥ bits - 1 then
    value &&& size.mask != 0 && value &&& size.mask != size.mask
  else
    let top := (size.mask <<< (bits - count - 1)) &&& size.mask
    value &&& top != 0 && value &&& top != top

/-- The condition codes after a positive count: N and Z from the result, C the last bit out, V as
given, and X following C unless it is kept. -/
def statusAfter (result : Long) (out overflow keepExtend : Bool) (size : Size) (sr : Status) :
    Status :=
  let sr := Status.setNZ sr result size
  let sr := Status.setIf sr Status.carry out
  let sr := Status.setIf sr Status.overflow overflow
  if keepExtend then sr else Status.setIf sr Status.extend out

/-- The condition codes after a count of zero: N and Z from the operand, V cleared, C as given. -/
def statusUnmoved (value : Long) (carry : Bool) (size : Size) (sr : Status) : Status :=
  Status.setIf (Status.setNZ sr value size &&& ~~~Status.overflow) Status.carry carry

/-- Shift or rotate `value` by `count` bits. -/
def apply (kind : ShiftKind) (value : Long) (count : Nat) (size : Size) (sr : Status) : Computed :=
  let value := value &&& size.mask
  let x := Status.has sr Status.extend
  if count = 0 then
    ⟨value, statusUnmoved value (kind.throughExtend && x) size sr⟩
  else
    let moved := kind.move value count size x
    let overflow := kind == asl && signChanges value count size
    ⟨moved.1, statusAfter moved.1 moved.2 overflow kind.keepsExtend size sr⟩

end ShiftKind

/-- The shift an operation performs. Outside the family nothing moves and only zeros leave. -/
def Operation.applyShift (operation : Operation) (value : Long) (count : Nat) (size : Size)
    (sr : Status) : Computed :=
  match operation with
  | .shift kind => kind.apply value count size sr
  | _ =>
    let value := value &&& size.mask
    if count = 0 then ⟨value, ShiftKind.statusUnmoved value false size sr⟩
    else ⟨value, ShiftKind.statusAfter value false false false size sr⟩

end M68k
