import M68k.Arithmetic.Multiply
import M68k.Arithmetic.PackedDecimal
import M68k.Arithmetic.Shift

/-!
# Guarded arithmetic

A machine word has no difference below zero, and cannot be shifted by its width or more. Arithmetic
that refuses both is defined here beside the arithmetic of the processor. It refuses nothing:
whatever the operands are, each guard holds, and the results are the same.

## Main definitions

* `Guarded.sub?`, `Guarded.shiftLeft?` and its neighbours: single operations with their guards
* `ShiftKind.guarded?`: shifts and rotates with all their guards
* `PackedDecimal.add?`: the decimal sum with its guard

## Main results

* `ShiftKind.guarded?_eq`: shifts and rotates keep to their guards
* `PackedDecimal.add?_eq`: so does the sum of decimal operands
* `Multiply.unsignedCycles_bounds`, `Multiply.signedCycles_bounds`: how long a multiplication takes
-/

namespace M68k

/-! ## Single operations -/

namespace Guarded

variable {w : Nat}

/-- The difference of two numbers, unless it is below zero. -/
def sub? (a b : Nat) : Option Nat := if b ≤ a then some (a - b) else none

/-- Shift left by less than the width. -/
def shiftLeft? (x : BitVec w) (n : Nat) : Option (BitVec w) :=
  if n < w then some (x <<< n) else none

/-- Shift right by less than the width. -/
def shiftRight? (x : BitVec w) (n : Nat) : Option (BitVec w) :=
  if n < w then some (x >>> n) else none

/-- Shift right by less than the width, and copy the sign. -/
def shiftRightSigned? (x : BitVec w) (n : Nat) : Option (BitVec w) :=
  if n < w then some (x.sshiftRight n) else none

/-- The bits shifted out on one side come in on the other one. -/
def turn? (x : BitVec w) (left right : Nat) : Option (BitVec w) :=
  (shiftLeft? x left).bind fun upper => (shiftRight? x right).map fun lower => upper ||| lower

theorem sub?_of_le {a b : Nat} (h : b ≤ a) : sub? a b = some (a - b) := if_pos h

theorem shiftLeft?_of_lt {n : Nat} (x : BitVec w) (h : n < w) : shiftLeft? x n = some (x <<< n) :=
  if_pos h

theorem shiftRight?_of_lt {n : Nat} (x : BitVec w) (h : n < w) : shiftRight? x n = some (x >>> n) :=
  if_pos h

theorem shiftRightSigned?_of_lt {n : Nat} (x : BitVec w) (h : n < w) :
    shiftRightSigned? x n = some (x.sshiftRight n) := if_pos h

theorem turn?_of_lt {left right : Nat} (x : BitVec w) (hleft : left < w) (hright : right < w) :
    turn? x left right = some (x <<< left ||| x >>> right) := by
  rw [turn?, shiftLeft?_of_lt x hleft, shiftRight?_of_lt x hright]
  rfl

end Guarded

/-! ## Shifts and rotates -/

namespace ShiftKind

open Guarded

/-- Rotate `x` to the left by `turn` of `width` bits. -/
def rotate? {w : Nat} (x all : BitVec w) (turn width : Nat) : Option (BitVec w) :=
  if turn = 0 then some x
  else (sub? width turn).bind fun back => (turn? x turn back).map (· &&& all)

/-- Rotate `x` to the right by `turn` of `width` bits. -/
def rotateBack? {w : Nat} (x all : BitVec w) (turn width : Nat) : Option (BitVec w) :=
  if turn = 0 then some x
  else (sub? width turn).bind fun back => (turn? x back turn).map (· &&& all)

/-- The operand behind the extend bit. -/
def extended? (value : Long) (size : Size) (x : Bool) : Option (BitVec 64) :=
  (shiftLeft? 1 size.bits).map fun top => (if x then top else 0) ||| value.setWidth 64

/-- All bits of an operand with its extend bit. -/
def allExtended? (size : Size) : Option (BitVec 64) :=
  (shiftLeft? 1 (size.bits + 1)).map (· - 1)

/-- The operand and the last bit out, after a rotation through the extend bit. -/
def throughExtend? (rotated : BitVec 64) (size : Size) : Option (Long × Bool) :=
  (shiftRight? rotated size.bits).map fun out =>
    (rotated.setWidth 32 &&& size.mask, out.getLsbD 0)

/-- `ShiftKind.move` with all guards. -/
def move? (kind : ShiftKind) (value : Long) (count : Nat) (size : Size) (x : Bool) :
    Option (Long × Bool) :=
  let bits := size.bits
  match kind with
  | asl | lsl => do
    let wide ← shiftLeft? (value.setWidth 64) (min count (bits + 1))
    let out ← shiftRight? wide bits
    return (wide.setWidth 32 &&& size.mask, decide (count ≤ bits) && out.getLsbD 0)
  | lsr => do
    let out ←
      if count ≤ bits then do
        let before ← sub? count 1
        let moved ← shiftRight? value before
        pure (moved.getLsbD 0)
      else pure false
    let result ← if count ≥ bits then pure 0 else shiftRight? value count
    return (result, out)
  | asr => do
    let signed := (size.signExtend value).signExtend 64
    let shift := min count bits
    let before ← sub? shift 1
    let out ← shiftRightSigned? signed before
    let result ← shiftRightSigned? signed shift
    return (result.setWidth 32 &&& size.mask, out.getLsbD 0)
  | rol => do
    let result ← rotate? value size.mask (count % bits) bits
    return (result, result.getLsbD 0)
  | ror => do
    let result ← rotateBack? value size.mask (count % bits) bits
    return (result, result &&& size.msb != 0)
  | roxl => do
    let extended ← extended? value size x
    let all ← allExtended? size
    let rotated ← rotate? extended all (count % (bits + 1)) (bits + 1)
    throughExtend? rotated size
  | roxr => do
    let extended ← extended? value size x
    let all ← allExtended? size
    let rotated ← rotateBack? extended all (count % (bits + 1)) (bits + 1)
    throughExtend? rotated size

/-- `ShiftKind.signChanges` with all guards. -/
def signChanges? (value : Long) (count : Nat) (size : Size) : Option Bool := do
  let below ← sub? size.bits 1
  if count ≥ below then
    return value &&& size.mask != 0 && value &&& size.mask != size.mask
  else
    let unmoved ← sub? size.bits count
    let amount ← sub? unmoved 1
    let upper ← shiftLeft? size.mask amount
    let top := upper &&& size.mask
    return value &&& top != 0 && value &&& top != top

/-- `ShiftKind.apply` with all guards. -/
def guarded? (kind : ShiftKind) (value : Long) (count : Nat) (size : Size) (sr : Status) :
    Option Computed :=
  let value := value &&& size.mask
  let x := Status.has sr Status.extend
  if count = 0 then
    some ⟨value, statusUnmoved value (kind.throughExtend && x) size sr⟩
  else do
    let moved ← kind.move? value count size x
    let changes ← signChanges? value count size
    return ⟨moved.1, statusAfter moved.1 moved.2 (kind == asl && changes) kind.keepsExtend size sr⟩

theorem bits_bounds (size : Size) : 8 ≤ size.bits ∧ size.bits ≤ 32 := by
  cases size <;> decide

section

variable {w : Nat} {turn width : Nat} (x all : BitVec w)

theorem rotate?_eq (hturn : turn < width) (hwidth : width ≤ w) :
    rotate? x all turn width =
      some (if turn = 0 then x else (x <<< turn ||| x >>> (width - turn)) &&& all) := by
  unfold rotate?
  split
  · rfl
  · rw [sub?_of_le (Nat.le_of_lt hturn), Option.bind_some,
      turn?_of_lt x (by omega) (by omega), Option.map_some]

theorem rotateBack?_eq (hturn : turn < width) (hwidth : width ≤ w) :
    rotateBack? x all turn width =
      some (if turn = 0 then x else (x >>> turn ||| x <<< (width - turn)) &&& all) := by
  unfold rotateBack?
  split
  · rfl
  · rw [sub?_of_le (Nat.le_of_lt hturn), Option.bind_some,
      turn?_of_lt x (by omega) (by omega), Option.map_some, BitVec.or_comm]

end

section

variable (value : Long) (size : Size)

theorem extended?_eq (x : Bool) :
    extended? value size x = some ((if x then 1 <<< size.bits else 0) ||| value.setWidth 64) := by
  have hbits := (bits_bounds size).2
  have htop : ((1 <<< size.bits : Nat) : BitVec 64) = (1 : BitVec 64) <<< size.bits := by
    cases size <;> rfl
  rw [extended?, shiftLeft?_of_lt 1 (by omega), Option.map_some]
  cases x with
  | true => simp only [if_true, htop]
  | false => rfl

theorem allExtended?_eq :
    allExtended? size = some (((1 <<< (size.bits + 1) : Nat) : BitVec 64) - 1) := by
  have hbits := (bits_bounds size).2
  have htop :
      ((1 <<< (size.bits + 1) : Nat) : BitVec 64) = (1 : BitVec 64) <<< (size.bits + 1) := by
    cases size <;> rfl
  rw [allExtended?, shiftLeft?_of_lt 1 (by omega), Option.map_some, htop]

theorem throughExtend?_eq (rotated : BitVec 64) :
    throughExtend? rotated size =
      some (rotated.setWidth 32 &&& size.mask, rotated.getLsbD size.bits) := by
  have hbits := (bits_bounds size).2
  rw [throughExtend?, shiftRight?_of_lt rotated (by omega), Option.map_some,
    BitVec.getLsbD_ushiftRight, Nat.add_zero]

/-- **Moving the bits keeps to all guards**, whatever the count. -/
theorem move?_eq (kind : ShiftKind) {count : Nat} (hcount : 0 < count) (x : Bool) :
    kind.move? value count size x = some (kind.move value count size x) := by
  obtain ⟨hlow, hhigh⟩ := bits_bounds size
  have hturn : count % size.bits < size.bits := Nat.mod_lt _ (by omega)
  have hextended : count % (size.bits + 1) < size.bits + 1 := Nat.mod_lt _ (by omega)
  cases kind with
  | asl | lsl =>
    have hamount : min count (size.bits + 1) < 64 := by omega
    have hout : size.bits < 64 := by omega
    simp only [move?, move, shiftLeft?_of_lt _ hamount, shiftRight?_of_lt _ hout,
      Option.bind_eq_bind, Option.bind_some, Option.pure_def, BitVec.getLsbD_ushiftRight,
      Nat.add_zero]
  | lsr =>
    simp only [move?, move]
    rcases Nat.lt_or_ge size.bits count with hbeyond | hlast
    · -- beyond the width nothing is shifted at all
      simp [Nat.not_le_of_lt hbeyond, Nat.le_of_lt hbeyond]
    · have hbefore : count - 1 < 32 := by omega
      simp only [hlast, if_true, sub?_of_le hcount, shiftRight?_of_lt _ hbefore,
        Option.bind_eq_bind, Option.bind_some, Option.pure_def, BitVec.getLsbD_ushiftRight,
        Nat.add_zero, decide_true, Bool.true_and]
      split
      · rfl
      · next hall =>
        rw [shiftRight?_of_lt _ (by omega), Option.bind_some]
  | asr =>
    have hsome : 1 ≤ min count size.bits := by omega
    have hamount : min count size.bits < 64 := by omega
    have hbefore : min count size.bits - 1 < 64 := by omega
    simp only [move?, move, sub?_of_le hsome, shiftRightSigned?_of_lt _ hamount,
      shiftRightSigned?_of_lt _ hbefore, Option.bind_eq_bind, Option.bind_some, Option.pure_def]
  | rol =>
    simp only [move?, move, rotate?_eq value size.mask hturn hhigh, Option.bind_eq_bind,
      Option.bind_some, Option.pure_def]
  | ror =>
    simp only [move?, move, rotateBack?_eq value size.mask hturn hhigh, Option.bind_eq_bind,
      Option.bind_some, Option.pure_def]
  | roxl =>
    have hwide : size.bits + 1 ≤ 64 := by omega
    simp only [move?, move, extended?_eq, allExtended?_eq, rotate?_eq _ _ hextended hwide,
      throughExtend?_eq, Option.bind_eq_bind, Option.bind_some]
  | roxr =>
    have hwide : size.bits + 1 ≤ 64 := by omega
    simp only [move?, move, extended?_eq, allExtended?_eq, rotateBack?_eq _ _ hextended hwide,
      throughExtend?_eq, Option.bind_eq_bind, Option.bind_some]

theorem signChanges?_eq (count : Nat) :
    signChanges? value count size = some (signChanges value count size) := by
  obtain ⟨hlow, hhigh⟩ := bits_bounds size
  have hsome : 1 ≤ size.bits := by omega
  simp only [signChanges?, signChanges, sub?_of_le hsome, Option.bind_eq_bind, Option.bind_some,
    Option.pure_def]
  split
  · rfl
  · next hfew =>
    have hcount : count ≤ size.bits := by omega
    have hunmoved : 1 ≤ size.bits - count := by omega
    have hamount : size.bits - count - 1 < 32 := by omega
    simp only [sub?_of_le hcount, sub?_of_le hunmoved, shiftLeft?_of_lt _ hamount, Option.bind_some]

/-- **Shifts and rotates keep to all guards**, whatever the operand and the count. -/
theorem guarded?_eq (kind : ShiftKind) (count : Nat) (sr : Status) :
    kind.guarded? value count size sr = some (kind.apply value count size sr) := by
  simp only [guarded?, apply]
  split
  · rfl
  · next hcount =>
    simp only [move?_eq _ size kind (Nat.pos_of_ne_zero hcount), signChanges?_eq,
      Option.bind_eq_bind, Option.bind_some, Option.pure_def]

end

end ShiftKind

/-! ## Multiplication -/

namespace Multiply

theorem setBits_le {n : Nat} (x : BitVec n) : setBits x ≤ n := by
  unfold setBits
  exact Nat.le_trans List.countP_le_length (Nat.le_of_eq List.length_range)

/-- A multiplication takes more than the four cycles that pass during the fetch before, and the rest
in half-cycles fits into a word. -/
theorem unsignedCycles_bounds (source : Word) :
    4 ≤ unsignedCycles source ∧ (unsignedCycles source - 4) * 2 < 0x10000 := by
  have hbits := setBits_le source
  unfold unsignedCycles
  omega

theorem signedCycles_bounds (source : Word) :
    4 ≤ signedCycles source ∧ (signedCycles source - 4) * 2 < 0x10000 := by
  let appended := source ++ (0 : BitVec 1)
  have hbits : setBits ((appended ^^^ appended >>> 1).setWidth 16) ≤ 16 := setBits_le _
  have hcycles :
      signedCycles source = 38 + 2 * setBits ((appended ^^^ appended >>> 1).setWidth 16) := rfl
  omega

/-- The unsigned product of two words fits into a long word. -/
theorem unsigned_lt (src dst : Word) : src.toNat * dst.toNat < 0x100000000 :=
  calc src.toNat * dst.toNat
      < 0x10000 * 0x10000 := Nat.mul_lt_mul'' src.isLt dst.isLt
    _ = 0x100000000 := by decide

/-- The signed product of two words fits into a long word. -/
theorem signed_bounds (src dst : Word) :
    -0x80000000 ≤ src.toInt * dst.toInt ∧ src.toInt * dst.toInt < 0x80000000 := by
  have hlow : -(2 ^ 30) ≤ src.toInt * dst.toInt := BitVec.le_toInt_mul_toInt
  have hhigh : src.toInt * dst.toInt ≤ 2 ^ 30 := BitVec.toInt_mul_toInt_le
  omega

end Multiply

/-! ## Decimal sums -/

namespace PackedDecimal

/-- Both digits of the low byte are decimal. -/
def IsDecimal (x : Long) : Prop := x &&& 0x0F ≤ 9 ∧ x &&& 0xF0 ≤ 0x90

/-- `PackedDecimal.add` with its guard. -/
def add? (src dst : Long) (sr : Status) : Option Computed :=
  let x : Long := if Status.has sr Status.extend then 1 else 0
  let binary := (src &&& 0x0F) + (dst &&& 0x0F) + x
  let low := if binary > 9 then binary + 6 else binary
  let sum := low + ((src &&& 0xF0) + (dst &&& 0xF0))
  let carry := decide (sum > 0x99)
  if carry then
    (Guarded.sub? sum.toNat 0xA0).map fun result =>
      finish binary (BitVec.ofNat 32 result) carry sr
  else some (finish binary sum carry sr)

/-- A high digit counts sixteens. -/
theorem toNat_highDigit_mod (x : Long) : (x &&& 0xF0).toNat % 16 = 0 := by
  rw [BitVec.toNat_and]
  exact (Nat.and_mod_two_pow (n := 4)).trans (Nat.and_zero _)

/-- **The sum of decimal operands keeps to its guard**: it is never between 99 and 100 in
decimal. -/
theorem add?_eq {src dst : Long} (hsrc : IsDecimal src) (hdst : IsDecimal dst) (sr : Status) :
    add? src dst sr = some (add src dst sr) := by
  obtain ⟨hsrcLow, hsrcHigh⟩ := hsrc
  obtain ⟨hdstLow, hdstHigh⟩ := hdst
  have hsrcMod := toNat_highDigit_mod src
  have hdstMod := toNat_highDigit_mod dst
  simp only [add?, add]
  generalize src &&& 0x0F = a at *
  generalize dst &&& 0x0F = b at *
  generalize src &&& 0xF0 = u at *
  generalize dst &&& 0xF0 = v at *
  generalize hx : (if Status.has sr Status.extend then 1 else 0 : Long) = x
  have hextend : x ≤ 1 := by
    rw [← hx]
    split <;> decide
  generalize hlow : (if a + b + x > 9 then a + b + x + 6 else a + b + x) = low
  have hdigit : low.toNat % 16 ≤ 9 ∧ low.toNat < 32 := by
    rw [← hlow]
    split <;> bv_omega
  split
  · next hcarry =>
    have hguard : 0xA0 ≤ (low + (u + v)).toNat := by
      have hover : low + (u + v) > 0x99 := by simpa using hcarry
      bv_omega
    have hdifference : BitVec.ofNat 32 ((low + (u + v)).toNat - 0xA0) = low + (u + v) - 0xA0 := by
      generalize low + (u + v) = sum at hguard
      bv_omega
    rw [Guarded.sub?_of_le hguard, Option.map_some, hdifference]
  · rfl

end PackedDecimal

end M68k
