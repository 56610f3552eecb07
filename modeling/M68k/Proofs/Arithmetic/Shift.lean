import M68k.Proofs.Arithmetic.SingleMoves
import M68k.Proofs.ConditionCodes

/-!
# Shifts and rotates as single moves

Every kind of shift and rotate has a closed form for any count. It does what that many moves by one
bit do: to the word, to the extend bit, and to the carry, which is the bit that left last.

## Main results

* `ShiftKind.move_eq_iterate`: the closed forms are iterated moves
* `ShiftKind.apply_eq_iterate`: so are shifts and rotates with their condition codes
* `ShiftKind.value_ror_rol`, `ShiftKind.roxr_roxl`: rotations and back
-/

namespace M68k

open Status

/-! ## Words in wider words -/

section

variable {w m : Nat}

/-- Cutting a wider word to a size. -/
theorem Size.setWidth_and_mask (size : Size) (y : BitVec m) :
    y.setWidth 32 &&& size.mask = (y.setWidth size.bits).setWidth 32 := by
  rw [size.and_mask, operand, BitVec.setWidth_setWidth_of_le _ size.bits_le]

/-- Rotate a word to the left inside a wider one. -/
theorem setWidth_rotateLeft (hw : 0 < w) (hfits : w ≤ m) (word : BitVec w) (count : Nat)
    {all : BitVec m} (hall : ∀ i, all.getLsbD i = decide (i < w)) :
    (if count % w = 0 then word.setWidth m
      else (word.setWidth m <<< (count % w) ||| word.setWidth m >>> (w - count % w)) &&& all) =
      (word.rotateLeft count).setWidth m := by
  rw [← BitVec.rotateLeft_mod_eq_rotateLeft]
  have hturn := Nat.mod_lt count hw
  generalize count % w = turn at *
  by_cases hzero : turn = 0
  · rw [if_pos hzero, hzero, rotateLeft_zero]
  · rw [if_neg hzero]
    apply BitVec.eq_of_getLsbD_eq
    intro i hi
    simp only [BitVec.getLsbD_and, BitVec.getLsbD_or, BitVec.getLsbD_shiftLeft,
      BitVec.getLsbD_ushiftRight, BitVec.getLsbD_setWidth, BitVec.getLsbD_rotateLeft_of_le hturn,
      hall]
    by_cases hbelow : i < turn
    · -- what has left on the top
      have hinside : w - turn + i < m := by omega
      have hword : i < w := by omega
      simp [hbelow, hinside, hi, hword]
    · have hbeyond : word.getLsbD (w - turn + i) = false := BitVec.getLsbD_of_ge _ _ (by omega)
      have hinside : i - turn < m := by omega
      simp [hbelow, hbeyond, hinside, hi, Bool.and_comm]

/-- Rotate a word to the right inside a wider one. -/
theorem setWidth_rotateRight (hw : 0 < w) (hfits : w ≤ m) (word : BitVec w) (count : Nat)
    {all : BitVec m} (hall : ∀ i, all.getLsbD i = decide (i < w)) :
    (if count % w = 0 then word.setWidth m
      else (word.setWidth m >>> (count % w) ||| word.setWidth m <<< (w - count % w)) &&& all) =
      (word.rotateRight count).setWidth m := by
  rw [← BitVec.rotateRight_mod_eq_rotateRight]
  have hturn := Nat.mod_lt count hw
  generalize count % w = turn at *
  by_cases hzero : turn = 0
  · rw [if_pos hzero, hzero, rotateRight_zero]
  · rw [if_neg hzero]
    apply BitVec.eq_of_getLsbD_eq
    intro i hi
    simp only [BitVec.getLsbD_and, BitVec.getLsbD_or, BitVec.getLsbD_shiftLeft,
      BitVec.getLsbD_ushiftRight, BitVec.getLsbD_setWidth, BitVec.getLsbD_rotateRight_of_lt hturn,
      hall]
    by_cases hbelow : i < w - turn
    · have hinside : turn + i < m := by omega
      have hword : i < w := by omega
      simp [hbelow, hinside, hi, hword]
    · -- what has left at the bottom
      have hbeyond : word.getLsbD (turn + i) = false := BitVec.getLsbD_of_ge _ _ (by omega)
      have hinside : i - (w - turn) < m := by omega
      simp [hbelow, hbeyond, hinside, hi, Bool.and_comm]

/-- Once only the sign is left, all bits are alike. -/
theorem getLsbD_sshiftRight_of_last (word : BitVec w) {count i : Nat} (hcount : w ≤ count + 1)
    (hi : i < w) : (word.sshiftRight count).getLsbD i = word.msb := by
  have hnot : ¬ w ≤ i := by omega
  rw [BitVec.getLsbD_sshiftRight, decide_eq_false hnot, Bool.not_false, Bool.true_and]
  split
  · have hlast : count + i = w - 1 := by omega
    rw [hlast, BitVec.msb_eq_getLsbD_last]
  · rfl

/-- Copy the sign inside a wider word. -/
theorem getLsbD_sshiftRight_signExtend (word : BitVec w) {count i : Nat} (hroom : count + w ≤ m)
    (hi : i < w) :
    ((word.signExtend m).sshiftRight count).getLsbD i = (word.sshiftRight count).getLsbD i := by
  have hinside : count + i < m := by omega
  have hnot : ¬ m ≤ i := by omega
  have hnot' : ¬ w ≤ i := by omega
  rw [BitVec.getLsbD_sshiftRight, BitVec.getLsbD_sshiftRight, if_pos hinside,
    BitVec.getLsbD_signExtend]
  simp [hinside, hnot, hnot']

end

namespace ShiftKind

/-! ## Closed forms -/

section

variable (size : Size) (word : BitVec size.bits) (count : Nat) (x : Bool)

/-- What leaves on the left is kept in the bits above the operand. -/
theorem move_shiftLeft {kind : ShiftKind} (hkind : kind = asl ∨ kind = lsl) :
    kind.move (word.setWidth 32) (count + 1) size x =
      ((word <<< (count + 1)).setWidth 32, (word <<< count).msb) := by
  have hpos := size.bits_pos
  have hle := size.bits_le
  have hvalue : (word.setWidth 64 <<< min (count + 1) (size.bits + 1)).setWidth size.bits =
      word <<< (count + 1) := by
    apply BitVec.eq_of_getLsbD_eq
    intro i hi
    have hwide : i < 64 := by omega
    simp only [BitVec.getLsbD_setWidth, BitVec.getLsbD_shiftLeft, decide_eq_true hi,
      decide_eq_true hwide, Bool.true_and]
    rcases Nat.le_total (count + 1) (size.bits + 1) with hmin | hmin
    · have hinside : i - (count + 1) < 64 := by omega
      rw [Nat.min_eq_left hmin, decide_eq_true hinside, Bool.true_and]
    · have hall : i < count + 1 := by omega
      have hall' : i < size.bits + 1 := by omega
      simp [Nat.min_eq_right hmin, hall, hall']
  have hout : (decide (count + 1 ≤ size.bits) &&
      (word.setWidth 64 <<< min (count + 1) (size.bits + 1)).getLsbD size.bits) =
        (word <<< count).msb := by
    rw [BitVec.msb_eq_getLsbD_last, BitVec.getLsbD_shiftLeft, BitVec.getLsbD_shiftLeft,
      BitVec.getLsbD_setWidth]
    by_cases hfew : count + 1 ≤ size.bits
    · have hindex : size.bits - (count + 1) = size.bits - 1 - count := by omega
      have hwide : size.bits < 64 := by omega
      have hinside : size.bits - 1 - count < 64 := by omega
      have hlast : size.bits - 1 < size.bits := by omega
      have hleft : ¬ size.bits - 1 < count := by omega
      have hleft' : ¬ size.bits < count + 1 := by omega
      rw [Nat.min_eq_left (by omega)]
      simp [hfew, hindex, hwide, hinside, hlast, hleft, hleft']
    · have hleft : size.bits - 1 < count := by omega
      simp [hfew, hleft]
  have hmove : kind.move (word.setWidth 32) (count + 1) size x =
      ((word.setWidth 64 <<< min (count + 1) (size.bits + 1)).setWidth 32 &&& size.mask,
        decide (count + 1 ≤ size.bits) &&
          (word.setWidth 64 <<< min (count + 1) (size.bits + 1)).getLsbD size.bits) := by
    have hfits : (word.setWidth 32).setWidth 64 = word.setWidth 64 :=
      BitVec.setWidth_setWidth (by omega)
    rw [← hfits]
    rcases hkind with rfl | rfl <;> rfl
  rw [hmove, Size.setWidth_and_mask, hvalue, hout]

theorem move_lsr :
    lsr.move (word.setWidth 32) (count + 1) size x =
      ((word >>> (count + 1)).setWidth 32, (word >>> count).getLsbD 0) := by
  have hle := size.bits_le
  have hvalue : (if count + 1 ≥ size.bits then 0 else word.setWidth 32 >>> (count + 1)) =
      (word >>> (count + 1)).setWidth 32 := by
    split
    · next hall =>
      rw [BitVec.ushiftRight_eq_zero hall, BitVec.setWidth_zero]
      rfl
    · apply BitVec.eq_of_toNat_eq
      rw [BitVec.toNat_ushiftRight, BitVec.toNat_setWidth_of_le hle,
        BitVec.toNat_setWidth_of_le hle, BitVec.toNat_ushiftRight]
  have hout : (decide (count + 1 ≤ size.bits) && (word.setWidth 32).getLsbD count) =
      (word >>> count).getLsbD 0 := by
    rw [BitVec.getLsbD_ushiftRight, BitVec.getLsbD_setWidth, Nat.add_zero]
    -- beyond the width both are zero
    by_cases hfew : count + 1 ≤ size.bits
    · have hwide : count < 32 := by omega
      simp [hfew, hwide]
    · rw [decide_eq_false hfew, Bool.false_and, BitVec.getLsbD_of_ge _ _ (by omega)]
  exact Prod.ext hvalue hout

theorem move_asr :
    asr.move (word.setWidth 32) (count + 1) size x =
      ((word.sshiftRight (count + 1)).setWidth 32, (word.sshiftRight count).getLsbD 0) := by
  have hpos := size.bits_pos
  have hle := size.bits_le
  have hsigned : (size.signExtend (word.setWidth 32)).signExtend 64 = word.signExtend 64 := by
    rw [size.signExtend_eq, Size.operand_setWidth]
    apply BitVec.eq_of_toInt_eq
    rw [BitVec.toInt_signExtend_of_le (by decide), BitVec.toInt_signExtend_of_le hle,
      BitVec.toInt_signExtend_of_le (by omega)]
  have hvalue : ((word.signExtend 64).sshiftRight (min (count + 1) size.bits)).setWidth size.bits =
      word.sshiftRight (count + 1) := by
    apply BitVec.eq_of_getLsbD_eq
    intro i hi
    rw [BitVec.getLsbD_setWidth, decide_eq_true hi, Bool.true_and,
      getLsbD_sshiftRight_signExtend _ (by omega) hi]
    rcases Nat.le_total (count + 1) size.bits with hmin | hmin
    · rw [Nat.min_eq_left hmin]
    · rw [Nat.min_eq_right hmin, getLsbD_sshiftRight_of_last _ (by omega) hi,
        getLsbD_sshiftRight_of_last _ (by omega) hi]
  have hout : ((word.signExtend 64).sshiftRight (min (count + 1) size.bits - 1)).getLsbD 0 =
      (word.sshiftRight count).getLsbD 0 := by
    rw [getLsbD_sshiftRight_signExtend _ (by omega) hpos]
    rcases Nat.le_total (count + 1) size.bits with hmin | hmin
    · rw [Nat.min_eq_left hmin, Nat.add_sub_cancel]
    · rw [Nat.min_eq_right hmin, getLsbD_sshiftRight_of_last _ (by omega) hpos,
        getLsbD_sshiftRight_of_last _ (by omega) hpos]
  simp only [move, hsigned, Size.setWidth_and_mask, hvalue, hout]

theorem move_rol :
    rol.move (word.setWidth 32) (count + 1) size x =
      ((word.rotateLeft (count + 1)).setWidth 32, (word.rotateLeft count).msb) := by
  have hpos := size.bits_pos
  have hrotate := setWidth_rotateLeft hpos size.bits_le word (count + 1) size.getLsbD_mask
  have hout : ((word.rotateLeft (count + 1)).setWidth 32).getLsbD 0 =
      (word.rotateLeft count).msb := by
    rw [BitVec.getLsbD_setWidth, decide_eq_true (by decide), Bool.true_and,
      ← rotateLeft_rotateLeft, getLsbD_rotateLeft_one _ hpos, if_pos rfl]
  simp only [move, hrotate, hout]

theorem move_ror :
    ror.move (word.setWidth 32) (count + 1) size x =
      ((word.rotateRight (count + 1)).setWidth 32, (word.rotateRight count).getLsbD 0) := by
  have hpos := size.bits_pos
  have hlast : size.bits - 1 < size.bits := by omega
  have hround : size.bits - 1 + 1 = size.bits := by omega
  have hrotate := setWidth_rotateRight hpos size.bits_le word (count + 1) size.getLsbD_mask
  have hout : ((word.rotateRight (count + 1)).setWidth 32 &&& size.msb != 0) =
      (word.rotateRight count).getLsbD 0 := by
    rw [size.and_msb_ne_zero_eq_msb, size.operand_setWidth, ← rotateRight_rotateRight,
      BitVec.msb_eq_getLsbD_last, getLsbD_rotateRight_mod _ 1 hlast, hround, Nat.mod_self]
  simp only [move, hrotate, hout]

/-- The extend bit with the operand behind it, in a quad word. -/
theorem setWidth_cons :
    (BitVec.cons x word).setWidth 64 =
      (((if x then 1 <<< size.bits else 0 : Nat) : BitVec 64) |||
        (word.setWidth 32).setWidth 64) := by
  have hle := size.bits_le
  have htop : ((if x then 1 <<< size.bits else 0 : Nat) : BitVec 64) =
      if x then BitVec.twoPow 64 size.bits else 0 := by
    cases x <;> cases size <;> rfl
  have hfits : (word.setWidth 32).setWidth 64 = word.setWidth 64 :=
    BitVec.setWidth_setWidth (by omega)
  rw [htop, hfits]
  apply BitVec.eq_of_getLsbD_eq
  intro i hi
  rw [BitVec.getLsbD_or, BitVec.getLsbD_setWidth, BitVec.getLsbD_setWidth, BitVec.getLsbD_cons,
    apply_ite (BitVec.getLsbD · i), BitVec.getLsbD_twoPow]
  by_cases hlast : i = size.bits
  · have hwide : size.bits < 64 := by omega
    cases x <;> simp [hlast, hwide]
  · cases x <;> simp [hlast, hi, Ne.symm hlast]

/-- All bits of an operand and the extend bit. -/
theorem getLsbD_extended_mask (i : Nat) :
    (((1 <<< (size.bits + 1) : Nat) : BitVec 64) - 1).getLsbD i = decide (i < size.bits + 1) := by
  have hle := size.bits_le
  have hmask : ((1 <<< (size.bits + 1) : Nat) : BitVec 64) - 1 =
      BitVec.ofNat 64 (2 ^ (size.bits + 1) - 1) := by
    cases size <;> rfl
  rw [hmask, BitVec.getLsbD_ofNat, Nat.testBit_two_pow_sub_one]
  by_cases hi : i < size.bits + 1
  · have hwide : i < 64 := by omega
    simp [hi, hwide]
  · simp [hi]

/-- Take an operand with its extend bit apart again. -/
theorem cut_extended (extended : BitVec (size.bits + 1)) :
    ((extended.setWidth 64).setWidth 32 &&& size.mask,
        (extended.setWidth 64).getLsbD size.bits) =
      ((extended.setWidth size.bits).setWidth 32, extended.msb) := by
  have hle := size.bits_le
  have hwide : size.bits < 64 := by omega
  have hfits : (extended.setWidth 64).setWidth size.bits = extended.setWidth size.bits :=
    BitVec.setWidth_setWidth (by omega)
  rw [Size.setWidth_and_mask, hfits, BitVec.getLsbD_setWidth, decide_eq_true hwide, Bool.true_and,
    BitVec.msb_eq_getLsbD_last, Nat.add_sub_cancel]

theorem move_roxl :
    roxl.move (word.setWidth 32) count size x =
      let rotated := (BitVec.cons x word).rotateLeft count
      ((rotated.setWidth size.bits).setWidth 32, rotated.msb) := by
  have hle := size.bits_le
  have hrotate := setWidth_rotateLeft (m := 64) (by omega) (by omega) (BitVec.cons x word) count
    (getLsbD_extended_mask size)
  simp only [move, ← setWidth_cons, hrotate, cut_extended]

theorem move_roxr :
    roxr.move (word.setWidth 32) count size x =
      let rotated := (BitVec.cons x word).rotateRight count
      ((rotated.setWidth size.bits).setWidth 32, rotated.msb) := by
  have hle := size.bits_le
  have hrotate := setWidth_rotateRight (m := 64) (by omega) (by omega) (BitVec.cons x word) count
    (getLsbD_extended_mask size)
  simp only [move, ← setWidth_cons, hrotate, cut_extended]

end

/-! ### The closed forms are iterated moves -/

section

variable {size : Size} (kind : ShiftKind) (moved : Moved size.bits) (count : Nat)

/-- After a move through the extend bit, this bit is the last one out. -/
theorem cut_iterate (hkind : kind.keepsExtend = false) :
    (((kind.moveOne^[count + 1] moved).extended.setWidth size.bits).setWidth 32,
        (kind.moveOne^[count + 1] moved).extended.msb) =
      ((kind.moveOne^[count + 1] moved).word.setWidth 32,
        (kind.moveOne^[count + 1] moved).out) := by
  rw [Moved.setWidth_extended, Moved.msb_extended, extend_iterate_succ, hkind]
  rfl

/-- **The closed forms are iterated moves**, for every positive count. -/
theorem move_eq_iterate :
    kind.move (moved.word.setWidth 32) (count + 1) size moved.extend =
      ((kind.moveOne^[count + 1] moved).word.setWidth 32,
        (kind.moveOne^[count + 1] moved).out) := by
  have hpos := size.bits_pos
  have hout : (kind.moveOne^[count + 1] moved).out =
      kind.leaving (kind.moveOne^[count] moved).word :=
    congrArg Moved.out (iterate_succ moved count kind)
  cases kind with
  | asl =>
    rw [move_shiftLeft _ _ _ _ (.inl rfl), hout, word_iterate_shiftLeft _ _ (.inl rfl),
      word_iterate_shiftLeft _ _ (.inl rfl)]
    rfl
  | lsl =>
    rw [move_shiftLeft _ _ _ _ (.inr rfl), hout, word_iterate_shiftLeft _ _ (.inr rfl),
      word_iterate_shiftLeft _ _ (.inr rfl)]
    rfl
  | lsr =>
    rw [move_lsr, hout, word_iterate_lsr, word_iterate_lsr]
    rfl
  | asr =>
    rw [move_asr, hout, word_iterate_asr, word_iterate_asr]
    rfl
  | rol =>
    rw [move_rol, hout, word_iterate_rol, word_iterate_rol]
    rfl
  | ror =>
    rw [move_ror, hout, word_iterate_ror, word_iterate_ror]
    rfl
  | roxl =>
    rw [move_roxl, ← Moved.extended, ← extended_iterate_roxl moved (count + 1) hpos]
    exact cut_iterate roxl moved count rfl
  | roxr =>
    rw [move_roxr, ← Moved.extended, ← extended_iterate_roxr moved (count + 1) hpos]
    exact cut_iterate roxr moved count rfl

end

/-! ## With the condition codes -/

section

variable (size : Size) (sr : Status)

theorem codes_statusAfter (result : Long) (out overflow keepExtend : Bool) :
    (statusAfter result out overflow keepExtend size sr).codes =
      { extend := if keepExtend then sr.codes.extend else out
        negative := (size.operand result).msb
        zero := size.operand result == 0
        overflow := overflow
        carry := out } := by
  cases keepExtend <;> simp [statusAfter]

theorem codes_statusUnmoved (value : Long) (carry : Bool) :
    (statusUnmoved value carry size sr).codes =
      { extend := sr.codes.extend
        negative := (size.operand value).msb
        zero := size.operand value == 0
        overflow := false
        carry := carry } := by
  simp [statusUnmoved, clear_eq_setIf]

variable (kind : ShiftKind) (value : Long) (count : Nat)

/-- Where the moves begin: with the bits of the operand and the extend bit. While nothing has left
the operand, the rotations through the extend bit report this bit, and the others zero. -/
def unmoved : Moved size.bits where
  word := size.operand value
  extend := has sr extend
  out := kind.throughExtend && has sr extend

/-- **A shift is as many moves as its count says**: the result, and the condition codes. -/
theorem apply_eq_iterate :
    let moved := kind.moveOne^[count] (kind.unmoved size sr value)
    let computed := kind.apply value count size sr
    computed.value = moved.word.setWidth 32 ∧
      computed.status.codes =
        { extend := moved.extend
          negative := moved.word.msb
          zero := moved.word == 0
          overflow := count != 0 && kind == asl && signChanges (value &&& size.mask) count size
          carry := moved.out } := by
  intro moved computed
  cases count with
  | zero =>
    refine ⟨size.and_mask value, ?_⟩
    have hcodes := codes_statusUnmoved size sr (value &&& size.mask)
      (kind.throughExtend && has sr extend)
    rw [size.operand_and_mask] at hcodes
    exact hcodes
  | succ count =>
    let before := kind.unmoved size sr value
    have hmove : kind.move (value &&& size.mask) (count + 1) size (has sr extend) =
        (moved.word.setWidth 32, moved.out) := by
      rw [size.and_mask value]
      exact move_eq_iterate kind before count
    have hextend : moved.extend = if kind.keepsExtend then sr.codes.extend else moved.out :=
      extend_iterate_succ before count kind
    have hcomputed : computed =
        ⟨moved.word.setWidth 32, statusAfter (moved.word.setWidth 32) moved.out
          (kind == asl && signChanges (value &&& size.mask) (count + 1) size) kind.keepsExtend
          size sr⟩ := by
      simp only [computed, apply, hmove, Nat.succ_ne_zero, if_false]
    refine ⟨congrArg Computed.value hcomputed, ?_⟩
    rw [hcomputed, codes_statusAfter, size.operand_setWidth, ← hextend]
    rfl

end

/-! ## Rotations and back -/

section

variable (size : Size) (sr : Status) (value : Long) (count : Nat)

/-- **A rotation to the right takes back one to the left.** -/
theorem value_ror_rol (sr' : Status) :
    (ror.apply (rol.apply value count size sr).value count size sr').value =
      value &&& size.mask := by
  obtain ⟨hleft, -⟩ := apply_eq_iterate size sr rol value count
  obtain ⟨hright, -⟩ := apply_eq_iterate size sr' ror (rol.apply value count size sr).value count
  rw [hright, word_iterate_ror, unmoved, hleft, size.operand_setWidth, word_iterate_rol,
    rotateRight_rotateLeft, size.and_mask]
  rfl

/-- **So does one through the extend bit**, which it brings back with the operand. -/
theorem roxr_roxl :
    let left := roxl.apply value count size sr
    let back := roxr.apply left.value count size left.status
    back.value = value &&& size.mask ∧ back.status.codes.extend = sr.codes.extend := by
  intro left back
  have hpos := size.bits_pos
  obtain ⟨hvalue, hcodes⟩ := apply_eq_iterate size sr roxl value count
  obtain ⟨hvalue', hcodes'⟩ := apply_eq_iterate size left.status roxr left.value count
  let before := roxl.unmoved size sr value
  have hbetween : (roxr.unmoved size left.status left.value).extended =
      (roxl.moveOne^[count] before).extended := by
    have hword : size.operand left.value = (roxl.moveOne^[count] before).word := by
      rw [hvalue, size.operand_setWidth]
    have hextend : has left.status extend = (roxl.moveOne^[count] before).extend :=
      congrArg ConditionCodes.extend hcodes
    rw [unmoved, hword, hextend]
    rfl
  have hback : (roxr.moveOne^[count] (roxr.unmoved size left.status left.value)).extended =
      before.extended := by
    rw [extended_iterate_roxr _ _ hpos, hbetween, extended_iterate_roxl _ _ hpos,
      rotateRight_rotateLeft]
  constructor
  · rw [hvalue', ← Moved.setWidth_extended, hback, Moved.setWidth_extended, size.and_mask]
    rfl
  · rw [hcodes']
    dsimp only
    rw [← Moved.msb_extended, hback, Moved.msb_extended]
    rfl

/-- **Shifts and rotates are single moves, one after the other.** They give the operand, the extend
bit and the carry that these moves give. N and Z describe the result, only the arithmetic shift to
the left may set V, and nothing but condition codes is changed. A rotation to the right takes back
one to the left. -/
theorem apply_eq_singleMoves :
    (∀ kind : ShiftKind,
      let moved := kind.moveOne^[count] (kind.unmoved size sr value)
      let computed := kind.apply value count size sr
      computed.value = moved.word.setWidth 32 ∧
        has computed.status carry = moved.out ∧ has computed.status extend = moved.extend ∧
        has computed.status negative = moved.word.msb ∧
        has computed.status zero = (moved.word == 0) ∧
        (kind = asl ∨ has computed.status overflow = false) ∧
        computed.status.system = sr.system) ∧
    (∀ sr' : Status, (ror.apply (rol.apply value count size sr).value count size sr').value =
      value &&& size.mask) ∧
    (let left := roxl.apply value count size sr
      let back := roxr.apply left.value count size left.status
      back.value = value &&& size.mask ∧ has back.status extend = has sr extend) := by
  refine ⟨fun kind => ?_, value_ror_rol size sr value count, roxr_roxl size sr value count⟩
  intro moved computed
  obtain ⟨hvalue, hcodes⟩ := apply_eq_iterate size sr kind value count
  have hoverflow : kind = asl ∨ has computed.status overflow = false := by
    by_cases hkind : kind = asl
    · exact .inl hkind
    · have hset : has computed.status overflow = _ := congrArg ConditionCodes.overflow hcodes
      rw [hset, beq_eq_false_iff_ne.mpr hkind, Bool.and_false, Bool.false_and]
      exact .inr rfl
  exact ⟨hvalue, congrArg ConditionCodes.carry hcodes, congrArg ConditionCodes.extend hcodes,
    congrArg ConditionCodes.negative hcodes, congrArg ConditionCodes.zero hcodes, hoverflow,
    (Operation.shift kind).system_applyShift value count size sr⟩

end

end ShiftKind

end M68k
