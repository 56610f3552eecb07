import M68k.Size
import Mathlib.Tactic.IntervalCases

/-!
# Operands as words of their own width

Operands travel in long words, of which the size selects the low bits. What an operation makes of
an operand is said of the word of just these bits.

## Main definitions

* `Size.operand`: the bits of an operand

## Main results

* `Size.and_mask`: cutting a long word to a size keeps its operand and nothing else
* `Size.and_msb_ne_zero`: the sign bit is the topmost bit of the operand
-/

namespace M68k.Size

/-- The bits of a long word that belong to an operand of this size. -/
def operand (size : Size) (value : Long) : BitVec size.bits := value.setWidth size.bits

variable (size : Size) (value : Long)

/-! ### The bits of an operand -/

theorem bits_pos : 0 < size.bits := by
  cases size <;> decide

theorem bits_le : size.bits ≤ 32 := by
  cases size <;> decide

theorem getLsbD_mask (i : Nat) : size.mask.getLsbD i = decide (i < size.bits) := by
  by_cases hi : i < 32
  · cases size <;> interval_cases i <;> rfl
  · have hle := size.bits_le
    rw [BitVec.getLsbD_of_ge _ _ (by omega), decide_eq_false (by omega)]

theorem getElem_mask {i : Nat} (hi : i < 32) : size.mask[i] = decide (i < size.bits) := by
  rw [← BitVec.getLsbD_eq_getElem hi, getLsbD_mask]

theorem getLsbD_operand (i : Nat) :
    (size.operand value).getLsbD i = (decide (i < size.bits) && value.getLsbD i) :=
  BitVec.getLsbD_setWidth _ _ _

@[simp] theorem operand_zero : size.operand 0 = 0 := BitVec.setWidth_zero _ _

/-- Cutting a long word to a size keeps the operand and nothing else. -/
theorem and_mask : value &&& size.mask = (size.operand value).setWidth 32 := by
  ext i hi
  rw [BitVec.getElem_and, getElem_mask size hi, BitVec.getElem_setWidth, getLsbD_operand,
    BitVec.getLsbD_eq_getElem hi, Bool.and_comm]

@[simp] theorem operand_setWidth (x : BitVec size.bits) : size.operand (x.setWidth 32) = x := by
  rw [operand, BitVec.setWidth_setWidth_of_le _ size.bits_le, BitVec.setWidth_eq]

@[simp] theorem operand_and_mask : size.operand (value &&& size.mask) = size.operand value := by
  rw [and_mask, operand_setWidth]

/-! ### Operations on long words are operations on operands -/

@[simp] theorem operand_and (x y : Long) :
    size.operand (x &&& y) = size.operand x &&& size.operand y :=
  BitVec.setWidth_and

@[simp] theorem operand_or (x y : Long) :
    size.operand (x ||| y) = size.operand x ||| size.operand y :=
  BitVec.setWidth_or

@[simp] theorem operand_xor (x y : Long) :
    size.operand (x ^^^ y) = size.operand x ^^^ size.operand y :=
  BitVec.setWidth_xor

@[simp] theorem operand_not : size.operand (~~~value) = ~~~(size.operand value) :=
  BitVec.setWidth_not size.bits_le

@[simp] theorem operand_add (x y : Long) :
    size.operand (x + y) = size.operand x + size.operand y :=
  BitVec.setWidth_add x y size.bits_le

@[simp] theorem operand_sub (x y : Long) :
    size.operand (x - y) = size.operand x - size.operand y := by
  have hsum : size.operand (x - y) + size.operand y = size.operand x := by
    rw [← operand_add, BitVec.sub_add_cancel]
  rw [← hsum, BitVec.add_sub_cancel]

/-! ### Sign and zero -/

/-- The sign bit is the topmost bit of the operand. -/
theorem and_msb_ne_zero : (value &&& size.msb != 0) = value.getLsbD (size.bits - 1) := by
  have hbit (n : Nat) (hn : n < 32) : (value &&& BitVec.twoPow 32 n != 0) = value.getLsbD n := by
    rw [BitVec.and_twoPow]
    have hne : ¬ BitVec.twoPow 32 n = 0#32 := by
      intro h
      have hbit := congrArg (·.getLsbD n) h
      simp [hn] at hbit
    cases hbit : value.getLsbD n <;> simp [hne]
  cases size with
  | byte => exact hbit 7 (by decide)
  | word => exact hbit 15 (by decide)
  | long => exact hbit 31 (by decide)

theorem and_msb_ne_zero_eq_msb : (value &&& size.msb != 0) = (size.operand value).msb := by
  have hpos := size.bits_pos
  rw [and_msb_ne_zero, BitVec.msb_eq_getLsbD_last, getLsbD_operand, decide_eq_true (by omega),
    Bool.true_and]

theorem and_mask_eq_zero : (value &&& size.mask == 0) = (size.operand value == 0) := by
  have hiff : value &&& size.mask = 0 ↔ size.operand value = 0 := by
    constructor
    · intro h
      rw [← operand_and_mask, h, operand_zero]
    · intro h
      rw [and_mask, h]
      exact BitVec.setWidth_zero _ _
  exact Bool.eq_iff_iff.mpr (by simpa using hiff)

/-- The sign extension of a long word is that of its operand. -/
theorem signExtend_eq : size.signExtend value = (size.operand value).signExtend 32 := by
  cases size with
  | byte | word => rfl
  | long =>
    change value = (value.setWidth 32).signExtend 32
    rw [BitVec.setWidth_eq, BitVec.signExtend_eq]

end M68k.Size
