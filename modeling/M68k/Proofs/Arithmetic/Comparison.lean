import M68k.Arithmetic.Binary
import M68k.Proofs.ConditionCodes

/-!
# Sums and differences

Carries, borrows and overflows are worked out from the sign bits of operands and result. They are
those of the numbers: the condition codes that a difference leaves decide how its operands compare,
unsigned and signed.

All of this is said of words of the width of the operands, for every width at once.

## Main definitions

* `Status.Compares`: the conditions tell how two words compare

## Main results

* `Arithmetic.codes_compare`, `Arithmetic.codes_sub`, `Arithmetic.codes_add`: the condition codes
* `Status.compares_of_codes`: the codes of a difference decide all conditions
* `Arithmetic.relations`: what differences and sums tell about their operands
-/

namespace M68k

namespace Arithmetic

/-! ## Sign bits

A word of width `w` is split in half by its sign bit: numbers from `2 ^ (w - 1)` on have it set. -/

section

variable {w : Nat} (d s : BitVec w)

/-- The borrow of a difference, from the sign bits of operands and result. -/
theorem borrow_eq_usubOverflow (hw : 0 < w) :
    (!d.msb && s.msb || (!d.msb || s.msb) && (d - s).msb) = d.usubOverflow s := by
  have hpow : 2 ^ w = 2 ^ (w - 1) * 2 := (Nat.two_pow_pred_mul_two hw).symm
  have hd := d.isLt
  have hs := s.isLt
  simp only [BitVec.usubOverflow, BitVec.msb_eq_decide, BitVec.toNat_sub, hpow] at *
  generalize 2 ^ (w - 1) = half at *
  by_cases hle : s.toNat ≤ d.toNat
  · have hmod : (half * 2 - s.toNat + d.toNat) % (half * 2) = d.toNat - s.toNat := by
      have hwrapped : half * 2 - s.toNat + d.toNat = d.toNat - s.toNat + half * 2 := by omega
      rw [hwrapped, Nat.add_mod_right, Nat.mod_eq_of_lt (by omega)]
    rw [hmod, decide_eq_false (p := d.toNat < s.toNat) (by omega)]
    simp
    omega
  · -- the difference wraps
    have hmod : (half * 2 - s.toNat + d.toNat) % (half * 2) = half * 2 - s.toNat + d.toNat :=
      Nat.mod_eq_of_lt (by omega)
    rw [hmod, decide_eq_true (p := d.toNat < s.toNat) (by omega)]
    simp
    omega

/-- The carry of a sum, from the sign bits of operands and result. -/
theorem carry_eq_uaddOverflow (hw : 0 < w) :
    (s.msb && d.msb || (s.msb || d.msb) && !(s + d).msb) = s.uaddOverflow d := by
  have hpow : 2 ^ w = 2 ^ (w - 1) * 2 := (Nat.two_pow_pred_mul_two hw).symm
  have hd := d.isLt
  have hs := s.isLt
  simp only [BitVec.uaddOverflow, BitVec.msb_eq_decide, BitVec.toNat_add, hpow] at *
  generalize 2 ^ (w - 1) = half at *
  by_cases hle : half * 2 ≤ s.toNat + d.toNat
  · -- the sum wraps
    have hmod : (s.toNat + d.toNat) % (half * 2) = s.toNat + d.toNat - half * 2 := by
      rw [Nat.mod_eq_sub_mod hle, Nat.mod_eq_of_lt (by omega)]
    rw [hmod, decide_eq_true (p := s.toNat + d.toNat ≥ half * 2) hle]
    simp
    omega
  · have hmod : (s.toNat + d.toNat) % (half * 2) = s.toNat + d.toNat :=
      Nat.mod_eq_of_lt (by omega)
    rw [hmod, decide_eq_false (p := s.toNat + d.toNat ≥ half * 2) (by omega)]
    simp
    omega

theorem overflow_eq_ssubOverflow :
    ((s.msb ^^ d.msb) && ((d - s).msb ^^ d.msb)) = d.ssubOverflow s := by
  rw [BitVec.ssubOverflow_eq]
  cases d.msb <;> cases s.msb <;> cases (d - s).msb <;> rfl

theorem overflow_eq_saddOverflow :
    ((s.msb ^^ (s + d).msb) && (d.msb ^^ (s + d).msb)) = s.saddOverflow d := by
  rw [BitVec.saddOverflow_eq]
  cases d.msb <;> cases s.msb <;> cases (s + d).msb <;> rfl

/-- The sign of a difference tells the order of its operands, and the wrong way round if it
overflows. -/
theorem sign_beq_ssubOverflow : ((d - s).msb == d.ssubOverflow s) = decide (s.toInt ≤ d.toInt) := by
  cases hoverflow : d.ssubOverflow s with
  | false =>
    have hdifference := BitVec.toInt_sub_of_not_ssubOverflow (x := d) (y := s) (by simp [hoverflow])
    rw [BitVec.msb_eq_toInt, hdifference, beq_false, ← decide_not]
    exact decide_eq_decide.mpr (by omega)
  | true =>
    rw [BitVec.ssubOverflow_eq] at hoverflow
    have hd := BitVec.msb_eq_toInt (x := d)
    have hs := BitVec.msb_eq_toInt (x := s)
    cases hdsign : d.msb <;> cases hssign : s.msb <;> cases hsign : (d - s).msb <;>
      simp_all <;> omega

theorem ssubOverflow_iff :
    d.ssubOverflow s = true ↔
      ¬ (-2 ^ (w - 1) ≤ d.toInt - s.toInt ∧ d.toInt - s.toInt < 2 ^ (w - 1)) := by
  simp only [BitVec.ssubOverflow, Bool.or_eq_true, decide_eq_true_eq]
  omega

theorem saddOverflow_iff :
    s.saddOverflow d = true ↔
      ¬ (-2 ^ (w - 1) ≤ s.toInt + d.toInt ∧ s.toInt + d.toInt < 2 ^ (w - 1)) := by
  simp only [BitVec.saddOverflow, Bool.or_eq_true, decide_eq_true_eq]
  omega

end

/-! ## Values and condition codes -/

section

variable (src dst : Long) (size : Size) (sr : Status)

theorem value_compare :
    (compare src dst size sr).value = (size.operand dst - size.operand src).setWidth 32 := by
  simp only [compare, size.and_mask, Size.operand_sub, Size.operand_setWidth]

theorem value_sub :
    (sub src dst size sr).value = (size.operand dst - size.operand src).setWidth 32 :=
  value_compare src dst size sr

theorem value_add :
    (add src dst size sr).value = (size.operand src + size.operand dst).setWidth 32 := by
  simp only [add, size.and_mask, Size.operand_add, Size.operand_setWidth]

theorem codes_compare :
    (compare src dst size sr).status.codes =
      { extend := sr.codes.extend
        negative := (size.operand dst - size.operand src).msb
        zero := size.operand dst - size.operand src == 0
        overflow := (size.operand dst).ssubOverflow (size.operand src)
        carry := (size.operand dst).usubOverflow (size.operand src) } := by
  have hpos := size.bits_pos
  simp only [compare, Status.codes_setIf_overflow, Status.codes_setIf_carry, Status.codes_setNZ,
    size.and_msb_ne_zero_eq_msb, size.and_mask, Size.operand_sub, Size.operand_setWidth,
    Size.operand_and, Size.operand_or, Size.operand_xor, Size.operand_not, BitVec.msb_and,
    BitVec.msb_or, BitVec.msb_xor, BitVec.msb_not, decide_eq_true hpos, Bool.true_and,
    borrow_eq_usubOverflow _ _ hpos, overflow_eq_ssubOverflow]

/-- A subtraction is a comparison that lets X follow C. -/
theorem codes_sub :
    (sub src dst size sr).status.codes =
      { (compare src dst size sr).status.codes with
        extend := (size.operand dst).usubOverflow (size.operand src) } := by
  have hcarry := congrArg ConditionCodes.carry (codes_compare src dst size sr)
  simp only [Status.codes] at hcarry
  simp only [sub, Status.codes_setIf_extend, hcarry]

theorem codes_add :
    (add src dst size sr).status.codes =
      { extend := (size.operand src).uaddOverflow (size.operand dst)
        negative := (size.operand src + size.operand dst).msb
        zero := size.operand src + size.operand dst == 0
        overflow := (size.operand src).saddOverflow (size.operand dst)
        carry := (size.operand src).uaddOverflow (size.operand dst) } := by
  have hpos := size.bits_pos
  simp only [add, Status.codes_setIf_overflow, Status.codes_setIf_carry_extend, Status.codes_setNZ,
    size.and_msb_ne_zero_eq_msb, size.and_mask, Size.operand_add, Size.operand_setWidth,
    Size.operand_and, Size.operand_or, Size.operand_xor, Size.operand_not, BitVec.msb_and,
    BitVec.msb_or, BitVec.msb_xor, BitVec.msb_not, decide_eq_true hpos, Bool.true_and,
    carry_eq_uaddOverflow _ _ hpos, overflow_eq_saddOverflow]

end

end Arithmetic

/-! ## Conditions -/

/-- The conditions in a status register tell how two words compare: `d` with `s`, of which the
difference `d - s` was formed. -/
structure Status.Compares {w : Nat} (sr : Status) (d s : BitVec w) : Prop where
  hi : Condition.hi.holds sr ↔ s.toNat < d.toNat
  ls : Condition.ls.holds sr ↔ d.toNat ≤ s.toNat
  cc : Condition.cc.holds sr ↔ s.toNat ≤ d.toNat
  cs : Condition.cs.holds sr ↔ d.toNat < s.toNat
  eq : Condition.eq.holds sr ↔ d = s
  ne : Condition.ne.holds sr ↔ d ≠ s
  ge : Condition.ge.holds sr ↔ s.toInt ≤ d.toInt
  lt : Condition.lt.holds sr ↔ d.toInt < s.toInt
  gt : Condition.gt.holds sr ↔ s.toInt < d.toInt
  le : Condition.le.holds sr ↔ d.toInt ≤ s.toInt
  /-- The difference of the numbers is not that of the words. -/
  vs : Condition.vs.holds sr ↔
    ¬ (-2 ^ (w - 1) ≤ d.toInt - s.toInt ∧ d.toInt - s.toInt < 2 ^ (w - 1))
  vc : Condition.vc.holds sr ↔
    -2 ^ (w - 1) ≤ d.toInt - s.toInt ∧ d.toInt - s.toInt < 2 ^ (w - 1)
  mi : Condition.mi.holds sr ↔ (d - s).toInt < 0
  pl : Condition.pl.holds sr ↔ 0 ≤ (d - s).toInt

/-- **The condition codes of a difference decide all conditions.** -/
theorem Status.compares_of_codes {w : Nat} {sr : Status} {d s : BitVec w} {extend : Bool}
    (h : sr.codes = ⟨extend, (d - s).msb, d - s == 0, d.ssubOverflow s, d.usubOverflow s⟩) :
    sr.Compares d s := by
  have hzero : sr.codes.zero = decide (d = s) := by
    rw [h, Bool.eq_iff_iff, beq_iff_eq, decide_eq_true_iff, BitVec.sub_eq_iff_eq_add]
    exact iff_of_eq (congrArg _ (BitVec.zero_add s))
  have hcarry : sr.codes.carry = decide (d.toNat < s.toNat) := by
    rw [h]
    rfl
  have hnegative : sr.codes.negative = decide ((d - s).toInt < 0) := by
    rw [h, BitVec.msb_eq_toInt]
  have hoverflow : sr.codes.overflow = decide
      (¬ (-2 ^ (w - 1) ≤ d.toInt - s.toInt ∧ d.toInt - s.toInt < 2 ^ (w - 1))) := by
    rw [h, Bool.eq_iff_iff, Arithmetic.ssubOverflow_iff, decide_eq_true_iff]
  have horder : (sr.codes.negative == sr.codes.overflow) = decide (s.toInt ≤ d.toInt) := by
    rw [h, Arithmetic.sign_beq_ssubOverflow]
  have hunsigned : d = s ↔ d.toNat = s.toNat := BitVec.toNat_inj.symm
  have hsigned : d = s ↔ d.toInt = s.toInt := BitVec.toInt_inj.symm
  constructor
  case hi | ls =>
    simp only [Condition.holds_eq, hcarry, hzero, hunsigned, Bool.and_eq_true, Bool.or_eq_true,
      Bool.not_eq_true', decide_eq_true_eq, decide_eq_false_iff_not]
    omega
  case cc | cs =>
    simp only [Condition.holds_eq, hcarry, Bool.not_eq_true', decide_eq_true_eq,
      decide_eq_false_iff_not, Nat.not_lt]
  case eq | ne =>
    simp only [Condition.holds_eq, hzero, Bool.not_eq_true', decide_eq_true_eq,
      decide_eq_false_iff_not, ne_eq]
  case ge | lt =>
    simp only [Condition.holds_eq, bne, horder, Bool.not_eq_true', decide_eq_true_eq,
      decide_eq_false_iff_not, Int.not_le]
  case gt | le =>
    simp only [Condition.holds_eq, bne, horder, hzero, hsigned, Bool.and_eq_true, Bool.or_eq_true,
      Bool.not_eq_true', decide_eq_true_eq, decide_eq_false_iff_not]
    omega
  case vs | vc =>
    simp only [Condition.holds_eq, hoverflow, Bool.not_eq_true', decide_eq_true_eq,
      decide_eq_false_iff_not, not_not]
  case mi | pl =>
    simp only [Condition.holds_eq, hnegative, Bool.not_eq_true', decide_eq_true_eq,
      decide_eq_false_iff_not, Int.not_lt]

/-! ## What differences and sums tell -/

namespace Arithmetic

open Status

section

variable (src dst : Long) (size : Size) (sr : Status)

theorem compares_compare :
    (compare src dst size sr).status.Compares (size.operand dst) (size.operand src) :=
  compares_of_codes (codes_compare src dst size sr)

theorem compares_sub :
    (sub src dst size sr).status.Compares (size.operand dst) (size.operand src) := by
  apply compares_of_codes
  rw [codes_sub, codes_compare]

/-- The sum of the numbers, up to the width. -/
theorem toNat_value_add :
    (add src dst size sr).value.toNat =
      ((size.operand src).toNat + (size.operand dst).toNat) % 2 ^ size.bits := by
  rw [value_add, BitVec.toNat_setWidth_of_le size.bits_le, BitVec.toNat_add]

/-- A subtraction takes back what an addition has added. -/
theorem value_sub_add (sr' : Status) :
    (sub src (add src dst size sr).value size sr').value = dst &&& size.mask := by
  rw [value_sub, value_add, Size.operand_setWidth, BitVec.add_comm, BitVec.add_sub_cancel,
    size.and_mask]

end

/-- **Differences decide how their operands compare, and sums tell whether they fit.** A comparison
keeps X. A subtraction and an addition let X follow C. Nothing but condition codes is changed, and a
subtraction takes back an addition. -/
theorem relations (src dst : Long) (size : Size) (sr : Status) :
    let s := size.operand src
    let d := size.operand dst
    let compared := compare src dst size sr
    let difference := sub src dst size sr
    let sum := add src dst size sr
    (compared.value = (d - s).setWidth 32 ∧ compared.status.Compares d s ∧
      has compared.status extend = has sr extend ∧ compared.status.system = sr.system) ∧
    (difference.value = (d - s).setWidth 32 ∧ difference.status.Compares d s ∧
      has difference.status extend = has difference.status carry ∧
      difference.status.system = sr.system) ∧
    (sum.value.toNat = (s.toNat + d.toNat) % 2 ^ size.bits ∧
      (has sum.status carry ↔ 2 ^ size.bits ≤ s.toNat + d.toNat) ∧
      has sum.status extend = has sum.status carry ∧
      (has sum.status overflow ↔
        ¬ (-2 ^ (size.bits - 1) ≤ s.toInt + d.toInt ∧ s.toInt + d.toInt < 2 ^ (size.bits - 1))) ∧
      sum.status.system = sr.system) ∧
    ∀ sr' : Status, (sub src sum.value size sr').value = dst &&& size.mask := by
  intro s d compared difference sum
  have hcompared : compared.status.codes = _ := codes_compare src dst size sr
  have hdifference : difference.status.codes = _ := codes_sub src dst size sr
  have hsum : sum.status.codes = _ := codes_add src dst size sr
  refine ⟨⟨value_compare src dst size sr, compares_compare src dst size sr, ?_,
      system_compare src dst size sr⟩,
    ⟨value_sub src dst size sr, compares_sub src dst size sr, ?_, system_sub src dst size sr⟩,
    ⟨toNat_value_add src dst size sr, ?_, ?_, ?_, system_add src dst size sr⟩,
    value_sub_add src dst size sr⟩
  · exact congrArg ConditionCodes.extend hcompared
  · have hborrow := congrArg ConditionCodes.carry hcompared
    have hcarry := congrArg ConditionCodes.carry hdifference
    exact (congrArg ConditionCodes.extend hdifference).trans (hcarry.trans hborrow).symm
  · have hcarry : has sum.status carry = s.uaddOverflow d := congrArg ConditionCodes.carry hsum
    rw [hcarry, BitVec.uaddOverflow, decide_eq_true_iff]
  · have hcarry := congrArg ConditionCodes.carry hsum
    exact (congrArg ConditionCodes.extend hsum).trans hcarry.symm
  · have hoverflow : has sum.status overflow = s.saddOverflow d :=
      congrArg ConditionCodes.overflow hsum
    rw [hoverflow, saddOverflow_iff]

end Arithmetic

end M68k
