import M68k.Proofs.Arithmetic.Chain
import M68k.Proofs.Arithmetic.Comparison

/-!
# Subtraction of long numbers

A number of several operands is subtracted operand by operand, with the borrow in X. A chain of
subtractions leaves the difference of the numbers, and at its end the condition codes are those of
the whole: C and X hold the borrow, Z tells whether the difference is zero, and N and V are its sign
and its signed overflow. A negation is a subtraction from zero, which may also begin without a
borrow.

## Main definitions

* `Arithmetic.difference`: a difference less a borrow
* `Size.number`, `Size.isNegative`: the number that operands make up, and its sign
* `Arithmetic.Subtracted`: what a chain leaves that has subtracted one number from another

## Main results

* `Arithmetic.codes_subx`: the condition codes of a single difference
* `Arithmetic.sub_eq_subx`: a difference without a borrow is the first link of a chain
* `Arithmetic.subtracted_subx`: a chain of subtractions subtracts the numbers
* `Arithmetic.subtraction_chains`: so do all chains of subtractions and negations
-/

namespace M68k

open Status

/-- A word is zero if it is when it is made longer. -/
theorem Size.setWidth_beq_zero (size : Size) (x : BitVec size.bits) :
    (x.setWidth 32 == 0) = (x == 0) := by
  have hmask := size.and_mask_eq_zero (x.setWidth 32)
  rwa [Size.operand_setWidth, size.and_mask, Size.operand_setWidth] at hmask

namespace Arithmetic

/-! ## A single difference -/

section

variable {w : Nat} (d s : BitVec w) (x : Bool)

/-- The difference of two words, less a borrow. -/
def difference : BitVec w := d - s - if x then 1 else 0

/-- The borrow of a difference is worth one more than its word can hold. -/
theorem toNat_difference (hw : 0 < w) :
    (difference d s x).toNat + s.toNat + x.toNat =
      d.toNat + 2 ^ w * (decide (d.toNat < s.toNat + x.toNat)).toNat := by
  have hone : 1 < 2 ^ w := Nat.one_lt_two_pow (by omega)
  have hsum : difference d s x + s + (if x then 1 else 0) = d := by
    rw [difference, BitVec.add_assoc, BitVec.add_comm s, ← BitVec.add_assoc, BitVec.sub_add_cancel,
      BitVec.sub_add_cancel]
  have hx : (if x then 1 else 0 : BitVec w).toNat = x.toNat := by
    cases x
    · exact BitVec.toNat_zero
    · exact (BitVec.toNat_ofNat 1 w).trans (Nat.mod_eq_of_lt hone)
  have hmod := congrArg BitVec.toNat hsum
  rw [BitVec.toNat_add, BitVec.toNat_add, hx, Nat.mod_add_mod] at hmod
  have hbit : x.toNat ≤ 1 := x.toNat_le
  have hd := d.isLt
  have hs := s.isLt
  have hv := (difference d s x).isLt
  by_cases hwrap : 2 ^ w ≤ (difference d s x).toNat + s.toNat + x.toNat
  · rw [Nat.mod_eq_sub_mod hwrap, Nat.mod_eq_of_lt (by omega)] at hmod
    rw [decide_eq_true (by omega), Bool.toNat_true]
    omega
  · rw [Nat.mod_eq_of_lt (by omega)] at hmod
    rw [decide_eq_false (by omega), Bool.toNat_false]
    omega

/-- The borrow of a difference, from the sign bits of operands and result. -/
theorem borrow_eq_decide (hw : 0 < w) :
    (!d.msb && s.msb || (!d.msb || s.msb) && (difference d s x).msb) =
      decide (d.toNat < s.toNat + x.toNat) := by
  have hpow : 2 ^ w = 2 ^ (w - 1) * 2 := (Nat.two_pow_pred_mul_two hw).symm
  have hsum := toNat_difference d s x hw
  have hbit : x.toNat ≤ 1 := x.toNat_le
  have hd := d.isLt
  have hs := s.isLt
  have hv := (difference d s x).isLt
  simp only [BitVec.msb_eq_decide, hpow] at *
  generalize 2 ^ (w - 1) = half at *
  generalize (difference d s x).toNat = v at *
  by_cases hborrow : d.toNat < s.toNat + x.toNat
  · rw [decide_eq_true hborrow, Bool.toNat_true] at hsum
    rw [decide_eq_true hborrow]
    simp
    omega
  · rw [decide_eq_false hborrow, Bool.toNat_false] at hsum
    rw [decide_eq_false hborrow]
    simp
    omega

end

section

variable (src dst : Long) (size : Size) (sr : Status)

theorem operand_borrow (x : Bool) :
    size.operand (if x then 1 else 0) = if x then 1 else 0 := by
  cases x <;> cases size <;> rfl

theorem value_subx :
    (subx src dst size sr).value =
      (difference (size.operand dst) (size.operand src) (has sr extend)).setWidth 32 := by
  simp only [subx, size.and_mask, Size.operand_sub, Size.operand_setWidth, operand_borrow,
    difference]

/-- The condition codes of a difference with a borrow. -/
theorem codes_subx :
    let d := size.operand dst
    let s := size.operand src
    let result := difference d s (has sr extend)
    let borrow := decide (d.toNat < s.toNat + (has sr extend).toNat)
    (subx src dst size sr).status.codes =
      { extend := borrow
        negative := result.msb
        zero := sr.codes.zero && (subx src dst size sr).value == 0
        overflow := (s.msb ^^ d.msb) && (result.msb ^^ d.msb)
        carry := borrow } := by
  have hpos := size.bits_pos
  simp only [subx, Status.codes_setIf_overflow, Status.codes_setIf_carry_extend,
    Status.codes_ite_zero, Status.codes_setIf_negative, size.and_msb_ne_zero_eq_msb, size.and_mask,
    Size.operand_sub, Size.operand_setWidth, Size.operand_and, Size.operand_or, Size.operand_xor,
    Size.operand_not, operand_borrow, BitVec.msb_and, BitVec.msb_or, BitVec.msb_xor,
    BitVec.msb_not, decide_eq_true hpos, Bool.true_and, ← borrow_eq_decide _ _ _ hpos, difference]

/-- **A difference without a borrow is the first link of a chain**, at which X is clear and Z is
set. -/
theorem sub_eq_subx {fresh : Status} (hsystem : fresh.system = sr.system)
    (hextend : has fresh extend = false) (hzero : has fresh zero = true) :
    sub src dst size sr = subx src dst size fresh := by
  have hpos := size.bits_pos
  have hdifference : difference (size.operand dst) (size.operand src) false =
      size.operand dst - size.operand src := by
    rw [difference, if_neg Bool.false_ne_true]
    exact BitVec.sub_zero _
  have hvalue : (sub src dst size sr).value = (subx src dst size fresh).value := by
    rw [value_sub, value_subx, hextend, hdifference]
  have hstatus : (sub src dst size sr).status = (subx src dst size fresh).status := by
    apply eq_of_codes
    · have hfresh : fresh.codes.zero = true := hzero
      rw [codes_sub, codes_compare, codes_subx, ← hvalue, value_sub, Size.setWidth_beq_zero,
        hextend, hfresh, hdifference, overflow_eq_ssubOverflow, Bool.true_and]
      rfl
    · rw [system_sub, system_subx, hsystem]
  cases hsub : sub src dst size sr
  cases hsubx : subx src dst size fresh
  rw [hsub, hsubx] at hvalue hstatus
  exact congrArg₂ Computed.mk hvalue hstatus

end

end Arithmetic

/-! ## Numbers of several operands -/

namespace Size

variable (size : Size)

/-- The number that operands make up, the least significant one first. -/
def number (operands : List Long) : Nat :=
  Nat.ofDigits (2 ^ size.bits) (operands.map fun value => (size.operand value).toNat)

theorem one_lt_base : 1 < 2 ^ size.bits := Nat.one_lt_two_pow (Nat.pos_iff_ne_zero.1 size.bits_pos)

theorem number_lt (operands : List Long) :
    size.number operands < 2 ^ (size.bits * operands.length) := by
  rw [Nat.pow_mul]
  exact ofDigits_map_lt size.one_lt_base fun value _ => (size.operand value).isLt

theorem number_replicate_zero (n : Nat) : size.number (List.replicate n 0) = 0 := by
  rw [number, List.map_replicate, operand_zero]
  exact Nat.ofDigits_replicate_zero

theorem number_concat (operands : List Long) (top : Long) :
    size.number (operands ++ [top]) =
      size.number operands + 2 ^ (size.bits * operands.length) * (size.operand top).toNat := by
  rw [number, List.map_append, Nat.ofDigits_append, List.length_map, ← Nat.pow_mul]
  rfl

/-- The sign bit of a number. -/
def isNegative (operands : List Long) : Bool :=
  decide (2 ^ (size.bits * operands.length - 1) ≤ size.number operands)

/-- It is that of its topmost operand. -/
theorem isNegative_concat (operands : List Long) (top : Long) :
    size.isNegative (operands ++ [top]) = (size.operand top).msb := by
  have hpos := size.bits_pos
  have hlow := size.number_lt operands
  rw [isNegative, number_concat, List.length_append, List.length_singleton, BitVec.msb_eq_decide]
  have hpow : 2 ^ (size.bits * (operands.length + 1) - 1) =
      2 ^ (size.bits * operands.length) * 2 ^ (size.bits - 1) := by
    rw [← Nat.pow_add, Nat.mul_succ]
    congr 1
    omega
  rw [hpow]
  generalize 2 ^ (size.bits * operands.length) = unit at *
  generalize 2 ^ (size.bits - 1) = half at *
  generalize (size.operand top).toNat = high at *
  apply decide_eq_decide.2
  constructor
  · intro hle
    by_contra hlt
    have hnext : unit * (high + 1) ≤ unit * half := Nat.mul_le_mul_left unit (by omega)
    rw [Nat.mul_add, Nat.mul_one] at hnext
    omega
  · intro hle
    exact Nat.le_add_left_of_le (Nat.mul_le_mul_left unit hle)

end Size

/-- The signed overflow of a difference, from the sign bits of numbers and result: they are split in
half by their sign. -/
theorem overflow_iff_of_signs {d s v half : Nat} {x borrow : Bool}
    (hsum : v + s + x.toNat = d + 2 * half * borrow.toNat)
    (hd : d < 2 * half) (hs : s < 2 * half) (hv : v < 2 * half) :
    let signed (number : Nat) : Int := if number < half then number else number - 2 * half
    ((decide (half ≤ s) ^^ decide (half ≤ d)) && (decide (half ≤ v) ^^ decide (half ≤ d))) = true ↔
      ¬ (-half ≤ signed d - signed s - x.toNat ∧ signed d - signed s - x.toNat < half) := by
  intro signed
  simp only [signed]
  by_cases hds : half ≤ d <;> by_cases hss : half ≤ s <;> by_cases hvs : half ≤ v <;>
    cases x <;> cases borrow <;> simp [hds, hss, hvs] at hsum ⊢ <;> omega

/-- A number read as a signed word. -/
theorem toInt_ofNat_of_lt {w number : Nat} (hw : 0 < w) (h : number < 2 ^ w) :
    (BitVec.ofNat w number).toInt =
      if number < 2 ^ (w - 1) then (number : Int) else number - 2 * (2 ^ (w - 1) : Nat) := by
  have hpow : 2 ^ w = 2 ^ (w - 1) * 2 := (Nat.two_pow_pred_mul_two hw).symm
  rw [BitVec.toInt_eq_toNat_cond, BitVec.toNat_ofNat, Nat.mod_eq_of_lt h, hpow]
  generalize 2 ^ (w - 1) = half
  split <;> split <;> omega

namespace Arithmetic

/-! ## Chains of subtractions -/

/-- What a chain leaves that has subtracted `s` and a borrow from `d`, numbers of `n` operands. -/
structure Subtracted (size : Size) (n d s : Nat) (x : Bool) (values : List Long) (sr : Status) :
    Prop where
  length : values.length = n
  /-- The values have no bits above the size, -/
  operands : ∀ value ∈ values, value &&& size.mask = value
  /-- and make up the difference, up to the width of the numbers. -/
  number : (size.number values : Int) = ((d : Int) - s - x.toNat) % (2 ^ (size.bits * n) : Nat)
  /-- The difference is below zero. -/
  carry : has sr carry ↔ (d : Int) - s - x.toNat < 0
  extend : has sr extend = has sr Status.carry
  zero : has sr zero ↔ ∀ value ∈ values, value = 0
  negative : has sr negative ↔ (BitVec.ofNat (size.bits * n) (size.number values)).toInt < 0
  /-- The difference of the signed numbers does not fit into their width. -/
  overflow :
    let signed (number : Nat) : Int := (BitVec.ofNat (size.bits * n) number).toInt
    let half : Int := (2 ^ (size.bits * n - 1) : Nat)
    has sr overflow ↔ ¬ (-half ≤ signed d - signed s - x.toNat ∧
      signed d - signed s - x.toNat < half)

variable (size : Size) (sr : Status)

/-- At the end of a chain the condition codes but for Z are those of the topmost operands. -/
theorem codes_chain_subx {srcs dsts : List Long} (hlength : srcs.length = dsts.length)
    (hne : dsts ≠ []) :
    let outcome := chain (List.zipWith (subx · · size) srcs dsts) sr
    has outcome.2 extend = has outcome.2 carry ∧
      has outcome.2 negative = size.isNegative outcome.1 ∧
      has outcome.2 overflow =
        ((size.isNegative srcs ^^ size.isNegative dsts) &&
          (size.isNegative outcome.1 ^^ size.isNegative dsts)) := by
  have hsrcs : srcs ≠ [] := by
    rintro rfl
    exact hne (List.length_eq_zero_iff.1 hlength.symm)
  obtain ⟨dsts, dst, rfl⟩ := (List.eq_nil_or_concat dsts).resolve_left hne
  obtain ⟨srcs, src, rfl⟩ := (List.eq_nil_or_concat srcs).resolve_left hsrcs
  simp only [List.concat_eq_append, List.length_append, List.length_singleton,
    Nat.add_right_cancel_iff] at hlength ⊢
  rw [List.zipWith_append hlength, List.zipWith_cons_cons, List.zipWith_nil_left, chain_concat]
  generalize chain (List.zipWith (subx · · size) srcs dsts) sr = before
  have hcodes := codes_subx src dst size before.2
  have hvalue : size.operand (subx src dst size before.2).value =
      difference (size.operand dst) (size.operand src) (has before.2 extend) := by
    rw [value_subx, Size.operand_setWidth]
  simp only [Size.isNegative_concat, hvalue]
  refine ⟨?_, ?_, ?_⟩
  · exact (congrArg ConditionCodes.extend hcodes).trans (congrArg ConditionCodes.carry hcodes).symm
  · exact congrArg ConditionCodes.negative hcodes
  · exact congrArg ConditionCodes.overflow hcodes

/-- The numbers of a chain of subtractions. -/
theorem number_chain_subx {srcs dsts : List Long} (hlength : srcs.length = dsts.length) :
    let outcome := chain (List.zipWith (subx · · size) srcs dsts) sr
    size.number outcome.1 + size.number srcs + (has sr extend).toNat =
      size.number dsts + 2 ^ (size.bits * dsts.length) * (has outcome.2 extend).toNat := by
  rw [Nat.pow_mul]
  refine chain_subtracts hlength (fun src _ dst _ sr => ?_) sr
  have hborrow : has (subx src dst size sr).status extend = _ :=
    congrArg ConditionCodes.extend (codes_subx src dst size sr)
  rw [hborrow, value_subx, Size.operand_setWidth]
  exact toNat_difference _ _ _ size.bits_pos

theorem and_mask_chain_subx (srcs dsts : List Long) :
    ∀ value ∈ (chain (List.zipWith (subx · · size) srcs dsts) sr).1,
      value &&& size.mask = value := by
  refine forall_chain _ sr fun link hlink sr => ?_
  obtain ⟨src, _, dst, _, rfl⟩ := exists_of_mem_zipWith hlink
  rw [value_subx, size.and_mask, Size.operand_setWidth]

theorem has_zero_chain_subx (srcs dsts : List Long) :
    let outcome := chain (List.zipWith (subx · · size) srcs dsts) sr
    has outcome.2 zero = (has sr zero && outcome.1.all (· == 0)) := by
  refine has_zero_chain _ sr fun link hlink sr => ?_
  obtain ⟨src, _, dst, _, rfl⟩ := exists_of_mem_zipWith hlink
  exact congrArg ConditionCodes.zero (codes_subx src dst size sr)

/-- **A chain of subtractions subtracts the numbers.** -/
theorem subtracted_subx {srcs dsts : List Long} (hlength : srcs.length = dsts.length)
    (hne : dsts ≠ []) {sr : Status} (hzero : has sr zero) :
    let outcome := chain (List.zipWith (subx · · size) srcs dsts) sr
    Subtracted size dsts.length (size.number dsts) (size.number srcs) (has sr extend) outcome.1
      outcome.2 := by
  have hvalues := length_outcome (subx · · size) hlength sr
  have hoperands := and_mask_chain_subx size sr srcs dsts
  have hclears := has_zero_chain_subx size sr srcs dsts
  have hadd := number_chain_subx size sr hlength
  obtain ⟨hextend, hnegative, hoverflow⟩ := codes_chain_subx size sr hlength hne
  have hwidth : 0 < size.bits * dsts.length :=
    Nat.mul_pos size.bits_pos (List.length_pos_iff.2 hne)
  have hdst := size.number_lt dsts
  have hsrc := size.number_lt srcs
  dsimp only at hclears hadd ⊢
  generalize chain (List.zipWith (subx · · size) srcs dsts) sr = outcome at *
  have hvalue := size.number_lt outcome.1
  simp only [Size.isNegative, hvalues, hlength] at hsrc hvalue hnegative hoverflow
  obtain ⟨hnumber, hborrow⟩ := difference_of_add hadd hvalue
  refine
    { length := hvalues
      operands := hoperands
      number := hnumber
      carry := by rw [← hextend]; exact hborrow
      extend := hextend
      zero := ?_
      negative := ?_
      overflow := ?_ }
  · -- zero is only ever cleared, and it was set before
    rw [hclears, hzero, Bool.true_and, List.all_eq_true]
    simp only [beq_iff_eq]
  · rw [hnegative, toInt_ofNat_of_lt hwidth hvalue, decide_eq_true_iff]
    have hpow := Nat.two_pow_pred_mul_two hwidth
    split <;> omega
  · intro signed half
    have hpow : 2 ^ (size.bits * dsts.length) = 2 * 2 ^ (size.bits * dsts.length - 1) :=
      (Nat.two_pow_pred_mul_two hwidth).symm.trans (Nat.mul_comm _ _)
    simp only [signed, toInt_ofNat_of_lt hwidth hdst, toInt_ofNat_of_lt hwidth hsrc]
    rw [hoverflow]
    rw [hpow] at hadd hdst hsrc hvalue
    exact overflow_iff_of_signs hadd hdst hsrc hvalue

/-- A chain of negations subtracts from zeros. -/
theorem map_negx_eq (operands : List Long) :
    operands.map (negx · size) =
      List.zipWith (subx · · size) operands (List.replicate operands.length 0) := by
  induction operands with
  | nil => rfl
  | cons value operands ih =>
    rw [List.map_cons, ih]
    rfl

/-- **A chain of negations subtracts the number from zero.** -/
theorem subtracted_negx {operands : List Long} (hne : operands ≠ []) {sr : Status}
    (hzero : has sr zero) :
    let outcome := chain (operands.map (negx · size)) sr
    Subtracted size operands.length 0 (size.number operands) (has sr extend) outcome.1
      outcome.2 := by
  have hzeros : List.replicate operands.length (0 : Long) ≠ [] := by
    intro h
    exact hne (List.length_eq_zero_iff.1 (by simpa using congrArg List.length h))
  have hsubtracted := subtracted_subx size List.length_replicate.symm hzeros hzero
  rw [← map_negx_eq, List.length_replicate, size.number_replicate_zero] at hsubtracted
  exact hsubtracted

/-- **So does a chain that begins with a negation**, which takes no borrow in, whatever the status
register is. -/
theorem subtracted_neg (first : Long) (others : List Long) :
    let outcome := chain (neg first size :: others.map (negx · size)) sr
    Subtracted size (others.length + 1) 0 (size.number (first :: others)) false outcome.1
      outcome.2 := by
  obtain ⟨fresh, hsystem, hextend, hzero⟩ : ∃ fresh : Status, fresh.system = sr.system ∧
      has fresh extend = false ∧ has fresh zero = true := by
    have hcodes : (setIf (setIf sr extend false) zero true).codes =
        { sr.codes with extend := false, zero := true } := by
      rw [codes_setIf_zero, codes_setIf_extend]
    refine ⟨setIf (setIf sr extend false) zero true, ?_, ?_, ?_⟩
    · rw [system_setIf (by decide), system_setIf (by decide)]
    · exact congrArg ConditionCodes.extend hcodes
    · exact congrArg ConditionCodes.zero hcodes
  have hsubtracted := subtracted_negx size (List.cons_ne_nil first others) hzero
  have hfirst : neg first size sr = negx first size fresh :=
    sub_eq_subx first 0 size sr hsystem hextend hzero
  rw [hextend, List.map_cons, chain_cons, ← hfirst] at hsubtracted
  exact hsubtracted

/-- **Chains of subtractions and negations subtract numbers of any length.** Where a chain begins
with Z set and a borrow in X, it subtracts both the number and the borrow, from another number or
from zero. A chain of negations that begins with one that ignores X gives the two's complement. -/
theorem subtraction_chains (hzero : has sr zero) :
    (∀ srcs dsts : List Long, srcs.length = dsts.length → dsts ≠ [] →
      let outcome := chain (List.zipWith (subx · · size) srcs dsts) sr
      Subtracted size dsts.length (size.number dsts) (size.number srcs) (has sr extend) outcome.1
        outcome.2) ∧
    (∀ operands : List Long, operands ≠ [] →
      let outcome := chain (operands.map (negx · size)) sr
      Subtracted size operands.length 0 (size.number operands) (has sr extend) outcome.1
        outcome.2) ∧
    ∀ (first : Long) (others : List Long) (sr' : Status),
      let outcome := chain (neg first size :: others.map (negx · size)) sr'
      Subtracted size (others.length + 1) 0 (size.number (first :: others)) false outcome.1
        outcome.2 := by
  refine ⟨?_, ?_, ?_⟩
  · intro srcs dsts hlength hne
    exact subtracted_subx size hlength hne hzero
  · intro operands hne
    exact subtracted_negx size hne hzero
  · intro first others sr'
    exact subtracted_neg size sr' first others

/-- `0x0100 - 0x0001` and a borrow, byte by byte. -/
theorem subtraction_chains_bytes :
    let sr := zero ||| extend
    let outcome := chain (List.zipWith (subx · · .byte) [0x01, 0x00] [0x00, 0x01]) sr
    has sr zero ∧ outcome.1 = [0xFE, 0x00] ∧
      Subtracted .byte 2 (Size.byte.number [0x00, 0x01]) (Size.byte.number [0x01, 0x00]) true
        outcome.1 outcome.2 := by
  refine ⟨by decide, by decide, ?_⟩
  exact (subtraction_chains .byte (zero ||| extend) (by decide)).1 [0x01, 0x00] [0x00, 0x01] rfl
    (List.cons_ne_nil _ _)

end Arithmetic

end M68k
