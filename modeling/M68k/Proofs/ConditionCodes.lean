import M68k.Condition
import M68k.Proofs.Privilege.Status
import M68k.Proofs.Size

/-!
# Condition codes

The five condition codes of a status register as a record of their own. An operation on a status
register is described by what it makes of them.

## Main definitions

* `ConditionCodes`: the five codes
* `Status.codes`: those of a status register

## Main results

* `Status.codes_setIf`: setting flags replaces the codes that are among them
* `Status.codes_setNZ`: N and Z describe an operand
* `Status.eq_of_codes`: the codes and the system part are all there is
* `Condition.holds_eq`: a condition is settled by the codes
-/

namespace M68k

/-- The condition codes. -/
structure ConditionCodes where
  extend : Bool
  negative : Bool
  zero : Bool
  overflow : Bool
  carry : Bool
deriving DecidableEq, Repr

namespace Status

/-- The condition codes of a status register. -/
def codes (sr : Status) : ConditionCodes where
  extend := has sr extend
  negative := has sr negative
  zero := has sr zero
  overflow := has sr overflow
  carry := has sr carry

variable (sr : Status)

theorem has_extend : has sr extend = sr.getLsbD 4 := has_twoPow 4 (by decide)

theorem has_negative : has sr negative = sr.getLsbD 3 := has_twoPow 3 (by decide)

theorem has_zero : has sr zero = sr.getLsbD 2 := has_twoPow 2 (by decide)

theorem has_overflow : has sr overflow = sr.getLsbD 1 := has_twoPow 1 (by decide)

theorem has_carry : has sr carry = sr.getLsbD 0 := has_twoPow 0 (by decide)

theorem getLsbD_setIf (flag : Status) (holds : Bool) (i : Nat) :
    (setIf sr flag holds).getLsbD i = if flag.getLsbD i then holds else sr.getLsbD i := by
  have hwidth : sr.getLsbD i = (decide (i < 16) && sr.getLsbD i) := by
    by_cases hi : i < 16
    · rw [decide_eq_true hi, Bool.true_and]
    · rw [BitVec.getLsbD_of_ge _ _ (by omega), Bool.and_false]
  cases holds with
  | false =>
    change (sr &&& ~~~flag).getLsbD i = _
    rw [BitVec.getLsbD_and, BitVec.getLsbD_not]
    cases flag.getLsbD i with
    | false => simpa [Bool.and_comm] using hwidth.symm
    | true => simp
  | true =>
    change (sr ||| flag).getLsbD i = _
    rw [BitVec.getLsbD_or]
    cases flag.getLsbD i <;> simp

/-- Setting flags replaces the codes that are among them. -/
theorem codes_setIf (flag : Status) (holds : Bool) :
    (setIf sr flag holds).codes =
      { extend := if flag.getLsbD 4 then holds else sr.codes.extend
        negative := if flag.getLsbD 3 then holds else sr.codes.negative
        zero := if flag.getLsbD 2 then holds else sr.codes.zero
        overflow := if flag.getLsbD 1 then holds else sr.codes.overflow
        carry := if flag.getLsbD 0 then holds else sr.codes.carry } := by
  simp only [codes, has_extend, has_negative, has_zero, has_overflow, has_carry, getLsbD_setIf]

@[simp] theorem codes_setIf_extend (holds : Bool) :
    (setIf sr extend holds).codes = { sr.codes with extend := holds } := codes_setIf sr _ holds

@[simp] theorem codes_setIf_negative (holds : Bool) :
    (setIf sr negative holds).codes = { sr.codes with negative := holds } := codes_setIf sr _ holds

@[simp] theorem codes_setIf_zero (holds : Bool) :
    (setIf sr zero holds).codes = { sr.codes with zero := holds } := codes_setIf sr _ holds

@[simp] theorem codes_setIf_overflow (holds : Bool) :
    (setIf sr overflow holds).codes = { sr.codes with overflow := holds } := codes_setIf sr _ holds

@[simp] theorem codes_setIf_carry (holds : Bool) :
    (setIf sr carry holds).codes = { sr.codes with carry := holds } := codes_setIf sr _ holds

@[simp] theorem codes_setIf_carry_extend (holds : Bool) :
    (setIf sr (carry ||| extend) holds).codes =
      { sr.codes with carry := holds, extend := holds } := codes_setIf sr _ holds

/-- The condition codes and the system part are all there is to a status register. -/
theorem eq_of_codes {sr sr' : Status} (hcodes : sr.codes = sr'.codes)
    (hsystem : sr.system = sr'.system) : sr = sr' := by
  simp only [codes, has_extend, has_negative, has_zero, has_overflow, has_carry,
    ConditionCodes.mk.injEq] at hcodes
  obtain ⟨hx, hn, hz, hv, hc⟩ := hcodes
  apply BitVec.eq_of_getLsbD_eq
  intro i hi
  have hbit := congrArg (·.getLsbD i) hsystem
  simp only [system, conditionCodes, BitVec.getLsbD_and, BitVec.getLsbD_not] at hbit
  interval_cases i <;> first | assumption | simpa using hbit

/-- Clearing a flag is setting it to false. -/
theorem clear_eq_setIf (flag : Status) : sr &&& ~~~flag = setIf sr flag false := rfl

/-- N and Z describe an operand. -/
@[simp] theorem codes_setNZ (value : Long) (size : Size) :
    (setNZ sr value size).codes =
      { sr.codes with
        negative := (size.operand value).msb
        zero := size.operand value == 0 } := by
  rw [setNZ, codes_setIf_negative, codes_setIf_zero, size.and_mask_eq_zero,
    size.and_msb_ne_zero_eq_msb]

end Status

/-- A condition is settled by the condition codes. -/
theorem Condition.holds_eq (condition : Condition) (sr : Status) :
    condition.holds sr =
      let codes := sr.codes
      match condition with
      | t => true
      | f => false
      | hi => !codes.carry && !codes.zero
      | ls => codes.carry || codes.zero
      | cc => !codes.carry
      | cs => codes.carry
      | ne => !codes.zero
      | eq => codes.zero
      | vc => !codes.overflow
      | vs => codes.overflow
      | pl => !codes.negative
      | mi => codes.negative
      | ge => codes.negative == codes.overflow
      | lt => codes.negative != codes.overflow
      | gt => !codes.zero && codes.negative == codes.overflow
      | le => codes.zero || codes.negative != codes.overflow := rfl

end M68k
