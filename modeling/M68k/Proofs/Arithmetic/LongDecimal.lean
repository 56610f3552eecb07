import M68k.Proofs.Arithmetic.Chain
import M68k.Proofs.Arithmetic.Guards

/-!
# Packed decimal arithmetic on long numbers

A decimal number of several bytes is added or subtracted byte by byte, with the carry or borrow in
X. Of each byte, first the low digit is corrected, then the whole byte: a low digit over nine
carries into the high one, and a byte over ninety-nine out of the byte. What chains of such
operations leave is again decimal, and it is the sum or difference of the numbers.

## Main definitions

* `PackedDecimal.decimal`, `PackedDecimal.pack`: the number of a byte, and the byte of a number
* `PackedDecimal.number`: the number that decimal bytes make up
* `PackedDecimal.Packed`: what a chain leaves that gives a number

## Main results

* `PackedDecimal.add_eq`, `PackedDecimal.sub_eq`: sums and differences of single bytes
* `PackedDecimal.packed_add`, `PackedDecimal.packed_sub`: chains add and subtract numbers
* `PackedDecimal.sub_chain_add`: a chain of differences takes back a chain of sums
* `PackedDecimal.decimal_chains`: all of these together, with the guard of each sum
-/

namespace M68k

open Status

namespace PackedDecimal

/-! ## Bytes of two digits -/

/-- The number that the two digits of the low byte make up. -/
def decimal (x : Long) : Nat := 10 * (x.toNat / 16 % 16) + x.toNat % 16

/-- The byte of the two digits of a number. -/
def pack (number : Nat) : Long := BitVec.ofNat 32 (16 * (number / 10) + number % 10)

theorem toNat_lowDigit (x : Long) : (x &&& 0x0F).toNat = x.toNat % 16 := by
  rw [BitVec.toNat_and]
  exact Nat.and_two_pow_sub_one_eq_mod _ 4

theorem toNat_highDigit (x : Long) : (x &&& 0xF0).toNat = 16 * (x.toNat / 16 % 16) := by
  have hshift : x &&& 0xF0#32 = ((x >>> 4) &&& 0x0F#32) <<< 4 := by
    ext i hi
    interval_cases i <;> simp
  have hlow : ((x >>> 4) &&& 0x0F#32).toNat = x.toNat / 16 % 16 := by
    rw [← Nat.shiftRight_eq_div_pow x.toNat 4, ← BitVec.toNat_ushiftRight]
    exact toNat_lowDigit (x >>> 4)
  calc (x &&& 0xF0#32).toNat
      = (((x >>> 4) &&& 0x0F#32) <<< 4).toNat := congrArg _ hshift
    _ = 16 * (x.toNat / 16 % 16) := by
        rw [BitVec.toNat_shiftLeft, hlow, Nat.shiftLeft_eq]
        omega

theorem toNat_byte (x : Long) : (x &&& 0xFF).toNat = x.toNat % 256 := by
  rw [BitVec.toNat_and]
  exact Nat.and_two_pow_sub_one_eq_mod _ 8

theorem isDecimal_iff (x : Long) : IsDecimal x ↔ x.toNat % 16 ≤ 9 ∧ x.toNat / 16 % 16 ≤ 9 := by
  rw [IsDecimal, BitVec.le_def, BitVec.le_def, toNat_lowDigit, toNat_highDigit]
  change _ ≤ 9 ∧ _ ≤ 144 ↔ _
  omega

theorem toNat_pack {number : Nat} (h : number < 100) :
    (pack number).toNat = 16 * (number / 10) + number % 10 := by
  rw [pack, BitVec.toNat_ofNat, Nat.mod_eq_of_lt (by omega)]

theorem decimal_pack {number : Nat} (h : number < 100) : decimal (pack number) = number := by
  rw [decimal, toNat_pack h]
  omega

theorem isDecimal_pack {number : Nat} (h : number < 100) : IsDecimal (pack number) := by
  rw [isDecimal_iff, toNat_pack h]
  omega

theorem pack_and_byte {number : Nat} (h : number < 100) : pack number &&& 0xFF = pack number := by
  apply BitVec.eq_of_toNat_eq
  rw [toNat_byte, toNat_pack h]
  omega

theorem pack_decimal {x : Long} (h : IsDecimal x) : pack (decimal x) = x &&& 0xFF := by
  obtain ⟨hlow, hhigh⟩ := (isDecimal_iff x).1 h
  apply BitVec.eq_of_toNat_eq
  rw [toNat_byte, toNat_pack (by rw [decimal]; omega), decimal]
  omega

theorem decimal_lt {x : Long} (h : IsDecimal x) : decimal x < 100 := by
  obtain ⟨hlow, hhigh⟩ := (isDecimal_iff x).1 h
  rw [decimal]
  omega

/-! ## Single bytes -/

/-- The condition codes of a corrected result. -/
theorem codes_finish (binary result : Long) (carry : Bool) (sr : Status) :
    (finish binary result carry sr).status.codes =
      { extend := carry
        negative := result &&& 0xFF &&& 0x80 != 0
        zero := sr.codes.zero && result &&& 0xFF == 0
        overflow := ~~~binary &&& result &&& 0x80 != 0
        carry := carry } := by
  simp only [finish, codes_ite_zero, codes_setIf_negative, codes_setIf_overflow,
    codes_setIf_carry_extend]

theorem toNat_carry (sr : Status) :
    (if has sr extend then 1 else 0 : Long).toNat = (has sr extend).toNat := by
  cases has sr extend <;> rfl

section

variable {a b u v x : Long} {s₀ s₁ d₀ d₁ carry : Nat}

/-- The two corrections of a sum: the low digit carries into the high one, and the high one out of
the byte. -/
theorem correct_sum (ha : a.toNat = s₀) (hb : b.toNat = d₀) (hu : u.toNat = 16 * s₁)
    (hv : v.toNat = 16 * d₁) (hx : x.toNat = carry) (hs₀ : s₀ ≤ 9) (hd₀ : d₀ ≤ 9) (hs₁ : s₁ ≤ 9)
    (hd₁ : d₁ ≤ 9) (hcarry : carry ≤ 1) :
    let total := 10 * d₁ + d₀ + (10 * s₁ + s₀) + carry
    let low := if a + b + x > 9 then a + b + x + 6 else a + b + x
    let sum := low + (u + v)
    decide (sum > 0x99) = decide (100 ≤ total) ∧
      (if decide (sum > 0x99) then sum - 0xA0 else sum) = pack (total % 100) := by
  intro total low sum
  have hlow : low.toNat = 16 * ((s₀ + d₀ + carry) / 10) + (s₀ + d₀ + carry) % 10 := by
    simp only [low]
    split <;> bv_omega
  have hsum : sum.toNat = 16 * (total / 10) + total % 10 := by
    simp only [sum, total]
    bv_omega
  have htotal : total < 200 := by omega
  have hover : sum > 0x99 ↔ 100 ≤ total := by
    rw [gt_iff_lt, BitVec.lt_def, hsum]
    change 153 < _ ↔ _
    omega
  refine ⟨decide_eq_decide.2 hover, BitVec.eq_of_toNat_eq ?_⟩
  rw [toNat_pack (Nat.mod_lt _ (by decide))]
  by_cases hle : 100 ≤ total
  · rw [decide_eq_true (hover.2 hle), if_pos rfl]
    bv_omega
  · rw [decide_eq_false (mt hover.1 hle), if_neg Bool.false_ne_true]
    omega

/-- A byte that is a hundred short in decimal. -/
theorem correct_borrow {difference : Long} {total : Nat}
    (h : (difference + 0xA0).toNat = 16 * (total / 10) + total % 10) (htotal : total < 200) :
    decide (difference > 0x99) = decide (total < 100) ∧
      (if decide (difference > 0x99) then difference + 0xA0 else difference) =
        pack (total % 100) := by
  have hborrow : difference > 0x99 ↔ total < 100 := by
    have hshort : total < 100 ↔ 16 * (total / 10) + total % 10 < 0xA0 := by omega
    have hbyte : 16 * (total / 10) + total % 10 < 0x13A := by omega
    rw [hshort, gt_iff_lt, BitVec.lt_def]
    generalize 16 * (total / 10) + total % 10 = byte at *
    change 153 < _ ↔ _
    bv_omega
  refine ⟨decide_eq_decide.2 hborrow, BitVec.eq_of_toNat_eq ?_⟩
  rw [toNat_pack (Nat.mod_lt _ (by decide))]
  by_cases hlt : total < 100
  · rw [decide_eq_true (hborrow.2 hlt), if_pos rfl, h, Nat.mod_eq_of_lt hlt]
  · rw [decide_eq_false (mt hborrow.1 hlt), if_neg Bool.false_ne_true]
    bv_omega

/-- The two corrections of a difference: the low digit borrows from the high one, and the high one
from outside the byte. -/
theorem correct_difference (ha : a.toNat = s₀) (hb : b.toNat = d₀) (hu : u.toNat = 16 * s₁)
    (hv : v.toNat = 16 * d₁) (hx : x.toNat = carry) (hs₀ : s₀ ≤ 9) (hd₀ : d₀ ≤ 9) (hs₁ : s₁ ≤ 9)
    (hd₁ : d₁ ≤ 9) (hcarry : carry ≤ 1) :
    let left := 10 * d₁ + d₀
    let right := 10 * s₁ + s₀ + carry
    let low := if b - a - x > 9 then b - a - x - 6 else b - a - x
    let difference := low + v - u
    decide (difference > 0x99) = decide (left < right) ∧
      (if decide (difference > 0x99) then difference + 0xA0 else difference) =
        pack ((100 + left - right) % 100) := by
  intro left right low difference
  have hlow : (low + 16).toNat =
      16 * ((10 + d₀ - s₀ - carry) / 10) + (10 + d₀ - s₀ - carry) % 10 := by
    have hdigits : b - a - x > 9 ↔ b.toNat < a.toNat + x.toNat := by
      rw [gt_iff_lt, BitVec.lt_def, BitVec.toNat_sub, BitVec.toNat_sub]
      change 9 < _ ↔ _
      omega
    simp only [low, hdigits]
    split <;> bv_omega
  have hdifference : (difference + 0xA0).toNat =
      16 * ((100 + left - right) / 10) + (100 + left - right) % 10 := by
    have hsum : difference + 0xA0 = (low + 16) + v + 0x90 - u := by
      simp only [difference]
      bv_omega
    have hparts : 100 + left - right = 10 * (9 + d₁ - s₁) + (10 + d₀ - s₀ - carry) := by omega
    have hbound : 10 + d₀ - s₀ - carry < 20 := by omega
    rw [hsum, hparts]
    clear hsum hparts
    generalize 10 + d₀ - s₀ - carry = low' at *
    generalize low + 16 = shifted at *
    bv_omega
  have hshort : left < right ↔ 100 + left - right < 100 := by omega
  rw [decide_eq_decide.2 hshort]
  exact correct_borrow hdifference (by omega)

end

section

variable {src dst : Long} (hsrc : IsDecimal src) (hdst : IsDecimal dst) (sr : Status)

include hsrc hdst

/-- The sum of two decimal bytes and a carry. -/
theorem add_eq :
    let total := decimal dst + decimal src + (has sr extend).toNat
    (add src dst sr).value = pack (total % 100) ∧
      has (add src dst sr).status extend = decide (100 ≤ total) := by
  intro total
  obtain ⟨hsrcLow, hsrcHigh⟩ := (isDecimal_iff src).1 hsrc
  obtain ⟨hdstLow, hdstHigh⟩ := (isDecimal_iff dst).1 hdst
  obtain ⟨hcarry, hresult⟩ := correct_sum (toNat_lowDigit src) (toNat_lowDigit dst)
    (toNat_highDigit src) (toNat_highDigit dst) (toNat_carry sr) hsrcLow hdstLow hsrcHigh hdstHigh
    (Bool.toNat_le _)
  constructor
  · exact (congrArg (· &&& 0xFF) hresult).trans (pack_and_byte (Nat.mod_lt _ (by decide)))
  · exact (congrArg ConditionCodes.extend (codes_finish _ _ _ sr)).trans hcarry

/-- The difference of two decimal bytes less a borrow. -/
theorem sub_eq :
    let left := decimal dst
    let right := decimal src + (has sr extend).toNat
    (sub src dst sr).value = pack ((100 + left - right) % 100) ∧
      has (sub src dst sr).status extend = decide (left < right) := by
  intro left right
  obtain ⟨hsrcLow, hsrcHigh⟩ := (isDecimal_iff src).1 hsrc
  obtain ⟨hdstLow, hdstHigh⟩ := (isDecimal_iff dst).1 hdst
  obtain ⟨hborrow, hresult⟩ := correct_difference (toNat_lowDigit src) (toNat_lowDigit dst)
    (toNat_highDigit src) (toNat_highDigit dst) (toNat_carry sr) hsrcLow hdstLow hsrcHigh hdstHigh
    (Bool.toNat_le _)
  constructor
  · exact (congrArg (· &&& 0xFF) hresult).trans (pack_and_byte (Nat.mod_lt _ (by decide)))
  · exact (congrArg ConditionCodes.extend (codes_finish _ _ _ sr)).trans hborrow

end

/-! ## Numbers of several bytes -/

/-- The number that decimal bytes make up, the least significant one first. -/
def number (bytes : List Long) : Nat := Nat.ofDigits 100 (bytes.map decimal)

section

variable {bytes others : List Long}

theorem number_lt (h : ∀ byte ∈ bytes, IsDecimal byte) : number bytes < 100 ^ bytes.length :=
  ofDigits_map_lt (by decide) fun byte hbyte => decimal_lt (h byte hbyte)

/-- The digits of a number are those of its bytes. -/
theorem map_pack_decimal (h : ∀ byte ∈ bytes, IsDecimal byte) :
    (bytes.map decimal).map pack = bytes.map (· &&& 0xFF) := by
  rw [List.map_map]
  exact List.map_congr_left fun byte hbyte => pack_decimal (h byte hbyte)

/-- Two numbers of one length are equal only if their digits are. -/
theorem map_byte_eq_of_number_eq (hlength : bytes.length = others.length)
    (hbytes : ∀ byte ∈ bytes, IsDecimal byte) (hothers : ∀ byte ∈ others, IsDecimal byte)
    (h : number bytes = number others) : bytes.map (· &&& 0xFF) = others.map (· &&& 0xFF) := by
  have hdigits : bytes.map decimal = others.map decimal := by
    refine Nat.ofDigits_inj_of_len_eq (by decide) (by simpa using hlength) ?_ ?_ h
    · simpa using fun byte hbyte => decimal_lt (hbytes byte hbyte)
    · simpa using fun byte hbyte => decimal_lt (hothers byte hbyte)
  rw [← map_pack_decimal hbytes, ← map_pack_decimal hothers, hdigits]

end

/-- What a chain of `n` bytes leaves whose result is `result`: all bytes are decimal, and a carry is
left if the result is `out` of range. -/
structure Packed (n : Nat) (result : Int) (out : Prop) (values : List Long) (sr : Status) :
    Prop where
  length : values.length = n
  bytes : ∀ value ∈ values, IsDecimal value ∧ value &&& 0xFF = value
  number : (number values : Int) = result % (100 ^ n : Nat)
  carry : has sr carry ↔ out
  extend : has sr extend = has sr Status.carry
  zero : has sr zero ↔ ∀ value ∈ values, value = 0

/-- What an operation on decimal bytes leaves, whatever the status is before: a byte of two digits,
X as C, and Z cleared unless the byte is zero. -/
structure IsCorrected (link : Status → Computed) : Prop where
  value (sr : Status) : ∃ total < 100, (link sr).value = pack total
  extend (sr : Status) : has (link sr).status extend = has (link sr).status carry
  zero (sr : Status) : has (link sr).status zero = (has sr zero && (link sr).value == 0)

theorem isCorrected_add {src dst : Long} (hsrc : IsDecimal src) (hdst : IsDecimal dst) :
    IsCorrected (add src dst) where
  value sr := ⟨_, Nat.mod_lt _ (by decide), (add_eq hsrc hdst sr).1⟩
  extend sr := (congrArg ConditionCodes.extend (codes_finish _ _ _ sr)).trans
    (congrArg ConditionCodes.carry (codes_finish _ _ _ sr)).symm
  zero sr := congrArg ConditionCodes.zero (codes_finish _ _ _ sr)

theorem isCorrected_sub {src dst : Long} (hsrc : IsDecimal src) (hdst : IsDecimal dst) :
    IsCorrected (sub src dst) where
  value sr := ⟨_, Nat.mod_lt _ (by decide), (sub_eq hsrc hdst sr).1⟩
  extend sr := (congrArg ConditionCodes.extend (codes_finish _ _ _ sr)).trans
    (congrArg ConditionCodes.carry (codes_finish _ _ _ sr)).symm
  zero sr := congrArg ConditionCodes.zero (codes_finish _ _ _ sr)

section

variable {link : Long → Long → Status → Computed} {srcs dsts : List Long}
  (hlink : ∀ src ∈ srcs, ∀ dst ∈ dsts, IsCorrected (link src dst)) (sr : Status)

include hlink

theorem isCorrected_of_mem {operation : Status → Computed}
    (h : operation ∈ List.zipWith link srcs dsts) : IsCorrected operation := by
  obtain ⟨src, hsrc, dst, hdst, rfl⟩ := exists_of_mem_zipWith h
  exact hlink src hsrc dst hdst

/-- A chain of such operations leaves decimal bytes. -/
theorem isDecimal_of_mem_chain :
    ∀ value ∈ (chain (List.zipWith link srcs dsts) sr).1,
      IsDecimal value ∧ value &&& 0xFF = value := by
  refine forall_chain _ sr fun operation hoperation sr => ?_
  obtain ⟨total, htotal, hvalue⟩ := (isCorrected_of_mem hlink hoperation).value sr
  rw [hvalue]
  exact ⟨isDecimal_pack htotal, pack_and_byte htotal⟩

theorem number_chain_lt (hlength : srcs.length = dsts.length) :
    number (chain (List.zipWith link srcs dsts) sr).1 < 100 ^ dsts.length := by
  have hlt := number_lt fun value hvalue => (isDecimal_of_mem_chain hlink sr value hvalue).1
  rwa [length_outcome link hlength sr] at hlt

/-- It also leaves the condition codes of the whole number. -/
theorem packed_of_isCorrected (hlength : srcs.length = dsts.length) (hne : dsts ≠ [])
    (hzero : has sr zero) {result : Int} {out : Prop}
    (hnumber : (number (chain (List.zipWith link srcs dsts) sr).1 : Int) =
      result % (100 ^ dsts.length : Nat))
    (hout : has (chain (List.zipWith link srcs dsts) sr).2 extend ↔ out) :
    let outcome := chain (List.zipWith link srcs dsts) sr
    Packed dsts.length result out outcome.1 outcome.2 := by
  intro outcome
  have hlinks : List.zipWith link srcs dsts ≠ [] := by
    intro hnil
    have hnone := congrArg List.length hnil
    rw [List.length_zipWith, hlength, Nat.min_self] at hnone
    exact hne (List.length_eq_zero_iff.1 hnone)
  have hextend : has outcome.2 extend = has outcome.2 carry :=
    chain_leaves (P := fun left => has left extend = has left carry) _ sr hlinks
      fun _ hoperation => (isCorrected_of_mem hlink hoperation).extend
  have hclears : has outcome.2 zero = (has sr zero && outcome.1.all (· == 0)) :=
    has_zero_chain _ sr fun _ hoperation => (isCorrected_of_mem hlink hoperation).zero
  refine
    { length := length_outcome link hlength sr
      bytes := isDecimal_of_mem_chain hlink sr
      number := hnumber
      carry := by rw [← hextend]; exact hout
      extend := hextend
      zero := ?_ }
  rw [hclears, hzero, Bool.true_and, List.all_eq_true]
  simp only [beq_iff_eq]

end

section

variable {srcs dsts : List Long} (hlength : srcs.length = dsts.length)
  (hsrcs : ∀ src ∈ srcs, IsDecimal src) (hdsts : ∀ dst ∈ dsts, IsDecimal dst)

include hlength hsrcs hdsts

/-- The number of a chain of sums. -/
theorem number_chain_add (sr : Status) :
    let outcome := chain (List.zipWith add srcs dsts) sr
    number dsts + number srcs + (has sr extend).toNat =
      number outcome.1 + 100 ^ dsts.length * (has outcome.2 extend).toNat := by
  refine chain_adds hlength (fun src hsrc dst hdst sr => ?_) sr
  obtain ⟨hvalue, hextend⟩ := add_eq (hsrcs src hsrc) (hdsts dst hdst) sr
  have hdst := decimal_lt (hdsts dst hdst)
  have hsrc := decimal_lt (hsrcs src hsrc)
  have hbit : (has sr extend).toNat ≤ 1 := Bool.toNat_le _
  rw [hvalue, hextend, decimal_pack (Nat.mod_lt _ (by decide))]
  have htotal : decimal dst + decimal src + (has sr extend).toNat < 200 := by omega
  generalize decimal dst + decimal src + (has sr extend).toNat = total at *
  by_cases hle : 100 ≤ total
  · rw [decide_eq_true hle, Bool.toNat_true]
    omega
  · rw [decide_eq_false hle, Bool.toNat_false]
    omega

/-- The number of a chain of differences. -/
theorem number_chain_sub (sr : Status) :
    let outcome := chain (List.zipWith sub srcs dsts) sr
    number outcome.1 + number srcs + (has sr extend).toNat =
      number dsts + 100 ^ dsts.length * (has outcome.2 extend).toNat := by
  refine chain_subtracts hlength (fun src hsrc dst hdst sr => ?_) sr
  obtain ⟨hvalue, hextend⟩ := sub_eq (hsrcs src hsrc) (hdsts dst hdst) sr
  have hdst := decimal_lt (hdsts dst hdst)
  have hsrc := decimal_lt (hsrcs src hsrc)
  have hbit : (has sr extend).toNat ≤ 1 := Bool.toNat_le _
  rw [hvalue, hextend, decimal_pack (Nat.mod_lt _ (by decide))]
  by_cases hlt : decimal dst < decimal src + (has sr extend).toNat
  · rw [decide_eq_true hlt, Bool.toNat_true]
    omega
  · rw [decide_eq_false hlt, Bool.toNat_false]
    omega

/-- **A chain of sums adds the numbers.** -/
theorem packed_add (hne : dsts ≠ []) {sr : Status} (hzero : has sr zero) :
    let result : Nat := number dsts + number srcs + (has sr extend).toNat
    let outcome := chain (List.zipWith add srcs dsts) sr
    Packed dsts.length result (100 ^ dsts.length ≤ result) outcome.1 outcome.2 := by
  intro result outcome
  have hcorrected : ∀ src ∈ srcs, ∀ dst ∈ dsts, IsCorrected (add src dst) :=
    fun src hsrc dst hdst => isCorrected_add (hsrcs src hsrc) (hdsts dst hdst)
  obtain ⟨hnumber, hout⟩ := sum_of_add (number_chain_add hlength hsrcs hdsts sr)
    (number_chain_lt hcorrected sr hlength)
  exact packed_of_isCorrected hcorrected sr hlength hne hzero
    ((congrArg Nat.cast hnumber).trans (Int.natCast_mod _ _)) hout

/-- **A chain of differences subtracts them.** -/
theorem packed_sub (hne : dsts ≠ []) {sr : Status} (hzero : has sr zero) :
    let result : Int := number dsts - number srcs - (has sr extend).toNat
    let outcome := chain (List.zipWith sub srcs dsts) sr
    Packed dsts.length result (result < 0) outcome.1 outcome.2 := by
  intro result outcome
  have hcorrected : ∀ src ∈ srcs, ∀ dst ∈ dsts, IsCorrected (sub src dst) :=
    fun src hsrc dst hdst => isCorrected_sub (hsrcs src hsrc) (hdsts dst hdst)
  obtain ⟨hnumber, hout⟩ := difference_of_add (number_chain_sub hlength hsrcs hdsts sr)
    (number_chain_lt hcorrected sr hlength)
  exact packed_of_isCorrected hcorrected sr hlength hne hzero hnumber hout

/-- **A chain of differences takes back a chain of sums**, if both begin with X clear. -/
theorem sub_chain_add {sr sr' : Status} (hextend : has sr extend = false)
    (hextend' : has sr' extend = false) :
    let sum := chain (List.zipWith add srcs dsts) sr
    (chain (List.zipWith sub srcs sum.1) sr').1 = dsts.map (· &&& 0xFF) := by
  intro sum
  have hsum : ∀ value ∈ sum.1, IsDecimal value ∧ value &&& 0xFF = value :=
    isDecimal_of_mem_chain
      (fun src hsrc dst hdst => isCorrected_add (hsrcs src hsrc) (hdsts dst hdst)) sr
  have hdecimal : ∀ value ∈ sum.1, IsDecimal value := fun value hvalue => (hsum value hvalue).1
  have hcount : sum.1.length = dsts.length := length_outcome add hlength sr
  have hlength' : srcs.length = sum.1.length := hlength.trans hcount.symm
  have hcorrected : ∀ src ∈ srcs, ∀ dst ∈ sum.1, IsCorrected (sub src dst) :=
    fun src hsrc dst hdst => isCorrected_sub (hsrcs src hsrc) (hdecimal dst hdst)
  have hback := isDecimal_of_mem_chain hcorrected sr'
  have hadd : number dsts + number srcs + (has sr extend).toNat =
      number sum.1 + 100 ^ dsts.length * (has sum.2 extend).toNat :=
    number_chain_add hlength hsrcs hdsts sr
  have hsub := number_chain_sub hlength' hsrcs hdecimal sr'
  have hlt := number_chain_lt hcorrected sr' hlength'
  have hdst := number_lt hdsts
  dsimp only at hsub hlt
  rw [hextend, Bool.toNat_false] at hadd
  rw [hextend', Bool.toNat_false, hcount] at hsub
  rw [hcount] at hlt
  have hcountBack := length_outcome sub hlength' sr'
  generalize chain (List.zipWith sub srcs sum.1) sr' = back at *
  have hnumber : number back.1 = number dsts := by
    generalize 100 ^ dsts.length = bound at *
    generalize has sum.2 extend = carry at *
    generalize has back.2 extend = borrow at *
    cases carry <;> cases borrow <;> simp only [Bool.toNat_false, Bool.toNat_true] at hadd hsub <;>
      omega
  calc back.1
      = back.1.map (· &&& 0xFF) := by
        symm
        exact (List.map_congr_left fun value hvalue => (hback value hvalue).2).trans
          (List.map_id' back.1)
    _ = dsts.map (· &&& 0xFF) :=
        map_byte_eq_of_number_eq (hcountBack.trans hcount)
          (fun value hvalue => (hback value hvalue).1) hdsts hnumber

end

/-- **Chains of decimal sums and differences work on numbers of any length.** Where a chain begins
with Z set, its bytes are the digits of the result, and it leaves a carry if the result is out of
range. No sum falls below zero when it is corrected. A chain of differences takes back a chain of
sums, if both begin with X clear. -/
theorem decimal_chains {srcs dsts : List Long} (hlength : srcs.length = dsts.length)
    (hne : dsts ≠ []) (hsrcs : ∀ src ∈ srcs, IsDecimal src) (hdsts : ∀ dst ∈ dsts, IsDecimal dst)
    (sr : Status) (hzero : has sr zero) :
    let d := number dsts
    let s := number srcs
    let x := (has sr extend).toNat
    let sum := chain (List.zipWith add srcs dsts) sr
    let difference := chain (List.zipWith sub srcs dsts) sr
    Packed dsts.length (d + s + x : Nat) (100 ^ dsts.length ≤ d + s + x) sum.1 sum.2 ∧
    Packed dsts.length (d - s - x : Int) ((d - s - x : Int) < 0) difference.1 difference.2 ∧
    (∀ src ∈ srcs, ∀ dst ∈ dsts, ∀ sr', add? src dst sr' = some (add src dst sr')) ∧
    ∀ before between : Status, has before extend = false → has between extend = false →
      let kept := (chain (List.zipWith add srcs dsts) before).1
      (chain (List.zipWith sub srcs kept) between).1 = dsts.map (· &&& 0xFF) := by
  refine ⟨?_, ?_, ?_, ?_⟩
  · exact packed_add hlength hsrcs hdsts hne hzero
  · exact packed_sub hlength hsrcs hdsts hne hzero
  · intro src hsrc dst hdst sr'
    exact add?_eq (hsrcs src hsrc) (hdsts dst hdst) sr'
  · intro before between hbefore hbetween
    exact sub_chain_add hlength hsrcs hdsts hbefore hbetween

/-- `256 + 158` and a carry, and `256 - 158` and a borrow. -/
theorem decimal_chains_two_bytes :
    let srcs : List Long := [0x58, 0x01]
    let dsts : List Long := [0x56, 0x02]
    let sr := zero ||| extend
    srcs.length = dsts.length ∧ dsts ≠ [] ∧ (∀ src ∈ srcs, IsDecimal src) ∧
      (∀ dst ∈ dsts, IsDecimal dst) ∧ has sr zero ∧
      Packed 2 (415 : Nat) (100 ^ 2 ≤ 415) [0x15, 0x04] (chain (List.zipWith add srcs dsts) sr).2 ∧
      Packed 2 97 ((97 : Int) < 0) [0x97, 0x00] (chain (List.zipWith sub srcs dsts) sr).2 := by
  intro srcs dsts sr
  have hlength : srcs.length = dsts.length := rfl
  have hne : dsts ≠ [] := List.cons_ne_nil _ _
  have hsrcs : ∀ src ∈ srcs, IsDecimal src := by simp [srcs, IsDecimal]
  have hdsts : ∀ dst ∈ dsts, IsDecimal dst := by simp [dsts, IsDecimal]
  have hzero : has sr zero := by decide
  have hsrc : number srcs = 158 := by simp [srcs, number, decimal, Nat.ofDigits_cons]
  have hdst : number dsts = 256 := by simp [dsts, number, decimal, Nat.ofDigits_cons]
  have hextend : (has sr extend).toNat = 1 := by decide
  obtain ⟨hsum, hdifference, -⟩ := decimal_chains hlength hne hsrcs hdsts sr hzero
  have hsumBytes : (chain (List.zipWith add srcs dsts) sr).1 = [0x15, 0x04] := by decide
  have hdifferenceBytes : (chain (List.zipWith sub srcs dsts) sr).1 = [0x97, 0x00] := by decide
  rw [hsrc, hdst, hextend, hsumBytes] at hsum
  rw [hsrc, hdst, hextend, hdifferenceBytes] at hdifference
  exact ⟨hlength, hne, hsrcs, hdsts, hzero, hsum, hdifference⟩

end PackedDecimal

end M68k
