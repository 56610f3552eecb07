import M68k.Proofs.ConditionCodes
import Mathlib.Data.Nat.Digits.Defs
import Mathlib.Tactic.Ring

/-!
# Chains of digits

Numbers longer than an operand are worked on digit by digit, from the least significant one on. Each
operation takes the carry of the one before from X and leaves its own there, and Z is only ever
cleared on the way.

On paper this is addition in columns: a column adds two digits and the carry from the column before
it, and hands its own carry on. A subtraction is the addition that takes it back, in which the
difference is one of the summands and the borrow is the carry.

## Main definitions

* `chain`: operations one after another, each at the status that the one before has left
* `Row`, `rows`: the columns of two numbers and of what a chain makes of them

## Main results

* `has_zero_chain`: Z tells at the end whether all values are zero
* `ofDigits_chain`: a chain of operations that add columns adds the numbers
* `sum_of_add`, `difference_of_add`: what sums and differences are, and when a carry is left
-/

namespace M68k

open Status

/-! ## Chains -/

/-- What every operation of a chain does with Z: it only clears it. -/
theorem Status.codes_ite_zero (sr : Status) (value : Long) :
    (if value = 0 then sr else sr &&& ~~~zero).codes =
      { sr.codes with zero := sr.codes.zero && value == 0 } := by
  split
  · next h => rw [h, beq_self_eq_true, Bool.and_true]
  · next h => rw [clear_eq_setIf, codes_setIf_zero, beq_false_of_ne h, Bool.and_false]

/-- Operations one after another, each at the status that the one before has left. Gives their
values and the status at the end. -/
def chain : List (Status → Computed) → Status → List Long × Status
  | [], sr => ([], sr)
  | link :: links, sr =>
    let computed := link sr
    let (values, left) := chain links computed.status
    (computed.value :: values, left)

section

variable (link : Status → Computed) (links : List (Status → Computed)) (sr : Status)

@[simp] theorem chain_nil : chain [] sr = ([], sr) := rfl

@[simp] theorem chain_cons :
    chain (link :: links) sr =
      ((link sr).value :: (chain links (link sr).status).1,
        (chain links (link sr).status).2) := rfl

/-- The last operation of a chain is at the status that all others have left. -/
theorem chain_concat :
    chain (links ++ [link]) sr =
      ((chain links sr).1 ++ [(link (chain links sr).2).value],
        (link (chain links sr).2).status) := by
  induction links generalizing sr with
  | nil => rfl
  | cons first links ih =>
    rw [List.cons_append, chain_cons, ih]
    rfl

@[simp] theorem length_chain : (chain links sr).1.length = links.length := by
  induction links generalizing sr with
  | nil => rfl
  | cons first links ih => rw [chain_cons, List.length_cons, ih, List.length_cons]

/-- Two numbers of one length give one of that length. -/
theorem length_outcome (link : Long → Long → Status → Computed) {srcs dsts : List Long}
    (hlength : srcs.length = dsts.length) (sr : Status) :
    (chain (List.zipWith link srcs dsts) sr).1.length = dsts.length := by
  rw [length_chain, List.length_zipWith, hlength, Nat.min_self]

/-- Every operation of a chain on two numbers has operands from both. -/
theorem exists_of_mem_zipWith {link : Long → Long → Status → Computed} {srcs dsts : List Long}
    {operation : Status → Computed} (h : operation ∈ List.zipWith link srcs dsts) :
    ∃ src ∈ srcs, ∃ dst ∈ dsts, operation = link src dst := by
  rw [← List.map_uncurry_zip_eq_zipWith] at h
  obtain ⟨⟨src, dst⟩, hmem, rfl⟩ := List.mem_map.1 h
  obtain ⟨hsrc, hdst⟩ := List.of_mem_zip hmem
  exact ⟨src, hsrc, dst, hdst, rfl⟩

/-- What all operations make of their operands holds of all values. -/
theorem forall_chain {P : Long → Prop} (h : ∀ link ∈ links, ∀ sr, P (link sr).value) :
    ∀ value ∈ (chain links sr).1, P value := by
  induction links generalizing sr with
  | nil => exact fun _ hvalue => absurd hvalue List.not_mem_nil
  | cons first links ih =>
    intro value hvalue
    rcases List.mem_cons.1 hvalue with rfl | hvalue
    · exact h first List.mem_cons_self sr
    · exact ih _ (fun link hlink => h link (List.mem_cons_of_mem _ hlink)) value hvalue

/-- What every operation leaves in the status register is there at the end. -/
theorem chain_leaves {P : Status → Prop} (hne : links ≠ [])
    (h : ∀ link ∈ links, ∀ sr, P (link sr).status) : P (chain links sr).2 := by
  obtain ⟨links, link, rfl⟩ := (List.eq_nil_or_concat links).resolve_left hne
  rw [List.concat_eq_append] at h ⊢
  rw [chain_concat]
  exact h link (List.mem_append_right _ List.mem_cons_self) _

/-- **Z tells at the end whether all values are zero**, if it is set at the start and every
operation clears it unless its value is zero. -/
theorem has_zero_chain
    (h : ∀ link ∈ links, ∀ sr,
      has (link sr).status zero = (has sr zero && (link sr).value == 0)) :
    has (chain links sr).2 zero = (has sr zero && (chain links sr).1.all (· == 0)) := by
  induction links generalizing sr with
  | nil => exact (Bool.and_true _).symm
  | cons first links ih =>
    rw [chain_cons, ih _ fun link hlink => h link (List.mem_cons_of_mem _ hlink),
      h first List.mem_cons_self, List.all_cons, Bool.and_assoc]

end

/-! ## Columns -/

/-- A column of digits: the operands of one operation and its value. -/
structure Row where
  src : Long
  dst : Long
  value : Long

/-- The columns of two numbers and of what a chain makes of them. -/
def rows : List Long → List Long → List Long → List Row
  | src :: srcs, dst :: dsts, value :: values => ⟨src, dst, value⟩ :: rows srcs dsts values
  | _, _, _ => []

/-- The columns are made of the three numbers. -/
theorem map_rows {srcs dsts values : List Long} (hsrcs : srcs.length = dsts.length)
    (hvalues : values.length = dsts.length) :
    (rows srcs dsts values).map Row.src = srcs ∧ (rows srcs dsts values).map Row.dst = dsts ∧
      (rows srcs dsts values).map Row.value = values := by
  induction dsts generalizing srcs values with
  | nil =>
    rw [List.length_eq_zero_iff.1 hsrcs, List.length_eq_zero_iff.1 hvalues]
    exact ⟨rfl, rfl, rfl⟩
  | cons dst dsts ih =>
    rcases srcs with _ | ⟨src, srcs⟩
    · cases hsrcs
    rcases values with _ | ⟨value, values⟩
    · cases hvalues
    obtain ⟨hsrc, hdst, hvalue⟩ := ih (Nat.succ.inj hsrcs) (Nat.succ.inj hvalues)
    simp only [rows, List.map_cons, hsrc, hdst, hvalue, and_self]

section

variable {link : Long → Long → Status → Computed} {base : Nat} {digit : Long → Nat}
  {srcs dsts : List Long}

/-- A number has no more digits than it is made of. -/
theorem ofDigits_map_lt {values : List Long} (hbase : 1 < base)
    (hdigits : ∀ value ∈ values, digit value < base) :
    Nat.ofDigits base (values.map digit) < base ^ values.length := by
  have hall : ∀ number ∈ values.map digit, number < base := by simpa using hdigits
  simpa using Nat.ofDigits_lt_base_pow_length hbase hall

/-- **A chain of operations that add columns adds the numbers**, with the carries in X: `left` and
`right` are the summands, and `sum` is their sum. -/
theorem ofDigits_chain (left right sum : Row → Long) (hlength : srcs.length = dsts.length)
    (hlink : ∀ src ∈ srcs, ∀ dst ∈ dsts, ∀ sr,
      let row : Row := ⟨src, dst, (link src dst sr).value⟩
      digit (left row) + digit (right row) + (has sr extend).toNat =
        digit (sum row) + base * (has (link src dst sr).status extend).toNat)
    (sr : Status) :
    let outcome := chain (List.zipWith link srcs dsts) sr
    let number (place : Row → Long) : Nat :=
      Nat.ofDigits base (((rows srcs dsts outcome.1).map place).map digit)
    number left + number right + (has sr extend).toNat =
      number sum + base ^ dsts.length * (has outcome.2 extend).toNat := by
  induction dsts generalizing srcs sr with
  | nil =>
    rw [List.length_eq_zero_iff.1 hlength]
    simp [rows]
  | cons dst dsts ih =>
    rcases srcs with _ | ⟨src, srcs⟩
    · cases hlength
    have hrow := hlink src List.mem_cons_self dst List.mem_cons_self sr
    have hrows := ih (Nat.succ.inj hlength) (fun src hsrc dst hdst =>
      hlink src (List.mem_cons_of_mem _ hsrc) dst (List.mem_cons_of_mem _ hdst))
      (link src dst sr).status
    simp only [List.zipWith_cons_cons, chain_cons, rows, List.map_cons, Nat.ofDigits_cons,
      List.length_cons, Nat.pow_succ] at hrow hrows ⊢
    generalize chain (List.zipWith link srcs dsts) (link src dst sr).status = outcome at *
    generalize (⟨src, dst, (link src dst sr).value⟩ : Row) = row at *
    generalize Nat.ofDigits base (((rows srcs dsts outcome.1).map left).map digit) = l at *
    generalize Nat.ofDigits base (((rows srcs dsts outcome.1).map right).map digit) = r at *
    generalize Nat.ofDigits base (((rows srcs dsts outcome.1).map sum).map digit) = t at *
    calc digit (left row) + base * l + (digit (right row) + base * r) + (has sr extend).toNat
        = digit (left row) + digit (right row) + (has sr extend).toNat + base * (l + r) := by ring
      _ = digit (sum row) + base * (l + r + (has (link src dst sr).status extend).toNat) := by
          rw [hrow]; ring
      _ = digit (sum row) + base * t +
            base ^ dsts.length * base * (has outcome.2 extend).toNat := by rw [hrows]; ring

/-- A chain of additions adds the numbers. -/
theorem chain_adds (hlength : srcs.length = dsts.length)
    (hlink : ∀ src ∈ srcs, ∀ dst ∈ dsts, ∀ sr,
      digit dst + digit src + (has sr extend).toNat =
        digit (link src dst sr).value + base * (has (link src dst sr).status extend).toNat)
    (sr : Status) :
    let outcome := chain (List.zipWith link srcs dsts) sr
    let number (operands : List Long) : Nat := Nat.ofDigits base (operands.map digit)
    number dsts + number srcs + (has sr extend).toNat =
      number outcome.1 + base ^ dsts.length * (has outcome.2 extend).toNat := by
  have hcolumns := ofDigits_chain Row.dst Row.src Row.value hlength hlink sr
  obtain ⟨hsrc, hdst, hvalue⟩ := map_rows hlength (length_outcome link hlength sr)
  simpa only [hsrc, hdst, hvalue] using hcolumns

/-- A chain of subtractions adds the difference and the number that is subtracted. -/
theorem chain_subtracts (hlength : srcs.length = dsts.length)
    (hlink : ∀ src ∈ srcs, ∀ dst ∈ dsts, ∀ sr,
      digit (link src dst sr).value + digit src + (has sr extend).toNat =
        digit dst + base * (has (link src dst sr).status extend).toNat)
    (sr : Status) :
    let outcome := chain (List.zipWith link srcs dsts) sr
    let number (operands : List Long) : Nat := Nat.ofDigits base (operands.map digit)
    number outcome.1 + number srcs + (has sr extend).toNat =
      number dsts + base ^ dsts.length * (has outcome.2 extend).toNat := by
  have hcolumns := ofDigits_chain Row.value Row.src Row.dst hlength hlink sr
  obtain ⟨hsrc, hdst, hvalue⟩ := map_rows hlength (length_outcome link hlength sr)
  simpa only [hsrc, hdst, hvalue] using hcolumns

end

/-! ## Sums and differences -/

section

variable {left right sum carry bound : Nat} {last : Bool}

/-- A sum is that of the numbers up to the bound, and a carry is left if that is not all of it. -/
theorem sum_of_add (h : left + right + carry = sum + bound * last.toNat) (hsum : sum < bound) :
    sum = (left + right + carry) % bound ∧ (last ↔ bound ≤ left + right + carry) := by
  rw [h, Nat.add_mul_mod_self_left, Nat.mod_eq_of_lt hsum]
  refine ⟨rfl, ?_⟩
  cases last <;> simp [hsum]

/-- A difference is that of the numbers up to the bound, and a borrow is left if it is below
zero. -/
theorem difference_of_add (h : left + right + carry = sum + bound * last.toNat)
    (hleft : left < bound) :
    (left : Int) = ((sum : Int) - right - carry) % bound ∧
      (last ↔ (sum : Int) - right - carry < 0) := by
  have hdifference : (sum : Int) - right - carry = left - bound * last.toNat := by omega
  rw [hdifference, Int.sub_mul_emod_self_left, Int.emod_eq_of_lt (by omega) (by omega)]
  refine ⟨rfl, ?_⟩
  cases last with
  | false => exact iff_of_false Bool.false_ne_true (by rw [Bool.toNat_false]; omega)
  | true => exact iff_of_true rfl (by rw [Bool.toNat_true]; omega)

end

end M68k
