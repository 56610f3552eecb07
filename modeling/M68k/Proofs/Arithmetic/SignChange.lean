import M68k.Proofs.Arithmetic.Shift

/-!
# Changes of the sign during a shift to the left

An arithmetic shift to the left sets V when the sign bit changes on the way. The signs that come up
are the topmost bits of the operand, and then the zeros that follow them. V is found from a mask
over the topmost bits, and the zeros are not looked at. They only make a difference for an operand
of ones.

## Main results

* `ShiftKind.signChanges_iff`: which signs are compared
* `ShiftKind.has_overflow_asl`: V against the signs on the way
-/

namespace M68k

open Status

/-! ## Masks over the topmost bits -/

section

variable {w : Nat} (x mask : BitVec w)

theorem and_ne_zero_iff :
    x &&& mask ≠ 0 ↔ ∃ i, mask.getLsbD i = true ∧ x.getLsbD i = true := by
  constructor
  · intro hne
    by_contra hnone
    apply hne
    apply BitVec.eq_of_getLsbD_eq
    intro i _
    rw [BitVec.getLsbD_and]
    cases hmask : mask.getLsbD i with
    | false => rw [Bool.and_false, BitVec.ofNat_eq_ofNat, BitVec.getLsbD_zero]
    | true =>
      have hclear : ¬ x.getLsbD i = true := fun hset => hnone ⟨i, hmask, hset⟩
      simpa using hclear
  · rintro ⟨i, hmask, hset⟩ hzero
    have hbit := congrArg (BitVec.getLsbD · i) hzero
    simp [hmask, hset] at hbit

theorem and_ne_mask_iff :
    x &&& mask ≠ mask ↔ ∃ i, mask.getLsbD i = true ∧ x.getLsbD i = false := by
  constructor
  · intro hne
    by_contra hnone
    apply hne
    apply BitVec.eq_of_getLsbD_eq
    intro i _
    rw [BitVec.getLsbD_and]
    cases hmask : mask.getLsbD i with
    | false => rw [Bool.and_false]
    | true =>
      have hset : ¬ x.getLsbD i = false := fun hclear => hnone ⟨i, hmask, hclear⟩
      simpa using hset
  · rintro ⟨i, hmask, hclear⟩ hsame
    have hbit := congrArg (BitVec.getLsbD · i) hsame
    simp [hmask, hclear] at hbit

end

/-- Among the first values of a function are both `true` and `false`, when one differs from the
first. -/
theorem exists_both_iff (f : Nat → Bool) (n : Nat) :
    ((∃ k ≤ n, f k = true) ∧ ∃ k ≤ n, f k = false) ↔ ∃ k ≤ n, f k ≠ f 0 := by
  constructor
  · rintro ⟨⟨k, hk, hset⟩, l, hl, hclear⟩
    cases hfirst : f 0 with
    | false => exact ⟨k, hk, by simp [hset]⟩
    | true => exact ⟨l, hl, by simp [hclear]⟩
  · rintro ⟨k, hk, hne⟩
    have hzero := Nat.zero_le n
    cases hfirst : f 0 with
    | false => exact ⟨⟨k, hk, by simpa [hfirst] using hne⟩, 0, hzero, hfirst⟩
    | true => exact ⟨⟨0, hzero, hfirst⟩, k, hk, by simpa [hfirst] using hne⟩

namespace Size

variable (size : Size) (value : Long)

theorem getMsbD_operand {k : Nat} (hk : k < size.bits) :
    (size.operand value).getMsbD k = value.getLsbD (size.bits - 1 - k) := by
  have hlast : size.bits - 1 - k < size.bits := by omega
  rw [BitVec.getMsbD_eq_getLsbD, decide_eq_true hk, Bool.true_and, getLsbD_operand,
    decide_eq_true hlast, Bool.true_and]

/-- A mask over the topmost bits tells whether one of them differs from the sign. -/
theorem and_top_differs_iff {n : Nat} (hn : n < size.bits) {top : Long}
    (htop : ∀ i, top.getLsbD i = true ↔ size.bits - 1 - n ≤ i ∧ i < size.bits) :
    (value &&& top != 0 && value &&& top != top) = true ↔
      ∃ k ≤ n, (size.operand value).getMsbD k ≠ (size.operand value).getMsbD 0 := by
  have hbits (bit : Bool) : (∃ i, top.getLsbD i = true ∧ value.getLsbD i = bit) ↔
      ∃ k ≤ n, (size.operand value).getMsbD k = bit := by
    constructor
    · rintro ⟨i, hmask, hbit⟩
      obtain ⟨hlow, hhigh⟩ := (htop i).mp hmask
      have hindex : size.bits - 1 - (size.bits - 1 - i) = i := by omega
      refine ⟨size.bits - 1 - i, by omega, ?_⟩
      rw [size.getMsbD_operand value (by omega), hindex, hbit]
    · rintro ⟨k, hk, hbit⟩
      refine ⟨size.bits - 1 - k, (htop _).mpr (by omega), ?_⟩
      rw [← size.getMsbD_operand value (by omega), hbit]
  rw [← exists_both_iff, ← hbits, ← hbits, ← and_ne_zero_iff, ← and_ne_mask_iff, Bool.and_eq_true,
    bne_iff_ne, bne_iff_ne]

end Size

namespace ShiftKind

variable (size : Size) (value : Long) (count : Nat)

/-- The signs that are compared are those of the operand, as far as the moves bring them up. -/
theorem signChanges_iff :
    signChanges value count size = true ↔
      ∃ k ≤ min count (size.bits - 1),
        (size.operand value).getMsbD k ≠ (size.operand value).getMsbD 0 := by
  have hpos := size.bits_pos
  have hle := size.bits_le
  simp only [signChanges]
  split
  · next hmany =>
    rw [Nat.min_eq_right hmany]
    apply size.and_top_differs_iff value (by omega)
    intro i
    rw [size.getLsbD_mask, decide_eq_true_iff]
    omega
  · next hfew =>
    rw [Nat.min_eq_left (by omega)]
    apply size.and_top_differs_iff value (by omega)
    intro i
    rw [BitVec.getLsbD_and, BitVec.getLsbD_shiftLeft, size.getLsbD_mask, size.getLsbD_mask]
    simp only [Bool.and_eq_true, decide_eq_true_iff, Bool.not_eq_true', decide_eq_false_iff_not]
    omega

/-- The sign after some moves is the next bit of the operand, and positive when there is none. -/
theorem msb_iterate_asl {w : Nat} (moved : Moved w) (k : Nat) :
    (asl.moveOne^[k] moved).word.msb = moved.word.getMsbD k := by
  rw [word_iterate_shiftLeft _ _ (.inl rfl), BitVec.msb_shiftLeft]

/-- **V tells whether the sign bit changes on the way**, at any move of an arithmetic shift to the
left, but for an operand of ones that is shifted out altogether. -/
theorem has_overflow_asl (sr : Status) :
    has (asl.apply value count size sr).status overflow = true ↔
      (∃ k ≤ count, (asl.moveOne^[k] (asl.unmoved size sr value)).word.msb ≠
          (size.operand value).msb) ∧
        ¬ (size.operand value = BitVec.allOnes size.bits ∧ size.bits ≤ count) := by
  have hpos := size.bits_pos
  obtain ⟨-, hcodes⟩ := apply_eq_iterate size sr asl value count
  have hset : has (asl.apply value count size sr).status overflow =
      (count != 0 && asl == asl && signChanges (value &&& size.mask) count size) :=
    congrArg ConditionCodes.overflow hcodes
  rw [hset, beq_self_eq_true, Bool.and_true, Bool.and_eq_true, bne_iff_ne, signChanges_iff,
    size.operand_and_mask]
  simp only [msb_iterate_asl]
  change _ ↔ (∃ k ≤ count, (size.operand value).getMsbD k ≠ (size.operand value).getMsbD 0) ∧ _
  generalize size.operand value = word
  constructor
  · rintro ⟨-, k, hk, hne⟩
    refine ⟨⟨k, by omega, hne⟩, ?_⟩
    rintro ⟨rfl, -⟩
    have hinside : k < size.bits := by omega
    simp [hinside, hpos] at hne
  · rintro ⟨⟨k, hk, hne⟩, hones⟩
    have hmoved : count ≠ 0 := by
      rintro rfl
      obtain rfl : k = 0 := by omega
      exact hne rfl
    by_cases hinside : k < size.bits
    · exact ⟨hmoved, k, by omega, hne⟩
    · -- a zero that follows the operand differs from its sign, and so does one of its own
      have hzero : word.getMsbD k = false := BitVec.getMsbD_of_ge _ _ (by omega)
      have hown : ∃ l < size.bits, word.getMsbD l = false := by
        by_contra hnone
        refine hones ⟨BitVec.eq_of_getMsbD_eq fun l hl => ?_, by omega⟩
        have hbit : ¬ word.getMsbD l = false := fun hclear => hnone ⟨l, hl, hclear⟩
        simpa [hl] using hbit
      obtain ⟨l, hl, hclear⟩ := hown
      exact ⟨hmoved, l, by omega, by rwa [hclear, ← hzero]⟩

/-- A byte of ones that is shifted out turns from negative to zero, and V is clear. -/
theorem overflow_missed :
    ¬ (has (asl.apply 0xFF 8 .byte 0).status overflow = true ↔
      ∃ k ≤ 8, (asl.moveOne^[k] (asl.unmoved .byte 0 0xFF)).word.msb ≠
        (Size.byte.operand 0xFF).msb) := by
  decide

end ShiftKind

end M68k
