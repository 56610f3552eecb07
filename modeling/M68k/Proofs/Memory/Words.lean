import M68k.Memory
import Mathlib.Tactic.IntervalCases

/-!
# Words of memory

Words lie at even addresses, so that two of them are the same or have nothing in common.

## Main results

* `Memory.word_storeWord`: a word that is read after a word was stored
* `Memory.byte_storeWord_comm`: different words can be stored in any order
-/

namespace M68k.Memory

theorem toNat_wordAddress (address : Address) :
    (wordAddress address).toNat = address.toNat / 2 * 2 := by
  have hshift : wordAddress address = (address >>> 1) <<< 1 := by
    ext i hi
    interval_cases i <;> simp [wordAddress]
  rw [hshift]
  simp only [BitVec.toNat_shiftLeft, BitVec.toNat_ushiftRight, Nat.shiftLeft_eq,
    Nat.shiftRight_eq_div_pow]
  omega

/-- Two addresses belong to one word if they differ in the lowest bit at most. -/
theorem wordAddress_eq_iff (address other : Address) :
    wordAddress address = wordAddress other ↔ address.toNat / 2 = other.toNat / 2 := by
  rw [← BitVec.toNat_inj, toNat_wordAddress, toNat_wordAddress]
  omega

/-- The low byte of a word is no high byte. -/
theorem wordAddress_ne_low (address other : Address) :
    wordAddress address ≠ wordAddress other + 1 := by
  intro h
  have hnat := congrArg BitVec.toNat h
  simp [BitVec.toNat_add, toNat_wordAddress] at hnat
  omega

theorem wordAddress_add_two_ne (address : Address) :
    wordAddress (address + 2) ≠ wordAddress address := by
  rw [ne_eq, wordAddress_eq_iff, BitVec.toNat_add]
  simp
  omega

/-- A word that is read after a word was stored: the same one, or an untouched one. -/
theorem word_storeWord (memory : Memory) (address other : Address) (value : Word) :
    (memory.storeWord address value).word other =
      if wordAddress other = wordAddress address then value else memory.word other := by
  have hlow := wordAddress_ne_low other address
  have hhigh := (wordAddress_ne_low address other).symm
  split
  · rename_i h
    have hword : value.extractLsb' 8 8 ++ value.extractLsb' 0 8 = value :=
      (BitVec.extractLsb'_append_extractLsb'_eq_extractLsb' rfl).trans BitVec.extractLsb'_eq_self
    rw [word, byte_storeWord, byte_storeWord, if_neg hlow, if_pos h, if_pos (by rw [h])]
    exact hword
  · rename_i h
    rw [word, byte_storeWord, byte_storeWord, if_neg hlow, if_neg h, if_neg (by simpa using h),
      if_neg hhigh]
    rfl

/-- Different words can be stored in any order. -/
theorem byte_storeWord_comm (memory : Memory) {address other : Address}
    (h : wordAddress address ≠ wordAddress other) (value second : Word) (place : Address) :
    ((memory.storeWord address value).storeWord other second).byte place =
      ((memory.storeWord other second).storeWord address value).byte place := by
  have hlow := wordAddress_ne_low address other
  have hhigh := wordAddress_ne_low other address
  simp only [byte_storeWord]
  split
  · rename_i hplace
    rw [if_neg (by simpa [hplace] using h.symm), if_neg (by simpa [hplace] using hlow.symm)]
  · split
    · rename_i hplace
      rw [if_neg (by simpa [hplace] using hhigh), if_neg (by simpa [hplace] using h.symm)]
    · rfl

end M68k.Memory
