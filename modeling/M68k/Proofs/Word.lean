import M68k.Word
import Mathlib.Tactic.IntervalCases

/-!
# Words

Halves of long words that are put together.

## Main results

* `Half.low_set_high_set`, `Half.high_set_low_set`: both halves are replaced
-/

namespace M68k

/-- The low byte of a word, made longer. -/
theorem setWidth_append_and (high low : Byte) :
    ((high ++ low : Word) &&& 0xFF).setWidth 32 = low.setWidth 32 := by
  have hmask (word : Word) : (word &&& 0xFF).setWidth 32 = (word.extractLsb' 0 8).setWidth 32 := by
    ext i hi
    interval_cases i <;> simp [BitVec.getElem_setWidth]
  rw [hmask]
  exact congrArg (BitVec.setWidth 32) BitVec.extractLsb'_append_eq_right

namespace Half

@[simp] theorem low_set_high_set (x : Long) (h l : Word) : low.set (high.set x h) l = h ++ l := by
  change high.get (high.set x h) ++ l = h ++ l
  rw [get_set_self]

@[simp] theorem high_set_low_set (x : Long) (h l : Word) : high.set (low.set x l) h = h ++ l := by
  change h ++ low.get (low.set x l) = h ++ l
  rw [get_set_self]

end Half

end M68k
