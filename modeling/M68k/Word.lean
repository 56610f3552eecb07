/-!
# Words

The three widths the processor computes with, the halves of a long word, and the upper-case
hexadecimal digits in which words are shown.

## Main definitions

* `Byte`, `Word`, `Long`: 8, 16 and 32 bits
* `Half.get`, `Half.set`: one word of a long word
* `hexDigits`: digits of a number, padded on the left
-/

namespace M68k

/-- Eight bits. -/
abbrev Byte := BitVec 8

/-- Sixteen bits: the width of the bus and of an opcode. -/
abbrev Word := BitVec 16

/-- Thirty-two bits: the width of a register and of an address inside the processor. -/
abbrev Long := BitVec 32

/-- Which word of a long word a transfer touches. -/
inductive Half
  | high
  | low
deriving DecidableEq, Repr, Hashable

namespace Half

/-- The selected word of `x`. -/
def get : Half → Long → Word
  | high, x => x.extractLsb' 16 16
  | low, x => x.extractLsb' 0 16

/-- Replace the selected word of `x` and keep the other one. -/
def set : Half → Long → Word → Long
  | high, x, w => w ++ x.extractLsb' 0 16
  | low, x, w => x.extractLsb' 16 16 ++ w

@[simp] theorem get_set_self (half : Half) (x : Long) (w : Word) :
    half.get (half.set x w) = w := by
  cases half with
  | high => exact BitVec.extractLsb'_append_eq_left
  | low => exact BitVec.extractLsb'_append_eq_right

@[simp] theorem low_get_high_set (x : Long) (w : Word) : low.get (high.set x w) = low.get x :=
  BitVec.extractLsb'_append_eq_right

@[simp] theorem high_get_low_set (x : Long) (w : Word) : high.get (low.set x w) = high.get x :=
  BitVec.extractLsb'_append_eq_left

/-- A long word is its two halves. -/
theorem high_append_low (x : Long) : high.get x ++ low.get x = x :=
  (BitVec.extractLsb'_append_extractLsb'_eq_extractLsb' rfl).trans BitVec.extractLsb'_eq_self

/-- How the half is written in a listing. -/
def name : Half → String
  | high => "High"
  | low => "Low"

end Half

/-- The number `n` in upper-case hexadecimal, padded with zeros on the left to `width` digits. -/
def hexDigits (width n : Nat) : String :=
  let digits := (Nat.toDigits 16 n).map Char.toUpper
  String.ofList (List.replicate (width - digits.length) '0' ++ digits)

end M68k
