import M68k.Arithmetic.Binary

/-!
# Packed decimal arithmetic

A byte holds two decimal digits. A sum or difference is formed in binary, then corrected: first the
low digit, then the whole byte. C and X are the decimal carry or borrow, and Z is only ever cleared,
so that bytes chain to numbers of any length.

## Main definitions

* `PackedDecimal.add`, `PackedDecimal.sub`
-/

namespace M68k.PackedDecimal

/-- The condition codes and the byte of a corrected `result` whose low digits combined to `binary`:
V tells that the correction turned bit 7 on, N is bit 7. -/
def finish (binary result : Long) (carry : Bool) (sr : Status) : Computed :=
  let overflow := ~~~binary &&& result &&& 0x80 != 0
  let byte := result &&& 0xFF
  let sr := Status.setIf sr (Status.carry ||| Status.extend) carry
  let sr := Status.setIf sr Status.overflow overflow
  let sr := Status.setIf sr Status.negative (byte &&& 0x80 != 0)
  ⟨byte, if byte = 0 then sr else sr &&& ~~~Status.zero⟩

/-- The decimal sum `dst + src + X`. -/
def add (src dst : Long) (sr : Status) : Computed :=
  let x : Long := if Status.has sr Status.extend then 1 else 0
  let binary := (src &&& 0x0F) + (dst &&& 0x0F) + x
  let low := if binary > 9 then binary + 6 else binary
  let sum := low + ((src &&& 0xF0) + (dst &&& 0xF0))
  let carry := decide (sum > 0x99)
  finish binary (if carry then sum - 0xA0 else sum) carry sr

/-- The decimal difference `dst - src - X`. -/
def sub (src dst : Long) (sr : Status) : Computed :=
  let x : Long := if Status.has sr Status.extend then 1 else 0
  let binary := (dst &&& 0x0F) - (src &&& 0x0F) - x
  let low := if binary > 9 then binary - 6 else binary
  let difference := low + (dst &&& 0xF0) - (src &&& 0xF0)
  let borrow := decide (difference > 0x99)
  finish binary (if borrow then difference + 0xA0 else difference) borrow sr

end M68k.PackedDecimal
