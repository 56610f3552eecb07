import M68k.Status

/-!
# Binary arithmetic

Addition, subtraction, comparison and negation at an operand size. Each function takes the operands
and the status register and gives the result with the new status register. Operands are cut to the
size first. Carries, borrows and overflows are read from the sign bits of operands and result.

## Main definitions

* `Computed`: a result with the status register it leaves
* `Arithmetic.add`, `Arithmetic.sub`, `Arithmetic.compare`, `Arithmetic.neg`
* `Arithmetic.subx`, `Arithmetic.negx`: the links of multi-precision chains
-/

namespace M68k

/-- A result with the status register it leaves. -/
structure Computed where
  value : Long
  status : Status
deriving DecidableEq, Repr

namespace Arithmetic

/-- `dst + src`. C and X are the carry out of the size. -/
def add (src dst : Long) (size : Size) (sr : Status) : Computed :=
  let s := src &&& size.mask
  let d := dst &&& size.mask
  let result := (s + d) &&& size.mask
  let carry := (s &&& d) ||| ((s ||| d) &&& ~~~result)
  let overflow := (s ^^^ result) &&& (d ^^^ result)
  let sr := Status.setNZ sr result size
  let sr := Status.setIf sr (Status.carry ||| Status.extend) (carry &&& size.msb != 0)
  ⟨result, Status.setIf sr Status.overflow (overflow &&& size.msb != 0)⟩

/-- `dst - src` with X kept. C is the borrow out of the size. -/
def compare (src dst : Long) (size : Size) (sr : Status) : Computed :=
  let s := src &&& size.mask
  let d := dst &&& size.mask
  let result := (d - s) &&& size.mask
  let borrow := (~~~d &&& s) ||| ((~~~d ||| s) &&& result)
  let overflow := (s ^^^ d) &&& (result ^^^ d)
  let sr := Status.setNZ sr result size
  let sr := Status.setIf sr Status.carry (borrow &&& size.msb != 0)
  ⟨result, Status.setIf sr Status.overflow (overflow &&& size.msb != 0)⟩

/-- `dst - src`. X follows C. -/
def sub (src dst : Long) (size : Size) (sr : Status) : Computed :=
  let compared := compare src dst size sr
  ⟨compared.value,
    Status.setIf compared.status Status.extend (Status.has compared.status Status.carry)⟩

/-- `dst - src - X`. Z is only ever cleared, so that at the end of a chain it tells whether the
whole number is zero. -/
def subx (src dst : Long) (size : Size) (sr : Status) : Computed :=
  let x : Long := if Status.has sr Status.extend then 1 else 0
  let s := src &&& size.mask
  let d := dst &&& size.mask
  let result := (d - s - x) &&& size.mask
  let borrow := (~~~d &&& s) ||| ((~~~d ||| s) &&& result)
  let overflow := (s ^^^ d) &&& (result ^^^ d)
  let sr := Status.setIf sr Status.negative (result &&& size.msb != 0)
  let sr := if result = 0 then sr else sr &&& ~~~Status.zero
  let sr := Status.setIf sr (Status.carry ||| Status.extend) (borrow &&& size.msb != 0)
  ⟨result, Status.setIf sr Status.overflow (overflow &&& size.msb != 0)⟩

/-- `0 - dst`. -/
def neg (dst : Long) (size : Size) (sr : Status) : Computed := sub dst 0 size sr

/-- `0 - dst - X`. -/
def negx (dst : Long) (size : Size) (sr : Status) : Computed := subx dst 0 size sr

end Arithmetic

end M68k
