import M68k.Size

/-!
# The status register

The low byte holds the condition codes C, V, Z, N and X in bits 0 to 4. The system byte holds the
interrupt mask in bits 8 to 10, the supervisor bit 13 and the trace bit 15. The remaining bits are
not implemented and always read as zero.

## Main definitions

* `Status.carry` … `Status.trace`: one mask per field
* `Status.setIf`: set or clear the bits of a mask
* `Status.setNZ`, `Status.logical`: condition codes that describe a value
-/

namespace M68k

/-- The status register: condition codes and system byte. -/
abbrev Status := Word

namespace Status

/-- The carry bit C. -/
def carry : Status := 0x0001

/-- The overflow bit V. -/
def overflow : Status := 0x0002

/-- The zero bit Z. -/
def zero : Status := 0x0004

/-- The negative bit N. -/
def negative : Status := 0x0008

/-- The extend bit X, the carry of multi-precision chains. -/
def extend : Status := 0x0010

/-- The interrupt mask. -/
def interruptMask : Status := 0x0700

/-- The supervisor bit S. -/
def supervisor : Status := 0x2000

/-- The trace bit T. -/
def trace : Status := 0x8000

/-- The condition codes together. -/
def conditionCodes : Status := 0x001F

/-- Every implemented bit. -/
def implemented : Status := 0xA71F

/-- Some bit of `flag` is set in `sr`. -/
def has (sr flag : Status) : Bool := sr &&& flag != 0

/-- Set the bits of `flag` if `holds`, and clear them otherwise. -/
def setIf (sr flag : Status) (holds : Bool) : Status :=
  if holds then sr ||| flag else sr &&& ~~~flag

/-- Make N and Z describe `value` at `size`. -/
def setNZ (sr : Status) (value : Long) (size : Size) : Status :=
  setIf (setIf sr zero (value &&& size.mask == 0)) negative (value &&& size.msb != 0)

/-- N and Z from `value`, V and C cleared, X kept: the condition codes of a move and of the logical
operations. -/
def logical (sr : Status) (value : Long) (size : Size) : Status :=
  setNZ (sr &&& ~~~(overflow ||| carry)) value size

end Status

end M68k
