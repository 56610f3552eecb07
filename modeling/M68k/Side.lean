import M68k.Word

/-!
# Registers and operand sides

Instructions and bus steps name registers, latches and other places by number. A number is a byte,
whatever it is meant to name; what exists has an index. Where a place is used, its index is worked
out from the number.

An instruction has a source side and a destination side. Each owns an effective-address latch, a
data latch and a register number, so that the two never alias.

## Main definitions

* `RegisterNumber`, `RegisterIndex`: a register as it is named, and as it exists
* `Side`: source or destination
* `Target`: a set of sides
-/

namespace M68k

/-- One of the eight data or address registers. -/
abbrev RegisterIndex := Fin 8

/-- The register that the low three bits of a field select. -/
def RegisterIndex.ofField (field : Nat) : RegisterIndex := Fin.ofNat 8 field

/-- Address register 7 is the stack pointer. -/
def stackPointer : RegisterIndex := .ofField 7

/-- A data or address register as an instruction names it. Opcodes only name 0 to 7. -/
abbrev RegisterNumber := Byte

namespace RegisterNumber

/-- The number in the low three bits of a field. -/
def ofField (field : Nat) : RegisterNumber := BitVec.ofNat 8 (field % 8)

/-- The register that is named: the low three bits count. -/
def index (number : RegisterNumber) : RegisterIndex := .ofField number.toNat

theorem toNat_ofField (field : Nat) : (ofField field).toNat = field % 8 := by
  simp only [ofField, BitVec.toNat_ofNat]
  omega

theorem toNat_ofField_lt (field : Nat) : (ofField field).toNat < 8 := by
  rw [toNat_ofField]
  exact Nat.mod_lt _ (by decide)

@[simp] theorem index_ofField (field : Nat) : (ofField field).index = .ofField field := by
  rw [index, toNat_ofField]
  exact Fin.ext (Nat.mod_mod _ _)

end RegisterNumber

/-- An operand side. -/
inductive Side
  | source
  | destination
deriving DecidableEq, Repr, Hashable

namespace Side

/-- The number that names a side. -/
def number : Side → Byte
  | source => 0
  | destination => 1

/-- The side that is named: only the source side is numbered 0. -/
def ofNumber (number : Byte) : Side := if number = 0 then source else destination

@[simp] theorem ofNumber_number (side : Side) : ofNumber side.number = side := by
  cases side <;> rfl

end Side

/-- A set of operand sides. -/
structure Target where
  source : Bool
  destination : Bool
deriving DecidableEq, Repr

namespace Target

/-- The source side alone. -/
def src : Target := ⟨true, false⟩

/-- The destination side alone. -/
def dst : Target := ⟨false, true⟩

/-- Both sides. -/
def both : Target := ⟨true, true⟩

/-- No side. -/
def nowhere : Target := ⟨false, false⟩

/-- The selected sides, source first. -/
def sides (target : Target) : List Side :=
  (if target.source then [.source] else []) ++ (if target.destination then [.destination] else [])

/-- The set as a number: bit 0 is the source side, bit 1 the destination side. -/
def toNat (target : Target) : Nat := target.source.toNat + 2 * target.destination.toNat

/-- The set whose number has the low two bits of `n`. -/
def ofNat (n : Nat) : Target := ⟨n.testBit 0, n.testBit 1⟩

@[simp] theorem ofNat_toNat (target : Target) : ofNat target.toNat = target := by
  rcases target with ⟨_ | _, _ | _⟩ <;> rfl

end Target

end M68k
