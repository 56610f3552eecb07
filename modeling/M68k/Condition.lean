import M68k.Status

/-!
# Conditions

The sixteen tests of the condition codes that branches, counted loops and conditional sets use.

## Main definitions

* `Condition`: the sixteen tests
* `Condition.ofField`: the test that a four-bit field selects
* `Condition.holds`: its value in a status register
-/

namespace M68k

/-- A test of the condition codes, named by its mnemonic. -/
inductive Condition
  /-- Always. -/
  | t
  /-- Never. -/
  | f
  /-- Higher, unsigned. -/
  | hi
  /-- Lower or the same, unsigned. -/
  | ls
  /-- Carry clear: higher or the same, unsigned. -/
  | cc
  /-- Carry set: lower, unsigned. -/
  | cs
  /-- Not equal. -/
  | ne
  /-- Equal. -/
  | eq
  /-- No overflow. -/
  | vc
  /-- Overflow. -/
  | vs
  /-- Plus. -/
  | pl
  /-- Minus. -/
  | mi
  /-- Greater or equal, signed. -/
  | ge
  /-- Less, signed. -/
  | lt
  /-- Greater, signed. -/
  | gt
  /-- Less or equal, signed. -/
  | le
deriving DecidableEq, Repr

namespace Condition

/-- The condition that the low four bits of a field select. -/
def ofField (field : Nat) : Condition :=
  match field % 16 with
  | 0x0 => t
  | 0x1 => f
  | 0x2 => hi
  | 0x3 => ls
  | 0x4 => cc
  | 0x5 => cs
  | 0x6 => ne
  | 0x7 => eq
  | 0x8 => vc
  | 0x9 => vs
  | 0xA => pl
  | 0xB => mi
  | 0xC => ge
  | 0xD => lt
  | 0xE => gt
  | _ => le

/-- The condition holds for the condition codes of `sr`. -/
def holds (condition : Condition) (sr : Status) : Bool :=
  let c := Status.has sr Status.carry
  let v := Status.has sr Status.overflow
  let z := Status.has sr Status.zero
  let n := Status.has sr Status.negative
  match condition with
  | t => true
  | f => false
  | hi => !c && !z
  | ls => c || z
  | cc => !c
  | cs => c
  | ne => !z
  | eq => z
  | vc => !v
  | vs => v
  | pl => !n
  | mi => n
  | ge => n == v
  | lt => n != v
  | gt => !z && n == v
  | le => z || n != v

end Condition

end M68k
