import M68k.Word

/-!
# Inspected values

Debuggers look at a component through named properties, whose values carry their width.

## Main definitions

* `Inspected`: the value of a property
* `Inspected.text`: how it is shown
* `Inspected.number?`: the number it stands for, if it is one
-/

namespace M68k

/-- The value of an inspected property. -/
inductive Inspected
  | bool (value : Bool)
  | byte (value : Byte)
  | word (value : Word)
  | long (value : Long)
  | counter (value : BitVec 64)
  /-- Symbolic state, such as the name of a phase. -/
  | symbol (value : String)
deriving DecidableEq, Repr

namespace Inspected

/-- Bytes, words and long words are shown as hexadecimal numbers of their full width, counters as
decimal numbers. -/
def text : Inspected → String
  | bool value => if value then "true" else "false"
  | byte value => "0x" ++ hexDigits 2 value.toNat
  | word value => "0x" ++ hexDigits 4 value.toNat
  | long value => "0x" ++ hexDigits 8 value.toNat
  | counter value => toString value.toNat
  | symbol value => value

/-- The number a numeric property stands for. -/
def number? : Inspected → Option Nat
  | bool _ => none
  | byte value => some value.toNat
  | word value => some value.toNat
  | long value => some value.toNat
  | counter value => some value.toNat
  | symbol _ => none

end Inspected

end M68k
