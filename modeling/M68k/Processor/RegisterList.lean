import M68k.Registers

/-!
# Register-list transfers

A register list moves word by word between registers and consecutive memory words. The registers are
numbered 0 to 15, D0 to D7 before A0 to A7. A descending transfer goes from A7 down to D0, low words
first, towards lower addresses; its list has the bits in reverse order.

## Main definitions

* `listed`: the registers of a list, in the order of their transfer
* `ListTransfer`: the words still to move, and where the next one is
* `ListTransfer.value`, `ListTransfer.store`, `ListTransfer.advance`
-/

namespace M68k

/-- The number of a data or address register in a register list. -/
abbrev ListedRegister := Fin 16

namespace Registers

/-- The register with a given number in a list. -/
def listed (r : Registers) (n : ListedRegister) : Long :=
  if h : n.val < 8 then r.data ⟨n.val, h⟩ else r.address ⟨n.val - 8, by omega⟩

/-- Replace the register with a given number in a list. -/
def setListed (r : Registers) (n : ListedRegister) (value : Long) : Registers :=
  if h : n.val < 8 then r.setData ⟨n.val, h⟩ value
  else r.setAddress ⟨n.val - 8, by omega⟩ value

@[simp] theorem listed_setListed_self (r : Registers) (n : ListedRegister) (value : Long) :
    (r.setListed n value).listed n = value := by
  by_cases h : n.val < 8 <;> simp [listed, setListed, h]

theorem listed_setListed_of_ne (r : Registers) {n m : ListedRegister} (h : m ≠ n) (value : Long) :
    (r.setListed n value).listed m = r.listed m := by
  have hval : m.val ≠ n.val := Fin.val_ne_of_ne h
  by_cases hn : n.val < 8
  · by_cases hm : m.val < 8
    · have hne : (⟨m.val, hm⟩ : RegisterIndex) ≠ ⟨n.val, hn⟩ := by simpa using hval
      simp [listed, setListed, hn, hm, r.data_setData_of_ne hne]
    · simp [listed, setListed, hn, hm]
  · by_cases hm : m.val < 8
    · simp [listed, setListed, hn, hm]
    · have hne : (⟨m.val - 8, by omega⟩ : RegisterIndex) ≠ ⟨n.val - 8, by omega⟩ := by
        rw [ne_eq, Fin.mk.injEq]
        omega
      simp [listed, setListed, hn, hm, r.address_setAddress_of_ne hne]

end Registers

/-- The registers of a list, in the order in which they are transferred. -/
def listed (list : Word) (descending : Bool) : List ListedRegister :=
  ((List.finRange 16).filter fun (bit : Fin 16) => list.getLsbD bit).map fun bit =>
    if descending then bit.rev else bit

/-- A register-list transfer in progress. -/
structure ListTransfer where
  /-- The words still to move, each a half of a register. -/
  words : List (ListedRegister × Half)
  /-- Whole registers are moved. Otherwise their low words are, and loads extend the sign. -/
  long : Bool
  descending : Bool
  /-- Where the next word is in memory. -/
  address : Long
  /-- The address register once every word has moved. -/
  finalAddress : Long
deriving DecidableEq, Repr

namespace ListTransfer

/-- The transfer of no register. -/
def none : ListTransfer := ⟨[], false, false, 0, 0⟩

/-- The halves of a register in the order of their transfer. -/
def halves (long descending : Bool) : List Half :=
  match long, descending with
  | false, _ => [.low]
  | true, false => [.high, .low]
  | true, true => [.low, .high]

/-- Begin to transfer the registers of `list` at the address `start`. -/
def begin (list : Word) (start : Long) (long descending : Bool) : ListTransfer :=
  let words := (listed list descending).flatMap fun register =>
    (halves long descending).map (register, ·)
  let span := BitVec.ofNat 32 (words.length * 2)
  { words := words
    long := long
    descending := descending
    address := if descending then start - 2 else start
    finalAddress := if descending then start - span else start + span }

/-- The word to write now. Behind the last register there are zeros. -/
def value (transfer : ListTransfer) (r : Registers) : Word :=
  match transfer.words with
  | [] => 0
  | (register, half) :: _ => half.get (r.listed register)

/-- Store a word that has been read. Behind the last register it is dropped. -/
def store (transfer : ListTransfer) (r : Registers) (value : Word) : Registers :=
  match transfer.words with
  | [] => r
  | (register, half) :: _ =>
    r.setListed register
      (if transfer.long then half.set (r.listed register) value else value.signExtend 32)

/-- Go on to the next word. -/
def advance (transfer : ListTransfer) : ListTransfer :=
  { transfer with
    words := transfer.words.tail
    address := if transfer.descending then transfer.address - 2 else transfer.address + 2 }

end ListTransfer

end M68k
