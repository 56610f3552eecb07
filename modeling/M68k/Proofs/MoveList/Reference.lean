import M68k.Processor.RegisterList
import M68k.Proofs.Memory.Words
import M68k.Proofs.Operand.Source

/-!
# Register lists as the programmer sees them

In memory the registers of a list lie one after the other in the order of their numbers, each as an
operand of its own, from the effective address upwards or, in front of a predecremented register, up
to it. Nothing here tells in which order they get there.

## Main definitions

* `Reference.listOrder`, `Reference.orderIn`: the registers of a list in the order in which they lie
  in memory
* `Reference.locateList`, `Reference.blockStart`: where they lie
* `Reference.ListStored`: registers have been stored
* `Reference.loadList`, `Reference.ListLoaded`: registers are loaded

## Main results

* `Reference.listLoaded_loadList`: registers that are loaded one after the other are loaded, and no
  others
* `Reference.ListStored.restored`: what has been stored is what is loaded
-/

namespace M68k

/-- The words of memory that an operand takes. -/
def Size.words : Size → Nat
  | .long => 2
  | _ => 1

theorem Size.bytes_of_ne_byte {size : Size} (h : size ≠ .byte) : size.bytes = 2 * size.words := by
  cases size with
  | byte => exact absurd rfl h
  | word | long => rfl

/-- The number of an address register in a register list. -/
def ListedRegister.ofAddress (n : RegisterIndex) : ListedRegister := ⟨n.val + 8, by omega⟩

namespace Registers

theorem listed_ofAddress (r : Registers) (n : RegisterIndex) :
    r.listed (.ofAddress n) = r.address n := by
  simp [listed, ListedRegister.ofAddress]

/-- An address register is replaced, and no other register. -/
theorem setAddress_eq_setListed (r : Registers) (n : RegisterIndex) (value : Long) :
    r.setAddress n value = r.setListed (.ofAddress n) value := by
  simp [setListed, ListedRegister.ofAddress]

theorem listed_setAddress (r : Registers) (n : RegisterIndex) (value : Long) (m : ListedRegister) :
    (r.setAddress n value).listed m = if m = .ofAddress n then value else r.listed m := by
  rw [setAddress_eq_setListed]
  split
  · rename_i h
    rw [h, listed_setListed_self]
  · rename_i h
    exact listed_setListed_of_ne r h value

/-- Of two values that a register is given, the second counts. -/
theorem setListed_setListed (r : Registers) (n : ListedRegister) (first second : Long) :
    (r.setListed n first).setListed n second = r.setListed n second := by
  by_cases h : n.val < 8 <;> simp [setListed, h, setData, setAddress]

end Registers

/-! ## Words at even addresses -/

namespace Memory

/-- At an even address lies the high byte of a word. -/
theorem wordAddress_of_even {address : Long} (heven : address.toNat % 2 = 0) :
    wordAddress (address.setWidth 24) = address.setWidth 24 := by
  apply BitVec.eq_of_toNat_eq
  rw [toNat_wordAddress, BitVec.toNat_setWidth]
  omega

theorem setWidth_add_one (address : Long) :
    (address + 1).setWidth 24 = address.setWidth 24 + 1 :=
  BitVec.setWidth_add address 1 (by decide)

theorem wordAt_of_even (memory : Memory) {address : Long} (heven : address.toNat % 2 = 0) :
    memory.wordAt address = memory.byteAt address ++ memory.byteAt (address + 1) := by
  rw [wordAt, word, wordAddress_of_even heven, byteAt, byteAt, setWidth_add_one]

/-- The operand at an even address depends on its own bytes. -/
theorem read_congr {memory other : Memory} {size : Size} {address : Long}
    (heven : address.toNat % 2 = 0)
    (h : ∀ offset < size.bytes,
      memory.byteAt (address + BitVec.ofNat 32 offset) =
        other.byteAt (address + BitVec.ofNat 32 offset)) :
    memory.read size address = other.read size address := by
  have hzero : address + BitVec.ofNat 32 0 = address := BitVec.add_zero address
  cases size with
  | byte =>
    have hbyte := h 0 (by decide)
    rw [hzero] at hbyte
    rw [read, read, hbyte]
  | word =>
    have hhigh := h 0 (by decide)
    have hlow : memory.byteAt (address + 1) = other.byteAt (address + 1) := h 1 (by decide)
    rw [hzero] at hhigh
    rw [read, read, wordAt_of_even _ heven, wordAt_of_even _ heven, hhigh, hlow]
  | long =>
    have hfirst := h 0 (by decide)
    have hsecond : memory.byteAt (address + 1) = other.byteAt (address + 1) := h 1 (by decide)
    have hthird : memory.byteAt (address + 2) = other.byteAt (address + 2) := h 2 (by decide)
    have hfourth : memory.byteAt (address + 3) = other.byteAt (address + 3) := h 3 (by decide)
    have hlow : (address + 2).toNat % 2 = 0 := by bv_omega
    have hlast : address + 2 + 1 = address + 3 := by bv_omega
    rw [hzero] at hfirst
    rw [read, read, wordAt_of_even _ heven, wordAt_of_even _ heven, wordAt_of_even _ hlow,
      wordAt_of_even _ hlow, hlast, hfirst, hsecond, hthird, hfourth]

end Memory

namespace Reference

/-! ## Lists -/

/-- The registers of a list, in the order in which they lie in memory: D0 to D7 before A0 to A7. A
list in reverse order has the bit of A7 first. -/
def listOrder (list : Word) (reversed : Bool) : List ListedRegister :=
  (List.finRange 16).filter fun n => list.getLsbD (if reversed then n.rev else n)

/-- The registers of a list that is moved in some addressing mode. -/
def orderIn (list : Word) (mode : AddressMode) : List ListedRegister :=
  listOrder list (decide (mode = .preDecrement))

theorem nodup_listOrder (list : Word) (reversed : Bool) : (listOrder list reversed).Nodup :=
  (List.nodup_finRange 16).filter _

/-- A list with the bits in reverse order means the same registers. -/
theorem listOrder_reverse (list : Word) : listOrder list.reverse false = listOrder list true := by
  refine List.filter_congr fun n _ => ?_
  have hn : n.val < 16 := n.isLt
  simp only [Bool.false_eq_true, if_false, if_true, BitVec.getLsbD_reverse,
    BitVec.getMsbD_eq_getLsbD, hn, decide_true, Bool.true_and, Fin.val_rev]
  congr 1
  omega

/-- Where the registers of a list are addressed, and the program counter when this is known. The
list is the first word that is taken from the program, and a register that steps down is not there
yet. -/
def locateList (memory : Memory) (mode : AddressMode) (n : RegisterIndex) (r : Registers) :
    Place × Registers :=
  locate memory (if mode = .preDecrement then .indirect else mode) n .word (skipWord r)

/-- Where the block of a register list begins. It ends at the register that steps down. -/
def blockStart (mode : AddressMode) (size : Size) (order : List ListedRegister) (address : Long) :
    Long :=
  if mode = .preDecrement then address - BitVec.ofNat 32 (order.length * size.bytes) else address

/-- Registers have been stored one after the other, from `start` upwards, and no other memory has
changed. -/
structure ListStored (size : Size) (order : List ListedRegister) (start : Long) (r : Registers)
    (before after : Memory) : Prop where
  inside : ∀ i (h : i < order.length),
    after.read size (start + BitVec.ofNat 32 (i * size.bytes)) = size.truncate (r.listed order[i])
  outside : ∀ place : Address,
    (∀ offset < order.length * size.bytes,
      place ≠ (start + BitVec.ofNat 32 offset).setWidth 24) →
        after.byte place = before.byte place

/-- Only the listed registers matter. -/
theorem ListStored.congr {size : Size} {order : List ListedRegister} {start : Long}
    {r r' : Registers} {before after : Memory} (h : ListStored size order start r before after)
    (hlisted : ∀ n, r.listed n = r'.listed n) : ListStored size order start r' before after :=
  ⟨fun i hi => (h.inside i hi).trans (by rw [hlisted]), h.outside⟩

/-- Load registers one after the other, from `address` upwards. Words take their sign along. -/
def loadList (memory : Memory) (size : Size) :
    List ListedRegister → Long → Registers → Registers
  | [], _, r => r
  | n :: order, address, r =>
    loadList memory size order (address + BitVec.ofNat 32 size.bytes)
      (r.setListed n (size.signExtend (memory.read size address)))

/-- Registers have been loaded from consecutive operands, and nothing else has changed. -/
structure ListLoaded (size : Size) (order : List ListedRegister) (start : Long) (memory : Memory)
    (r r' : Registers) : Prop where
  listed : ∀ i (h : i < order.length),
    r'.listed order[i] =
      size.signExtend (memory.read size (start + BitVec.ofNat 32 (i * size.bytes)))
  unlisted : ∀ n ∉ order, r'.listed n = r.listed n
  others : { r' with d := r.d, a := r.a } = r

/-! ## Even addresses -/

section Even

variable {address : Long} (heven : address.toNat % 2 = 0)
include heven

theorem even_add (i : Nat) : (address + BitVec.ofNat 32 (2 * i)).toNat % 2 = 0 := by
  rw [BitVec.toNat_add, BitVec.toNat_ofNat]
  omega

theorem even_sub (i : Nat) : (address - BitVec.ofNat 32 (2 * i)).toNat % 2 = 0 := by
  rw [BitVec.toNat_sub, BitVec.toNat_ofNat]
  omega

/-- The operands of a block at an even address are at even addresses. -/
theorem even_operand {size : Size} (hsize : size ≠ .byte) (i : Nat) :
    (address + BitVec.ofNat 32 (i * size.bytes)).toNat % 2 = 0 := by
  rw [Size.bytes_of_ne_byte hsize, Nat.mul_left_comm]
  exact even_add heven _

theorem even_blockStart {size : Size} (hsize : size ≠ .byte) (mode : AddressMode)
    (order : List ListedRegister) : (blockStart mode size order address).toNat % 2 = 0 := by
  unfold blockStart
  split
  · rw [Size.bytes_of_ne_byte hsize, Nat.mul_left_comm]
    exact even_sub heven _
  · exact heven

end Even

/-! ## Loads -/

section Loads

variable {memory : Memory} {size : Size} {order : List ListedRegister} {address : Long}
  {r : Registers}

theorem listed_loadList_of_notMem {n : ListedRegister} (h : n ∉ order) :
    (loadList memory size order address r).listed n = r.listed n := by
  induction order generalizing address r with
  | nil => rfl
  | cons m order ih =>
    obtain ⟨hne, hrest⟩ := List.ne_and_not_mem_of_not_mem_cons h
    rw [loadList, ih hrest, Registers.listed_setListed_of_ne r hne]

theorem listed_loadList (hnodup : order.Nodup) {i : Nat} (h : i < order.length) :
    (loadList memory size order address r).listed order[i] =
      size.signExtend (memory.read size (address + BitVec.ofNat 32 (i * size.bytes))) := by
  induction order generalizing address r i with
  | nil => cases h
  | cons n order ih =>
    obtain ⟨hfresh, hrest⟩ := List.nodup_cons.1 hnodup
    rw [loadList]
    cases i with
    | zero =>
      have hhere : address + BitVec.ofNat 32 (0 * size.bytes) = address := by
        rw [Nat.zero_mul]
        exact BitVec.add_zero address
      rw [List.getElem_cons_zero, listed_loadList_of_notMem hfresh,
        Registers.listed_setListed_self, hhere]
    | succ i =>
      rw [List.getElem_cons_succ, ih hrest, Nat.succ_mul, Nat.add_comm, BitVec.ofNat_add,
        ← BitVec.add_assoc]

theorem others_loadList : { loadList memory size order address r with d := r.d, a := r.a } = r := by
  induction order generalizing address r with
  | nil => rfl
  | cons n order ih =>
    have hset (value : Long) :
        { r.setListed n value with d := r.d, a := r.a } = r := by
      unfold Registers.setListed
      split <;> rfl
    rw [loadList]
    refine Eq.trans ?_ (hset (size.signExtend (memory.read size address)))
    exact congrArg (fun kept : Registers => { kept with d := r.d, a := r.a }) ih

/-- **Registers that are loaded one after the other are loaded, and no others.** -/
theorem listLoaded_loadList (hnodup : order.Nodup) :
    ListLoaded size order address memory r (loadList memory size order address r) :=
  ⟨fun _ h => listed_loadList hnodup h, fun _ h => listed_loadList_of_notMem h, others_loadList⟩

end Loads

/-! ## There and back -/

/-- **What has been stored is what is loaded**, from any memory that agrees on the block. -/
theorem ListStored.restored {order : List ListedRegister} {start : Long} {r r₁ r₂ : Registers}
    {before after memory : Memory} (hstored : ListStored .long order start r before after)
    (hloaded : ListLoaded .long order start memory r₁ r₂) (heven : start.toNat % 2 = 0)
    (hagree : ∀ offset < order.length * Size.long.bytes,
      memory.byteAt (start + BitVec.ofNat 32 offset) =
        after.byteAt (start + BitVec.ofNat 32 offset)) {n : ListedRegister} (hn : n ∈ order) :
    r₂.listed n = r.listed n := by
  obtain ⟨i, hi, rfl⟩ := List.getElem_of_mem hn
  have hsize : Size.long ≠ .byte := nofun
  have hread : memory.read .long (start + BitVec.ofNat 32 (i * Size.long.bytes)) =
      after.read .long (start + BitVec.ofNat 32 (i * Size.long.bytes)) := by
    refine Memory.read_congr (even_operand heven hsize i) fun offset hoffset => ?_
    have hlast : i * Size.long.bytes + Size.long.bytes ≤ order.length * Size.long.bytes := by
      rw [← Nat.succ_mul]
      exact Nat.mul_le_mul_right _ hi
    rw [BitVec.add_assoc, ← BitVec.ofNat_add]
    exact hagree _ (by omega)
  rw [hloaded.listed i hi, hread, hstored.inside i hi, Size.truncate_long]
  rfl

end Reference

end M68k
