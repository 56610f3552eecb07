import M68k.Proofs.MoveList.Reference
import M68k.Proofs.RegisterList

/-!
# The words of a register list

The processor moves a register list word by word, upwards, or downwards from the end of its block
with the registers, their words and the bits of the list in reverse order. Either way each word of
the block comes from, or goes to, the register that lies there.

## Main definitions

* `listWords`: the words of some registers in the order in which they lie in memory
* `ListTransfer.storeAll`, `ListTransfer.loadAll`: what the words of a transfer do to memory, and to
  the registers

## Main results

* `ListTransfer.words_begin`: a descending transfer goes through the words backwards
* `ListTransfer.listStored_storeAll`: the words of a list are stored where they should be
* `ListTransfer.loadAll_beginIn`: they are loaded from there, and the word behind them is dropped
-/

namespace M68k

open Reference

/-! ## The words of a list -/

/-- The words of some registers, in the order in which they lie in memory. -/
def listWords (order : List ListedRegister) (long : Bool) : List (ListedRegister × Half) :=
  order.flatMap fun n => (ListTransfer.halves long false).map (n, ·)

theorem listWords_word (order : List ListedRegister) :
    listWords order false = order.map fun n => (n, Half.low) :=
  List.map_eq_flatMap.symm

theorem listWords_long (order : List ListedRegister) :
    listWords order true = order.flatMap fun n => [(n, Half.high), (n, Half.low)] := rfl

theorem length_listWords {size : Size} (hsize : size ≠ .byte) (order : List ListedRegister) :
    (listWords order (size == .long)).length = order.length * size.words := by
  cases size with
  | byte => exact absurd rfl hsize
  | word =>
    change (listWords order false).length = order.length * 1
    rw [listWords_word, List.length_map, Nat.mul_one]
  | long =>
    change (listWords order true).length = order.length * 2
    rw [listWords_long]
    induction order with
    | nil => rfl
    | cons n order ih =>
      rw [List.flatMap_cons, List.length_append, ih, List.length_cons, List.length_cons,
        List.length_cons, List.length_nil, Nat.succ_mul, Nat.add_comm]

/-- Each register that is moved as a whole has two words, the high one first. -/
theorem getElem?_listWords_long {order : List ListedRegister} {i : Nat} (h : i < order.length) :
    (listWords order true)[2 * i]? = some (order[i], .high) ∧
      (listWords order true)[2 * i + 1]? = some (order[i], .low) := by
  have hfirst : 2 * i / 2 = i := by omega
  have hsecond : (2 * i + 1) / 2 = i := by omega
  have heven : 2 * i % 2 = 0 := by omega
  have hodd : ¬ (2 * i + 1) % 2 = 0 := by omega
  rw [listWords_long, getElem?_flatMap_pair, getElem?_flatMap_pair, hfirst, hsecond,
    List.getElem?_eq_getElem h, Option.map_some, Option.map_some, if_pos heven, if_neg hodd]
  exact ⟨rfl, rfl⟩

/-- Where the words of some registers are, their operands are. -/
theorem read_of_listWords {size : Size} (hsize : size ≠ .byte) {order : List ListedRegister}
    {memory : Memory} {start : Long} {r : Registers}
    (hwords : ∀ (j : Nat) (n : ListedRegister) (half : Half),
      (listWords order (size == .long))[j]? = some (n, half) →
        memory.wordAt (start + BitVec.ofNat 32 (2 * j)) = half.get (r.listed n))
    {i : Nat} (h : i < order.length) :
    memory.read size (start + BitVec.ofNat 32 (i * size.bytes)) =
      size.truncate (r.listed order[i]) := by
  cases size with
  | byte => exact absurd rfl hsize
  | word =>
    have hword : (listWords order (Size.word == .long))[i]? = some (order[i], .low) := by
      change (listWords order false)[i]? = _
      rw [listWords_word, List.getElem?_map, List.getElem?_eq_getElem h]
      rfl
    have hplace : i * Size.word.bytes = 2 * i := Nat.mul_comm i 2
    rw [Memory.read, Size.truncate_word, hplace, hwords i _ _ hword]
  | long =>
    obtain ⟨hhigh, hlow⟩ := getElem?_listWords_long h
    have hfirst : i * Size.long.bytes = 2 * (2 * i) := by
      simp only [Size.bytes]
      omega
    have hsecond : start + BitVec.ofNat 32 (2 * (2 * i)) + 2 =
        start + BitVec.ofNat 32 (2 * (2 * i + 1)) := by
      rw [Nat.mul_add, BitVec.ofNat_add, ← BitVec.add_assoc]
      rfl
    rw [Memory.read, Size.truncate_long, hfirst, hsecond, hwords _ _ _ hhigh, hwords _ _ _ hlow,
      Half.high_append_low]

namespace ListTransfer

/-- In a descending transfer the registers come from the end. -/
theorem listed_eq (list : Word) (descending : Bool) :
    listed list descending =
      if descending then (listOrder list true).reverse else listOrder list false := by
  cases descending with
  | false => simp [listed, listOrder]
  | true =>
    have hreversed : (List.finRange 16).reverse = (List.finRange 16).map Fin.rev :=
      List.finRange_reverse
    simp only [listed, listOrder, if_true]
    rw [← List.filter_reverse, hreversed, List.filter_map]
    refine congrArg (List.map Fin.rev) (List.filter_congr fun n _ => ?_)
    simp only [Function.comp_apply, Fin.rev_rev]

/-- **A descending transfer goes through the words backwards.** -/
theorem words_begin (list : Word) (start : Long) (long descending : Bool) :
    (begin list start long descending).words =
      if descending then (listWords (listOrder list true) long).reverse
      else listWords (listOrder list false) long := by
  cases descending with
  | false => simp only [begin, listed_eq, listWords, Bool.false_eq_true, if_false]
  | true =>
    simp only [begin, listed_eq, listWords, if_true, List.reverse_flatMap]
    congr 1
    funext n
    cases long <;> rfl

theorem length_words_begin_eq (list : Word) (start : Long) (long descending : Bool) :
    (begin list start long descending).words.length =
      (listWords (listOrder list descending) long).length := by
  rw [words_begin]
  cases descending <;> simp

section Advance

variable (t : ListTransfer) (k : Nat)

@[simp] theorem finalAddress_iterate_advance :
    (advance^[k] t).finalAddress = t.finalAddress := by
  induction k generalizing t with
  | zero => rfl
  | succ k ih => exact ih t.advance

/-- Each word is two bytes behind the one before, or before it. -/
theorem address_iterate_advance :
    (advance^[k] t).address =
      if t.descending then t.address - BitVec.ofNat 32 (2 * k)
      else t.address + BitVec.ofNat 32 (2 * k) := by
  induction k generalizing t with
  | zero => simp
  | succ k ih =>
    have hstep : BitVec.ofNat 32 (2 * (k + 1)) = 2 + BitVec.ofNat 32 (2 * k) := by bv_omega
    rw [Function.iterate_succ_apply, ih, hstep]
    by_cases hdescending : t.descending
    · simp only [advance, hdescending, if_true]
      bv_omega
    · simp only [advance, hdescending, if_false, Bool.false_eq_true]
      bv_omega

/-- The word whose turn it is after `k` others. -/
theorem value_iterate_advance (r : Registers) {k : Nat} {n : ListedRegister} {half : Half}
    (h : t.words[k]? = some (n, half)) : (advance^[k] t).value r = half.get (r.listed n) := by
  have hnext : (advance^[k] t).words.head? = some (n, half) := by
    rw [words_iterate_advance, List.head?_drop, h]
  obtain ⟨rest, hwords⟩ := List.head?_eq_some_iff.1 hnext
  simp only [value, hwords]

/-- Different words of a transfer are different words of memory. -/
theorem wordAddress_iterate_ne {i j : Nat} (hi : i < FixedPrograms.maxListWords)
    (hj : j < FixedPrograms.maxListWords) (hne : i ≠ j) :
    Memory.wordAddress ((advance^[i] t).address.setWidth 24) ≠
      Memory.wordAddress ((advance^[j] t).address.setWidth 24) := by
  simp only [FixedPrograms.maxListWords] at hi hj
  rw [ne_eq, Memory.wordAddress_eq_iff, address_iterate_advance, address_iterate_advance]
  by_cases hdescending : t.descending
  · simp only [hdescending, if_true, BitVec.toNat_setWidth, BitVec.toNat_sub, BitVec.toNat_ofNat]
    omega
  · simp only [hdescending, if_false, Bool.false_eq_true, BitVec.toNat_setWidth, BitVec.toNat_add,
      BitVec.toNat_ofNat]
    omega

end Advance

/-! ## Stores -/

section Stores

/-- Store `k` words of a transfer. -/
def storeAll (r : Registers) : Nat → ListTransfer → Memory → Memory
  | 0, _, memory => memory
  | k + 1, t, memory => storeAll r k t.advance (memory.storeWordAt t.address (t.value r))

variable {t : ListTransfer} {k : Nat} (r : Registers) (memory : Memory)

/-- Bytes of other words are left alone. -/
theorem byte_storeAll {place : Address}
    (houtside : ∀ i < k,
      place ≠ Memory.wordAddress ((advance^[i] t).address.setWidth 24) ∧
        place ≠ Memory.wordAddress ((advance^[i] t).address.setWidth 24) + 1) :
    (storeAll r k t memory).byte place = memory.byte place := by
  induction k generalizing t memory with
  | zero => rfl
  | succ k ih =>
    obtain ⟨hhigh, hlow⟩ := houtside 0 (Nat.succ_pos k)
    rw [Function.iterate_zero, id] at hhigh hlow
    rw [storeAll, ih _ fun i hi => houtside (i + 1) (Nat.succ_lt_succ hi), Memory.storeWordAt,
      Memory.byte_storeWord, if_neg hlow, if_neg hhigh]

/-- So are other words. -/
theorem wordAt_storeAll_of_ne {address : Long}
    (houtside : ∀ i < k,
      Memory.wordAddress (address.setWidth 24) ≠
        Memory.wordAddress ((advance^[i] t).address.setWidth 24)) :
    (storeAll r k t memory).wordAt address = memory.wordAt address := by
  induction k generalizing t memory with
  | zero => rfl
  | succ k ih =>
    rw [storeAll, ih _ fun i hi => houtside (i + 1) (Nat.succ_lt_succ hi), Memory.storeWordAt,
      Memory.wordAt, Memory.word_storeWord]
    exact if_neg (houtside 0 (Nat.succ_pos k))

/-- Each word that has been stored is in its place, whatever was stored behind it. -/
theorem wordAt_storeAll (hk : k ≤ FixedPrograms.maxListWords) {i : Nat} (hi : i < k) :
    (storeAll r k t memory).wordAt (advance^[i] t).address = (advance^[i] t).value r := by
  induction k generalizing t memory i with
  | zero => cases hi
  | succ k ih =>
    rw [storeAll]
    cases i with
    | zero =>
      rw [wordAt_storeAll_of_ne]
      · rw [Function.iterate_zero, id, Memory.storeWordAt, Memory.wordAt, Memory.word_storeWord,
          if_pos rfl]
      · intro j hj
        exact t.wordAddress_iterate_ne (by omega) (by omega) (Nat.succ_ne_zero j).symm
    | succ i => exact ih _ (by omega) (Nat.lt_of_succ_lt_succ hi)

end Stores

/-! ## The block -/

section Block

variable (list : Word) (address : Long) {size : Size} (mode : AddressMode) (r : Registers)
  (memory : Memory)

/-- The transfer of a list in some addressing mode. -/
def beginIn (list : Word) (address : Long) (size : Size) (mode : AddressMode) : ListTransfer :=
  begin list address (size == .long) (decide (mode = .preDecrement))

theorem words_beginIn (size : Size) :
    (beginIn list address size mode).words =
      if mode = .preDecrement then (listWords (orderIn list mode) (size == .long)).reverse
      else listWords (orderIn list mode) (size == .long) := by
  rw [beginIn, words_begin]
  by_cases hmode : mode = .preDecrement <;> simp [orderIn, hmode]

theorem length_words_beginIn (hsize : size ≠ .byte) :
    (beginIn list address size mode).words.length = (orderIn list mode).length * size.words := by
  have hlength := length_words_begin_eq list address (size == .long)
    (decide (mode = .preDecrement))
  rw [beginIn, hlength, ← orderIn, length_listWords hsize]

/-- There is room for the words of every list. -/
theorem length_orderIn_le (hsize : size ≠ .byte) :
    (orderIn list mode).length * size.words ≤ FixedPrograms.maxListWords := by
  rw [← length_words_beginIn list 0 mode hsize]
  exact length_words_begin_le _ _ _ _

/-- How many words are moved before the one that has `j` words below it in its block, and `k` words
above. -/
def turn (mode : AddressMode) (k j : Nat) : Nat := if mode = .preDecrement then k else j

theorem address_turn (hsize : size ≠ .byte) {k j : Nat}
    (hsplit : k + j + 1 =
      (orderIn list mode).length * size.words) :
    (advance^[turn mode k j] (beginIn list address size mode)).address =
      blockStart mode size (orderIn list mode) address +
        BitVec.ofNat 32 (2 * j) := by
  have hlength : (orderIn list mode).length * size.bytes =
      2 * (k + j + 1) := by
    rw [Size.bytes_of_ne_byte hsize, Nat.mul_left_comm, hsplit]
  rw [address_iterate_advance, blockStart, hlength, turn]
  by_cases hmode : mode = .preDecrement
  · simp only [beginIn, begin, hmode, decide_true, if_true]
    bv_omega
  · simp only [beginIn, begin, hmode, decide_false, Bool.false_eq_true, if_false]

theorem words_turn (hsize : size ≠ .byte) {k j : Nat}
    (hsplit : k + j + 1 =
      (orderIn list mode).length * size.words) :
    (beginIn list address size mode).words[turn mode k j]? =
      (listWords (orderIn list mode) (size == .long))[j]? := by
  rw [← length_listWords hsize] at hsplit
  rw [words_beginIn, turn]
  by_cases hmode : mode = .preDecrement
  · rw [if_pos hmode, if_pos hmode, List.getElem?_reverse (by omega)]
    congr 1
    omega
  · rw [if_neg hmode, if_neg hmode]

/-- The words of the block once they are stored. -/
theorem wordAt_beginIn (hsize : size ≠ .byte) {j : Nat} {n : ListedRegister} {half : Half}
    (hword : (listWords (orderIn list mode) (size == .long))[j]? =
      some (n, half)) :
    (storeAll r ((orderIn list mode).length * size.words)
      (beginIn list address size mode) memory).wordAt
        (blockStart mode size (orderIn list mode) address +
          BitVec.ofNat 32 (2 * j)) = half.get (r.listed n) := by
  obtain ⟨hj, -⟩ := List.getElem?_eq_some_iff.1 hword
  rw [length_listWords hsize] at hj
  obtain ⟨k, hk⟩ := Nat.exists_eq_add_of_lt hj
  have hsplit : k + j + 1 =
      (orderIn list mode).length * size.words := by omega
  have hturn : turn mode k j < k + j + 1 := by
    unfold turn
    split <;> omega
  have hroom : k + j + 1 ≤ FixedPrograms.maxListWords := by
    rw [hsplit]
    exact length_orderIn_le list mode hsize
  have hvalue := value_iterate_advance _ r ((words_turn list address mode hsize hsplit).trans hword)
  rw [← address_turn list address mode hsize hsplit, ← hsplit, wordAt_storeAll r memory hroom hturn,
    hvalue]

/-- No other bytes are changed. -/
theorem byte_beginIn (hsize : size ≠ .byte) (heven : address.toNat % 2 = 0) {place : Address}
    (houtside : ∀ offset < (orderIn list mode).length * size.bytes,
      place ≠ (blockStart mode size (orderIn list mode) address +
        BitVec.ofNat 32 offset).setWidth 24) :
    (storeAll r ((orderIn list mode).length * size.words) (beginIn list address size mode)
      memory).byte place = memory.byte place := by
  have hstart := even_blockStart heven hsize mode (orderIn list mode)
  have hsplit {k j : Nat} := address_turn list address mode hsize (k := k) (j := j)
  generalize orderIn list mode = order at houtside hstart hsplit ⊢
  generalize blockStart mode size order address = start at houtside hstart hsplit
  refine byte_storeAll r memory fun i hi => ?_
  obtain ⟨k, hk⟩ := Nat.exists_eq_add_of_lt hi
  obtain ⟨j, hj, hplace⟩ : ∃ j < order.length * size.words,
      (advance^[i] (beginIn list address size mode)).address =
        start + BitVec.ofNat 32 (2 * j) := by
    by_cases hmode : mode = .preDecrement
    · have hplace := hsplit (k := i) (j := k) hk.symm
      rw [turn, if_pos hmode] at hplace
      exact ⟨k, by omega, hplace⟩
    · have hplace := hsplit (k := k) (j := i) (by rw [Nat.add_comm k i]; exact hk.symm)
      rw [turn, if_neg hmode] at hplace
      exact ⟨i, hi, hplace⟩
  have hbytes : order.length * size.bytes = 2 * (order.length * size.words) := by
    rw [Size.bytes_of_ne_byte hsize, Nat.mul_left_comm]
  have hnext : start + BitVec.ofNat 32 (2 * j) + 1 = start + BitVec.ofNat 32 (2 * j + 1) := by
    rw [BitVec.ofNat_add, ← BitVec.add_assoc]
    rfl
  rw [hplace, Memory.wordAddress_of_even (even_add hstart j), ← Memory.setWidth_add_one, hnext]
  exact ⟨houtside _ (by omega), houtside _ (by omega)⟩

/-- **The registers of a list are stored one after the other**, in whichever order that is done. -/
theorem listStored_storeAll (hsize : size ≠ .byte) (heven : address.toNat % 2 = 0) :
    ListStored size (orderIn list mode) (blockStart mode size (orderIn list mode) address) r memory
      (storeAll r ((orderIn list mode).length * size.words) (beginIn list address size mode)
        memory) :=
  ⟨fun _ h => read_of_listWords hsize
      (fun _ _ _ hword => wordAt_beginIn list address mode r memory hsize hword) h,
    fun _ houtside => byte_beginIn list address mode r memory hsize heven houtside⟩

/-- Where a transfer leaves a register that steps. -/
theorem finalAddress_beginIn (hsize : size ≠ .byte) :
    (beginIn list address size mode).finalAddress =
      if mode = .preDecrement then blockStart mode size (orderIn list mode) address
      else address + BitVec.ofNat 32 ((orderIn list mode).length * size.bytes) := by
  have hfinal : (beginIn list address size mode).finalAddress =
      if decide (mode = .preDecrement) then
        address - BitVec.ofNat 32 ((beginIn list address size mode).words.length * 2)
      else address + BitVec.ofNat 32 ((beginIn list address size mode).words.length * 2) := rfl
  have hspan : (beginIn list address size mode).words.length * 2 =
      (orderIn list mode).length * size.bytes := by
    rw [length_words_beginIn list address mode hsize, Size.bytes_of_ne_byte hsize, Nat.mul_assoc,
      Nat.mul_comm size.words]
  rw [hfinal, hspan]
  by_cases hmode : mode = .preDecrement <;> simp [blockStart, hmode]

end Block

/-! ## Loads -/

/-- Load `k` words of a transfer. -/
def loadAll (memory : Memory) : Nat → ListTransfer → Registers → Registers
  | 0, _, r => r
  | k + 1, t, r => loadAll memory k t.advance (t.store r (memory.wordAt t.address))

section Loads

variable {memory : Memory} {t : ListTransfer} {n : ListedRegister}
  {rest : List (ListedRegister × Half)}

theorem address_advance (h : t.descending = false) : t.advance.address = t.address + 2 := by
  simp only [advance, h, Bool.false_eq_true, if_false]

/-- A word takes its sign along. -/
theorem loadAll_word (hlong : t.long = false) (hwords : t.words = (n, .low) :: rest) (k : Nat)
    (r : Registers) :
    loadAll memory (k + 1) t r =
      loadAll memory k t.advance
        (r.setListed n (Size.word.signExtend (memory.read .word t.address))) := by
  have hsign : (memory.wordAt t.address).signExtend 32 =
      Size.word.signExtend (memory.read .word t.address) := by
    rw [Memory.read, Size.signExtend, BitVec.setWidth_setWidth_of_le _ (by decide),
      BitVec.setWidth_eq]
  have hstore : t.store r (memory.wordAt t.address) =
      r.setListed n ((memory.wordAt t.address).signExtend 32) := by
    rw [store, hwords, hlong]
    rfl
  rw [loadAll, hstore, hsign]

/-- A long word is put together from two. -/
theorem loadAll_long (hlong : t.long = true) (hascending : t.descending = false)
    (hwords : t.words = (n, .high) :: (n, .low) :: rest) (k : Nat) (r : Registers) :
    loadAll memory (k + 2) t r =
      loadAll memory k t.advance.advance
        (r.setListed n (Size.long.signExtend (memory.read .long t.address))) := by
  have hhigh (value : Word) :
      t.store r value = r.setListed n (Half.high.set (r.listed n) value) := by
    simp only [store, hwords, hlong, if_true]
  have hlow (r : Registers) (value : Word) :
      t.advance.store r value = r.setListed n (Half.low.set (r.listed n) value) := by
    simp only [store, advance, hwords, hlong, List.tail_cons, if_true]
  rw [loadAll, loadAll, hhigh, hlow, address_advance hascending, Registers.listed_setListed_self,
    Registers.setListed_setListed, Half.low_set_high_set]
  rfl

/-- **Words are loaded register by register**, and one word more is dropped. -/
theorem loadAll_eq_loadList {size : Size} (hsize : size ≠ .byte) {order : List ListedRegister}
    (hlong : t.long = (size == .long)) (hascending : t.descending = false)
    (hwords : t.words = listWords order (size == .long)) (r : Registers) :
    loadAll memory (order.length * size.words + 1) t r =
      loadList memory size order t.address r := by
  induction order generalizing t r with
  | nil =>
    have hnone : t.words = [] := hwords
    rw [List.length_nil, Nat.zero_mul, loadAll, loadAll, loadList, store, hnone]
  | cons n order ih =>
    cases size with
    | byte => exact absurd rfl hsize
    | word =>
      have hrest : t.advance.words = listWords order (Size.word == .long) :=
        congrArg List.tail hwords
      have hlength : (n :: order).length * Size.word.words + 1 =
          order.length * Size.word.words + 1 + 1 := by
        rw [List.length_cons, Nat.succ_mul]
        rfl
      rw [hlength, loadAll_word hlong hwords, ih (t := t.advance) hlong hascending hrest,
        address_advance hascending]
      rfl
    | long =>
      have hrest : t.advance.advance.words = listWords order (Size.long == .long) :=
        congrArg (fun words => words.tail.tail) hwords
      have hlength : (n :: order).length * Size.long.words + 1 =
          order.length * Size.long.words + 1 + 2 := by
        rw [List.length_cons, Nat.succ_mul, Nat.add_right_comm]
        rfl
      have haddress : t.advance.advance.address = t.address + BitVec.ofNat 32 Size.long.bytes := by
        rw [address_advance (t := t.advance) hascending, address_advance hascending,
          BitVec.add_assoc]
        rfl
      rw [hlength, loadAll_long hlong hascending hwords,
        ih (t := t.advance.advance) hlong hascending hrest, haddress]
      rfl

/-- A transfer of loads goes upwards from its address. -/
theorem address_beginIn {size : Size} {mode : AddressMode} (hmode : mode ≠ .preDecrement)
    (list : Word) (address : Long) (k : Nat) :
    (advance^[k] (beginIn list address size mode)).address = address + BitVec.ofNat 32 (2 * k) := by
  rw [address_iterate_advance]
  simp only [beginIn, begin, decide_eq_false hmode, Bool.false_eq_true, if_false]

/-- Lists are loaded register by register. -/
theorem loadAll_beginIn {size : Size} (hsize : size ≠ .byte) {mode : AddressMode}
    (hmode : mode ≠ .preDecrement) (list : Word) (address : Long) (r : Registers) :
    loadAll memory ((orderIn list mode).length * size.words + 1) (beginIn list address size mode)
        r = loadList memory size (orderIn list mode) address r := by
  have hwords := words_beginIn list address mode size
  have hdescending : (beginIn list address size mode).descending = false := decide_eq_false hmode
  have haddress : (beginIn list address size mode).address = address :=
    (address_beginIn hmode list address 0).trans (BitVec.add_zero address)
  rw [if_neg hmode] at hwords
  rw [loadAll_eq_loadList hsize rfl hdescending hwords, haddress]

end Loads

end ListTransfer

end M68k
