import M68k.Proofs.Registers
import M68k.Tables.Fixed
import Mathlib.Logic.Function.Iterate

/-!
# Register lists in order

A register-list transfer goes through its registers in order, one after the other, and through the
two words of each if they are moved as a whole. Wherever it is on its way, the word that is next
belongs to a register inside the list, and the list programs have room for all of them.

## Main definitions

* `ListTransfer.InOrder`: a transfer on its way through its list
* `FixedPrograms.listActivity`: the bus activity of a transfer

## Main results

* `ListTransfer.inOrder_begin`, `ListTransfer.InOrder.advance`: transfers are on their way
* `ListTransfer.InOrder.position`: the register that is next has a place in the list
* `ListTransfer.length_words_begin_le`: there is room for the words of every list
-/

namespace M68k

/-- Where two things are listed for each register, every other one belongs to the same register. -/
theorem getElem?_flatMap_pair {α β : Type} (registers : List α) (first second : α → β) (n : Nat) :
    (registers.flatMap fun register => [first register, second register])[n]? =
      registers[n / 2]?.map fun register =>
        if n % 2 = 0 then first register else second register := by
  induction registers generalizing n with
  | nil => simp
  | cons register registers ih =>
    match n with
    | 0 | 1 => rfl
    | n + 2 =>
      have hhalf : (n + 2) / 2 = n / 2 + 1 := by omega
      have hparity : (n + 2) % 2 = n % 2 := by omega
      rw [hhalf, hparity, List.getElem?_cons_succ, ← ih n]
      rfl

namespace ListTransfer

/-- The place in the list of the register that is next, after `moved` words. -/
def place (long : Bool) (moved : Nat) : Nat := if long then moved / 2 else moved

/-- A transfer that has begun and moved some of its words. -/
def InOrder (transfer : ListTransfer) : Prop :=
  ∃ list start long descending moved, transfer = advance^[moved] (begin list start long descending)

theorem inOrder_begin (list : Word) (start : Long) (long descending : Bool) :
    (begin list start long descending).InOrder :=
  ⟨list, start, long, descending, 0, rfl⟩

/-- The transfer of no register has begun. -/
theorem inOrder_none : none.InOrder := ⟨0, 0, false, false, 0, by decide⟩

theorem InOrder.advance {transfer : ListTransfer} (h : transfer.InOrder) :
    transfer.advance.InOrder := by
  obtain ⟨list, start, long, descending, moved, rfl⟩ := h
  exact ⟨list, start, long, descending, moved + 1, (Function.iterate_succ_apply' _ _ _).symm⟩

/-- Moving words takes them off the front. -/
theorem words_iterate_advance (transfer : ListTransfer) (moved : Nat) :
    (ListTransfer.advance^[moved] transfer).words = transfer.words.drop moved := by
  induction moved generalizing transfer with
  | zero => rfl
  | succ moved ih =>
    rw [Function.iterate_succ_apply, ih, ← List.drop_drop]
    cases hwords : transfer.words <;> simp [ListTransfer.advance, hwords]

/-- Each word of a list belongs to the register at its place. -/
theorem getElem?_words_begin (list : Word) (start : Long) (long descending : Bool) (n : Nat) :
    (begin list start long descending).words[n]?.map Prod.fst =
      (listed list descending)[place long n]? := by
  cases long with
  | false =>
    have hlow : (begin list start false descending).words =
        (listed list descending).map fun register => (register, Half.low) :=
      List.map_eq_flatMap.symm
    rw [hlow, List.getElem?_map, Option.map_map]
    exact congrFun Option.map_id _
  | true =>
    have hpair (first second : Half) :
        ((listed list descending).flatMap fun register =>
          [(register, first), (register, second)])[n]?.map Prod.fst =
          (listed list descending)[n / 2]? := by
      rw [getElem?_flatMap_pair, Option.map_map]
      have hfirst : (Prod.fst ∘ fun register : ListedRegister =>
          if n % 2 = 0 then (register, first) else (register, second)) = id := by
        funext register
        simp only [Function.comp_apply]
        split <;> rfl
      rw [hfirst, Option.map_id, id]
    cases descending <;> exact hpair _ _

/-- **The register that is next has a place in its list**, which has sixteen places at most. -/
theorem InOrder.position {transfer : ListTransfer} (h : transfer.InOrder) :
    ∃ list start long descending moved,
      transfer = ListTransfer.advance^[moved] (begin list start long descending) ∧
      (listed list descending).length ≤ 16 ∧
      ∀ register half rest, transfer.words = (register, half) :: rest →
        ∃ hplace : place long moved < (listed list descending).length,
          (listed list descending)[place long moved] = register := by
  obtain ⟨list, start, long, descending, moved, rfl⟩ := h
  refine ⟨list, start, long, descending, moved, rfl, length_listed_le list descending,
    fun register half rest hwords => ?_⟩
  rw [words_iterate_advance] at hwords
  have hnext : (begin list start long descending).words[moved]? = some (register, half) := by
    rw [← List.head?_drop, hwords, List.head?_cons]
  have hlisted := getElem?_words_begin list start long descending moved
  rw [hnext, Option.map_some] at hlisted
  exact List.getElem?_eq_some_iff.1 hlisted.symm

/-- The list programs have room for the words of every list. -/
theorem length_words_begin_le (list : Word) (start : Long) (long descending : Bool) :
    (begin list start long descending).words.length ≤ FixedPrograms.maxListWords := by
  have hlisted := length_listed_le list descending
  rw [length_words_begin, FixedPrograms.maxListWords]
  split <;> omega

end ListTransfer

/-- The transfers that a list asks for: its words, and one more to read. -/
def FixedPrograms.listActivity (words : Nat) : ListDirection → Activity
  | .toMemory => listTransfers false words
  | .toRegisters => listTransfers true (words + 1)

end M68k
