import M68k.Processor.RegisterList

/-!
# Registers and register lists

Every way to change a register leaves the program counter alone, and of two changes to a register
the second one counts. A register list has room for sixteen registers of two words each.

## Main results

* `Registers.pc_setStatus` and its kin: the program counter is left alone
* `Registers.setAddress_setAddress` and its kin: changes to address registers, one after another
* `ListTransfer.length_words_begin`: how many words the registers of a list have
-/

namespace M68k

namespace Registers

variable (r : Registers)

/-! ## The program counter -/

@[simp] theorem pc_setData (n : RegisterIndex) (value : Long) : (r.setData n value).pc = r.pc := rfl

@[simp] theorem pc_setAddress (n : RegisterIndex) (value : Long) :
    (r.setAddress n value).pc = r.pc := rfl

@[simp] theorem pc_setSp (value : Long) : (r.setSp value).pc = r.pc := rfl

@[simp] theorem pc_setSupervisor (supervisor : Bool) : (r.setSupervisor supervisor).pc = r.pc := by
  unfold setSupervisor writeBack
  split
  · rfl
  · dsimp only []
    split <;> rfl

@[simp] theorem pc_setStatus (value : Status) : (r.setStatus value).pc = r.pc :=
  pc_setSupervisor r _

@[simp] theorem pc_setCcr (value : Byte) : (r.setCcr value).pc = r.pc := rfl

@[simp] theorem pc_setMask (level : Level) : (r.setMask level).pc = r.pc := rfl

@[simp] theorem pc_setUsp (value : Long) : (r.setUsp value).pc = r.pc := by
  unfold setUsp
  split <;> rfl

@[simp] theorem pc_setListed (n : ListedRegister) (value : Long) :
    (r.setListed n value).pc = r.pc := by
  unfold setListed
  split <;> rfl

/-! ## Changes one after another -/

theorem setAddress_setAddress (n : RegisterIndex) (first second : Long) :
    (r.setAddress n first).setAddress n second = r.setAddress n second := by
  simp only [setAddress, Vector.set_set]

theorem setAddress_comm {n m : RegisterIndex} (h : m ≠ n) (first second : Long) :
    (r.setAddress n first).setAddress m second = (r.setAddress m second).setAddress n first := by
  have hval : m.val ≠ n.val := Fin.val_ne_of_ne h
  simp only [setAddress]
  rw [Vector.set_comm _ _ hval.symm]

/-- A register that is given back its content does not change. -/
theorem setAddress_address (n : RegisterIndex) : r.setAddress n (r.address n) = r := by
  simp only [setAddress, address, Vector.set_getElem_self, Fin.getElem_fin]

/-- The stack pointer comes back to where it was. -/
theorem setSp_setSp (value : Long) : (r.setSp value).setSp r.sp = r :=
  (r.setAddress_setAddress _ _ _).trans (r.setAddress_address _)

end Registers

@[simp] theorem ListTransfer.pc_store (transfer : ListTransfer) (r : Registers) (value : Word) :
    (transfer.store r value).pc = r.pc := by
  unfold store
  split
  · rfl
  · exact r.pc_setListed _ _

theorem length_listed_le (list : Word) (descending : Bool) :
    (listed list descending).length ≤ 16 := by
  rw [listed, List.length_map]
  exact Nat.le_trans (List.length_filter_le _ _) (by simp)

/-- A long register has two words. -/
theorem ListTransfer.length_words_begin (list : Word) (start : Long) (long descending : Bool) :
    (ListTransfer.begin list start long descending).words.length =
      (listed list descending).length * if long then 2 else 1 := by
  simp only [begin, List.length_flatMap, List.length_map]
  cases long <;> cases descending <;> simp [halves, List.map_const']

end M68k
