import M68k.Proofs.MoveList.Layout
import M68k.Proofs.Prefetch.Length

/-!
# Register lists on the bus

A move of a register list takes its list from the program, addresses memory, and then performs a
fixed program of word transfers, entered so that as many are left as the list asks for, or one more
to read. What the transfers do is a fold over the words of the list.

## Main results

* `Snapshot.perform_listWrites`, `Snapshot.perform_listReads`: the transfers
* `Snapshot.listLocated`: the stages in front of them
* `Run.execute_moveList`: the stage that begins them
-/

namespace M68k

open Encoding Reference

/-- The words that have not been moved yet come after the ones that have. -/
theorem FixedPrograms.listTransfers_succ (read : Bool) (count : Nat) :
    listTransfers read (count + 1) =
      Activity.transfer read false .word .listTransfer .listWord .advanceList ++
        listTransfers read count := rfl

theorem FixedPrograms.writes_listTransfers (read : Bool) (count : Nat) :
    (listTransfers read count).writes = if read then 0 else count := by
  induction count with
  | zero => cases read <;> rfl
  | succ count ih =>
    rw [Activity.writes] at ih ⊢
    rw [listTransfers_succ, List.countP_append, ih]
    cases read with
    | false => exact Nat.add_comm 1 count
    | true => rfl

theorem FixedPrograms.blind_listWrites (count : Nat) : (listTransfers false count).Blind := by
  induction count with
  | zero =>
    intro step hstep
    cases hstep
  | succ count ih =>
    have hfirst : Activity.Blind (.transfer false false .word .listTransfer .listWord
        .advanceList) := by
      decide
    intro step hstep
    rw [listTransfers_succ, List.mem_append] at hstep
    exact hstep.elim (hfirst step) (ih step)

namespace Snapshot

variable (k : Nat) (p : Processor) (b : TestBench)

/-! ## The transfers -/

/-- **Words of a register list are written.** -/
theorem perform_listWrites :
    (⟨p.timeless, b⟩ : Snapshot TestBench).perform TestBench.access
        (FixedPrograms.listTransfers false k) =
      ⟨{ p with transfer := ListTransfer.advance^[k] p.transfer }.timeless,
        b.withMemory (p.transfer.storeAll p.registers k b.memory)⟩ := by
  induction k generalizing p b with
  | zero => rfl
  | succ k ih =>
    rw [FixedPrograms.listTransfers_succ, perform_append, perform_writeWord]
    exact ih { p with transfer := p.transfer.advance }
      (b.withMemory (b.memory.storeWordAt p.transfer.address (p.transfer.value p.registers)))

/-- **Words of a register list are read.** -/
theorem perform_listReads :
    (⟨p.timeless, b⟩ : Snapshot TestBench).perform TestBench.access
        (FixedPrograms.listTransfers true k) =
      ⟨{ p with
          registers := ListTransfer.loadAll b.memory k p.transfer p.registers
          transfer := ListTransfer.advance^[k] p.transfer }.timeless, b⟩ := by
  induction k generalizing p with
  | zero => rfl
  | succ k ih =>
    rw [FixedPrograms.listTransfers_succ, perform_append, perform_readWord]
    exact ih { p with
      registers := p.transfer.store p.registers (b.memory.wordAt p.transfer.address)
      transfer := p.transfer.advance }

theorem readsDuring_listReads :
    (⟨p.timeless, b⟩ : Snapshot TestBench).readsDuring TestBench.access
        (FixedPrograms.listTransfers true k) =
      (List.range k).map fun i => (ListTransfer.advance^[i] p.transfer).address := by
  induction k generalizing p with
  | zero => rfl
  | succ k ih =>
    rw [FixedPrograms.listTransfers_succ, readsDuring_append, reads_transfer, perform_readWord,
      List.range_succ_eq_map, List.map_cons, List.map_map]
    exact congrArg (p.transfer.address :: ·) (ih { p with
      registers := p.transfer.store p.registers (b.memory.wordAt p.transfer.address)
      transfer := p.transfer.advance })

/-- The stage behind the transfers. -/
theorem finish_moveList (direction : ListDirection) :
    let final := ((⟨p.timeless, b⟩ : Snapshot TestBench).fire
      ⟨.finishList direction, .dst, .fetch⟩).perform TestBench.access .fetch
    final.processor.registers = skipWord (p.finishList direction).registers ∧ final.bus = b := by
  have hfire : p.timeless.finishList direction = (p.finishList direction).timeless :=
    (p.timeless_fire (.finishList direction) .dst).symm
  intro final
  have hfinal : final = _ := perform_fetch _
  rw [hfinal]
  refine ⟨?_, rfl⟩
  change skipWord (p.timeless.finishList direction).registers = _
  rw [hfire]
  rfl

/-! ## The stages in front -/

/-- A register list is known, and where it is to be moved. -/
structure ListLocated (list : Word) (address : Long) (r : Registers) (s s' : Snapshot TestBench) :
    Prop where
  registers : s'.processor.registers = r
  list : Half.low.get s'.processor.data.source = list
  address : s'.processor.effectiveAddress.destination = address
  coherent : s'.Coherent
  bus : s'.bus = s.bus

variable {s : Snapshot TestBench} {mode : AddressMode} {n : RegisterNumber} {address : Long}
  {r : Registers}

/-- A register that steps does so when the list has been moved. -/
theorem located_addressList (hmode : mode.isMemory) (hcoherent : s.Coherent)
    (hregister : s.processor.instruction.destinationRegister = n)
    (hlocate : locate s.bus.memory (if mode = .preDecrement then .indirect else mode) n.index .word
      s.processor.registers = (.memory address, r)) :
    Located .destination address r s (s.execute TestBench.access (addressList mode)) := by
  have hindex : (s.processor.instruction.register .destination).index = n.index :=
    congrArg RegisterNumber.index hregister
  by_cases hextended : mode.isExtended
  · have hplain : mode ≠ .preDecrement := by
      rintro rfl
      cases hextended
    have hstages : addressList mode =
        lead mode ++ [⟨mode.action, Side.destination.target, indexDelay mode ++ .fetch⟩] := by
      cases mode <;> first | rfl | cases hextended
    rw [if_neg hplain] at hlocate
    rw [hstages, execute_append, execute_cons, execute_nil]
    exact located hextended hcoherent hindex hlocate _
  · have hstages : addressList mode = [⟨.address .register, Side.destination.target, []⟩] := by
      cases mode <;> first | rfl | exact absurd rfl hextended | cases hmode
    have hbase : s.processor.formAddress .register (s.processor.sideRegister .destination) =
        s.processor.registers.address n.index := by
      rw [← hindex]
      rfl
    have hplace : locate s.bus.memory (if mode = .preDecrement then .indirect else mode) n.index
        .word s.processor.registers =
          (.memory (s.processor.registers.address n.index), s.processor.registers) := by
      cases mode <;> first | rfl | exact absurd rfl hextended | cases hmode
    obtain ⟨rfl, rfl⟩ : s.processor.registers.address n.index = address ∧
        s.processor.registers = r := by
      simpa using hplace.symm.trans hlocate
    rw [hstages, execute_cons, execute_nil, fire_address, hbase, perform_nil]
    exact ⟨rfl, Latches.get_set_self s.processor.effectiveAddress .destination _,
      hcoherent.congr rfl rfl rfl, rfl, rfl⟩

/-- **The list is taken from the program, and then memory is addressed.** -/
theorem listLocated (hmode : mode.isMemory) (hcoherent : s.Coherent)
    (hregister : s.processor.instruction.destinationRegister = n)
    (hlocate : locateList s.bus.memory mode n.index s.processor.registers =
      (.memory address, r)) :
    ListLocated (nextWord s.bus.memory s.processor.registers) address r s
      (s.execute TestBench.access (⟨.latchList, .src, .fetch⟩ :: addressList mode)) := by
  have hlatched : (s.fire ⟨.latchList, .src, .fetch⟩).Coherent := hcoherent.congr rfl rfl rfl
  have hfetched := perform_fetch (s.fire ⟨.latchList, .src, .fetch⟩)
  have hlocated := located_addressList (s := (s.fire ⟨.latchList, .src, .fetch⟩).perform
    TestBench.access .fetch) (n := n) hmode hlatched.fetch (by rw [hfetched]; exact hregister)
      (by rw [hfetched]; exact hlocate)
  rw [execute_cons]
  refine ⟨hlocated.registers, ?_, hlocated.address, hlocated.coherent, ?_⟩
  · rw [hlocated.data, hfetched, ← hcoherent.low, ← setWidth_eq_low]
    exact BitVec.setWidth_setWidth_of_le _ (by decide)
  · rw [hlocated.bus, hfetched]
    rfl

end Snapshot

/-- What the stages in front of a transfer do not do. -/
theorem Encoding.front_moveRegisters (mode : AddressMode) :
    ∀ stage ∈ (⟨.latchList, .src, .fetch⟩ :: addressList mode : List Stage),
      stage.action ≠ .operate ∧ stage.activity.Blind ∧ stage.activity.writes = 0 := by
  cases mode <;> decide

/-! ## The transfer -/

namespace Run

variable {β : Type} (bus : Bus β) {tables : Tables}

/-- **The operation chooses the transfers of its list**, and other stages go on behind them. -/
theorem execute_moveList (hrealizes : tables.Realizes forms) {direction : ListDirection}
    {run : Run β} (hphase : run.processor.phase = .instruction)
    (hoperation : run.processor.instruction.operation = .movem direction)
    {transfer : ListTransfer}
    (htransfer : ListTransfer.begin (Half.low.get run.processor.data.source)
      run.processor.effectiveAddress.destination (run.processor.instruction.size == .long)
        (run.processor.modeField == 4) = transfer) (stages : List Stage) :
    run.execute bus tables (.act .operate .nowhere :: stages) =
      ((run.withProcessor { run.processor with transfer := transfer }).perform bus
        (FixedPrograms.listActivity transfer.words.length direction)).execute bus tables
          stages := by
  obtain ⟨entry, hact, hentry⟩ := Processor.act_moveList hrealizes .nowhere hoperation
  rw [htransfer] at hact hentry
  rw [← hentry, execute]
  simp only [Stage.act, hact, hphase, if_true, Option.map_some, Option.getD_some]

end Run

end M68k
