import M68k.Proofs.Move.Execute
import M68k.Proofs.MoveList.Transfer

/-!
# Moves of register lists

From every boundary at which the prefetch queue agrees with memory, a move of a register list does
what the programmer sees: the listed registers are stored in one block of memory, or loaded from it.
So a list that has been pushed in front of an address register is restored from there.

## Main definitions

* `Processor.FacesList`: a move of a register list is next

## Main results

* `Processor.runInstruction_storeList`, `Processor.runInstruction_loadList`: the two directions
* `Processor.runInstruction_moveRegisters`: both, and what is pushed is restored
-/

namespace M68k

open Encoding Reference

/-- The size of the registers in a move of a register list. -/
def Encoding.listSize (opcode : Word) : Size := if opcode.getLsbD 6 then .long else .word

theorem Encoding.listSize_ne_byte (opcode : Word) : listSize opcode ≠ .byte := by
  unfold listSize
  split <;> exact nofun

/-- The instruction that moves a register list. -/
def Encoding.listInstruction (direction : ListDirection) (opcode : Word) (mode : AddressMode) :
    Instruction :=
  { (Instruction.bare (.movem direction) (listSize opcode)).withDestination mode
      (lowerRegister opcode) with source := .sourceLatch }

theorem Encoding.register_listInstruction (direction : ListDirection) (opcode : Word)
    (mode : AddressMode) :
    (listInstruction direction opcode mode).destinationRegister.index = .ofField opcode.toNat :=
  RegisterNumber.index_ofField _

/-- The recipe of a move of a register list in a mode that is accepted. -/
theorem Encoding.moveRegisters_eq_some {direction : ListDirection} {opcode : Word}
    {mode : AddressMode} (hmode : AddressMode.ofField? opcode = some mode)
    (hmoves : movesRegisters direction mode) :
    moveRegisters direction opcode = some ⟨listInstruction direction opcode mode,
      (⟨.latchList, .src, .fetch⟩ :: addressList mode) ++
        [.act .operate .nowhere, ⟨.finishList direction, .dst, .fetch⟩]⟩ := by
  simp only [moveRegisters, hmode, Option.bind_eq_bind, Option.bind_some, hmoves, Bool.not_true,
    Bool.false_eq_true, if_false]
  rfl

theorem AddressMode.isMemory_of_movesRegisters {direction : ListDirection} {mode : AddressMode}
    (h : movesRegisters direction mode) : mode.isMemory := by
  cases direction <;> cases mode <;> first | rfl | cases h

/-- The mode field of the opcode tells the modes of a register that steps. -/
theorem AddressMode.modeField_of_ofField? {opcode : Word} {mode : AddressMode}
    (h : ofField? opcode = some mode) :
    (opcode.toNat / 8 % 8 == 4) = decide (mode = .preDecrement) ∧
      (opcode.toNat / 8 % 8 == 3) = decide (mode = .postIncrement) := by
  unfold ofField? decode? at h
  split at h <;> cases h <;> simp only [*] <;> decide

namespace Processor

variable {tables : Tables}

/-- A register that steps down does so when its list has been stored. -/
theorem registers_finishList_toMemory {q : Processor} {mode : AddressMode}
    (h : AddressMode.ofField? q.opcode = some mode) :
    (q.finishList .toMemory).registers =
      if mode = .preDecrement then
        q.registers.setAddress q.instruction.destinationRegister.index q.transfer.finalAddress
      else q.registers := by
  simp only [finishList, modeField, (AddressMode.modeField_of_ofField? h).1, decide_eq_true_eq]
  split <;> rfl

/-- One that steps up does so when its list has been loaded. -/
theorem registers_finishList_toRegisters {q : Processor} {mode : AddressMode}
    (h : AddressMode.ofField? q.opcode = some mode) :
    (q.finishList .toRegisters).registers =
      if mode = .postIncrement then
        q.registers.setAddress q.instruction.destinationRegister.index q.transfer.finalAddress
      else q.registers := by
  simp only [finishList, modeField, (AddressMode.modeField_of_ofField? h).2, decide_eq_true_eq]
  split <;> rfl

/-- A move of a register list is next. Its effective address is known, and even. -/
structure FacesList (tables : Tables) (p : Processor) (bench : TestBench)
    (direction : ListDirection) (mode : AddressMode) (address : Long) (r : Registers) : Prop where
  boundary : p.atBoundary tables
  interrupt : p.pendingInterrupt? = none
  queue : p.prefetch =
    bench.memory.wordAt (p.registers.pc - 4) ++ bench.memory.wordAt (p.registers.pc - 2)
  pattern : Half.high.get p.prefetch &&& 0xFF80 = direction.pattern
  field : AddressMode.ofField? (Half.high.get p.prefetch) = some mode
  moves : movesRegisters direction mode
  located : locateList bench.memory mode (.ofField (Half.high.get p.prefetch).toNat) p.registers =
    (.memory address, r)
  even : address.toNat % 2 = 0

namespace FacesList

variable {p : Processor} {bench : TestBench} {direction : ListDirection} {mode : AddressMode}
  {address : Long} {r : Registers} (h : p.FacesList tables bench direction mode address r)
include h

/-- Only the program counter has moved when the effective address is known. -/
theorem registers_located : r = { p.registers with pc := r.pc } := by
  have hmode := AddressMode.isMemory_of_movesRegisters h.moves
  have hlocated := h.located
  cases mode <;> first | (cases hlocated; rfl) | cases hmode

theorem listed_located (n : ListedRegister) : r.listed n = p.registers.listed n := by
  rw [h.registers_located]
  rfl

/-- **The stages in front find the list and its address.** Nothing has been read or written then,
and what is left are the transfers and the stage behind them. -/
theorem exists_located (hrealizes : tables.Realizes forms) :
    let instruction := listInstruction direction (Half.high.get p.prefetch) mode
    let start := p.dispatchedRun instruction bench
    ∃ run : Run TestBench, run.processor.control = start.processor.control ∧
      Snapshot.ListLocated (nextWord bench.memory p.registers) address r start.snapshot
        run.snapshot ∧
      run.reads = [] ∧ run.writes = 0 ∧
      (p.runInstruction tables TestBench.access bench).unplaced =
        (run.execute TestBench.access tables [.act .operate .nowhere,
          ⟨.finishList direction, .dst, .fetch⟩]).unplaced := by
  intro instruction start
  have hmemory := AddressMode.isMemory_of_movesRegisters h.moves
  have hfront := front_moveRegisters mode
  have hplain : start.Plain (⟨.latchList, .src, .fetch⟩ :: addressList mode) :=
    ⟨rfl, fun stage hstage haction => absurd haction (hfront stage hstage).1⟩
  have hlocate : locateList bench.memory mode
      (lowerRegister (Half.high.get p.prefetch)).index p.registers = (.memory address, r) := by
    rw [lowerRegister, RegisterNumber.index_ofField]
    exact h.located
  refine ⟨start.execute TestBench.access tables _,
    Run.control_execute TestBench.access tables hplain, ?_, ?_, ?_, ?_⟩
  · rw [Run.snapshot_execute TestBench.access tables hplain]
    exact Snapshot.listLocated (s := start.snapshot) hmemory h.queue rfl hlocate
  · rw [Run.reads_execute TestBench.access tables hplain,
      Snapshot.reads_of_blind TestBench.access fun stage hstage => (hfront stage hstage).2.1]
    rfl
  · exact Run.writes_execute TestBench.access tables hplain
      fun stage hstage => (hfront stage hstage).2.2
  · rw [← Run.execute_append TestBench.access tables hplain]
    exact unplaced_runInstruction TestBench.access hrealizes h.boundary h.interrupt
      (decode?_moveRegisters h.pattern (moveRegisters_eq_some h.field h.moves)) nofun bench

/-- **What a move of a register list runs**: the transfers, in front of which memory has been
addressed, and behind which the register steps. -/
theorem exists_moving (hrealizes : tables.Realizes forms) :
    let opcode := Half.high.get p.prefetch
    let size := listSize opcode
    let list := nextWord bench.memory p.registers
    let final := p.runInstruction tables TestBench.access bench
    ∃ q : Processor, q.registers = r ∧ q.transfer = .beginIn list address size mode ∧
      q.opcode = opcode ∧ q.instruction = listInstruction direction opcode mode ∧
      let moving : Snapshot TestBench := ⟨q.timeless, bench⟩
      let activity := FixedPrograms.listActivity ((orderIn list mode).length * size.words) direction
      final.snapshot = ((moving.perform TestBench.access activity).fire
        ⟨.finishList direction, .dst, .fetch⟩).perform TestBench.access .fetch ∧
      final.reads = moving.readsDuring TestBench.access activity ∧
      final.writes = activity.writes := by
  intro opcode size list final
  obtain ⟨run, hcontrol, hlocated, hreads, hwrites, hfinal⟩ := h.exists_located hrealizes
  have hkept : run.processor.instruction = listInstruction direction opcode mode :=
    congrArg Control.instruction hcontrol
  have hopcode : run.processor.opcode = opcode := congrArg Control.opcode hcontrol
  have htransfer : ListTransfer.begin (Half.low.get run.processor.data.source)
      run.processor.effectiveAddress.destination (run.processor.instruction.size == .long)
        (run.processor.modeField == 4) = .beginIn list address size mode := by
    have hlist : Half.low.get run.processor.data.source = list := hlocated.list
    have haddress : run.processor.effectiveAddress.destination = address := hlocated.address
    rw [hlist, haddress, hkept, modeField, hopcode, (AddressMode.modeField_of_ofField? h.field).1]
    rfl
  have hmoved := Run.execute_moveList TestBench.access hrealizes (congrArg Control.phase hcontrol)
    (congrArg Instruction.operation hkept) htransfer [⟨.finishList direction, .dst, .fetch⟩]
  rw [hmoved, ListTransfer.length_words_beginIn list address mode (listSize_ne_byte _)] at hfinal
  set q : Processor := { run.processor with transfer := .beginIn list address size mode } with hq
  have hstart : (run.withProcessor q).snapshot = ⟨q.timeless, bench⟩ :=
    congrArg (Snapshot.mk q.timeless) hlocated.bus
  set activity := FixedPrograms.listActivity ((orderIn list mode).length * size.words) direction
  have hlast : ((run.withProcessor q).perform TestBench.access activity).Plain
      [⟨.finishList direction, .dst, .fetch⟩] := by
    refine ⟨?_, fun stage hstage haction => ?_⟩
    · rw [Run.phase_perform]
      exact congrArg Control.phase hcontrol
    · rw [List.mem_singleton.1 hstage] at haction
      cases haction
  refine ⟨q, hlocated.registers, rfl, hopcode, hkept, ?_, ?_, ?_⟩
  · rw [Run.snapshot_of_unplaced hfinal, Run.snapshot_execute TestBench.access tables hlast,
      Run.snapshot_perform, hstart]
    rfl
  · have hblind : Activity.Blind .fetch := by decide
    rw [Run.reads_of_unplaced hfinal, Run.reads_execute TestBench.access tables hlast,
      Snapshot.reads_of_blind TestBench.access (List.forall_mem_singleton.2 hblind),
      List.append_nil, Run.reads_perform, hstart]
    change run.reads ++ _ = _
    rw [hreads]
    rfl
  · rw [Run.writes_of_unplaced hfinal, Run.writes_execute TestBench.access tables hlast
      (List.forall_mem_singleton.2 rfl), Run.writes_perform]
    change run.writes + _ = _
    rw [hwrites]
    exact Nat.zero_add _

end FacesList

/-- **A register list is stored as the programmer sees it.** -/
theorem runInstruction_storeList (hrealizes : tables.Realizes forms) {p : Processor}
    {bench : TestBench} {mode : AddressMode} {address : Long} {r : Registers}
    (h : p.FacesList tables bench .toMemory mode address r) :
    let opcode := Half.high.get p.prefetch
    let size := listSize opcode
    let order := orderIn (nextWord bench.memory p.registers) mode
    let start := blockStart mode size order address
    let final := p.runInstruction tables TestBench.access bench
    final.writes = order.length * size.words ∧ final.reads = [] ∧
      ListStored size order start p.registers bench.memory final.bus.memory ∧
      final.processor.registers =
        skipWord
          (if mode = .preDecrement then r.setAddress (.ofField opcode.toNat) start else r) := by
  intro opcode size order start final
  obtain ⟨q, hregisters, htransfer, hopcode, hinstruction, hsnapshot, hreads, hwrites⟩ :=
    h.exists_moving hrealizes
  rw [FixedPrograms.listActivity] at hsnapshot hreads hwrites
  rw [Snapshot.perform_listWrites] at hsnapshot
  obtain ⟨hfinish, hbus⟩ := Snapshot.finish_moveList
    { q with transfer := ListTransfer.advance^[order.length * size.words] q.transfer }
    (bench.withMemory (q.transfer.storeAll q.registers (order.length * size.words) bench.memory))
    .toMemory
  rw [← hsnapshot] at hfinish hbus
  refine ⟨?_, ?_, ?_, ?_⟩
  · rw [FixedPrograms.writes_listTransfers] at hwrites
    exact hwrites
  · rw [hreads]
    exact Snapshot.readsDuring_of_blind TestBench.access (FixedPrograms.blind_listWrites _) _
  · have hmemory : final.bus.memory =
        q.transfer.storeAll q.registers (order.length * size.words) bench.memory :=
      congrArg TestBench.memory hbus
    rw [hmemory, hregisters, htransfer]
    exact (ListTransfer.listStored_storeAll _ address mode r bench.memory (listSize_ne_byte _)
      h.even).congr h.listed_located
  · refine hfinish.trans (congrArg skipWord ?_)
    rw [registers_finishList_toMemory (by exact hopcode ▸ h.field)]
    dsimp only
    rw [ListTransfer.finalAddress_iterate_advance, hregisters, htransfer, hinstruction,
      register_listInstruction, ListTransfer.finalAddress_beginIn _ _ _ (listSize_ne_byte _)]
    by_cases hmode : mode = .preDecrement
    · rw [if_pos hmode, if_pos hmode, if_pos hmode]
    · rw [if_neg hmode, if_neg hmode]

/-- **A register list is loaded as the programmer sees it**, though one word more is read. -/
theorem runInstruction_loadList (hrealizes : tables.Realizes forms) {p : Processor}
    {bench : TestBench} {mode : AddressMode} {address : Long} {r : Registers}
    (h : p.FacesList tables bench .toRegisters mode address r) :
    let opcode := Half.high.get p.prefetch
    let size := listSize opcode
    let order := orderIn (nextWord bench.memory p.registers) mode
    let loaded := loadList bench.memory size order address r
    let final := p.runInstruction tables TestBench.access bench
    final.writes = 0 ∧
      final.reads = (List.range (order.length * size.words + 1)).map
        (fun i => address + BitVec.ofNat 32 (2 * i)) ∧
      ListLoaded size order address bench.memory r loaded ∧
      final.processor.registers =
        skipWord (if mode = .postIncrement then
          loaded.setAddress (.ofField opcode.toNat)
            (address + BitVec.ofNat 32 (order.length * size.bytes))
        else loaded) ∧
      final.bus = bench := by
  intro opcode size order loaded final
  obtain ⟨q, hregisters, htransfer, hopcode, hinstruction, hsnapshot, hreads, hwrites⟩ :=
    h.exists_moving hrealizes
  have hmode : mode ≠ .preDecrement := by
    rintro rfl
    cases h.moves
  rw [FixedPrograms.listActivity] at hsnapshot hreads hwrites
  rw [Snapshot.perform_listReads] at hsnapshot
  obtain ⟨hfinish, hbus⟩ := Snapshot.finish_moveList
    { q with
      registers := ListTransfer.loadAll bench.memory (order.length * size.words + 1) q.transfer
        q.registers
      transfer := ListTransfer.advance^[order.length * size.words + 1] q.transfer }
    bench .toRegisters
  rw [← hsnapshot] at hfinish hbus
  refine ⟨?_, ?_, ?_, ?_, hbus⟩
  · rw [FixedPrograms.writes_listTransfers] at hwrites
    exact hwrites
  · rw [hreads, Snapshot.readsDuring_listReads, htransfer]
    exact List.map_congr_left fun i _ => ListTransfer.address_beginIn hmode _ _ i
  · exact listLoaded_loadList (nodup_listOrder _ _)
  · refine hfinish.trans (congrArg skipWord ?_)
    rw [registers_finishList_toRegisters (by exact hopcode ▸ h.field)]
    dsimp only
    rw [ListTransfer.finalAddress_iterate_advance, hregisters, htransfer, hinstruction,
      register_listInstruction, ListTransfer.finalAddress_beginIn _ _ _ (listSize_ne_byte _),
      if_neg hmode, ListTransfer.loadAll_beginIn (listSize_ne_byte _) hmode]

/-- A list of long words that has been pushed in front of an address register is restored by a move
of the same list from there. Between the two, the other registers and the rest of memory may
change. -/
def RestoredFrom (tables : Tables) (p : Processor) (pushed : TestBench) (n : RegisterIndex)
    (list : Word) (start : Long) : Prop :=
  let order := orderIn list .preDecrement
  ∀ (q : Processor) (bench : TestBench) (address : Long) (r : Registers),
    q.FacesList tables bench .toRegisters .postIncrement address r →
    listSize (Half.high.get q.prefetch) = .long →
    RegisterIndex.ofField (Half.high.get q.prefetch).toNat = n →
    nextWord bench.memory q.registers = list.reverse →
    q.registers.address n = start →
    (∀ offset < order.length * Size.long.bytes,
      bench.memory.byteAt (start + BitVec.ofNat 32 offset) =
        pushed.memory.byteAt (start + BitVec.ofNat 32 offset)) →
    let restored := q.runInstruction tables TestBench.access bench
    (∀ m ∈ order, restored.processor.registers.listed m = p.registers.listed m) ∧
      restored.processor.registers.address n = p.registers.address n

/-- **What has been pushed is restored.** -/
theorem FacesList.restoredFrom (hrealizes : tables.Realizes forms) {p : Processor}
    {bench : TestBench} {address : Long} {r : Registers}
    (h : p.FacesList tables bench .toMemory .preDecrement address r)
    (hlong : listSize (Half.high.get p.prefetch) = .long) {n : RegisterIndex}
    (hn : RegisterIndex.ofField (Half.high.get p.prefetch).toNat = n) {list : Word}
    (hlist : nextWord bench.memory p.registers = list) :
    p.RestoredFrom tables (p.runInstruction tables TestBench.access bench).bus n list
      (blockStart .preDecrement .long (orderIn list .preDecrement) address) := by
  intro q other top s hfaces hlong' hn' hlist' hbase hagree restored
  set order := orderIn list .preDecrement
  obtain ⟨-, -, hstored, -⟩ := runInstruction_storeList hrealizes h
  obtain ⟨-, -, hloaded, hrestored, -⟩ := runInstruction_loadList hrealizes hfaces
  have horder : orderIn list.reverse .postIncrement = order := listOrder_reverse list
  rw [hlong, hlist] at hstored
  rw [hlong', hlist', horder] at hloaded
  rw [if_pos rfl, hlong', hlist', hn', horder] at hrestored
  have hend : p.registers.address n = address := by
    have hlocated := h.located
    rw [hn] at hlocated
    exact Place.memory.inj (congrArg Prod.fst hlocated)
  have hstart : q.registers.address n = top := by
    have hlocated := hfaces.located
    rw [hn'] at hlocated
    exact Place.memory.inj (congrArg Prod.fst hlocated)
  rw [← hbase, hstart] at hstored hagree
  have hpast : top + BitVec.ofNat 32 (order.length * Size.long.bytes) = p.registers.address n := by
    rw [← hstart, hbase, hend]
    exact BitVec.sub_add_cancel address _
  have hlisted (m : ListedRegister) : restored.processor.registers.listed m =
      if m = .ofAddress n then p.registers.address n
      else (loadList other.memory .long order top s).listed m := by
    change (q.runInstruction tables TestBench.access other).processor.registers.listed m = _
    rw [hrestored, hpast]
    exact Registers.listed_setAddress _ _ _ m
  refine ⟨fun m hm => ?_, ?_⟩
  · rw [hlisted]
    split
    · rename_i hregister
      rw [hregister, Registers.listed_ofAddress]
    · exact hstored.restored hloaded hfaces.even hagree hm
  · rw [← Registers.listed_ofAddress, hlisted, if_pos rfl]

/-- A move of a register list that starts at a boundary is executed as the programmer sees it. -/
theorem runInstruction_of_list (hrealizes : tables.Realizes forms) {bench : TestBench}
    {p : Processor} {direction : ListDirection} {mode : AddressMode} {address : Long}
    {r : Registers} (h : p.FacesList tables bench direction mode address r) :
    let opcode := Half.high.get p.prefetch
    let n := RegisterIndex.ofField opcode.toNat
    let size := listSize opcode
    let list := nextWord bench.memory p.registers
    let order := orderIn list mode
    let final := p.runInstruction tables TestBench.access bench
    final.processor.atBoundary tables ∧ r = { p.registers with pc := r.pc } ∧
      (direction = .toMemory →
        let start := blockStart mode size order address
        final.writes = order.length * size.words ∧ final.reads = [] ∧
          ListStored size order start p.registers bench.memory final.bus.memory ∧
          final.processor.registers =
            skipWord (if mode = .preDecrement then r.setAddress n start else r) ∧
          (mode = .preDecrement → size = .long → p.RestoredFrom tables final.bus n list start)) ∧
      (direction = .toRegisters →
        let loaded := loadList bench.memory size order address r
        let past := address + BitVec.ofNat 32 (order.length * size.bytes)
        final.writes = 0 ∧
          final.reads = (List.range (order.length * size.words + 1)).map
            (fun i => address + BitVec.ofNat 32 (2 * i)) ∧
          ListLoaded size order address bench.memory r loaded ∧
          final.processor.registers =
            skipWord (if mode = .postIncrement then loaded.setAddress n past else loaded) ∧
          final.bus = bench) := by
  intro opcode n size list order final
  refine ⟨(runInstruction_atBoundary TestBench.access hrealizes h.boundary bench).1,
    h.registers_located, ?_, ?_⟩
  · rintro rfl
    obtain ⟨hwrites, hreads, hstored, hregisters⟩ := runInstruction_storeList hrealizes h
    refine ⟨hwrites, hreads, hstored, hregisters, fun hmode hlong => ?_⟩
    subst hmode
    have hrestored := h.restoredFrom hrealizes hlong rfl rfl
    rw [← hlong] at hrestored
    exact hrestored
  · rintro rfl
    exact runInstruction_loadList hrealizes h

/-- **Moves of register lists are executed as the programmer sees them.** From every boundary at
which the prefetch queue agrees with memory, an instruction run on a move of any list, of either
size, in any mode and direction, at an even effective address, transfers the listed registers and no
others, in one access for each of their words. In memory they lie one after the other in the order
of their numbers, with the values that they had before the instruction. A move from memory reads one
word more. A register that steps is left at the end of the block or at its start, even if it has
been loaded, and what has been pushed is restored. -/
theorem runInstruction_moveRegisters {bench : TestBench} {p : Processor}
    {direction : ListDirection} {mode : AddressMode} {address : Long} {r : Registers}
    (h : p.FacesList (.compile forms) bench direction mode address r) :
    let opcode := Half.high.get p.prefetch
    let n := RegisterIndex.ofField opcode.toNat
    let size := listSize opcode
    let list := nextWord bench.memory p.registers
    let order := orderIn list mode
    let final := p.runInstruction (.compile forms) TestBench.access bench
    final.processor.atBoundary (.compile forms) ∧ r = { p.registers with pc := r.pc } ∧
      (direction = .toMemory →
        let start := blockStart mode size order address
        final.writes = order.length * size.words ∧ final.reads = [] ∧
          ListStored size order start p.registers bench.memory final.bus.memory ∧
          final.processor.registers =
            skipWord (if mode = .preDecrement then r.setAddress n start else r) ∧
          (mode = .preDecrement → size = .long →
            p.RestoredFrom (.compile forms) final.bus n list start)) ∧
      (direction = .toRegisters →
        let loaded := loadList bench.memory size order address r
        let past := address + BitVec.ofNat 32 (order.length * size.bytes)
        final.writes = 0 ∧
          final.reads = (List.range (order.length * size.words + 1)).map
            (fun i => address + BitVec.ofNat 32 (2 * i)) ∧
          ListLoaded size order address bench.memory r loaded ∧
          final.processor.registers =
            skipWord (if mode = .postIncrement then loaded.setAddress n past else loaded) ∧
          final.bus = bench) := by
  exact runInstruction_of_list Tables.realizes_compile h

/-! ## One list there and back -/

variable (tables) in
/-- A processor in front of `MOVEM.L D1/D4/A1/A4,-(A2)`. -/
def pushing : Processor :=
  facing tables 0x48E24848 { Registers.initial.setData (.ofField 1) 0x12345678 with pc := 4 }

/-- A bench with this instruction at address 0. -/
def pushingBench : TestBench :=
  (filledBench 0x48).withMemory ((filledBench 0x48).memory.store 1 0xE2)

variable (tables) in
/-- A processor in front of `MOVEM.L (A2)+,D1/D4/A1/A4`. -/
def pulling : Processor :=
  facing tables 0x4CDA1212 { Registers.initial.setAddress (.ofField 2) (-16) with pc := 12 }

/-- A bench on which this instruction has been put at address 8. -/
def pullingBench (bench : TestBench) : TestBench :=
  bench.withMemory ((bench.memory.storeWordAt 8 0x4CDA).storeWordAt 10 0x1212)

theorem wordAt_pushingBench :
    pushingBench.memory.wordAt 0 = 0x48E2 ∧ pushingBench.memory.wordAt 2 = 0x4848 := by
  have hbyte (place : Address) : pushingBench.memory.byte place =
      if place = 1 then 0xE2 else (filledBench 0x48).memory.byte place :=
    Memory.byte_store _ _ _ _
  constructor <;>
    simp only [Memory.wordAt, Memory.word, hbyte, byte_filledBench] <;> rfl

theorem wordAt_pullingBench (bench : TestBench) :
    (pullingBench bench).memory.wordAt 8 = 0x4CDA ∧
      (pullingBench bench).memory.wordAt 10 = 0x1212 := by
  have hother : Memory.wordAddress ((8 : Long).setWidth 24) ≠
      Memory.wordAddress ((10 : Long).setWidth 24) := by
    decide
  constructor
  · simp only [pullingBench, TestBench.withMemory, Memory.wordAt, Memory.storeWordAt,
      Memory.word_storeWord, if_neg hother, if_true]
  · simp only [pullingBench, TestBench.withMemory, Memory.wordAt, Memory.storeWordAt,
      Memory.word_storeWord, if_true]

theorem opcode_pushing : Half.high.get (pushing tables).prefetch = 0x48E2 := by
  change Half.high.get 0x48E24848 = 0x48E2
  decide

theorem opcode_pulling : Half.high.get (pulling tables).prefetch = 0x4CDA := by
  change Half.high.get 0x4CDA1212 = 0x4CDA
  decide

theorem nextWord_pushing : nextWord pushingBench.memory (pushing tables).registers = 0x4848 := by
  have hplace : (4 : Long) - 2 = 2 := by decide
  change pushingBench.memory.wordAt (4 - 2) = 0x4848
  rw [hplace, wordAt_pushingBench.2]

theorem nextWord_pulling (bench : TestBench) :
    nextWord (pullingBench bench).memory (pulling tables).registers = 0x1212 := by
  have hplace : (12 : Long) - 2 = 10 := by decide
  change (pullingBench bench).memory.wordAt (12 - 2) = 0x1212
  rw [hplace, (wordAt_pullingBench bench).2]

theorem facesList_pushing (hrealizes : tables.Realizes forms) :
    (pushing tables).FacesList tables pushingBench .toMemory .preDecrement 0
      (skipWord (pushing tables).registers) := by
  have hqueue : (0x48E24848 : Long) =
      pushingBench.memory.wordAt (4 - 4) ++ pushingBench.memory.wordAt (4 - 2) := by
    have hfirst : (4 : Long) - 4 = 0 := by decide
    have hsecond : (4 : Long) - 2 = 2 := by decide
    rw [hfirst, hsecond, wordAt_pushingBench.1, wordAt_pushingBench.2]
    rfl
  refine ⟨atBoundary_atRest hrealizes _, pendingInterrupt?_of_level rfl, hqueue, ?_, ?_, rfl, ?_,
    rfl⟩
  · rw [opcode_pushing]
    decide
  · rw [opcode_pushing]
    rfl
  · rw [opcode_pushing]
    rfl

theorem facesList_pulling (hrealizes : tables.Realizes forms) (bench : TestBench) :
    (pulling tables).FacesList tables (pullingBench bench) .toRegisters .postIncrement (-16)
      (skipWord (pulling tables).registers) := by
  have hqueue : (0x4CDA1212 : Long) =
      (pullingBench bench).memory.wordAt (12 - 4) ++
        (pullingBench bench).memory.wordAt (12 - 2) := by
    have hfirst : (12 : Long) - 4 = 8 := by decide
    have hsecond : (12 : Long) - 2 = 10 := by decide
    rw [hfirst, hsecond, (wordAt_pullingBench bench).1, (wordAt_pullingBench bench).2]
    rfl
  refine ⟨atBoundary_atRest hrealizes _, pendingInterrupt?_of_level rfl, hqueue, ?_, ?_, rfl, ?_,
    rfl⟩
  · rw [opcode_pulling]
    decide
  · rw [opcode_pulling]
    rfl
  · rw [opcode_pulling]
    rfl

/-- The block is not touched by putting the second instruction into memory. -/
theorem byteAt_pullingBench (bench : TestBench) {offset : Nat} (h : offset < 16) :
    (pullingBench bench).memory.byteAt (-16 + BitVec.ofNat 32 offset) =
      bench.memory.byteAt (-16 + BitVec.ofNat 32 offset) := by
  have houtside : ∀ offset < 16,
      (-16 + BitVec.ofNat 32 offset : Long).setWidth 24 ≠
        Memory.wordAddress ((8 : Long).setWidth 24) ∧
      (-16 + BitVec.ofNat 32 offset : Long).setWidth 24 ≠
        Memory.wordAddress ((8 : Long).setWidth 24) + 1 ∧
      (-16 + BitVec.ofNat 32 offset : Long).setWidth 24 ≠
        Memory.wordAddress ((10 : Long).setWidth 24) ∧
      (-16 + BitVec.ofNat 32 offset : Long).setWidth 24 ≠
        Memory.wordAddress ((10 : Long).setWidth 24) + 1 := by
    decide
  obtain ⟨hfirst, hsecond, hthird, hfourth⟩ := houtside offset h
  simp only [pullingBench, TestBench.withMemory, Memory.byteAt, Memory.storeWordAt,
    Memory.byte_storeWord, if_neg hfirst, if_neg hsecond, if_neg hthird, if_neg hfourth]

/-- D1 and three other registers are pushed and come back, though D1 has been cleared between. -/
theorem runInstruction_moveRegisters_pushed :
    let tables := Tables.compile forms
    let pushed := (pushing tables).runInstruction tables TestBench.access pushingBench
    let restored :=
      (pulling tables).runInstruction tables TestBench.access (pullingBench pushed.bus)
    pushed.writes = 8 ∧ pushed.processor.registers.address 2 = -16 ∧
      pushed.bus.memory.read .long (-16) = 0x12345678 ∧
      (pulling tables).registers.data 1 = 0 ∧
      restored.processor.registers.data 1 = 0x12345678 ∧
      restored.processor.registers.address 2 = 0 ∧ restored.reads.length = 9 := by
  have hrealizes : (Tables.compile forms).Realizes forms := Tables.realizes_compile
  obtain ⟨-, -, hstores, -⟩ := runInstruction_moveRegisters (facesList_pushing hrealizes)
  have hloads (bench : TestBench) :=
    (runInstruction_moveRegisters (facesList_pulling hrealizes bench)).2.2.2 rfl
  have hstores := hstores rfl
  -- evaluating the tables would compile every opcode
  generalize Tables.compile forms = tables at hrealizes hstores hloads ⊢
  intro tables pushed restored
  have horder : orderIn 0x4848 .preDecrement = [1, 4, 9, 12] := by decide
  have hback : orderIn 0x1212 .postIncrement = [1, 4, 9, 12] := by decide
  have hlong : listSize 0x48E2 = .long := by decide
  have hlong' : listSize 0x4CDA = .long := by decide
  have hstart : blockStart .preDecrement .long [1, 4, 9, 12] 0 = -16 := by decide
  have hregister : RegisterIndex.ofField (0x48E2 : Word).toNat = 2 := by decide
  have hregister' : RegisterIndex.ofField (0x4CDA : Word).toNat = 2 := by decide
  rw [opcode_pushing, nextWord_pushing, hlong, horder, hstart, hregister] at hstores
  obtain ⟨hwrites, -, hstored, hregisters, hrestored⟩ := hstores
  have hreads := (hloads pushed.bus).2.1
  rw [opcode_pulling, nextWord_pulling, hlong', hback] at hreads
  obtain ⟨hlisted, haddress⟩ := hrestored rfl rfl (pulling tables) (pullingBench pushed.bus) (-16) _
    (facesList_pulling hrealizes pushed.bus) (by rw [opcode_pulling, hlong'])
    (by rw [opcode_pulling, hregister']) (by rw [nextWord_pulling]; decide) rfl
    fun offset hoffset => by
      rw [horder] at hoffset
      exact byteAt_pullingBench pushed.bus hoffset
  have hzero : (pushing tables).registers.address 2 = 0 := rfl
  have hdata (r : Registers) : r.listed 1 = r.data 1 := rfl
  have hpushed : (pushing tables).registers.listed 1 = 0x12345678 := rfl
  have hread : pushed.bus.memory.read .long (-16) = 0x12345678 :=
    (hstored.inside 0 (by decide)).trans ((Size.truncate_long _).trans hpushed)
  refine ⟨hwrites, ?_, hread, rfl, ?_, haddress.trans hzero, ?_⟩
  · rw [hregisters, if_pos rfl]
    exact Registers.address_setAddress_self _ _ _
  · rw [← hdata, hlisted 1 (by rw [horder]; decide), hpushed]
  · rw [hreads]
    rfl

end Processor

end M68k
