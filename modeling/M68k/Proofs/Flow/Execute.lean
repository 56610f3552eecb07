import M68k.Proofs.Encoding.Extension
import M68k.Proofs.Encoding.Lines
import M68k.Proofs.Flow.Redirect
import M68k.Proofs.Flow.Reference
import M68k.Proofs.Move.Execute

/-!
# Branches, loops and jumps

Seven fixed programs finish the branches and loops, and the stages of a jump end with a refill of
their own. Whichever of them runs, the queue agrees with memory behind it, and the program counter
is two words ahead of the documented address.

## Main results

* `Snapshot.settled_branch`, `Snapshot.settled_loop`, `Snapshot.settled_jump`: where the program
  goes on
* `Processor.runInstruction_flow`: control flow reaches the documented address
-/

namespace M68k

open Encoding Reference

/-! ## Displacements -/

namespace Snapshot

variable {s : Snapshot TestBench}

theorem hasWordDisplacement_eq (p : Processor) :
    p.hasWordDisplacement = decide (shortDisplacement p.opcode = 0) := by
  have hmask : (p.opcode &&& 0xFF).setWidth 8 = shortDisplacement p.opcode ∧
      (shortDisplacement p.opcode).setWidth 16 = p.opcode &&& 0xFF := by
    constructor <;> ext i hi <;> interval_cases i <;>
      simp [shortDisplacement, BitVec.getElem_setWidth]
  rw [Processor.hasWordDisplacement, Bool.eq_iff_iff, beq_iff_eq, decide_eq_true_eq]
  constructor
  · intro h
    rw [← hmask.1, h]
    rfl
  · intro h
    rw [← hmask.2, h]
    rfl

/-- Displacements count from the word after the opcode. -/
theorem wordBranchTarget_eq (h : s.Coherent) :
    s.processor.wordBranchTarget =
      here s.processor.registers + 2 +
        (nextWord s.bus.memory s.processor.registers).signExtend 32 := by
  rw [Processor.wordBranchTarget, h.displacement, here]
  congr 1
  bv_omega

theorem branchTarget_eq (h : s.Coherent) :
    s.processor.branchTarget =
      branchTarget s.processor.opcode s.bus.memory s.processor.registers := by
  have hbyte : Size.byte.signExtend (s.processor.opcode.setWidth 32) =
      (shortDisplacement s.processor.opcode).signExtend 32 := by
    rw [Size.signExtend, BitVec.setWidth_setWidth_of_le _ (by decide), shortDisplacement]
  have hbase : s.processor.registers.pc - 2 = here s.processor.registers + 2 := by
    rw [here]
    bv_omega
  rw [Processor.branchTarget, hasWordDisplacement_eq, wordBranchTarget_eq h, hbyte, hbase,
    Reference.branchTarget]
  simp only [decide_eq_true_eq]
  split <;> rfl

/-! ## Branches and loops -/

section Refill

variable {r : Registers} {bench : TestBench}

/-- Two words are fetched at the place to go on at. -/
theorem settled_goTo {address : Long} (hregisters : s.processor.registers = { r with pc := address })
    (hbus : s.bus = bench) :
    Settled (goTo address r) bench (s.perform TestBench.access (.fetch ++ .fetch)) := by
  obtain ⟨hfilled, hcoherent, hkept⟩ := settled_refill s
  have hpc : address + 2 + 2 = address + 4 := by bv_omega
  refine ⟨hfilled.trans ?_, hcoherent, hkept.trans hbus⟩
  rw [hregisters, goTo, ← hpc]
  rfl

/-- Behind an instruction of two words the program counter is where it should be. -/
theorem settled_ahead (hregisters : s.processor.registers = r) (hbus : s.bus = bench) :
    Settled (goTo (here r + 4) r) bench (s.perform TestBench.access (.fetch ++ .fetch)) := by
  have hpc : r.pc - 4 + 4 = r.pc := by bv_omega
  rw [here, hpc]
  exact settled_goTo hregisters hbus

/-- Behind an instruction of one word, half of the queue is still of use. -/
theorem settled_next (hcoherent : s.Coherent) (hregisters : s.processor.registers = r)
    (hbus : s.bus = bench) :
    Settled (goTo (here r + 2) r) bench (s.perform TestBench.access .fetch) := by
  obtain ⟨hfilled, hcoherent, hkept⟩ := settled_fetch hcoherent
  have hpc : r.pc + 2 = r.pc - 4 + 2 + 4 := by bv_omega
  refine ⟨hfilled.trans ?_, hcoherent, hkept.trans hbus⟩
  rw [hregisters, skipWord, goTo, here, hpc]

end Refill

/-- **A branch** goes to its target or falls through. -/
theorem settled_branch (hcoherent : s.Coherent)
    (hoperation : s.processor.instruction.operation = .bcc) :
    let opcode := s.processor.opcode
    let r := s.processor.registers
    Settled
      (goTo (if conditionHolds opcode r then branchTarget opcode s.bus.memory r
        else branchEnd opcode r) r) s.bus
      ((s.withProcessor s.processor.turn.1).perform TestBench.access s.processor.turn.2) := by
  intro opcode r
  have hholds : s.processor.conditionHolds = conditionHolds opcode r := rfl
  simp only [Processor.turn, hoperation, Processor.turnBranch, hholds, hasWordDisplacement_eq,
    branchEnd, decide_eq_true_eq]
  split
  · refine .idle_append 4 (settled_goTo ?_ rfl)
    rw [← branchTarget_eq hcoherent]
    rfl
  · split
    · exact .idle_append 8 (settled_ahead rfl rfl)
    · exact .idle_append 8 (settled_next (hcoherent.congr rfl rfl rfl) rfl rfl)

/-- **A loop** goes back as long as its counter has not run out. -/
theorem settled_loop (hcoherent : s.Coherent)
    (hoperation : s.processor.instruction.operation = .dbcc)
    (hregister : s.processor.instruction.destinationRegister.index =
      .ofField s.processor.opcode.toNat) :
    Settled (loop s.processor.opcode ⟨s.processor.registers, s.bus.memory⟩).registers s.bus
      ((s.withProcessor s.processor.turn.1).perform TestBench.access s.processor.turn.2) := by
  have hholds : s.processor.conditionHolds =
      conditionHolds s.processor.opcode s.processor.registers := rfl
  simp only [Processor.turn, hoperation, Processor.turnLoop, hholds, loop, hregister]
  split
  · exact .idle_append 8 (settled_ahead rfl rfl)
  · split
    · rw [List.append_assoc]
      refine .idle_append 4 ?_
      generalize hcounted : (s.withProcessor _).timeless = counted
      obtain ⟨data, hstray⟩ := perform_expiredLoopRead counted
      rw [perform_append, hstray]
      refine settled_ahead (r := s.processor.registers.setData _ _) ?_ ?_ <;> rw [← hcounted] <;> rfl
    · refine .idle_append 4 (settled_goTo ?_ rfl)
      rw [← wordBranchTarget_eq hcoherent]
      rfl

/-! ## Subroutines -/

/-- **A branch to a subroutine** pushes the address behind it before it goes to its target. -/
theorem settled_subroutine (hcoherent : s.Coherent)
    (hoperation : s.processor.instruction.operation = .bsr) :
    let opcode := s.processor.opcode
    let r := s.processor.registers
    let pushed := push (branchEnd opcode r) ⟨r, s.bus.memory⟩
    let s₁ := s.execute TestBench.access
      [⟨.pushBranchReturn, .nowhere, .idle 4 ++ writeMoved .long⟩]
    Settled (goTo (branchTarget opcode s.bus.memory r) pushed.registers)
      (s.bus.withMemory pushed.memory)
      ((s₁.withProcessor s₁.processor.turn.1).perform TestBench.access s₁.processor.turn.2) := by
  intro opcode r pushed s₁
  have hvalue : (if s.processor.hasWordDisplacement then r.pc else r.pc - 2) =
      branchEnd opcode r := by
    rw [hasWordDisplacement_eq, branchEnd, here]
    simp only [decide_eq_true_eq]
    split <;> bv_omega
  have hfired : s.fire ⟨.pushBranchReturn, .nowhere, .idle 4 ++ writeMoved .long⟩ =
      s.withProcessor (s.processor.pushReturnAddress (branchEnd opcode r)) := by
    rw [← hvalue]
    rfl
  obtain ⟨addresses, hwritten⟩ := perform_writeMoved
    (s := (s.withProcessor (s.processor.pushReturnAddress (branchEnd opcode r))).timeless) .long
  have hexecute : s₁ = (s.withProcessor
      (s.processor.pushReturnAddress (branchEnd opcode r))).timeless.perform TestBench.access
        (writeMoved .long) := by
    simp only [s₁, execute_cons, execute_nil, hfired, perform_append, perform_idle]
    rfl
  rw [hwritten] at hexecute
  have hturn : s₁.processor.turn =
      (s₁.processor.setPc (branchTarget opcode s.bus.memory r), .fetch ++ .fetch) := by
    have hkept : s₁.processor.instruction.operation = .bsr := by
      rw [instruction_execute, hoperation]
    have htarget : s₁.processor.branchTarget = s.processor.branchTarget := by
      rw [hexecute]
      rfl
    rw [Processor.turn, hkept, htarget, branchTarget_eq hcoherent]
  rw [hturn]
  clear_value s₁
  subst hexecute
  exact settled_goTo rfl rfl

end Snapshot

/-! ## Jumps -/

namespace Encoding

/-- The idle time in front of the refill of a jump. -/
def jumpDelay : AddressMode → Activity
  | .indirect | .absoluteLong => []
  | .index | .pcIndex => .idle 4 ++ .idle 8
  | _ => .idle 4

/-- The stages that form the target of a jump from words of the program. -/
def resolve (mode : AddressMode) : List Stage := lead mode ++ [.act mode.action .src]

/-- A jump through an address register needs no stage to form its target. -/
theorem jump_indirect {opcode : Word} (h : AddressMode.ofField? opcode = some .indirect) :
    jump opcode = some
      ⟨{ jumping .jmp opcode with source := .addressRegister (lowerRegister opcode) },
        [.perform (.fetch ++ .fetch)]⟩ := by
  simp only [jump, h, Option.bind_eq_bind, Option.bind_some]

theorem jump_of_isExtended {opcode : Word} {mode : AddressMode}
    (h : AddressMode.ofField? opcode = some mode) (hextended : mode.isExtended) :
    jump opcode = some
      ⟨jumping .jmp opcode,
        resolve mode ++ [.perform (jumpDelay mode ++ (.fetch ++ .fetch))]⟩ := by
  simp only [jump, h, Option.bind_eq_bind, Option.bind_some]
  cases mode <;> first | rfl | cases hextended

end Encoding

namespace Snapshot

variable {s : Snapshot TestBench} {mode : AddressMode}

/-- The delay of a jump only takes time. -/
theorem perform_jumpDelay_fetch (mode : AddressMode) (s : Snapshot TestBench) :
    s.perform TestBench.access (jumpDelay mode ++ .fetch) = s.perform TestBench.access .fetch := by
  cases mode
  case indirect | absoluteLong => rfl
  case index | pcIndex =>
    rw [jumpDelay, List.append_assoc, perform_append, perform_idle_fetch, perform_idle,
      perform_fetch, perform_fetch]
    rfl
  all_goals exact perform_idle_fetch s 4

/-- The target of a jump is known. The word that it is formed from is still in the queue. -/
structure Resolved (address : Long) (r : Registers) (s s' : Snapshot TestBench) : Prop where
  registers : s'.processor.registers = { r with pc := r.pc - 2 }
  address : s'.processor.effectiveAddress.source = address
  coherent : s'.Coherent
  bus : s'.bus = s.bus

/-- **The target of a jump** is the place that its mode names. -/
theorem resolved {n : RegisterIndex} {address : Long} {r : Registers} (hmode : mode.isExtended)
    (hcoherent : s.Coherent) (hregister : s.processor.instruction.sourceRegister.index = n)
    (hlocate : locate s.bus.memory mode n .long s.processor.registers = (.memory address, r)) :
    Resolved address r s (s.execute TestBench.access (resolve mode)) := by
  have hside : (s.processor.instruction.register .source).index = n := hregister
  have hlocated := located hmode hcoherent hside hlocate []
  have hled : (s.execute TestBench.access (lead mode)).Coherent := by
    cases mode <;> first | exact hcoherent | exact hcoherent.fetch
  have haction : ∃ form, mode.action = .address form := by
    cases mode <;> first | exact ⟨_, rfl⟩ | cases hmode
  obtain ⟨form, hform⟩ := haction
  have hfired := fire_address (s := s.execute TestBench.access (lead mode)) form .source []
  rw [resolve, execute_append, execute_cons, execute_nil, Stage.act, perform_nil, hform]
  rw [hform, perform_indexDelay_fetch, perform_fetch] at hlocated
  rw [Side.target] at hfired hlocated
  rw [hfired] at hlocated ⊢
  generalize s.execute TestBench.access (lead mode) = led at hled hlocated ⊢
  refine ⟨?_, hlocated.address, hled.congr rfl rfl rfl, hlocated.bus⟩
  have hpc : led.processor.registers.pc + 2 - 2 = led.processor.registers.pc := by bv_omega
  rw [← hlocated.registers]
  change led.processor.registers =
    { led.processor.registers with pc := led.processor.registers.pc + 2 - 2 }
  rw [hpc]

/-- **A jump** goes to the place that its mode names. -/
theorem settled_jump {opcode : Word} {instruction : Instruction} {stages : List Stage}
    (hcoherent : s.Coherent) (hinstruction : s.processor.instruction = instruction)
    (hmode : AddressMode.ofField? opcode = some mode) (hcontrol : mode.isControl)
    (hrecipe : Encoding.jump opcode = some ⟨instruction, stages⟩) :
    Settled (jump mode (.ofField opcode.toNat) ⟨s.processor.registers, s.bus.memory⟩).registers s.bus
      (s.execute TestBench.access stages) := by
  by_cases hindirect : mode = .indirect
  · subst hindirect
    rw [jump_indirect hmode] at hrecipe
    cases hrecipe
    have hcompute : s.processor.compute =
        s.processor.setPc (s.processor.registers.address (lowerRegister opcode).index) := by
      simp only [Processor.compute, Processor.source, hinstruction]
      rfl
    rw [execute_cons, execute_nil]
    change Settled _ s.bus ((s.withProcessor s.processor.compute).perform TestBench.access _)
    rw [hcompute, lowerRegister, RegisterNumber.index_ofField]
    exact settled_goTo rfl rfl
  · have hextended : mode.isExtended := by simpa [AddressMode.isControl, hindirect] using hcontrol
    rw [jump_of_isExtended hmode hextended] at hrecipe
    cases hrecipe
    obtain ⟨address, r, hlocate⟩ :
        ∃ address r, locate s.bus.memory mode (.ofField opcode.toNat) .long s.processor.registers =
          (.memory address, r) := by
      cases mode <;> first | exact ⟨_, _, rfl⟩ | cases hextended
    have hregister : s.processor.instruction.sourceRegister.index = .ofField opcode.toNat := by
      rw [hinstruction]
      exact RegisterNumber.index_ofField _
    have hresolved := resolved hextended hcoherent hregister hlocate
    have hkept := instruction_execute TestBench.access (resolve mode) s
    rw [hinstruction] at hkept
    rw [execute_append]
    generalize s.execute TestBench.access (resolve mode) = s₁ at hresolved hkept ⊢
    have hcompute : s₁.processor.compute = s₁.processor.setPc address := by
      rw [← hresolved.address]
      simp only [Processor.compute, Processor.source, hkept]
      rfl
    have hkeep : { r with pc := address } = { s.processor.registers with pc := address } := by
      cases mode <;> first | (cases hlocate; rfl) | cases hextended
    rw [execute_cons, execute_nil]
    change Settled _ s.bus ((s₁.withProcessor s₁.processor.compute).perform TestBench.access
      (jumpDelay mode ++ (.fetch ++ .fetch)))
    rw [hcompute, ← List.append_assoc, perform_append, perform_jumpDelay_fetch, ← perform_append]
    simp only [Reference.jump, hlocate]
    refine settled_goTo ?_ hresolved.bus
    rw [← hkeep, withProcessor, Processor.setPc, hresolved.registers]

end Snapshot

/-! ## Whole instructions -/

namespace Encoding

variable {opcode : Word}

theorem branch_of_subroutine (h : opcode.toNat / 256 % 16 = 1) :
    branch opcode = some
      ⟨{ Instruction.bare .bsr .long with source := .effectiveAddress .source },
        [⟨.pushBranchReturn, .nowhere, .idle 4 ++ writeMoved .long⟩] ++
          [.act .operate .nowhere]⟩ := by
  simp only [branch, h, if_true]
  rfl

theorem branch_of_condition (h : opcode.toNat / 256 % 16 ≠ 1) :
    branch opcode = some ⟨.bare .bcc .word, [] ++ [.act .operate .nowhere]⟩ := by
  simp only [branch, h, if_false, List.nil_append]

/-- The mode field of a loop would name an address register. -/
theorem setOrLoop_of_loop (h : opcode &&& 0xF0F8 = 0x50C8) :
    setOrLoop opcode = some
      ⟨(Instruction.bare .dbcc .word).withDestination .dataRegister (lowerRegister opcode),
        [] ++ [.act .operate .nowhere]⟩ := by
  have hfield : opcode &&& 0x0038 = 0x0008 := field_eq h (by decide)
  have hmode : opcode.toNat / 8 % 8 = 1 := by
    rw [modeField_eq, hfield]
    rfl
  have hnamed : AddressMode.ofField? opcode = some .addressRegister := by
    simp only [AddressMode.ofField?, AddressMode.decode?, hmode]
  simp only [setOrLoop, hnamed, Option.bind_eq_bind, Option.bind_some, List.nil_append]
  rfl

end Encoding

namespace Processor

section

variable {tables : Tables} (hrealizes : tables.Realizes forms) (bench : TestBench) {p : Processor}
  (hboundary : p.atBoundary tables) (hinterrupt : p.pendingInterrupt? = none)
  (hqueue : p.prefetch = bench.memory.wordAt (p.registers.pc - 4) ++
    bench.memory.wordAt (p.registers.pc - 2))
include hrealizes hboundary hinterrupt hqueue

theorem settled_runInstruction_branch (hline : (Half.high.get p.prefetch).toNat / 4096 = 6) :
    let machine := Reference.branch (Half.high.get p.prefetch) ⟨p.registers, bench.memory⟩
    Snapshot.Settled machine.registers (bench.withMemory machine.memory)
      (p.runInstruction tables TestBench.access bench).snapshot := by
  intro machine
  by_cases hsubroutine : (Half.high.get p.prefetch).toNat / 256 % 16 = 1
  · rw [snapshot_runInstruction_turn TestBench.access hrealizes hboundary hinterrupt
      (decode?_branch hline (branch_of_subroutine hsubroutine)) rfl rfl (by simp) bench]
    simp only [machine, Reference.branch, hsubroutine, if_true]
    exact Snapshot.settled_subroutine (s := p.dispatched _ bench) hqueue rfl
  · rw [snapshot_runInstruction_turn TestBench.access hrealizes hboundary hinterrupt
      (decode?_branch hline (branch_of_condition hsubroutine)) rfl rfl nofun bench]
    simp only [machine, Reference.branch, hsubroutine, if_false]
    exact Snapshot.settled_branch (s := p.dispatched _ bench) hqueue rfl

theorem settled_runInstruction_loop (hpattern : Half.high.get p.prefetch &&& 0xF0F8 = 0x50C8) :
    Snapshot.Settled (loop (Half.high.get p.prefetch) ⟨p.registers, bench.memory⟩).registers bench
      (p.runInstruction tables TestBench.access bench).snapshot := by
  rw [snapshot_runInstruction_turn TestBench.access hrealizes hboundary hinterrupt
    (decode?_loop hpattern (setOrLoop_of_loop hpattern)) rfl rfl nofun bench]
  exact Snapshot.settled_loop (s := p.dispatched _ bench) hqueue rfl
    (RegisterNumber.index_ofField _)

theorem settled_runInstruction_jump {mode : AddressMode}
    (hpattern : Half.high.get p.prefetch &&& 0xFFC0 = 0x4EC0)
    (hmode : AddressMode.ofField? (Half.high.get p.prefetch) = some mode)
    (hcontrol : mode.isControl) :
    Snapshot.Settled
      (Reference.jump mode (.ofField (Half.high.get p.prefetch).toNat)
        ⟨p.registers, bench.memory⟩).registers
      bench (p.runInstruction tables TestBench.access bench).snapshot := by
  obtain ⟨⟨instruction, stages⟩, hrecipe, hoperation, hunprivileged⟩ :
      ∃ recipe, Encoding.jump (Half.high.get p.prefetch) = some recipe ∧
        recipe.instruction.operation = .jmp ∧
        recipe.instruction.requiresSupervisor = false := by
    by_cases hindirect : mode = .indirect
    · exact ⟨_, jump_indirect (hmode.trans (by rw [hindirect])), rfl, rfl⟩
    · have hextended : mode.isExtended := by
        simpa [AddressMode.isControl, hindirect] using hcontrol
      exact ⟨_, jump_of_isExtended hmode hextended, rfl, rfl⟩
  rw [snapshot_runInstruction TestBench.access hrealizes hboundary hinterrupt
    (decode?_jump hpattern hrecipe) (by rw [hunprivileged]; nofun) (by rw [hoperation]; rfl) bench]
  exact Snapshot.settled_jump (s := p.dispatched _ bench) hqueue rfl hmode hcontrol hrecipe

/-- Control flow that starts at a boundary settles as the programmer sees it. -/
theorem settled_runInstruction_flow {machine : Machine}
    (hflow : flow? (Half.high.get p.prefetch) ⟨p.registers, bench.memory⟩ = some machine) :
    Snapshot.Settled machine.registers (bench.withMemory machine.memory)
      (p.runInstruction tables TestBench.access bench).snapshot := by
  unfold flow? at hflow
  split at hflow
  case isTrue hline =>
    cases hflow
    exact settled_runInstruction_branch hrealizes bench hboundary hinterrupt hqueue hline
  split at hflow
  case isTrue hpattern =>
    cases hflow
    exact settled_runInstruction_loop hrealizes bench hboundary hinterrupt hqueue hpattern
  split at hflow
  case isFalse => cases hflow
  rename_i hpattern
  split at hflow
  case h_2 => cases hflow
  rename_i mode hmode
  split at hflow
  case isFalse => cases hflow
  rename_i hcontrol
  cases hflow
  have hkept : (Reference.jump mode (.ofField (Half.high.get p.prefetch).toNat)
      ⟨p.registers, bench.memory⟩).memory = bench.memory := by
    simp only [Reference.jump]
    split <;> rfl
  rw [hkept]
  exact settled_runInstruction_jump hrealizes bench hboundary hinterrupt hqueue hpattern hmode
    hcontrol

/-- Control flow that starts at a boundary reaches the documented address. -/
theorem runInstruction_of_flow {machine : Machine}
    (hflow : flow? (Half.high.get p.prefetch) ⟨p.registers, bench.memory⟩ = some machine) :
    let final := p.runInstruction tables TestBench.access bench
    final.processor.atBoundary tables ∧ final.processor.registers = machine.registers ∧
      final.bus = bench.withMemory machine.memory ∧
      final.processor.prefetch = machine.memory.wordAt (here machine.registers) ++
        machine.memory.wordAt (here machine.registers + 2) := by
  obtain ⟨hregisters, hcoherent, hbus⟩ :=
    settled_runInstruction_flow hrealizes bench hboundary hinterrupt hqueue hflow
  have hnext : machine.registers.pc - 2 = here machine.registers + 2 := by
    rw [here]
    bv_omega
  rw [Snapshot.Coherent, hregisters, hbus, hnext] at hcoherent
  exact ⟨(runInstruction_atBoundary TestBench.access hrealizes hboundary bench).1, hregisters, hbus,
    hcoherent⟩

end

/-- **Control flow reaches the documented address.** From every boundary at which the prefetch queue
agrees with memory, an instruction run on a branch, a loop or a jump leaves the registers and memory
as it should, at a boundary whose queue holds the two words from the new address on. -/
theorem runInstruction_flow (bench : TestBench) {p : Processor} {machine : Machine}
    (hboundary : p.atBoundary (.compile forms)) (hinterrupt : p.pendingInterrupt? = none)
    (hqueue : p.prefetch = bench.memory.wordAt (p.registers.pc - 4) ++
      bench.memory.wordAt (p.registers.pc - 2))
    (hflow : flow? (Half.high.get p.prefetch) ⟨p.registers, bench.memory⟩ = some machine) :
    let final := p.runInstruction (.compile forms) TestBench.access bench
    final.processor.atBoundary (.compile forms) ∧ final.processor.registers = machine.registers ∧
      final.bus = bench.withMemory machine.memory ∧
      final.processor.prefetch = machine.memory.wordAt (here machine.registers) ++
        machine.memory.wordAt (here machine.registers + 2) := by
  exact runInstruction_of_flow Tables.realizes_compile bench hboundary hinterrupt hqueue hflow

/-- In a memory of `0x60` everywhere, `BRA` goes 98 bytes ahead of itself, and the queue holds more
of the same. -/
theorem runInstruction_flow_filled :
    let tables := Tables.compile forms
    let p := facing tables 0x60606060 .initial
    let final := p.runInstruction tables TestBench.access (filledBench 0x60)
    final.processor.registers = goTo (here p.registers + 98) p.registers ∧
      final.processor.prefetch = 0x60606060 := by
  have hopcode : Half.high.get (facing (.compile forms) 0x60606060 .initial).prefetch = 0x6060 := by
    change Half.high.get 0x60606060 = 0x6060
    decide
  obtain ⟨-, hregisters, -, hprefetch⟩ := runInstruction_flow
    (p := facing (.compile forms) 0x60606060 .initial) (filledBench 0x60)
    (atBoundary_atRest Tables.realizes_compile _) (pendingInterrupt?_of_level rfl)
    (words_filledBench 0x60 _ _).symm (by rw [hopcode]; rfl)
  exact ⟨hregisters.trans rfl, hprefetch.trans (words_filledBench 0x60 _ _)⟩

end Processor

end M68k
