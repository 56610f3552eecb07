import M68k.Proofs.Flow.Execute
import M68k.Proofs.Interrupt.LevelSeven

/-!
# Subroutine calls

A call works out where it goes before the stack pointer drops, and pushes the address of the
instruction behind it. A jump to a subroutine fetches the first word there before the stack is
written and the second one after that, so that the two have to be apart. The return pops what the
call has pushed.

## Main results

* `Memory.read_write_long`, `Memory.byte_write_long`: a long word on the stack
* `Reference.leave_enter`: a return undoes a call
* `Snapshot.settled_call`, `Snapshot.settled_return`: the stages of a jump to a subroutine, and
  those of a return
* `Processor.runInstruction_call`: subroutine calls return
-/

namespace M68k

open Encoding Reference

/-! ## Long words on the stack -/

namespace Memory

variable (memory : Memory) {address : Long}

/-- What has been pushed can be popped. -/
theorem read_write_long (address value : Long) :
    (memory.write .long address value).read .long address = value := by
  have hnext : (address + 2).setWidth 24 = address.setWidth 24 + 2 := by
    rw [BitVec.setWidth_add _ _ (by decide)]
    rfl
  have hne : wordAddress (address.setWidth 24) ≠ wordAddress ((address + 2).setWidth 24) := by
    rw [hnext]
    exact (wordAddress_add_two_ne _).symm
  rw [read, write, wordAt_storeWordAt, if_neg hne, wordAt_storeWordAt, if_pos rfl,
    wordAt_storeWordAt, if_pos rfl, Half.high_append_low]

/-- A long word takes up four bytes. -/
theorem byte_write_long (heven : address.toNat % 2 = 0) (value : Long) {place : Address}
    (h : 4 ≤ (place - address.setWidth 24).toNat) :
    (memory.write .long address value).byte place = memory.byte place := by
  have hword {other : Long} (hother : other.toNat % 2 = 0) :
      wordAddress (other.setWidth 24) = other.setWidth 24 := by
    apply BitVec.eq_of_toNat_eq
    rw [toNat_wordAddress, BitVec.toNat_setWidth]
    omega
  have hnext : (address + 2).setWidth 24 = address.setWidth 24 + 2 := by
    rw [BitVec.setWidth_add _ _ (by decide)]
    rfl
  rw [write, storeWordAt, storeWordAt, byte_storeWord, byte_storeWord,
    hword (by bv_omega), hword heven, hnext]
  generalize address.setWidth 24 = start at h
  rw [if_neg (by bv_omega), if_neg (by bv_omega), if_neg (by bv_omega), if_neg (by bv_omega)]

/-- Stretches within the address space, one after the other, are apart. -/
theorem apart_of_le {first second : Long} {length otherLength : Nat}
    (h : first.toNat + length ≤ second.toNat) (hbound : second.toNat + otherLength ≤ 2 ^ 24) :
    Apart first length second otherLength := by
  intro place other hplace hother hequal
  have hnat := congrArg BitVec.toNat hequal
  simp only [BitVec.toNat_setWidth] at hnat
  bv_omega

/-- A word that is apart from a long word is not touched. -/
theorem wordAt_write_long (heven : address.toNat % 2 = 0) (value : Long) {other : Long}
    (h : Apart address 4 other 2) :
    (memory.write .long address value).wordAt other = memory.wordAt other := by
  have hbyte (k : Nat) (hk : k < 4) :
      (address + BitVec.ofNat 32 k).toNat % 2 ^ 24 ≠ other.toNat % 2 ^ 24 := by
    have hplace := h (address + BitVec.ofNat 32 k) other (by bv_omega) (by bv_omega)
    rwa [ne_eq, ← BitVec.toNat_inj, BitVec.toNat_setWidth, BitVec.toNat_setWidth] at hplace
  have hfirst := hbyte 0 (by decide)
  have hsecond := hbyte 1 (by decide)
  have hthird := hbyte 2 (by decide)
  have hfourth := hbyte 3 (by decide)
  simp only [BitVec.toNat_add, BitVec.toNat_ofNat] at hfirst hsecond hthird hfourth
  have hhigh : wordAddress (other.setWidth 24) ≠ wordAddress (address.setWidth 24) := by
    rw [ne_eq, wordAddress_eq_iff, BitVec.toNat_setWidth, BitVec.toNat_setWidth]
    omega
  have hlow : wordAddress (other.setWidth 24) ≠ wordAddress ((address + 2).setWidth 24) := by
    rw [ne_eq, wordAddress_eq_iff, BitVec.toNat_setWidth, BitVec.toNat_setWidth, BitVec.toNat_add]
    simp only [BitVec.reduceToNat]
    omega
  rw [write, wordAt_storeWordAt, if_neg hlow, wordAt_storeWordAt, if_neg hhigh]

end Memory

/-! ## What a return undoes -/

namespace Reference

/-- **A return undoes a call**, but for the place in the program. -/
theorem leave_enter (subroutine : Subroutine) (machine : Machine) :
    leave (subroutine.enter machine) =
      { registers := goTo subroutine.returnAddress machine.registers
        memory := (subroutine.enter machine).memory } := by
  obtain ⟨r, memory⟩ := machine
  obtain ⟨entry, returnAddress⟩ := subroutine
  have hsp : (r.setSp (r.sp - 4)).sp = r.sp - 4 := r.address_setAddress_self stackPointer _
  have hback : r.sp - 4 + 4 = r.sp := by bv_omega
  have hread := memory.read_write_long (r.sp - 4) returnAddress
  have hpopped : leave (Subroutine.enter ⟨entry, returnAddress⟩ ⟨r, memory⟩) =
      { registers := goTo ((memory.write .long (r.sp - 4) returnAddress).read .long
          (r.setSp (r.sp - 4)).sp) ((r.setSp (r.sp - 4)).setSp ((r.setSp (r.sp - 4)).sp + 4))
        memory := memory.write .long (r.sp - 4) returnAddress } := rfl
  rw [hpopped, hsp, hread, hback, r.setSp_setSp]
  rfl

end Reference

/-! ## Jumps to subroutines -/

namespace Encoding

/-- The stages that form the target of a jump to a subroutine. -/
def resolveCall (mode : AddressMode) : List Stage :=
  if mode = .indirect then [.act (.address .register) .src] else resolve mode

theorem jumpToSubroutine_of_isControl {opcode : Word} {mode : AddressMode}
    (h : AddressMode.ofField? opcode = some mode) (hcontrol : mode.isControl) :
    jumpToSubroutine opcode = some
      ⟨jumping .jsr opcode,
        resolveCall mode ++ [.act .pushJumpReturn .nowhere,
          .perform (jumpDelay mode ++ (.fetch ++ (writeMoved .long ++ .fetch)))]⟩ := by
  simp only [jumpToSubroutine, h, Option.bind_eq_bind, Option.bind_some]
  cases mode <;> first | rfl | cases hcontrol

end Encoding

/-- The mode field of the opcode tells a jump through an address register. -/
theorem AddressMode.modeField_eq_two_iff {opcode : Word} {mode : AddressMode}
    (h : ofField? opcode = some mode) : opcode.toNat / 8 % 8 = 2 ↔ mode = .indirect := by
  unfold ofField? decode? at h
  split at h <;> cases h <;> simp only [*] <;> decide

namespace Snapshot

variable {s : Snapshot TestBench} {mode : AddressMode}

/-- The first word behind the program counter is fetched, a long word is written, and the next word
is fetched. -/
theorem settled_fetch_write_fetch {address value pc : Long} {r : Registers}
    (haddress : s.processor.effectiveAddress.destination = address)
    (hvalue : s.processor.data.destination = value)
    (hregisters : s.processor.registers = { r with pc := pc })
    (hkept : (s.bus.memory.write .long address value).wordAt pc = s.bus.memory.wordAt pc) :
    Settled (goTo pc r) (s.bus.withMemory (s.bus.memory.write .long address value))
      (s.perform TestBench.access (.fetch ++ (writeMoved .long ++ .fetch))) := by
  subst haddress hvalue
  have hfirst (pc : Long) : pc + 2 + 2 - 4 = pc := by bv_omega
  have hsecond (pc : Long) : pc + 2 + 2 - 2 = pc + 2 := by bv_omega
  have hlow (first second : Word) : Half.low.get (first ++ second) = second :=
    BitVec.extractLsb'_append_eq_right
  rw [perform_append, perform_append]
  obtain ⟨addresses, hwritten⟩ :=
    perform_writeMoved (s := s.perform TestBench.access .fetch) .long
  have hpc : pc + 4 = pc + 2 + 2 := by bv_omega
  rw [hwritten, perform_fetch, perform_fetch]
  refine ⟨?_, ?_, rfl⟩
  · simp only [withProcessor, withMemory, Processor.registers_timeless, Processor.fetch, hregisters,
      goTo, hpc]
  · simp only [Coherent, withProcessor, withMemory, TestBench.withMemory,
      Processor.prefetch_timeless, Processor.registers_timeless,
      Processor.effectiveAddress_timeless, Processor.data_timeless, Processor.fetch, hregisters,
      hfirst, hsecond, hlow, hkept]

/-- The target of a jump to a subroutine is known. Through an address register, no word of the
program has been taken. -/
theorem resolved_call {n : RegisterIndex} {address : Long} {r : Registers}
    (hcontrol : mode.isControl) (hcoherent : s.Coherent)
    (hregister : s.processor.instruction.sourceRegister.index = n)
    (hlocate : locate s.bus.memory mode n .long s.processor.registers = (.memory address, r)) :
    let resolved := s.execute TestBench.access (resolveCall mode)
    resolved.processor.registers =
        { r with pc := if mode = .indirect then r.pc else r.pc - 2 } ∧
      resolved.processor.effectiveAddress.source = address ∧ resolved.bus = s.bus := by
  by_cases hindirect : mode = .indirect
  · subst hindirect
    cases hlocate
    subst hregister
    exact ⟨rfl, rfl, rfl⟩
  · have hextended : mode.isExtended := by simpa [AddressMode.isControl, hindirect] using hcontrol
    have hresolved := resolved hextended hcoherent hregister hlocate
    simp only [resolveCall, hindirect, if_false]
    exact ⟨hresolved.registers, hresolved.address, hresolved.bus⟩

/-- Once the target of a jump to a subroutine is known, the address behind it is pushed, and the jump
is made. -/
theorem settled_push (mode : AddressMode) {opcode : Word} {entry returnAddress : Long}
    (hinstruction : s.processor.instruction = jumping .jsr opcode)
    (hentry : s.processor.effectiveAddress.source = entry)
    (hvalue : (if s.processor.modeField = 2 then s.processor.registers.pc - 2
      else s.processor.registers.pc) = returnAddress)
    (heven : (s.processor.registers.sp - 4).toNat % 2 = 0)
    (hapart : Memory.Apart (s.processor.registers.sp - 4) 4 entry 2) :
    let r := s.processor.registers
    Settled (goTo entry (r.setSp (r.sp - 4)))
      (s.bus.withMemory (s.bus.memory.write .long (r.sp - 4) returnAddress))
      (s.execute TestBench.access [.act .pushJumpReturn .nowhere,
        .perform (jumpDelay mode ++ (.fetch ++ (writeMoved .long ++ .fetch)))]) := by
  intro r
  have hpushed : s.fire (.act .pushJumpReturn .nowhere) =
      s.withProcessor (s.processor.pushReturnAddress returnAddress) := by
    rw [← hvalue]
    rfl
  have hkept : (s.processor.pushReturnAddress returnAddress).instruction = jumping .jsr opcode :=
    hinstruction
  have hcompute : (s.processor.pushReturnAddress returnAddress).compute =
      (s.processor.pushReturnAddress returnAddress).setPc entry := by
    rw [← hentry]
    simp only [Processor.compute, Processor.source, hkept]
    rfl
  have hexecute : s.execute TestBench.access [.act .pushJumpReturn .nowhere,
      .perform (jumpDelay mode ++ (.fetch ++ (writeMoved .long ++ .fetch)))] =
      (s.withProcessor ((s.processor.pushReturnAddress returnAddress).setPc entry)).perform
        TestBench.access (.fetch ++ (writeMoved .long ++ .fetch)) := by
    rw [execute_cons, execute_cons, execute_nil, hpushed, ← hcompute]
    change (s.withProcessor (s.processor.pushReturnAddress returnAddress).compute).perform
      TestBench.access (jumpDelay mode ++ (.fetch ++ (writeMoved .long ++ .fetch))) = _
    rw [← List.append_assoc, perform_append, perform_jumpDelay_fetch, ← perform_append]
  have hpushing :
      let pushing := (s.processor.pushReturnAddress returnAddress).setPc entry
      pushing.effectiveAddress.destination = r.sp - 4 ∧
        pushing.data.destination = returnAddress ∧
        pushing.registers = { r.setSp (r.sp - 4) with pc := entry } := ⟨rfl, rfl, rfl⟩
  rw [hexecute]
  generalize (s.processor.pushReturnAddress returnAddress).setPc entry = pushing at hpushing
  obtain ⟨haddress, hpushed, hregisters⟩ := hpushing
  exact settled_fetch_write_fetch (s := s.withProcessor pushing) haddress hpushed hregisters
    (s.bus.memory.wordAt_write_long heven returnAddress hapart)

/-- **A jump to a subroutine** pushes the address behind it and goes to the place that its mode
names. -/
theorem settled_call {opcode : Word} {subroutine : Subroutine} (hcoherent : s.Coherent)
    (hinstruction : s.processor.instruction = jumping .jsr opcode)
    (hopcode : s.processor.opcode = opcode)
    (hmode : AddressMode.ofField? opcode = some mode) (hcontrol : mode.isControl)
    (hsubroutine : subroutineAt? mode (.ofField opcode.toNat)
      ⟨s.processor.registers, s.bus.memory⟩ = some subroutine)
    (heven : (s.processor.registers.sp - 4).toNat % 2 = 0)
    (hapart : Memory.Apart (s.processor.registers.sp - 4) 4 subroutine.entry 2) :
    let machine := subroutine.enter ⟨s.processor.registers, s.bus.memory⟩
    Settled machine.registers (s.bus.withMemory machine.memory)
      (s.execute TestBench.access (resolveCall mode ++ [.act .pushJumpReturn .nowhere,
        .perform (jumpDelay mode ++ (.fetch ++ (writeMoved .long ++ .fetch)))])) := by
  obtain ⟨address, r, hlocate⟩ :
      ∃ address r, locate s.bus.memory mode (.ofField opcode.toNat) .long s.processor.registers =
        (.memory address, r) := by
    cases mode <;> first | exact ⟨_, _, rfl⟩ | cases hcontrol
  have hbehind : r.pc - 2 =
      here s.processor.registers + 2 + 2 * BitVec.ofNat 32 (mode.extensionWords .long) := by
    cases mode <;> first
    | (cases hlocate; simp only [AddressMode.extensionWords, skipWord, here]; bv_omega)
    | cases hcontrol
  have hkeep (pc : Long) : { r with pc := pc } = { s.processor.registers with pc := pc } := by
    cases mode <;> first | (cases hlocate; rfl) | cases hcontrol
  have hregister : s.processor.instruction.sourceRegister.index = .ofField opcode.toNat := by
    rw [hinstruction]
    exact RegisterNumber.index_ofField _
  simp only [subroutineAt?, hlocate, Option.some.injEq] at hsubroutine
  subst hsubroutine
  obtain ⟨hregisters, haddress, hbus⟩ := resolved_call hcontrol hcoherent hregister hlocate
  have hkept := instruction_execute TestBench.access (resolveCall mode) s
  have hfield : (s.execute TestBench.access (resolveCall mode)).processor.modeField = 2 ↔
      mode = .indirect := by
    rw [Processor.modeField, opcode_execute, hopcode]
    exact AddressMode.modeField_eq_two_iff hmode
  rw [hkeep] at hregisters
  rw [hinstruction] at hkept
  rw [execute_append]
  generalize s.execute TestBench.access (resolveCall mode) = s₁ at *
  have hsp : s₁.processor.registers.sp = s.processor.registers.sp := by
    rw [hregisters]
    rfl
  have hvalue : (if s₁.processor.modeField = 2 then s₁.processor.registers.pc - 2
      else s₁.processor.registers.pc) = r.pc - 2 := by
    simp only [hfield, hregisters]
    split <;> rfl
  have hsettled := settled_push mode hkept haddress hvalue (by rwa [hsp]) (by rwa [hsp])
  dsimp only at hsettled
  rw [hsp, hbus, hregisters, hbehind] at hsettled
  exact hsettled

/-! ## Returns -/

/-- Half of a long word is popped into the source latch. -/
theorem perform_stackRead (half : Half) (s : Snapshot TestBench) :
    s.perform TestBench.access (.stackRead half) =
      let address := s.processor.effectiveAddress.source
      s.withProcessor
        ({ s.processor with
          data := s.processor.data.set .source
            (half.set s.processor.data.source (s.bus.memory.wordAt address))
          effectiveAddress :=
            s.processor.effectiveAddress.set .source (address + 2) } : Processor).timeless := by
  rw [Activity.stackRead, perform_readWord]
  rfl

/-- Both halves make a long word. -/
theorem perform_stackReads (s : Snapshot TestBench) :
    ∃ addresses, s.perform TestBench.access (.stackRead .high ++ .stackRead .low) =
      s.withProcessor
        ({ s.processor with
          data := s.processor.data.set .source
            (s.bus.memory.read .long s.processor.effectiveAddress.source)
          effectiveAddress := addresses } : Processor).timeless := by
  refine ⟨s.processor.effectiveAddress.set .source
    (s.processor.effectiveAddress.source + 2 + 2), ?_⟩
  rw [perform_append, perform_stackRead, perform_stackRead]
  simp only [withProcessor, Processor.data_timeless, Processor.effectiveAddress_timeless,
    Memory.read, ← Half.low_set_high_set s.processor.data.source]
  rfl

/-- **A return** goes to the address on top of the stack. -/
theorem settled_return
    (hinstruction : s.processor.instruction =
      { Instruction.bare .rts .long with source := .sourceLatch }) :
    Settled (leave ⟨s.processor.registers, s.bus.memory⟩).registers s.bus
      (s.execute TestBench.access
        [⟨.popReturn, .nowhere, .stackRead .high ++ .stackRead .low⟩,
          .perform (.fetch ++ .fetch)]) := by
  set sp := s.processor.registers.sp with hsp
  let moved : Snapshot TestBench := s.withProcessor
    { s.processor with
      effectiveAddress := s.processor.effectiveAddress.set .source sp
      registers := s.processor.registers.setSp (sp + 4) }
  have hfired : s.fire ⟨.popReturn, .nowhere, .stackRead .high ++ .stackRead .low⟩ = moved := rfl
  obtain ⟨addresses, hread⟩ := perform_stackReads moved
  have hpopped :
      let popped := moved.perform TestBench.access (.stackRead .high ++ .stackRead .low)
      popped.processor.registers = s.processor.registers.setSp (sp + 4) ∧
        popped.processor.data.source = s.bus.memory.read .long sp ∧ popped.bus = s.bus ∧
        popped.processor.instruction = s.processor.instruction := by
    rw [hread]
    exact ⟨rfl, rfl, rfl, rfl⟩
  rw [execute_cons, hfired]
  dsimp only at hpopped ⊢
  generalize moved.perform TestBench.access (.stackRead .high ++ .stackRead .low) = popped
    at hpopped
  obtain ⟨hregisters, hdata, hbus, hkept⟩ := hpopped
  rw [hinstruction] at hkept
  have hcompute : popped.processor.compute =
      popped.processor.setPc (s.bus.memory.read .long sp) := by
    rw [← hdata]
    simp only [Processor.compute, Processor.source, hkept]
    rfl
  rw [execute_cons, execute_nil]
  change Settled _ _ ((popped.withProcessor popped.processor.compute).perform TestBench.access _)
  rw [hcompute]
  refine settled_goTo ?_ hbus
  rw [← hregisters]
  rfl

end Snapshot

/-! ## Calls and returns -/

namespace Processor

section

variable {tables : Tables} (hrealizes : tables.Realizes forms) (bench : TestBench) {p : Processor}
  (hboundary : p.atBoundary tables) (hinterrupt : p.pendingInterrupt? = none)
include hrealizes hboundary hinterrupt

/-- A return from a subroutine that starts at a boundary. -/
theorem settled_runInstruction_return (hopcode : Half.high.get p.prefetch = 0x4E75) :
    Snapshot.Settled (leave ⟨p.registers, bench.memory⟩).registers bench
      (p.runInstruction tables TestBench.access bench).snapshot := by
  have hdecode : decode? forms (Half.high.get p.prefetch) = returnFromSubroutine 0x4E75 := by
    rw [hopcode]
    rfl
  rw [snapshot_runInstruction TestBench.access hrealizes hboundary hinterrupt hdecode nofun rfl
    bench]
  exact Snapshot.settled_return (s := p.dispatched _ bench) rfl

variable (hqueue : p.prefetch = bench.memory.wordAt (p.registers.pc - 4) ++
    bench.memory.wordAt (p.registers.pc - 2))
include hqueue

/-- A call that starts at a boundary. -/
theorem settled_runInstruction_call {subroutine : Subroutine}
    (hcall : subroutine? (Half.high.get p.prefetch) ⟨p.registers, bench.memory⟩ = some subroutine)
    (heven : p.registers.sp.toNat % 2 = 0)
    (hapart : Memory.Apart (p.registers.sp - 4) 4 subroutine.entry 2) :
    let machine := subroutine.enter ⟨p.registers, bench.memory⟩
    Snapshot.Settled machine.registers (bench.withMemory machine.memory)
      (p.runInstruction tables TestBench.access bench).snapshot := by
  intro machine
  unfold subroutine? at hcall
  dsimp only at hcall
  split at hcall
  case isTrue hbranch =>
    cases hcall
    have hline : (Half.high.get p.prefetch).toNat / 4096 = 6 := by omega
    have hsubroutine : (Half.high.get p.prefetch).toNat / 256 % 16 = 1 := by omega
    have hsettled := settled_runInstruction_branch hrealizes bench hboundary hinterrupt hqueue hline
    simp only [Reference.branch, hsubroutine, if_true] at hsettled
    exact hsettled
  split at hcall
  case isFalse => cases hcall
  rename_i hpattern
  split at hcall
  case h_2 => cases hcall
  rename_i mode hmode
  split at hcall
  case isFalse => cases hcall
  rename_i hcontrol
  rw [snapshot_runInstruction TestBench.access hrealizes hboundary hinterrupt
    (decode?_jumpToSubroutine hpattern (jumpToSubroutine_of_isControl hmode hcontrol))
    Bool.noConfusion rfl bench]
  have hbelow : (p.registers.sp - 4).toNat % 2 = 0 := by bv_omega
  exact Snapshot.settled_call (s := p.dispatched _ bench) hqueue rfl rfl hmode hcontrol hcall hbelow
    hapart

/-- Behind a call, an interrupt is pending if it was so before. -/
theorem pendingInterrupt?_runInstruction_call {subroutine : Subroutine}
    (hcall : subroutine? (Half.high.get p.prefetch) ⟨p.registers, bench.memory⟩ = some subroutine)
    (heven : p.registers.sp.toNat % 2 = 0)
    (hapart : Memory.Apart (p.registers.sp - 4) 4 subroutine.entry 2) :
    (p.runInstruction tables TestBench.access bench).processor.pendingInterrupt? = none := by
  have hsettled :=
    settled_runInstruction_call hrealizes bench hboundary hinterrupt hqueue hcall heven hapart
  refine (pendingInterrupt?_congr ?_ ?_).trans hinterrupt
  · rw [inputs_runInstruction TestBench.access hrealizes hboundary bench, isSeven_start, hinterrupt]
    exact congrArg (Prod.mk _) (Bool.and_true _)
  · exact (congrArg Registers.mask hsettled.registers :).trans rfl

/-- Subroutine calls that start at a boundary return. -/
theorem runInstruction_of_call {subroutine : Subroutine}
    (hcall : subroutine? (Half.high.get p.prefetch) ⟨p.registers, bench.memory⟩ = some subroutine)
    (heven : p.registers.sp.toNat % 2 = 0)
    (hentry : bench.memory.wordAt subroutine.entry = 0x4E75)
    (hapart : Memory.Apart (p.registers.sp - 4) 4 subroutine.entry 2) :
    let called := p.runInstruction tables TestBench.access bench
    let returned := called.processor.runInstruction tables TestBench.access called.bus
    let sp := p.registers.sp - 4
    (called.processor.atBoundary tables ∧
        called.processor.registers = goTo subroutine.entry (p.registers.setSp sp) ∧
        called.bus.memory.read .long sp = subroutine.returnAddress ∧
        ∀ place : Address, 4 ≤ (place - sp.setWidth 24).toNat →
          called.bus.memory.byte place = bench.memory.byte place) ∧
      returned.processor.atBoundary tables ∧
      returned.processor.registers = goTo subroutine.returnAddress p.registers ∧
      returned.snapshot.Coherent ∧ returned.bus = called.bus := by
  have hatBoundary := (runInstruction_atBoundary TestBench.access hrealizes hboundary bench).1
  have hpending := pendingInterrupt?_runInstruction_call hrealizes bench hboundary hinterrupt hqueue
    hcall heven hapart
  have hbelow : (p.registers.sp - 4).toNat % 2 = 0 := by bv_omega
  obtain ⟨hregisters, hcoherent, hbus⟩ :=
    settled_runInstruction_call hrealizes bench hboundary hinterrupt hqueue hcall heven hapart
  rw [Run.registers_snapshot] at hregisters
  rw [Run.bus_snapshot] at hbus
  dsimp only
  generalize p.runInstruction tables TestBench.access bench = called at *
  have hopcode : Half.high.get called.processor.prefetch = 0x4E75 := by
    have hhere : called.processor.registers.pc - 4 = subroutine.entry := by
      rw [hregisters]
      exact here_goTo _ _
    have hqueued : called.processor.prefetch =
        called.bus.memory.wordAt (called.processor.registers.pc - 4) ++
          called.bus.memory.wordAt (called.processor.registers.pc - 2) := hcoherent
    have hmemory : called.bus.memory.wordAt subroutine.entry = 0x4E75 := by
      rw [hbus]
      exact (bench.memory.wordAt_write_long hbelow _ hapart).trans hentry
    rw [hqueued, hhere, hmemory]
    exact BitVec.extractLsb'_append_eq_left
  obtain ⟨hback, hqueued, hkept⟩ :=
    settled_runInstruction_return hrealizes called.bus hatBoundary hpending hopcode
  refine ⟨⟨hatBoundary, hregisters, ?_, fun place hplace => ?_⟩,
    (runInstruction_atBoundary TestBench.access hrealizes hatBoundary called.bus).1, ?_, hqueued,
    hkept⟩
  · rw [hbus]
    exact bench.memory.read_write_long _ _
  · rw [hbus]
    exact bench.memory.byte_write_long hbelow _ hplace
  · rw [Run.registers_snapshot] at hback
    rw [hback, hregisters, hbus]
    exact congrArg Machine.registers (leave_enter subroutine ⟨p.registers, bench.memory⟩)

end

/-- **Subroutine calls return.** From every boundary at which the prefetch queue agrees with memory, a
call goes to its target, which is worked out before the stack pointer drops, and leaves the address
behind it in the four bytes below the stack. If there is a return at the target, apart from those
bytes, it brings back all registers and goes on at that address. -/
theorem runInstruction_call (bench : TestBench) {p : Processor} {subroutine : Subroutine}
    (hboundary : p.atBoundary (.compile forms)) (hinterrupt : p.pendingInterrupt? = none)
    (hqueue : p.prefetch = bench.memory.wordAt (p.registers.pc - 4) ++
      bench.memory.wordAt (p.registers.pc - 2))
    (hcall : subroutine? (Half.high.get p.prefetch) ⟨p.registers, bench.memory⟩ = some subroutine)
    (heven : p.registers.sp.toNat % 2 = 0)
    (hentry : bench.memory.wordAt subroutine.entry = 0x4E75)
    (hapart : Memory.Apart (p.registers.sp - 4) 4 subroutine.entry 2) :
    let called := p.runInstruction (.compile forms) TestBench.access bench
    let returned := called.processor.runInstruction (.compile forms) TestBench.access called.bus
    let sp := p.registers.sp - 4
    (called.processor.atBoundary (.compile forms) ∧
        called.processor.registers = goTo subroutine.entry (p.registers.setSp sp) ∧
        called.bus.memory.read .long sp = subroutine.returnAddress ∧
        ∀ place : Address, 4 ≤ (place - sp.setWidth 24).toNat →
          called.bus.memory.byte place = bench.memory.byte place) ∧
      returned.processor.atBoundary (.compile forms) ∧
      returned.processor.registers = goTo subroutine.returnAddress p.registers ∧
      returned.snapshot.Coherent ∧ returned.bus = called.bus := by
  exact runInstruction_of_call Tables.realizes_compile bench hboundary hinterrupt hqueue hcall heven
    hentry hapart

/-- The registers of a caller at address `0x1000`, with its stack at `0x8000`. -/
def callerRegisters : Registers := { Registers.initial.setSp 0x8000 with pc := 0x1004 }

/-- A bench with `JSR 8(A7)` at address `0x1000` and `RTS` at `0x8008`. -/
def callerBench : TestBench :=
  (filledBench 0).withMemory
    (((filledBench 0).memory.storeWordAt 0x8008 0x4E75).write .long 0x1000 0x4EAF0008)

/-- `JSR 8(A7)` goes to a place that is relative to the stack pointer of the caller, and returns. -/
theorem runInstruction_call_relative :
    let tables := Tables.compile forms
    let p := facing tables 0x4EAF0008 callerRegisters
    let called := p.runInstruction tables TestBench.access callerBench
    let returned := called.processor.runInstruction tables TestBench.access called.bus
    here called.processor.registers = 0x8008 ∧ called.bus.memory.read .long 0x7FFC = 0x1004 ∧
      returned.processor.registers = goTo 0x1004 callerRegisters := by
  have hopcode : Half.high.get (facing (.compile forms) 0x4EAF0008 callerRegisters).prefetch =
      0x4EAF := by
    change Half.high.get 0x4EAF0008 = 0x4EAF
    decide
  have hprogram : callerBench.memory.wordAt 0x1000 ++ callerBench.memory.wordAt 0x1002 =
      (0x4EAF0008 : Long) :=
    Memory.read_write_long _ 0x1000 0x4EAF0008
  have hextension : nextWord callerBench.memory callerRegisters = 0x0008 :=
    BitVec.extractLsb'_append_eq_right.symm.trans
      ((congrArg Half.low.get hprogram).trans (by decide))
  have hmode : AddressMode.ofField? 0x4EAF = some .displacement := rfl
  have hsp : callerRegisters.sp - 4 = 0x7FFC := by decide
  have hcall : subroutine?
      (Half.high.get (facing (.compile forms) 0x4EAF0008 callerRegisters).prefetch)
      ⟨callerRegisters, callerBench.memory⟩ = some ⟨0x8008, 0x1004⟩ := by
    rw [hopcode, subroutine?, if_neg (by decide), if_pos (by decide), hmode]
    simp only [subroutineAt?, locate, hextension]
    rfl
  have hentry : callerBench.memory.wordAt 0x8008 = 0x4E75 := by
    refine (Memory.wordAt_write_long _ (by decide) _
      (Memory.apart_of_le (by decide) (by decide))).trans ?_
    rw [Memory.wordAt_storeWordAt, if_pos rfl]
  have hapart : Memory.Apart (callerRegisters.sp - 4) 4 0x8008 2 := by
    rw [hsp]
    exact Memory.apart_of_le (by decide) (by decide)
  have heven : callerRegisters.sp.toNat % 2 = 0 := by decide
  obtain ⟨⟨-, hcalled, hread, -⟩, -, hreturned, -⟩ := runInstruction_call
    (p := facing (.compile forms) 0x4EAF0008 callerRegisters) callerBench
    (atBoundary_atRest Tables.realizes_compile _) (pendingInterrupt?_of_level rfl)
    hprogram.symm hcall heven hentry hapart
  refine ⟨(congrArg here hcalled).trans (here_goTo _ _), ?_, hreturned⟩
  rw [← hsp]
  exact hread

end Processor

end M68k
