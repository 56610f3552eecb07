import M68k.Proofs.Exception.Frame
import M68k.Proofs.Tables.Compile

/-!
# Returns from exceptions

A return pops the frame that the supervisor stack pointer points at: the status register, which may
switch the stack back, and the place to go on. Between the entry and the return the handler may do
what it likes, as long as it comes back to its frame.

## Main results

* `Snapshot.execute_return`: what a return does to the registers
* `Processor.handling_runInstruction`: what an exception leaves in registers and memory
* `Processor.exception_transparent`: a return undoes an exception
-/

namespace M68k

open Encoding

/-- The stages of a return from an exception. -/
def Encoding.returnStages : List Stage :=
  [⟨.locateFrame, .nowhere, popFrame⟩, .perform (.fetch ++ .fetch)]

/-- The instruction that returns from an exception. -/
def Encoding.returnInstruction : Instruction :=
  { Instruction.bare .rte .word with source := .sourceLatch, requiresSupervisor := true }

namespace Registers

/-- The registers behind a return to `pc` with `status`, taken from a frame of six bytes. -/
def returned (r : Registers) (status : Status) (pc : Long) : Registers :=
  { (r.setSp (r.sp + 6)).setStatus status with pc := pc }

variable {r : Registers} (status : Status) (pc : Long)

/-- Loading a status has nothing to do with the place in the program. -/
theorem setStatus_withPc :
    ({ r with pc := pc } : Registers).setStatus status = { r.setStatus status with pc := pc } := by
  have hmode : ({ r with pc := pc } : Registers).isSupervisor = r.isSupervisor := rfl
  unfold setStatus setSupervisor
  dsimp only
  rw [hmode]
  split
  · rfl
  · cases hold : r.isSupervisor <;> simp only [writeBack, hmode, hold] <;> rfl

theorem sr_returned : (r.returned status pc).sr = status &&& Status.implemented := rfl

/-- A return drops the frame from the stack it was on, before it switches stacks. -/
theorem sameFile_returned : SameFile (r.setSp (r.sp + 6)) (r.returned status pc) :=
  (sameFile_setStatus status).trans (sameFile_of_mode _ _ rfl)

theorem usp_returned (h : r.isSupervisor) : (r.returned status pc).usp = r.usp :=
  (sameFile_returned status pc).usp.trans (usp_setSp h _)

theorem ssp_returned (h : r.isSupervisor) : (r.returned status pc).ssp = r.sp + 6 :=
  (sameFile_returned status pc).ssp.trans (ssp_setSp h _)

end Registers

namespace Snapshot

/-- A frame is popped into the program counter and the source latch. -/
theorem perform_popFrame (s : Snapshot TestBench) :
    let p := s.processor
    let memory := s.bus.memory
    s.perform TestBench.access popFrame =
      s.withProcessor
        ({ p with
          registers :=
            { p.registers with
              pc := memory.wordAt p.frame.first ++ memory.wordAt p.frame.third }
          data := p.data.set .source
            (Half.low.set p.data.source (memory.wordAt p.frame.second)) } : Processor).timeless := by
  dsimp only
  rw [popFrame, perform_append, perform_append, Activity.read, perform_readWord, perform_readWord,
    perform_readWord]
  rw [← Half.low_set_high_set s.processor.registers.pc]
  rfl

/-- **A return** loads the status and the program counter from the frame. -/
theorem execute_return {s : Snapshot TestBench} {status : Status} {returnAddress : Long}
    (hinstruction : s.processor.instruction = returnInstruction)
    (hframe : s.bus.memory.HoldsFrame s.processor.registers.sp status returnAddress) :
    let returned := s.execute TestBench.access returnStages
    returned.processor.registers =
        s.processor.registers.returned status (returnAddress + 4) ∧
      returned.Coherent ∧ returned.bus = s.bus := by
  set sp := s.processor.registers.sp with hsp
  let located : Snapshot TestBench := s.withProcessor
    { s.processor with
      frame := ⟨sp + 2, sp, sp + 4⟩
      registers := s.processor.registers.setSp (sp + 6) }
  have hperform := perform_popFrame located
  dsimp only at hperform
  generalize hpopped : located.perform TestBench.access popFrame = popped at hperform
  have hexecute : s.execute TestBench.access returnStages =
      (popped.withProcessor popped.processor.compute).perform TestBench.access
        (.fetch ++ .fetch) := by
    have hlocated : s.fire ⟨.locateFrame, .nowhere, popFrame⟩ = located := rfl
    rw [returnStages, execute_cons, execute_cons, execute_nil, hlocated, hpopped]
    rfl
  have hregisters : popped.processor.registers =
      { s.processor.registers.setSp (sp + 6) with pc := returnAddress } := by
    rw [hperform, ← Half.high_append_low returnAddress, ← hframe.high, ← hframe.low]
    rfl
  have hstatus : Half.low.get popped.processor.data.source = status := by
    rw [hperform, ← hframe.status]
    exact Half.get_set_self _ _ _
  have hkept : popped.processor.instruction = returnInstruction := by
    rw [hperform]
    exact hinstruction
  have hbus : popped.bus = s.bus := by
    rw [hperform]
    rfl
  have hcompute : popped.processor.compute = popped.processor.setStatus status := by
    rw [← hstatus]
    simp only [Processor.compute, Processor.source, hkept]
    rfl
  have hcoherent := Coherent.refill (popped.withProcessor (popped.processor.setStatus status))
  dsimp only
  rw [hexecute, hcompute]
  refine ⟨?_, hcoherent, ?_⟩
  · rw [perform_append, perform_fetch, perform_fetch]
    change { popped.processor.registers.setStatus status with
      pc := (popped.processor.registers.setStatus status).pc + 2 + 2 } = _
    rw [hregisters, Registers.setStatus_withPc, Registers.returned]
    simp only [BitVec.add_assoc]
    rfl
  · rw [perform_append, perform_fetch, perform_fetch]
    exact hbus

end Snapshot

namespace Processor

variable {tables : Tables}

/-- **What an exception leaves** in registers and memory: a frame for its return, and the registers
of a handler, which is where the vector points. -/
theorem handling_runInstruction (hrealizes : tables.Realizes forms) (bench : TestBench)
    {p : Processor} (hboundary : p.atBoundary tables) {cause : Cause}
    (hcause : p.cause? = some cause) (heven : p.registers.ssp.toNat % 2 = 0)
    (hapart : Memory.Apart (p.registers.ssp - 6) 6 (cause.vector bench) 4) :
    let final := p.runInstruction tables TestBench.access bench
    final.bus.memory.HoldsFrame (p.registers.ssp - 6) p.registers.sr
        (cause.returnAddress p.registers.pc) ∧
      p.registers.Handling (cause.mask p.registers.mask) final.processor.registers ∧
      final.processor.registers.pc - 4 = bench.memory.read .long (cause.vector bench) ∧
      final.snapshot.Coherent := by
  obtain ⟨q, hentered, hunplaced⟩ :=
    exists_entered TestBench.access hrealizes hboundary hcause bench
  obtain ⟨framed, hperform, hregisters, haddress⟩ := hentered.perform_activity bench
  have hfinal := Run.snapshot_of_unplaced hunplaced
  rw [Run.snapshot_perform, hperform] at hfinal
  obtain ⟨hentry, hcoherent, hbus⟩ := Snapshot.perform_enterHandler
    ⟨framed.timeless, bench.withMemory (bench.memory.pushFrame p.registers.ssp
      p.registers.sr (cause.returnAddress p.registers.pc))⟩
  rw [← hfinal] at hentry hcoherent hbus
  have hread := bench.memory.read_pushFrame p.registers.sr (cause.returnAddress p.registers.pc)
    heven (cause.toNat_vector_mod_two bench) hapart
  have htarget : framed.timeless.effectiveAddress.source = cause.vector bench := haddress
  have hframed : framed.timeless.registers = cause.registers p := hregisters
  dsimp only [TestBench.withMemory] at hentry
  rw [htarget, hread, hframed] at hentry
  rw [Run.registers_snapshot] at hentry
  rw [Run.bus_snapshot] at hbus
  have htargeted (pc : Long) : pc + 4 - 4 = pc := by bv_omega
  dsimp only
  rw [hentry, hbus, htargeted]
  exact ⟨bench.memory.holdsFrame_pushFrame _ _, (Cause.handling_registers p cause).withPc _, rfl,
    hcoherent⟩

/-- A return from an exception pops its frame. -/
theorem runInstruction_return (hrealizes : tables.Realizes forms) (bench : TestBench)
    {p : Processor} (hboundary : p.atBoundary tables) (hinterrupt : p.pendingInterrupt? = none)
    (hopcode : Half.high.get p.prefetch = 0x4E73) (hsupervisor : p.registers.isSupervisor)
    {status : Status} {returnAddress : Long}
    (hframe : bench.memory.HoldsFrame p.registers.sp status returnAddress) :
    let final := p.runInstruction tables TestBench.access bench
    final.processor.registers = p.registers.returned status (returnAddress + 4) ∧
      final.snapshot.Coherent := by
  have hdecode : decode? forms (Half.high.get p.prefetch) =
      some ⟨returnInstruction, returnStages⟩ := by
    rw [hopcode]
    rfl
  have hfinal := snapshot_runInstruction TestBench.access hrealizes hboundary hinterrupt hdecode
    (fun _ => hsupervisor) rfl bench
  obtain ⟨hregisters, hcoherent, -⟩ :=
    Snapshot.execute_return (s := p.dispatched returnInstruction bench) rfl hframe
  rw [← hfinal] at hregisters hcoherent
  exact ⟨hregisters, hcoherent⟩

/-- **Exceptions are transparent.** Whatever the cause, the frame and the registers of the handler
are those of the architecture, and a later return through that frame brings back the status
register, both stack pointers and the place in the program. -/
theorem exception_transparent (bench : TestBench) {p : Processor} {cause : Cause}
    (hboundary : p.atBoundary (.compile forms)) (hcause : p.cause? = some cause)
    (heven : p.registers.ssp.toNat % 2 = 0)
    (hapart : Memory.Apart (p.registers.ssp - 6) 6 (cause.vector bench) 4) :
    let frame := p.registers.ssp - 6
    let returnAddress := cause.returnAddress p.registers.pc
    let entered := p.runInstruction (.compile forms) TestBench.access bench
    (entered.processor.atBoundary (.compile forms) ∧
      entered.bus.memory.HoldsFrame frame p.registers.sr returnAddress ∧
      p.registers.Handling (cause.mask p.registers.mask) entered.processor.registers ∧
      entered.processor.registers.pc - 4 = bench.memory.read .long (cause.vector bench) ∧
      entered.snapshot.Coherent) ∧
    ∀ (q : Processor) (later : TestBench), q.atBoundary (.compile forms) →
      q.pendingInterrupt? = none → Half.high.get q.prefetch = 0x4E73 →
      q.registers.isSupervisor → q.registers.sp = frame →
      q.registers.usp = p.registers.usp →
      later.memory.HoldsFrame frame p.registers.sr returnAddress →
      let returned := q.runInstruction (.compile forms) TestBench.access later
      returned.processor.atBoundary (.compile forms) ∧
        returned.processor.registers.sr = p.registers.sr &&& Status.implemented ∧
        returned.processor.registers.usp = p.registers.usp ∧
        returned.processor.registers.ssp = p.registers.ssp ∧
        returned.processor.registers.pc - 4 = returnAddress ∧ returned.snapshot.Coherent := by
  have hrealizes := Tables.realizes_compile
  refine ⟨⟨(runInstruction_atBoundary TestBench.access hrealizes hboundary bench).1,
    handling_runInstruction hrealizes bench hboundary hcause heven hapart⟩, ?_⟩
  intro q later hq hinterrupt hopcode hsupervisor hsp husp hframe
  obtain ⟨hregisters, hcoherent⟩ := runInstruction_return hrealizes later hq hinterrupt hopcode
    hsupervisor (hsp ▸ hframe)
  refine ⟨(runInstruction_atBoundary TestBench.access hrealizes hq later).1, ?_, ?_, ?_, ?_,
    hcoherent⟩ <;> rw [hregisters]
  · exact Registers.sr_returned _ _
  · exact (Registers.usp_returned _ _ hsupervisor).trans husp
  · rw [Registers.ssp_returned _ _ hsupervisor, hsp]
    bv_omega
  · change cause.returnAddress p.registers.pc + 4 - 4 = _
    bv_omega

/-- A processor in front of an illegal opcode, with the supervisor stack at the top of memory. -/
def illegalCase (tables : Tables) : Processor := facing tables 0x4AFC0000 .initial

/-- A bench with the same byte everywhere. -/
def illegalBench : TestBench := ⟨.blank (.constant 0x22), 0, 0, none, 0⟩

/-- Its handler is about to return. -/
def returningCase (tables : Tables) : Processor :=
  facing tables 0x4E730000 (Registers.initial.setSp (0 - 6))

theorem cause?_illegalCase (tables : Tables) : (illegalCase tables).cause? = some (.refused 4) := by
  have hopcode : Half.high.get (illegalCase tables).prefetch = 0x4AFC := by
    change Half.high.get 0x4AFC0000 = 0x4AFC
    decide
  have hdecode : decode? forms 0x4AFC = none := rfl
  have hinterrupt : (illegalCase tables).pendingInterrupt? = none :=
    pendingInterrupt?_of_level rfl
  simp only [cause?, hinterrupt, hopcode, hdecode]
  rfl

/-- An illegal opcode is reported in the topmost bytes of memory, and the handler comes back to
it. -/
theorem exception_transparent_illegal :
    let tables := Tables.compile forms
    let bench := illegalBench
    let entered := (illegalCase tables).runInstruction tables TestBench.access bench
    let returned := (returningCase tables).runInstruction tables TestBench.access entered.bus
    entered.bus.memory.HoldsFrame (0 - 6) 0x2700 (0 - 4) ∧
      returned.processor.registers.sr = 0x2700 ∧ returned.processor.registers.pc = 0 := by
  have hrealizes := Tables.realizes_compile
  have hframeAt : (illegalCase (.compile forms)).registers.ssp - 6 = 0 - 6 := rfl
  have hstatus : (illegalCase (.compile forms)).registers.sr = 0x2700 := rfl
  have hback : (Cause.refused 4).returnAddress (illegalCase (.compile forms)).registers.pc =
      0 - 4 := rfl
  have hapart : Memory.Apart ((illegalCase (.compile forms)).registers.ssp - 6) 6
      ((Cause.refused 4).vector illegalBench) 4 := by
    intro place other hplace hother h
    have hvector : (Cause.refused 4).vector illegalBench = 16 := rfl
    rw [hframeAt] at hplace
    rw [hvector] at hother
    rw [← BitVec.toNat_inj] at h
    simp only [BitVec.toNat_setWidth] at h
    bv_omega
  obtain ⟨⟨-, hframe, -, -, -⟩, hreturn⟩ := exception_transparent illegalBench
    (p := illegalCase (.compile forms)) (atBoundary_atRest hrealizes _) (cause?_illegalCase _)
    (by rfl) hapart
  obtain ⟨-, hsr, -, -, hpc, -⟩ := hreturn (returningCase (.compile forms)) _
    (atBoundary_atRest hrealizes _) (pendingInterrupt?_of_level rfl) (by rfl) (by rfl) (by rfl)
    (by rfl) hframe
  rw [hframeAt, hstatus, hback] at hframe
  rw [hstatus] at hsr
  rw [hback] at hpc
  have hstart (pc : Long) (h : pc - 4 = 0 - 4) : pc = 0 := by bv_omega
  exact ⟨hframe, hsr, hstart _ hpc⟩

end Processor

end M68k
