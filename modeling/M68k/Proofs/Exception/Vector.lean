import M68k.Proofs.Execution.Boundary
import M68k.Proofs.Word

/-!
# Vectors

A reset and every exception end with the program counter loaded from a vector, half by half, and
with the prefetch queue filled from there. Whatever the bus answers, the processor is in supervisor
mode then.

## Main definitions

* `StepRecord.LoadsCounter`: the step has read half of the program counter from an address
* `Run.EntersThrough`: the next instruction is where a vector points

## Main results

* `Run.entersThrough_enterHandler`: what the last part of each sequence does
* `Run.entersThrough_exception`, `Run.entersThrough_interrupt`, `Run.entersThrough_reset`: what the
  sequences do as a whole
-/

namespace M68k

open Encoding

/-- The step has read half of the program counter from an address. -/
structure StepRecord.LoadsCounter (record : StepRecord) (half : Half) (address : Long) : Prop where
  isRead : record.step.signals.isRead
  slot : record.step.slot = .programCounter half
  address : record.request.address = address

/-- The mark of a boundary is of no account. -/
theorem StepRecord.LoadsCounter.of_unmarked {record found : StepRecord} {half : Half}
    {address : Long} (h : record.LoadsCounter half address)
    (heq : found.unmarked = record.unmarked) : found.LoadsCounter half address := by
  have hstep : found.step = record.step := congrArg (·.step) heq
  have hrequest : found.request = record.request := congrArg (·.request) heq
  exact ⟨hstep ▸ h.isRead, hstep ▸ h.slot, hrequest ▸ h.address⟩

theorem Processor.registers_of_timeless {p q : Processor} (h : p.timeless = q.timeless) :
    p.registers = q.registers :=
  congrArg (·.registers) h

theorem Processor.effectiveAddress_of_timeless {p q : Processor} (h : p.timeless = q.timeless) :
    p.effectiveAddress = q.effectiveAddress :=
  congrArg (·.effectiveAddress) h

namespace Run

variable {β : Type} (bus : Bus β)

/-- The words that the bus has answered for the two words of a vector are the address of the next
instruction, which is two words before the program counter. -/
def EntersThrough (vector : Long) (run : Run β) : Prop :=
  ∃ high ∈ run.history, ∃ low ∈ run.history,
    high.LoadsCounter .high vector ∧ low.LoadsCounter .low (vector + 2) ∧
      run.processor.registers.pc - 4 = high.value ++ low.value

/-- Half of a vector is read into the program counter. -/
theorem exists_fetchVector (half : Half) (run : Run β) :
    ∃ record ∈ (run.perform bus (.fetchVector half)).history,
      record.LoadsCounter half run.processor.effectiveAddress.source ∧
      (run.perform bus (.fetchVector half)).processor.registers =
        { run.processor.registers with
          pc := half.set run.processor.registers.pc record.value } ∧
      (run.perform bus (.fetchVector half)).processor.effectiveAddress.source =
        run.processor.effectiveAddress.source + 2 :=
  ⟨_, List.mem_cons_self, ⟨rfl, rfl, rfl⟩, rfl, rfl⟩

/-- Steps are only added to the history. -/
theorem mem_history_perform {record : StepRecord} {run : Run β} (h : record ∈ run.history)
    (activity : Activity) : record ∈ (run.perform bus activity).history := by
  induction activity generalizing run with
  | nil => exact h
  | cons step activity ih => exact ih (List.mem_cons_of_mem _ h)

/-- A fetch moves the program counter on and leaves all other registers alone. -/
theorem registers_fetch (run : Run β) :
    (run.perform bus .fetch).processor.registers =
      { run.processor.registers with pc := run.processor.registers.pc + 2 } := rfl

theorem registers_idle (duration : HalfCycles) (run : Run β) :
    (run.perform bus (.idle duration)).processor.registers = run.processor.registers := rfl

/-- Both halves of a vector are read, and the queue is filled behind them. -/
theorem entersThrough_vector {refill : Activity} (run : Run β)
    (hrefill : ∀ run : Run β, (run.perform bus refill).processor.registers =
      { run.processor.registers with pc := run.processor.registers.pc + 4 }) :
    EntersThrough run.processor.effectiveAddress.source
        (run.perform bus (.fetchVector .high ++ .fetchVector .low ++ refill)) ∧
      ∃ pc, (run.perform bus (.fetchVector .high ++ .fetchVector .low ++ refill)).processor.registers =
        { run.processor.registers with pc := pc } := by
  rw [perform_append, perform_append]
  obtain ⟨high, hhigh, hhighLoads, hhighRegisters, haddress⟩ := exists_fetchVector bus .high run
  set loaded := run.perform bus (.fetchVector .high)
  obtain ⟨low, hlow, hlowLoads, hlowRegisters, -⟩ := exists_fetchVector bus .low loaded
  rw [haddress] at hlowLoads
  have hregisters := hrefill (loaded.perform bus (.fetchVector .low))
  rw [hlowRegisters, hhighRegisters] at hregisters
  refine ⟨⟨high, mem_history_perform bus (mem_history_perform bus hhigh _) _, low,
    mem_history_perform bus hlow _, hhighLoads, hlowLoads, ?_⟩, _, hregisters⟩
  rw [hregisters]
  simp only [Half.low_set_high_set]
  bv_omega

/-- **The last part of an exception enters through the vector** at the source address. -/
theorem entersThrough_enterHandler (run : Run β) :
    EntersThrough run.processor.effectiveAddress.source
        (run.perform bus FixedPrograms.enterHandler) ∧
      ∃ pc, (run.perform bus FixedPrograms.enterHandler).processor.registers =
        { run.processor.registers with pc := pc } := by
  have hactivity : FixedPrograms.enterHandler =
      .fetchVector .high ++ .fetchVector .low ++ (.fetch ++ .idle 4 ++ .fetch) := rfl
  rw [hactivity]
  refine entersThrough_vector bus run fun run => ?_
  rw [perform_append, perform_append, registers_fetch, registers_idle, registers_fetch]
  simp only [BitVec.add_assoc]
  rfl

/-! ## Sequences -/

@[simp] theorem timeless_idle (duration : HalfCycles) (run : Run β) :
    (run.perform bus (.idle duration)).processor.timeless = run.processor.timeless := rfl

/-- A write only takes time. -/
@[simp] theorem timeless_write (isProgram : Bool) (width : Width) (address : AddressSource)
    (slot : DataSlot) (run : Run β) :
    (run.perform bus (.transfer false isProgram width address slot .none)).processor.timeless =
      run.processor.timeless := by
  cases width <;> rfl

/-- The words of a frame only take time. -/
@[simp] theorem timeless_pushCounter (half : Half) (slot : FrameSlot) (run : Run β) :
    (run.perform bus (FixedPrograms.pushCounter half slot)).processor.timeless =
      run.processor.timeless :=
  timeless_write bus _ _ _ _ run

@[simp] theorem timeless_pushStatus (run : Run β) :
    (run.perform bus FixedPrograms.pushStatus).processor.timeless = run.processor.timeless :=
  timeless_write bus _ _ _ _ run

/-- The sequence of an exception enters through the vector. -/
theorem entersThrough_exception (run : Run β) :
    EntersThrough run.processor.effectiveAddress.source
        (run.perform bus FixedPrograms.exceptionActivity) ∧
      ∃ pc, (run.perform bus FixedPrograms.exceptionActivity).processor.registers =
        { run.processor.registers with pc := pc } := by
  rw [FixedPrograms.exceptionActivity, perform_append]
  generalize hpushed : run.perform bus (.idle 8 ++ FixedPrograms.pushCounter .low .first ++
    FixedPrograms.pushStatus ++ FixedPrograms.pushCounter .high .third) = pushed
  have htimeless : pushed.processor.timeless = run.processor.timeless := by
    simp only [← hpushed, perform_append, timeless_pushCounter, timeless_pushStatus, timeless_idle]
  rw [← Processor.registers_of_timeless htimeless,
    ← Processor.effectiveAddress_of_timeless htimeless]
  exact entersThrough_enterHandler bus pushed

end Run

/-- The step has acknowledged an interrupt, with the autovector as the offered answer. -/
structure StepRecord.Acknowledges (record : StepRecord) (level : Level) : Prop where
  acknowledges : record.step.signals.interruptAcknowledge
  isRead : record.step.signals.isRead
  value : record.request.value = 24 + level.setWidth 16

theorem StepRecord.Acknowledges.of_unmarked {record found : StepRecord} {level : Level}
    (h : record.Acknowledges level) (heq : found.unmarked = record.unmarked) :
    found.Acknowledges level := by
  have hstep : found.step = record.step := congrArg (·.step) heq
  have hrequest : found.request = record.request := congrArg (·.request) heq
  exact ⟨hstep ▸ h.acknowledges, hstep ▸ h.isRead, hrequest ▸ h.value⟩

namespace Run

variable {β : Type} (bus : Bus β)

/-- An acknowledge points the source address at the vector that the bus has answered with. -/
theorem exists_acknowledge {level : Level} (run : Run β)
    (hvector : run.processor.interruptVector = 24 + level.setWidth 16) :
    ∃ record ∈ (run.perform bus .interruptAcknowledge).history, record.Acknowledges level ∧
      (run.perform bus .interruptAcknowledge).processor.registers = run.processor.registers ∧
      (run.perform bus .interruptAcknowledge).processor.effectiveAddress.source =
        (record.value.extractLsb' 0 8).setWidth 32 <<< 2 := by
  refine ⟨_, List.mem_cons_self, ⟨rfl, rfl, hvector⟩, rfl, ?_⟩
  rw [← setWidth_append_and (run.processor.interruptVector.extractLsb' 8 8)]
  rfl

/-- The sequence of an interrupt enters through the vector that the bus supplies. -/
theorem entersThrough_interrupt {level : Level} (run : Run β)
    (hvector : run.processor.interruptVector = 24 + level.setWidth 16) :
    ∃ record ∈ (run.perform bus FixedPrograms.interruptActivity).history,
      record.Acknowledges level ∧
      EntersThrough ((record.value.extractLsb' 0 8).setWidth 32 <<< 2)
        (run.perform bus FixedPrograms.interruptActivity) ∧
      ∃ pc, (run.perform bus FixedPrograms.interruptActivity).processor.registers =
        { run.processor.registers with pc := pc } := by
  rw [FixedPrograms.interruptActivity, perform_append, perform_append, perform_append,
    perform_append, perform_append _ (_ ++ _) .interruptAcknowledge]
  generalize hpushed :
    run.perform bus (.idle 8 ++ .idle 4 ++ FixedPrograms.pushCounter .low .first) = pushed
  have htimeless : pushed.processor.timeless = run.processor.timeless := by
    simp only [← hpushed, perform_append, timeless_pushCounter, timeless_idle]
  have hoffered : pushed.processor.interruptVector = 24 + level.setWidth 16 :=
    (congrArg (·.interruptVector) htimeless).trans hvector
  obtain ⟨record, hrecord, hacknowledges, hregisters, haddress⟩ :=
    exists_acknowledge bus pushed hoffered
  generalize pushed.perform bus .interruptAcknowledge = acknowledged at *
  generalize hframed : ((acknowledged.perform bus (.idle 4)).perform bus
    FixedPrograms.pushStatus).perform bus (FixedPrograms.pushCounter .high .third) = framed
  have hunchanged : framed.processor.timeless = acknowledged.processor.timeless := by
    simp only [← hframed, timeless_pushCounter, timeless_pushStatus, timeless_idle]
  have hmem : record ∈ framed.history := by
    rw [← hframed]
    exact mem_history_perform bus (mem_history_perform bus (mem_history_perform bus hrecord _) _) _
  obtain ⟨henters, pc, hpc⟩ := entersThrough_enterHandler bus framed
  rw [Processor.effectiveAddress_of_timeless hunchanged, haddress] at henters
  rw [Processor.registers_of_timeless hunchanged, hregisters,
    Processor.registers_of_timeless htimeless] at hpc
  exact ⟨record, mem_history_perform bus hmem _, hacknowledges, henters, pc, hpc⟩

theorem source_idle (duration : HalfCycles) (run : Run β) :
    (run.perform bus (.idle duration)).processor.effectiveAddress.source =
      run.processor.effectiveAddress.source := rfl

theorem source_fetchStackPointer (half : Half) (run : Run β) :
    (run.perform bus (.fetchStackPointer half)).processor.effectiveAddress.source =
      run.processor.effectiveAddress.source + 2 := rfl

/-- The sequence of a reset enters through the vector behind that of the stack pointer. -/
theorem entersThrough_reset (run : Run β) :
    EntersThrough (run.processor.effectiveAddress.source + 4)
      (run.perform bus FixedPrograms.resetActivity) := by
  have hactivity : FixedPrograms.resetActivity = (.idle 4 ++ .idle 4 ++ .idle 4 ++ .idle 4 ++
      .idle 4 ++ .idle 8 ++ .fetchStackPointer .high ++ .fetchStackPointer .low) ++
        (.fetchVector .high ++ .fetchVector .low ++ (.fetch ++ .fetch)) := rfl
  rw [hactivity, perform_append]
  generalize hloaded : run.perform bus (.idle 4 ++ .idle 4 ++ .idle 4 ++ .idle 4 ++
    .idle 4 ++ .idle 8 ++ .fetchStackPointer .high ++ .fetchStackPointer .low) = loaded
  have haddress : loaded.processor.effectiveAddress.source =
      run.processor.effectiveAddress.source + 4 := by
    simp only [← hloaded, perform_append, source_fetchStackPointer, source_idle, BitVec.add_assoc]
    rfl
  rw [← haddress]
  refine (entersThrough_vector bus loaded fun run => ?_).1
  rw [perform_append, registers_fetch, registers_fetch]
  simp only [BitVec.add_assoc]
  rfl

/-! ## Runs -/

variable {bus}

/-- Runs that differ in places and marks have the same records but for the marks. -/
theorem exists_record_of_unplaced {run other : Run β} (h : run.unplaced = other.unplaced)
    {record : StepRecord} (hrecord : record ∈ other.history) :
    ∃ found ∈ run.history, found.unmarked = record.unmarked := by
  rw [← List.mem_map, unmarked_of_unplaced h]
  exact List.mem_map_of_mem hrecord

/-- Marks of boundaries are of no account. -/
theorem EntersThrough.of_unplaced {run other : Run β} {vector : Long}
    (h : run.unplaced = other.unplaced) (hother : EntersThrough vector other) :
    EntersThrough vector run := by
  obtain ⟨high, hhigh, low, hlow, hhighLoads, hlowLoads, hpc⟩ := hother
  obtain ⟨high', hhigh', hhighEq⟩ := exists_record_of_unplaced h hhigh
  obtain ⟨low', hlow', hlowEq⟩ := exists_record_of_unplaced h hlow
  refine ⟨high', hhigh', low', hlow', hhighLoads.of_unmarked hhighEq,
    hlowLoads.of_unmarked hlowEq, ?_⟩
  have hvalue (record found : StepRecord) (heq : found.unmarked = record.unmarked) :
      found.value = record.value := congrArg (·.value) heq
  rw [registers_of_unplaced h, hpc, hvalue _ _ hhighEq, hvalue _ _ hlowEq]

end Run

end M68k
