import M68k.Proofs.Prefetch.Queue
import M68k.Proofs.Tables.Compile

/-!
# The instruction stream

The words that the processor decodes follow each other in memory as the encoding of instructions
says: at a boundary the queue holds the opcode and the word behind it, and an instruction that is no
control transfer leaves it just behind its last extension word.

## Main definitions

* `Run.Prefetched`: the queue holds the two words before the program counter

## Main results

* `Run.Reachable.prefetched`: so it does at every boundary of a session
* `Run.instruction_stream`: sequential instructions are decoded one behind the other
-/

namespace M68k

open Encoding

namespace Run

variable {β : Type} {tables : Tables} {bus : Bus β}

/-- The prefetch queue holds the two words that were fetched last, the earlier one first, and they
come from the two word addresses before the program counter. -/
def Prefetched (run : Run β) : Prop :=
  ∃ last before rest, run.fetched = last :: before :: rest ∧
    run.processor.prefetch = before.value ++ last.value ∧
    before.address = run.processor.registers.pc - 4 ∧
    last.address = run.processor.registers.pc - 2

/-- At every boundary of a session the queue holds the two words before the program counter. -/
theorem Reachable.prefetched (hrealizes : tables.Realizes forms) {run : Run β}
    (h : run.Reachable tables bus keepsCounter) (hboundary : run.processor.atBoundary tables) :
    run.Prefetched :=
  (h.refilling hrealizes).full hboundary

variable (tables) in
/-- The opcode that is decoded at a boundary has been fetched from the address of the
instruction. -/
theorem Prefetched.exists_opcode {run : Run β} (h : run.Prefetched) :
    ∃ word ∈ run.fetched, word.value = (run.processor.start tables).opcode ∧
      word.address = (run.processor.start tables).address := by
  obtain ⟨last, before, rest, hfetched, hprefetch, haddress, -⟩ := h
  refine ⟨before, by simp [hfetched], ?_, haddress⟩
  simp only [Processor.start, hprefetch]
  exact BitVec.extractLsb'_append_eq_left.symm

/-- An instruction that is no control transfer moves the program counter on by two for its opcode
and for each of its extension words. In a session the opcode that is decoded next has been fetched
from just behind them. -/
theorem sequential_runInstruction (bus : Bus β) (hrealizes : tables.Realizes forms) (run : Run β)
    (recipe : Recipe) (hboundary : run.processor.atBoundary tables)
    (hinterrupt : run.processor.pendingInterrupt? = none)
    (hdecode : decode? forms (Half.high.get run.processor.prefetch) = some recipe)
    (hprivilege : recipe.instruction.requiresSupervisor → run.processor.registers.isSupervisor)
    (hsequential : recipe.instruction.operation.isSequential) :
    let next := (run.processor.runInstruction tables bus run.bus).after run
    let length :=
      BitVec.ofNat 32 (2 * (1 + extensionWords (Half.high.get run.processor.prefetch)))
    next.processor.atBoundary tables ∧
      next.processor.registers.pc = run.processor.registers.pc + length ∧
      (run.Reachable tables bus keepsCounter →
        ∃ word ∈ next.fetched,
          word.value = (next.processor.start tables).opcode ∧
          word.address = (run.processor.start tables).address + length) := by
  obtain ⟨entry, hentry, hinstruction, -⟩ :=
    Processor.start_of_decode? hrealizes hinterrupt hdecode hprivilege
  have hfinal := (Processor.runInstruction_atBoundary bus hrealizes hboundary run.bus).1
  have hpc := Processor.pc_runInstruction bus hrealizes hboundary hentry
    (by rwa [hinstruction]) run.bus
  refine ⟨hfinal, hpc, fun h => ?_⟩
  have hnext : Prefetched ((run.processor.runInstruction tables bus run.bus).after run) :=
    h.runInstruction.prefetched hrealizes hfinal
  obtain ⟨word, hmem, hvalue, haddress⟩ := hnext.exists_opcode tables
  refine ⟨word, hmem, hvalue, haddress.trans ?_⟩
  simp only [Processor.start, after, hpc]
  bv_omega

/-- **The instruction stream.** At every boundary of a session the prefetch queue holds the two
words before the program counter, and instructions that are no control transfers are decoded one
behind the other. -/
theorem instruction_stream (bus : Bus β) :
    (∀ run : Run β, run.Reachable (.compile forms) bus keepsCounter →
      run.processor.atBoundary (.compile forms) → run.Prefetched) ∧
    ∀ (run : Run β) (recipe : Recipe), run.processor.atBoundary (.compile forms) →
      run.processor.pendingInterrupt? = none →
      decode? forms (Half.high.get run.processor.prefetch) = some recipe →
      (recipe.instruction.requiresSupervisor → run.processor.registers.isSupervisor) →
      recipe.instruction.operation.isSequential →
      let next := (run.processor.runInstruction (.compile forms) bus run.bus).after run
      let length :=
        BitVec.ofNat 32 (2 * (1 + extensionWords (Half.high.get run.processor.prefetch)))
      next.processor.atBoundary (.compile forms) ∧
        next.processor.registers.pc = run.processor.registers.pc + length ∧
        (run.Reachable (.compile forms) bus keepsCounter →
          ∃ word ∈ next.fetched,
            word.value = (next.processor.start (.compile forms)).opcode ∧
            word.address = (run.processor.start (.compile forms)).address + length) :=
  ⟨fun _ h => h.prefetched Tables.realizes_compile,
    sequential_runInstruction bus Tables.realizes_compile⟩

/-- After a reset on such a bus, the first instruction is two bytes long. -/
theorem instruction_stream_nop :
    let run := resetNop (.compile forms)
    let next := (run.processor.runInstruction (.compile forms) (Bus.constant 0x4E71) run.bus).after
      run
    run.Prefetched ∧ next.processor.registers.pc = run.processor.registers.pc + 2 := by
  obtain ⟨hboundary, hprefetch, hlevel⟩ := processor_resetNop Tables.realizes_compile
  obtain ⟨hprefetched, hsequential⟩ := instruction_stream (Bus.constant 0x4E71)
  have hopcode : Half.high.get (resetNop (.compile forms)).processor.prefetch = 0x4E71 := by
    rw [hprefetch]
    rfl
  have hlength : BitVec.ofNat 32 (2 * (1 +
      extensionWords (Half.high.get (resetNop (.compile forms)).processor.prefetch))) = 2 := by
    rw [hopcode]
    rfl
  have hnext := hsequential _ ⟨.bare .nop .word, [.perform .fetch]⟩ hboundary
    (Processor.pendingInterrupt?_of_level hlevel)
    (by rw [hopcode]; rfl) (by simp [Instruction.bare]) rfl
  rw [hlength] at hnext
  exact ⟨hprefetched _ (reachable_resetNop _) hboundary, hnext.2.1⟩

end Run

end M68k
