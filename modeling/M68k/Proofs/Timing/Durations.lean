import M68k.Proofs.Latches.Flexible
import M68k.Proofs.Timing.Choices
import M68k.Proofs.Timing.Lengths

/-!
# Durations

At an instruction boundary no length is left over for a flexible step, so that an instruction takes
its own time, whatever ran before it: another instruction, a trap, an interrupt, or one that a reset
has cut short. On a bus without waits this is a whole number of cycle pairs, and where it depends on
data it is what the programmer is told.

## Main definitions

* `Durations`: the instructions whose time depends on data take the time they should

## Main results

* `Processor.durations_runInstruction`: so they do if no length is left over
* `Run.Reachable.durations`: so they do at every boundary of a session
-/

namespace M68k

open Encoding Reference

/-- A run of the instruction with this opcode, followed by the word `next`, has taken the time it
should if that depends on data. -/
structure Durations {β : Type} (opcode next : Word) (r : Registers) (final : Run β) : Prop where
  shift (kind : ShiftKind) (size : Size) (hpattern : opcode &&& 0xF118 = kind.pattern)
    (hsize : sizeField? opcode = some size) :
    final.spent = shiftTime size (shiftCount opcode r)
  multiply (signed : Bool) (mode : AddressMode)
    (hpattern : opcode &&& 0xF1C0 = multiplyPattern signed)
    (hmode : AddressMode.ofField? opcode = some mode) (hallowed : mode ≠ .addressRegister) :
    ∃ source, MultipliesBy opcode next r final source mode ∧
      final.spent = multiplyTime signed mode source
  changeBit (static : Bool) (kind : BitKind) (hkind : kind ≠ .test)
    (hpattern : opcode &&& BitKind.mask static = kind.pattern static) :
    final.spent = bitTime static kind (bitNumber static opcode next r)
  set (hpattern : opcode &&& 0xF0F8 = 0x50C0) : final.spent = setTime (conditionHolds opcode r)
  branch (hline : opcode.toNat / 4096 = 6) (hcondition : opcode.toNat / 256 % 16 ≠ 1) :
    final.spent = branchTime opcode r
  loop (hpattern : opcode &&& 0xF0F8 = 0x50C8) : final.spent = loopTime opcode r
  moveList (direction : ListDirection) (mode : AddressMode)
    (hpattern : opcode &&& 0xFF80 = direction.pattern)
    (hmode : AddressMode.ofField? opcode = some mode) (hmoves : movesRegisters direction mode) :
    final.spent = listTime direction mode (listLength opcode next)

/-- **The instructions take the time they should** if no length is left over. -/
theorem Processor.durations_runInstruction {β : Type} {bus : Bus β} {tables : Tables}
    (hbus : bus.Waitless) (hrealizes : tables.Realizes forms) {p : Processor}
    (hboundary : p.atBoundary tables) (hlength : p.flexibleLength = 0)
    (hinterrupt : p.pendingInterrupt? = none) (b : β) :
    Durations (Half.high.get p.prefetch) (Half.low.get p.prefetch) p.registers
      (p.runInstruction tables bus b) where
  shift _ _ hpattern hsize := spent_shift hbus hrealizes hboundary hinterrupt hpattern hsize b
  multiply _ _ hpattern hmode hallowed :=
    spent_multiply hbus hrealizes hboundary hinterrupt hpattern hmode hallowed b
  changeBit _ _ hkind hpattern :=
    spent_changeBit hbus hrealizes hboundary hinterrupt hkind hpattern b
  set hpattern := spent_set hbus hrealizes hboundary hinterrupt hlength hpattern b
  branch hline hcondition := spent_branch hbus hrealizes hboundary hinterrupt hline hcondition b
  loop hpattern := spent_loop hbus hrealizes hboundary hinterrupt hpattern b
  moveList _ _ hpattern hmode hmoves :=
    spent_moveList hbus hrealizes hboundary hinterrupt hpattern hmode hmoves b

namespace Run

variable {β : Type} {bus : Bus β} {edit : Edit}

/-- **No length is left over at a boundary of a session**, whatever has come before. From there on a
bus without waits, whatever starts takes a whole number of cycle pairs, and an instruction takes the
time it should. -/
theorem Reachable.durations {run : Run β} (h : run.Reachable (.compile forms) bus edit)
    (hboundary : run.processor.atBoundary (.compile forms)) :
    run.processor.flexibleLength = 0 ∧
      ∀ {γ : Type} {other : Bus γ}, other.Waitless → ∀ c : γ,
        let p := run.processor
        let final := p.runInstruction (.compile forms) other c
        4 ∣ final.spent ∧
          (p.pendingInterrupt? = none →
            Durations (Half.high.get p.prefetch) (Half.low.get p.prefetch) p.registers final) := by
  have hlength := h.flexibleLength_eq_zero Tables.realizes_compile hboundary
  exact ⟨hlength, fun hbus c =>
    ⟨Processor.four_dvd_spent hbus Tables.realizes_compile hboundary hlength c, fun hinterrupt =>
      Processor.durations_runInstruction hbus Tables.realizes_compile hboundary hlength hinterrupt
        c⟩⟩

/-- A new processor after its reset sequence, on a bus that answers with the opcode of a shift of a
long word by eight bits all the time. -/
def resetShift (tables : Tables) : Run Unit :=
  ((Processor.initial tables).runInstruction tables (Bus.constant 0xE188) ()).after
    (begin (.initial tables) ())

theorem reachable_resetShift (tables : Tables) :
    (resetShift tables).Reachable tables (Bus.constant 0xE188) edit :=
  reachable_booted ()

theorem processor_resetShift {tables : Tables} (hrealizes : tables.Realizes forms) :
    (resetShift tables).processor.atBoundary tables ∧
      (resetShift tables).processor.prefetch = 0xE188E188 ∧
      (resetShift tables).processor.interruptLevel = 0 := by
  obtain ⟨hboundary, hreset⟩ :=
    Processor.runInstruction_initial (Bus.constant 0xE188) hrealizes ()
  have hprocessor := processor_of_unplaced hreset
  exact ⟨hboundary, (congrArg (·.prefetch) hprocessor).trans (by cbv),
    (congrArg (·.interruptLevel) hprocessor).trans (by cbv)⟩

/-- The shift takes 24 cycles. -/
theorem durations_resetShift :
    let p := (resetShift (.compile forms)).processor
    p.atBoundary (.compile forms) ∧ p.flexibleLength = 0 ∧
      (p.runInstruction (.compile forms) (Bus.constant 0xE188) ()).spent = 48 := by
  intro p
  obtain ⟨hboundary, hprefetch, hlevel⟩ := processor_resetShift Tables.realizes_compile
  have hreached : (resetShift (.compile forms)).Reachable (.compile forms) (Bus.constant 0xE188)
      fun _ _ => False :=
    reachable_resetShift (.compile forms)
  have hbus : (Bus.constant 0xE188).Waitless := fun _ _ => rfl
  obtain ⟨hlength, htimes⟩ := Reachable.durations hreached hboundary
  obtain ⟨-, hdurations⟩ := htimes hbus ()
  have hshift := (hdurations (Processor.pendingInterrupt?_of_level hlevel)).shift .lsl .long
  rw [hprefetch] at hshift
  exact ⟨hboundary, hlength, hshift rfl rfl⟩

end Run

end M68k
