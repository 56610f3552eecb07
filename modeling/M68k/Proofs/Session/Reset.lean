import M68k.Proofs.Execution.Reset
import M68k.Proofs.Session.Lockstep
import M68k.Proofs.Session.Termination
import M68k.Proofs.Tables.Compile

/-!
# Recovery by reset

A reset leaves most of a processor as it is: its latches, its place in the chain of the instruction
that is abandoned, and where its register list has come to. The mode switch may even bank a stack
pointer. None of this matters. Wherever the processor has been, the next instruction run performs the
reset sequence and nothing else, and what a programmer sees from there on is settled by the registers
that survive a reset, by the interrupt level and by the bus.

## Main definitions

* `Registers.Survive`: the registers that survive a reset
* `Run.Restarted`: what the run of the reset sequence leads to

## Main results

* `Processor.exists_restarted`: the reset sequence, on any bus
* `Run.Restarted.inStep`: which point has been abandoned does not matter
* `Processor.reset_recovers`: reset recovers from any point
-/

namespace M68k

open FixedPrograms

variable {β : Type} {tables : Tables} {bus : Bus β}

/-! ## What the sequence leads to -/

/-- The registers that survive a reset. -/
structure Registers.Survive (old new : Registers) : Prop where
  data : ∀ n, new.data n = old.data n
  address : ∀ n, n ≠ stackPointer → new.address n = old.address n
  usp : new.usp = old.usp

namespace Registers

variable {r old mid new : Registers}

theorem Survive.trans (h : Survive old mid) (h' : Survive mid new) : Survive old new where
  data n := (h'.data n).trans (h.data n)
  address n hn := (h'.address n hn).trans (h.address n hn)
  usp := h'.usp.trans h.usp

/-- The supervisor stack pointer and the program counter do not count. -/
theorem survive_setSp (h : r.isSupervisor) (sp pc : Long) :
    Survive r { r.setSp sp with pc := pc } where
  data _ := rfl
  address _ hn := r.address_setAddress_of_ne hn sp
  usp := usp_setSp h sp

end Registers

namespace Run

variable (tables bus) in
/-- The run of the reset sequence of a processor, from some state of the bus, with the answers to
it. -/
structure Restarted (p : Processor) (b : β) (r : ResetReplies) (final : Run β) : Prop where
  boundary : final.processor.atBoundary tables
  /-- No instruction, exception or interrupt has started. -/
  starts : final.starts = []
  answers : bus.answers b (final.history.reverse.map (·.request)) = r.replies
  observed : final.observed.reverse = waited (resetPattern r.entry.value) r.replies
  spent : final.spent = 76 + (r.replies.map (·.wait)).sum
  survive : p.registers.Survive final.processor.registers
  sr : final.processor.registers.sr = 0x2700
  sp : final.processor.registers.sp = r.stack.value
  ssp : final.processor.registers.ssp = r.stack.value
  pc : final.processor.registers.pc = r.entry.value + 4
  prefetch : final.processor.prefetch = r.queue.value
  /-- The interrupt level is the one that the host drives. No rise is remembered. -/
  inputs : final.processor.inputs = (p.interruptLevel, false)
  flexibleLength : final.processor.flexibleLength = 0
  debt : final.processor.debt = 0
  phase : final.processor.phase = .reset
  bus : final.bus = bus.follow b (final.history.reverse.map (·.request))

end Run

namespace Processor

variable (tables) in
/-- The registers in front of the reset sequence. -/
theorem registers_reset (p : Processor) :
    p.registers.Survive (p.reset tables).registers ∧ (p.reset tables).registers.sr = 0x2700 ∧
      (p.reset tables).registers.isSupervisor := by
  have hsame : p.registers.SameFile (p.reset tables).registers := Registers.sameFile_setStatus _
  have hsr : (p.reset tables).registers.sr = 0x2700 := by
    change (Status.supervisor ||| Status.interruptMask) &&& Status.implemented = 0x2700
    decide
  refine ⟨⟨hsame.data, hsame.address, hsame.usp⟩, hsr, ?_⟩
  rw [Registers.isSupervisor, hsr]
  decide

/-- **The reset sequence**, on any bus and wherever the processor has been. -/
theorem exists_restarted (hrealizes : tables.Realizes forms) (bus : Bus β) (p : Processor) (b : β) :
    ∃ r, Run.Restarted tables bus p b r ((p.reset tables).runInstruction tables bus b) := by
  obtain ⟨hboundary, hunplaced⟩ := runInstruction_reset bus hrealizes p b
  have hstarts := (ready_reset hrealizes p).starts_runInstruction bus hrealizes b
  generalize (p.reset tables).runInstruction tables bus b = final at hboundary hunplaced hstarts ⊢
  set q : Processor := { p.reset tables with debt := 0 }
  obtain ⟨replies, hlength, hexchanged⟩ := Run.exists_exchanged bus resetActivity (Run.begin q b)
  obtain ⟨r, rfl⟩ := ResetReplies.exists_of_length hlength
  have hexchanged := hexchanged.of_unplaced hunplaced
  have hobserved := q.observed_reset r rfl
  have htimeless : final.processor.timeless = _ := hexchanged.timeless.trans (q.timeless_hear_reset r)
  have hregisters : final.processor.registers =
      { (p.reset tables).registers.setSp r.stack.value with pc := r.entry.value + 2 + 2 } :=
    congrArg (·.registers) htimeless
  obtain ⟨hsurvive, hsr, hmode⟩ := p.registers_reset tables
  obtain ⟨hsteps, htime⟩ := resetPattern_eq r.entry.value
  exact ⟨r,
    { boundary := hboundary
      starts := by
        rw [hstarts, atBoundary, programEnded_reset hrealizes]
        rfl
      answers := by
        rw [hexchanged.requests]
        exact hexchanged.answers.trans (List.map_snd_zip (le_of_eq hlength))
      observed := by
        rw [hexchanged.observed, ← hobserved, List.reverse_append, List.reverse_reverse]
        rfl
      spent := by
        have hdurations := congrArg (fun seen => (seen.map Observed.duration).sum) hobserved
        simp only [List.map_map] at hdurations
        rw [sum_waited _ _ (hsteps.trans hlength.symm), htime] at hdurations
        rw [hexchanged.spent]
        exact (Nat.zero_add _).trans hdurations
      survive := by
        rw [hregisters]
        exact hsurvive.trans (Registers.survive_setSp hmode _ _)
      sr := by
        rw [hregisters]
        exact hsr
      sp := by
        rw [hregisters]
        exact Registers.address_setAddress_self _ _ _
      ssp := by
        rw [hregisters]
        exact Registers.ssp_setSp hmode _
      pc := by
        rw [hregisters]
        exact BitVec.add_assoc _ 2 2
      prefetch := congrArg (·.prefetch) htimeless
      inputs := congrArg (·.inputs) htimeless
      flexibleLength := congrArg (·.flexibleLength) htimeless
      debt := congrArg (·.debt) htimeless
      phase := congrArg (·.phase) htimeless
      bus := by
        rw [hexchanged.requests]
        exact hexchanged.bus }⟩

end Processor

/-! ## Where the processor has been -/

/-- Registers are known by what they hold. -/
theorem Registers.files_eq {old new : Registers} (hdata : ∀ n, new.data n = old.data n)
    (haddress : ∀ n, n ≠ stackPointer → new.address n = old.address n) (hsp : new.sp = old.sp) :
    new.d = old.d ∧ new.a = old.a := by
  refine ⟨Vector.ext fun i hi => hdata ⟨i, hi⟩, Vector.ext fun i hi => ?_⟩
  by_cases hlive : (⟨i, hi⟩ : RegisterIndex) = stackPointer
  · have hi' : new.address ⟨i, hi⟩ = old.address ⟨i, hi⟩ := by
      rw [hlive]
      exact hsp
    exact hi'
  · exact haddress ⟨i, hi⟩ hlive

namespace Run.Restarted

variable {p q : Processor} {b c : β} {r s : ResetReplies} {run other : Run β}

/-- What the machine has seen is the reset pattern. -/
theorem seen (h : run.Restarted tables bus p b r) :
    (run.history.reverse.map (·.request)).map Request.seen =
      (resetPattern r.entry.value).map (·.1) := by
  have hsteps := (resetPattern_eq r.entry.value).1.trans r.length_replies.symm
  have hseen := congrArg (List.map Observed.request) h.observed
  rw [request_waited hsteps, Run.observed, List.map_reverse, List.map_map] at hseen
  rw [List.map_map, List.map_reverse]
  exact hseen

/-- **A machine that cannot tell the buses apart answers the same.** Up to the read of the program
counter the pattern is fixed, and from there on it is settled by the answer. -/
theorem replies_eq (hrun : run.Restarted tables bus p b r)
    (hother : other.Restarted tables bus q c s) (hbus : bus.Alike b c) : r = s := by
  have hfixed : ((run.history.reverse.map (·.request)).take 14).map Request.seen =
      ((other.history.reverse.map (·.request)).take 14).map Request.seen := by
    rw [List.map_take, List.map_take, hrun.seen, hother.seen, ← List.map_take, ← List.map_take,
      take_resetPattern, take_resetPattern]
  have hfirst := hbus _ _ hfixed
  rw [← Bus.take_answers, ← Bus.take_answers, hrun.answers, hother.answers] at hfirst
  have hseen : (run.history.reverse.map (·.request)).map Request.seen =
      (other.history.reverse.map (·.request)).map Request.seen := by
    rw [hrun.seen, hother.seen, ResetReplies.entry_of_take hfirst]
  have hall := hbus _ _ hseen
  rw [hrun.answers, hother.answers] at hall
  exact ResetReplies.replies_injective hall

/-- **It does not matter where the processor has been**, given the registers that survive a reset,
and the interrupt level. -/
theorem inStep (hrun : run.Restarted tables bus p b r) (hother : other.Restarted tables bus q c s)
    (hsurvive : p.registers.Survive q.registers) (hlevel : q.interruptLevel = p.interruptLevel)
    (hbus : bus.Alike b c) : run.InStep tables bus other := by
  obtain rfl := hrun.replies_eq hother hbus
  obtain ⟨hd, ha⟩ : run.processor.registers.d = other.processor.registers.d ∧
      run.processor.registers.a = other.processor.registers.a := Registers.files_eq
    (fun n => (hrun.survive.data n).trans
      ((hsurvive.data n).symm.trans (hother.survive.data n).symm))
    (fun n hn => (hrun.survive.address n hn).trans
      ((hsurvive.address n hn).symm.trans (hother.survive.address n hn).symm))
    (hrun.sp.trans hother.sp.symm)
  have husp : run.processor.registers.usp = other.processor.registers.usp :=
    hrun.survive.usp.trans (hsurvive.usp.symm.trans hother.survive.usp.symm)
  have hinputs : run.processor.inputs = other.processor.inputs := by
    rw [hrun.inputs, hother.inputs, hlevel]
  obtain ⟨hinterrupt, hrose⟩ := Prod.mk.inj hinputs
  have hagree : run.processor.Agree .nothing other.processor := by
    refine Processor.agree_nothing_iff.2
      ⟨?_, hrun.flexibleLength.trans hother.flexibleLength.symm⟩
    simp only [Processor.visible, hd, ha, husp, hinterrupt, hrose, hrun.pc, hother.pc, hrun.sr,
      hother.sr, hrun.ssp, hother.ssp, hrun.prefetch, hother.prefetch]
  have hended := Processor.activity_eq_nil tables
    (Processor.programEnded_of_atBoundary tables hrun.boundary)
  have hended' := Processor.activity_eq_nil tables
    (Processor.programEnded_of_atBoundary tables hother.boundary)
  have hseen : (run.history.reverse.map (·.request)).map Request.seen =
      (other.history.reverse.map (·.request)).map Request.seen := by
    rw [hrun.seen, hother.seen]
  exact
    { processor := Processor.inStep_of_phase_ne (by rw [hrun.phase]; exact Phase.noConfusion)
        (hrun.phase.trans hother.phase.symm) (hended.trans hended'.symm) (by rwa [hended])
      debt := hrun.debt.trans hother.debt.symm
      bus := by
        rw [hrun.bus, hother.bus]
        exact hbus.follow hseen
      spent := hrun.spent.trans hother.spent.symm
      observed := List.reverse_injective (hrun.observed.trans hother.observed.symm) }

end Run.Restarted

namespace Run

/-- **Sessions behind a reset are in step** on buses that cannot be told apart, wherever the
processors have been, if the registers that survive and the interrupt level are the same. -/
theorem inStep_of_reset (hrealizes : tables.Realizes forms) {p q : Processor} {b c : β}
    (hsurvive : p.registers.Survive q.registers) (hlevel : q.interruptLevel = p.interruptLevel)
    (hbus : bus.Alike b c) {calls : List HostCall} (hdiscreet : ∀ call ∈ calls, call.Discreet) :
    ((.reset :: .runInstruction :: calls).foldl (drive tables bus) (.begin p b)).InStep tables bus
      ((.reset :: .runInstruction :: calls).foldl (drive tables bus) (.begin q c)) := by
  obtain ⟨r, hrun⟩ := Processor.exists_restarted hrealizes bus p b
  obtain ⟨s, hother⟩ := Processor.exists_restarted hrealizes bus q c
  have hstarted : (((begin p b).drive tables bus .reset).drive tables bus .runInstruction).InStep
      tables bus (((begin q c).drive tables bus .reset).drive tables bus .runInstruction) :=
    (hrun.inStep hother hsurvive hlevel hbus).after rfl rfl
  simpa only [List.foldl_cons] using hstarted.drives hrealizes hdiscreet

end Run

namespace Processor

theorem recovers_of_reset (hrealizes : tables.Realizes forms) (bus : Bus β) (p : Processor)
    (b : β) :
    (∃ r, Run.Restarted tables bus p b r ((p.reset tables).runInstruction tables bus b)) ∧
      ∀ q : Processor, p.registers.Survive q.registers → q.interruptLevel = p.interruptLevel →
        ∀ calls : List HostCall, (∀ call ∈ calls, call.Discreet) →
          let session (p : Processor) : Run β :=
            (.reset :: .runInstruction :: calls).foldl (Run.drive tables bus.shown) (.begin p b)
          (session p).observed = (session q).observed ∧ (session p).spent = (session q).spent ∧
            (session p).processor.visible = (session q).processor.visible ∧
              (session p).processor.atBoundary tables =
                (session q).processor.atBoundary tables := by
  refine ⟨exists_restarted hrealizes bus p b, fun q hsurvive hlevel calls hdiscreet => ?_⟩
  have h := Run.inStep_of_reset hrealizes hsurvive hlevel (bus.discreet_shown b) hdiscreet
  exact ⟨h.observed, h.spent, h.visible, h.processor.atBoundary⟩

variable (tables) in
/-- A processor that the host has put into user mode and stopped five half-cycles into a `NOP`. -/
def midway : Processor :=
  (Run.session tables (Bus.constant 0x4E71) ()
    [.runInstruction, .edit (·.setStatus 0), .runFor 5]).processor

variable (tables) in
/-- A processor in supervisor mode that has done nothing yet, with the registers of another one. -/
def renewed (p : Processor) : Processor :=
  { initial tables with
    registers := p.registers.setStatus 0x2700
    interruptLevel := p.interruptLevel }

theorem survive_renewed (p : Processor) : p.registers.Survive (p.renewed tables).registers :=
  have hsame : p.registers.SameFile (p.registers.setStatus 0x2700) :=
    Registers.sameFile_setStatus _
  ⟨hsame.data, hsame.address, hsame.usp⟩

theorem interruptLevel_renewed (p : Processor) :
    (p.renewed tables).interruptLevel = p.interruptLevel := rfl

/-- **Reset recovers from any point.** Wherever a processor has been, in the middle of a transfer, of
a register list or of an exception, in either mode: on any bus, a reset and an instruction run put
six idle times on the bus, and then read the words at 0, 2, 4 and 6 and the two words of the program
at the long word that was read at 4, all as program words. This takes 76 half-cycles and the waits of
the bus, and starts nothing. It ends at a boundary, with the long word read at 0 in the supervisor
stack pointer, the program counter behind the prefetch queue, and all other registers as they were,
but for the status. Nothing else that the processor has held gets out again: if another processor has
the same registers, but for those that a reset loads, and the same interrupt level, and is reset in
the same way, then on any bus that looks at no more than is shown to it the same is seen of both
from there on, at the same times, and a programmer sees the same in both, whatever calls follow. -/
theorem reset_recovers (bus : Bus β) (p : Processor) (b : β) :
    (∃ r, Run.Restarted (.compile forms) bus p b r
      ((p.reset (.compile forms)).runInstruction (.compile forms) bus b)) ∧
      ∀ q : Processor, p.registers.Survive q.registers → q.interruptLevel = p.interruptLevel →
        ∀ calls : List HostCall, (∀ call ∈ calls, call.Discreet) →
          let session (p : Processor) : Run β :=
            (.reset :: .runInstruction :: calls).foldl (Run.drive (.compile forms) bus.shown)
              (.begin p b)
          (session p).observed = (session q).observed ∧ (session p).spent = (session q).spent ∧
            (session p).processor.visible = (session q).processor.visible ∧
              (session p).processor.atBoundary (.compile forms) =
                (session q).processor.atBoundary (.compile forms) :=
  recovers_of_reset Tables.realizes_compile bus p b

/-- A processor that is stopped in the middle of an instruction recovers, and cannot be told from one
that has done nothing yet. -/
theorem reset_recovers_midway :
    let p := midway (.compile forms)
    let q := p.renewed (.compile forms)
    let calls : List HostCall := [.runInstruction, .setInterruptLevel 7, .runFor 100]
    let session (p : Processor) : Run Unit :=
      (.reset :: .runInstruction :: calls).foldl
        (Run.drive (.compile forms) (Bus.constant 0x4E71).shown) (.begin p ())
    (∃ r, Run.Restarted (.compile forms) (Bus.constant 0x4E71) p () r
      ((p.reset (.compile forms)).runInstruction (.compile forms) (Bus.constant 0x4E71) ())) ∧
      p.registers.Survive q.registers ∧ q.interruptLevel = p.interruptLevel ∧
        (∀ call ∈ calls, call.Discreet) ∧ (session p).observed = (session q).observed ∧
          (session p).processor.visible = (session q).processor.visible := by
  intro p q calls session
  have hdiscreet : ∀ call ∈ calls, call.Discreet := by
    simp [calls, HostCall.Discreet]
  obtain ⟨hrestarted, hlater⟩ := reset_recovers (Bus.constant 0x4E71) p ()
  obtain ⟨hobserved, -, hvisible, -⟩ :=
    hlater q p.survive_renewed p.interruptLevel_renewed calls hdiscreet
  exact ⟨hrestarted, p.survive_renewed, p.interruptLevel_renewed, hdiscreet, hobserved, hvisible⟩

end Processor

end M68k
