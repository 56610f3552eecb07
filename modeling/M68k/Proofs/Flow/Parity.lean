import M68k.Proofs.Flow.Redirect
import M68k.Proofs.Flow.Targets
import M68k.Proofs.Tables.Compile

/-!
# Even and odd program counters

Nothing in the processor keeps the program counter even: it takes whatever address control is sent
to. But only there can its parity change. Fetches go from word to word, return addresses are whole
words away, and the status operations step back by a word.

## Main results

* `Processor.isOdd_enterMicroOp`, `Processor.isOdd_receive`: what single events make of the parity
* `Run.Sent.isOdd_eq`: the parity of the program counter is that of the last target
* `Run.parity_of_targets`: so it is at each boundary of a session
* `Run.odd_at_boundary`: it may be odd
-/

namespace M68k

open Encoding

/-- The address is between two words. -/
def isOdd (address : Long) : Bool := address.getLsbD 0

theorem isOdd_eq (address : Long) : isOdd address = decide (address.toNat % 2 = 1) := by
  rw [isOdd, ← BitVec.testBit_toNat, Nat.testBit_zero]

theorem even_toNat_iff (address : Long) : Even address.toNat ↔ isOdd address = false := by
  rw [isOdd_eq, decide_eq_false_iff_not, Nat.even_iff]
  omega

@[simp] theorem isOdd_add_two (address : Long) : isOdd (address + 2) = isOdd address := by
  rw [isOdd_eq, isOdd_eq, decide_eq_decide]
  bv_omega

@[simp] theorem isOdd_sub_two (address : Long) : isOdd (address - 2) = isOdd address := by
  rw [isOdd_eq, isOdd_eq, decide_eq_decide]
  bv_omega

@[simp] theorem isOdd_sub_four (address : Long) : isOdd (address - 4) = isOdd address := by
  rw [isOdd_eq, isOdd_eq, decide_eq_decide]
  bv_omega

/-- The high word has no part in it. -/
theorem isOdd_high_set (address : Long) (word : Word) :
    isOdd (Half.high.set address word) = isOdd address := by
  rw [isOdd, isOdd, Half.set, BitVec.getLsbD_append, if_pos (by decide),
    BitVec.getLsbD_extractLsb']
  rfl

namespace Processor

variable (p : Processor)

/-! ## Bus steps -/

/-- Only the low word of a load matters. -/
theorem isOdd_storeSlot {slot : DataSlot} (value : Word) (byte : Bool)
    (h : slot ≠ .programCounter .low) :
    isOdd (p.storeSlot slot value byte).registers.pc = isOdd p.registers.pc := by
  cases slot with
  | programCounter half =>
    cases half with
    | high => exact isOdd_high_set _ _
    | low => exact absurd rfl h
  | none | latch | prefetch | stackPointer | listWord | interruptVector =>
    rw [pc_storeSlot _ _ _ fun _ => DataSlot.noConfusion]

theorem isOdd_applyStepAction (action : StepAction) :
    isOdd (p.applyStepAction action).registers.pc = isOdd p.registers.pc := by
  rw [pc_applyStepAction]
  split
  · exact isOdd_add_two _
  · rfl

/-- **A bus step that sends control nowhere keeps the parity.** -/
theorem isOdd_receive {step : BusStep} (reply : Reply) (h : step.sendsControl = false) :
    isOdd (p.receive step reply).registers.pc = isOdd p.registers.pc := by
  have hloaded : isOdd (p.loaded step reply).registers.pc = isOdd p.registers.pc := by
    cases hread : step.signals.isRead with
    | true =>
      have hslot : step.slot ≠ .programCounter .low := by
        simpa [BusStep.sendsControl, hread] using h
      rw [loaded_of_read p reply hread, isOdd_storeSlot _ _ _ hslot, timed_eq]
    | false => rw [loaded_of_not_read p reply hread, timed_eq]
  rw [receive_eq]
  exact (isOdd_applyStepAction _ _).trans hloaded

/-! ## Actions -/

/-- **An exception keeps the parity**, as its return address does. -/
theorem pc_enterException (returnAddress : Long) :
    (p.enterException returnAddress).registers.pc = returnAddress := by
  simp [enterException]

theorem pc_branch (programs : FixedPrograms) :
    (p.branch programs).1.registers.pc =
      if p.conditionHolds then p.branchTarget else p.registers.pc := by
  unfold branch
  split
  · rfl
  · split <;> rfl

theorem pc_decrementAndBranch (programs : FixedPrograms) :
    (p.decrementAndBranch programs).1.registers.pc =
      if p.loops then p.wordBranchTarget else p.registers.pc := by
  simp only [decrementAndBranch]
  split
  · next hholds =>
    rw [loops, hholds]
    rfl
  · next hholds =>
    split
    · next hcounter =>
      rw [loops, hcounter, bne_self_eq_false, Bool.and_false]
      rfl
    · next hcounter =>
      have hloops : p.loops = true := by
        rw [loops, Bool.and_eq_true]
        exact ⟨by simpa using hholds, bne_iff_ne.mpr hcounter⟩
      rw [if_pos hloops]
      rfl

/-- **What an operation makes of the parity**: the target counts, if there is one. -/
theorem isOdd_operate (tables : Tables) :
    isOdd (p.operate tables).1.registers.pc = isOdd (p.operationTarget?.getD p.registers.pc) := by
  unfold operate operationTarget?
  cases hoperation : p.instruction.operation with
  | bcc =>
    simp only [pc_branch]
    split <;> rfl
  | dbcc =>
    simp only [pc_decrementAndBranch]
    split <;> rfl
  | bsr | movem => rfl
  | trap => exact (congrArg isOdd (p.pc_enterException _)).trans (isOdd_sub_two _)
  | jmp | jsr | rts =>
    simp only [compute, hoperation]
    rfl
  | bitwiseToCcr | bitwiseToSr =>
    exact (congrArg isOdd (p.pc_compute_of_rewinds (by rw [hoperation]; rfl))).trans
      (isOdd_sub_two _)
  | _ => exact congrArg isOdd (p.pc_compute (by rw [hoperation]; rfl))

/-- **What an action makes of the parity.** -/
theorem isOdd_act (tables : Tables) (action : Action) (target : Target) :
    isOdd (p.act tables action target).1.registers.pc =
      isOdd ((p.actionTarget? action).getD p.registers.pc) := by
  unfold actionTarget?
  by_cases haction : action = .operate
  · subst haction
    rw [if_pos rfl]
    exact p.isOdd_operate tables
  · rw [if_neg haction, p.act_of_ne_operate tables target haction]
    exact congrArg isOdd (p.pc_prepare action target)

/-- **What entering a micro-operation makes of it.** -/
theorem isOdd_enterMicroOp (tables : Tables) :
    isOdd (p.enterMicroOp tables).registers.pc =
      isOdd ((p.enteredTarget? tables).getD p.registers.pc) := by
  simp only [enterMicroOp, enteredTarget?]
  cases hprogram : (tables.microOp p.microOp).program with
  | none => rfl
  | some program =>
    rw [Option.isSome_some, if_pos rfl, ← isOdd_act p tables _ (tables.microOp p.microOp).target]
    dsimp only
    split <;> rfl

theorem pc_accept (level : Level) : (p.accept level).registers.pc = p.registers.pc - 4 :=
  pc_enterException { p with phase := .instruction } _

theorem pc_refuse (start : Start) (vector : Byte) :
    (p.refuse start vector).registers.pc = start.address :=
  pc_enterException { p with phase := .instruction, opcode := start.opcode } _

/-- **What a start at a boundary makes of it.** -/
theorem isOdd_begin (tables : Tables) :
    isOdd (p.begin tables (p.start tables)).registers.pc =
      isOdd ((p.startedTarget? tables (p.start tables)).getD p.registers.pc) := by
  cases hentry : (p.start tables).entry with
  | interrupt level =>
    rw [begin_interrupt p hentry, startedTarget?, hentry]
    exact (congrArg isOdd (p.pc_accept level)).trans (isOdd_sub_four _)
  | exception vector =>
    rw [begin_exception p hentry, startedTarget?, hentry]
    exact (congrArg isOdd (p.pc_refuse _ vector)).trans (isOdd_sub_four _)
  | instruction entry =>
    rw [begin_instruction p hentry, isOdd_enterMicroOp, startedTarget?, hentry]
    rfl

end Processor

/-! ## Sessions -/

namespace Run

variable {β : Type} {tables : Tables} {bus : Bus β} {run : Run β}

/-- Control may be sent somewhere once more. -/
theorem isOdd_sent {pc next : Long} {sent : Option Long} {targets : List Long}
    (hnext : isOdd next = isOdd (sent.getD pc)) (h : ∀ last ∈ targets.head?, isOdd pc = isOdd last) :
    ∀ last ∈ (sent.toList ++ targets).head?, isOdd next = isOdd last := by
  cases sent with
  | none =>
    intro last hlast
    exact hnext.trans (h last hlast)
  | some target =>
    rintro last ⟨⟩
    exact hnext

/-- **The parity of the program counter is that of the last target.** -/
theorem Sent.isOdd_eq {targets : List Long} (h : Sent tables bus run targets) :
    ∀ last ∈ targets.head?, isOdd run.processor.registers.pc = isOdd last := by
  -- along the session: what does not send control anywhere keeps the parity
  induction h with
  | begin => exact fun _ hlast => nomatch hlast
  | start _ _ ih => exact isOdd_sent (Processor.isOdd_begin _ tables) ih
  | enter _ _ _ _ ih => exact isOdd_sent (Processor.isOdd_enterMicroOp _ tables) ih
  | @transact run _ _ start _ ih =>
    refine isOdd_sent ?_ ih
    simp only [steppedTarget?]
    split
    · rfl
    · next hkeeps => exact run.processor.isOdd_receive _ (by simpa using hkeeps)
  | setInterruptLevel _ _ ih | owe _ _ ih => exact ih
  | @reset run _ _ ih =>
    have hpc : (run.processor.reset tables).registers.pc = run.processor.registers.pc :=
      Registers.pc_setStatus _ _
    exact fun last hlast => (congrArg isOdd hpc).trans (ih last hlast)
  | edit _ _ allowed ih => exact fun last hlast => (congrArg isOdd allowed).trans (ih last hlast)

/-! ## A branch by one byte -/

/-- A bus with an even reset vector that leads to a branch by one byte. -/
def branchBus : Bus Unit := fun _ request =>
  (⟨if request.address < 8 then 0x1000 else 0x6001, 0⟩, ())

section

variable (tables : Tables)

/-- The end of the reset sequence, out of place and time. -/
def branching : Snapshot Unit :=
  (Run.begin { Processor.initial tables with debt := 0 } ()).snapshot.perform branchBus
    FixedPrograms.resetActivity

/-- The end of the branch, out of place and time. -/
def branched : Snapshot Unit :=
  let s := Processor.dispatched (branching tables).processor (.bare .bcc .word) ()
  (s.withProcessor s.processor.turn.1).perform branchBus s.processor.turn.2

variable {tables}

theorem snapshot_booted_branchBus (hrealizes : tables.Realizes forms) :
    (booted tables branchBus ()).processor.atBoundary tables ∧
      (booted tables branchBus ()).snapshot = branching tables :=
  Processor.snapshot_runInstruction_initial branchBus hrealizes ()

theorem pc_booted_branchBus (hrealizes : tables.Realizes forms) :
    (booted tables branchBus ()).processor.registers.pc = 0x10001004 :=
  (congrArg (·.processor.registers.pc) (snapshot_booted_branchBus hrealizes).2).trans (by cbv)

theorem snapshot_branched (hrealizes : tables.Realizes forms) (b : Unit) :
    let next := (booted tables branchBus ()).processor.runInstruction tables branchBus b
    next.processor.atBoundary tables ∧ next.snapshot = branched tables := by
  obtain ⟨hboundary, hsnapshot⟩ := snapshot_booted_branchBus hrealizes
  generalize (booted tables branchBus ()) = first at hboundary hsnapshot ⊢
  have hprocessor : first.processor.timeless = (branching tables).processor :=
    congrArg (·.processor) hsnapshot
  have hopcode : Half.high.get first.processor.prefetch = 0x6001 := by
    rw [← Processor.prefetch_timeless, hprocessor]
    cbv
  have hlevel : first.processor.interruptLevel = 0 :=
    (congrArg (·.interruptLevel) hprocessor).trans (by cbv)
  have hinterrupt := Processor.pendingInterrupt?_of_level hlevel
  have hdecode : decode? forms (Half.high.get first.processor.prefetch) =
      some ⟨.bare .bcc .word, [] ++ [.act .operate .nowhere]⟩ := by
    rw [hopcode]
    rfl
  have hdispatched : Processor.dispatched (branching tables).processor (.bare .bcc .word) () =
      first.processor.dispatched (.bare .bcc .word) b := by
    rw [← hprocessor]
    rfl
  have hfront (stage : Stage) (hmem : stage ∈ []) : stage.action ≠ .operate :=
    absurd hmem List.not_mem_nil
  refine ⟨(Processor.runInstruction_atBoundary branchBus hrealizes hboundary b).1, ?_⟩
  rw [Processor.snapshot_runInstruction_turn branchBus hrealizes hboundary hinterrupt hdecode rfl
    rfl hfront b, branched, hdispatched]
  rfl

theorem pc_branched (hrealizes : tables.Realizes forms) (b : Unit) :
    ((booted tables branchBus ()).processor.runInstruction tables branchBus
      b).processor.registers.pc = 0x10001007 :=
  (congrArg (·.processor.registers.pc) (snapshot_branched hrealizes b).2).trans (by cbv)

end

/-! ## At boundaries -/

/-- **At a boundary the program counter is even if and only if control was last sent to an even
address.** In particular it is even as long as all targets are: the vector of the reset, the targets
of branches and jumps, the return addresses that are popped, and the vectors of exceptions. -/
theorem parity_of_targets (bus : Bus β) :
    (∀ (p : Processor) (b : β) (run : Run β),
      Leads (.compile forms) bus keepsCounter (.begin (p.reset (.compile forms)) b) run →
        ∃ targets, Sent (.compile forms) bus run targets) ∧
    ∀ (run : Run β) (targets : List Long), Sent (.compile forms) bus run targets →
      run.processor.atBoundary (.compile forms) →
        ∃ last earlier, targets = last :: earlier ∧
          (Even run.processor.registers.pc.toNat ↔ Even last.toNat) := by
  have hrealizes := Tables.realizes_compile
  refine ⟨fun _ _ _ h => h.exists_sent hrealizes, fun run targets h hboundary => ?_⟩
  obtain ⟨last, earlier, rfl⟩ := h.exists_last hrealizes hboundary
  refine ⟨last, earlier, rfl, ?_⟩
  rw [even_toNat_iff, even_toNat_iff, h.isOdd_eq last rfl]

/-- Behind a reset with an even vector it is even. -/
theorem parity_of_branchBus :
    let run := booted (.compile forms) branchBus ()
    ∃ last earlier, Sent (.compile forms) branchBus run (last :: earlier) ∧ Even last.toNat := by
  intro run
  obtain ⟨hsent, hparity⟩ := parity_of_targets branchBus
  have hreachable : run.Reachable (.compile forms) branchBus keepsCounter := reachable_booted ()
  obtain ⟨b, hleads⟩ := hreachable
  obtain ⟨targets, h⟩ := hsent _ b run hleads
  obtain ⟨last, earlier, rfl, heven⟩ :=
    hparity run targets h (snapshot_booted_branchBus Tables.realizes_compile).1
  refine ⟨last, earlier, h, heven.mp ?_⟩
  rw [pc_booted_branchBus Tables.realizes_compile, even_toNat_iff]
  rfl

/-- **Behind a branch by an odd displacement the program counter is odd**, although the reset vector
is even. -/
theorem odd_at_boundary :
    let tables := Tables.compile forms
    let first := booted tables branchBus ()
    let next := (first.processor.runInstruction tables branchBus first.bus).after first
    first.Reachable tables branchBus keepsCounter ∧ first.processor.atBoundary tables ∧
      Even first.processor.registers.pc.toNat ∧
      next.Reachable tables branchBus keepsCounter ∧ next.processor.atBoundary tables ∧
      ¬ Even next.processor.registers.pc.toNat := by
  have hrealizes := Tables.realizes_compile
  dsimp only
  generalize Tables.compile forms = tables at hrealizes ⊢
  have hreachable : (booted tables branchBus ()).Reachable tables branchBus keepsCounter :=
    reachable_booted ()
  have hafter (run earlier : Run Unit) : (run.after earlier).processor = run.processor := rfl
  refine ⟨hreachable, (snapshot_booted_branchBus hrealizes).1, ?_, hreachable.runInstruction, ?_, ?_⟩
  · rw [pc_booted_branchBus hrealizes, even_toNat_iff]
    rfl
  · rw [hafter]
    exact (snapshot_branched hrealizes _).1
  · rw [hafter, pc_branched hrealizes, even_toNat_iff]
    exact Bool.noConfusion

end Run

end M68k
