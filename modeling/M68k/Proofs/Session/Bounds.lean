import M68k.Proofs.Arithmetic.Guards
import M68k.Proofs.Execution.ListProgress
import M68k.Proofs.Session.Reached
import M68k.Proofs.Tables.Enclosed

/-!
# Bounds

The processor uses numbers that were worked out long before: places in the tables, numbers of
registers and latches, places in a register list. Between two steps as well as in their midst, all
of them name something that exists, and the arithmetic of its operations keeps to its guards.

## Main definitions

* `Processor.Passed`: all that the processor passes through, between the parts of its steps
* `Processor.InBounds`: every number that the processor holds names something
* `Processor.Unfailing`: whatever it does next, no look-up and no guard fails

## Main results

* `Processor.Reached.passed`: what hosts lead to is passed through
* `Processor.Passed.inBounds`: the parts of steps keep the processor in bounds
* `Tables.unfailing_of_build`: so no look-up and no guard ever fails
-/

namespace M68k

open Encoding

namespace Processor

variable {tables : Tables} {p : Processor}

/-! ## Inside a step -/

variable (tables) in
/-- What the processor passes through from construction on: the parts of its steps, each with any
answer of a bus, and what hosts do. -/
inductive Passed : Processor → Prop
  | initial : Passed (.initial tables)
  /-- The chain goes on. -/
  | proceed {p : Processor} (h : Passed p) (hended : p.programEnded tables)
    (hnext : p.hasNext tables) : Passed (p.proceed tables)
  /-- Something starts at a boundary. -/
  | start {p : Processor} (h : Passed p) (hboundary : p.atBoundary tables) :
    Passed (p.begin tables (p.start tables))
  /-- A bus step is run. -/
  | receive {p : Processor} (h : Passed p) (hended : p.programEnded tables = false)
    (reply : Reply) : Passed (p.receive (tables.step p.busStep) reply)
  | setInterruptLevel {p : Processor} (h : Passed p) (level : Level) :
    Passed (p.setInterruptLevel level)
  | reset {p : Processor} (h : Passed p) : Passed (p.reset tables)
  | edit {p : Processor} (h : Passed p) (registers : Registers) :
    Passed { p with registers := registers }
  | owe {p : Processor} (h : Passed p) (debt : HalfCycles) : Passed { p with debt := debt }

theorem Passed.follow (h : p.Passed tables) (wanted : MicroOp → Bool) :
    (p.follow tables wanted).Passed tables := by
  fun_induction Processor.follow tables wanted p with
  | case1 p hfollow ih =>
    obtain ⟨hphase, hended, hterminal, -⟩ := hfollow
    exact ih (.proceed h hended ((p.hasNext_iff tables).2 ⟨hphase, by simpa using hterminal⟩))
  | case2 => exact h

theorem Passed.settle (h : p.Passed tables) : (p.settle tables).1.Passed tables := by
  simp only [Processor.settle]
  split
  · next hboundary => exact (Passed.start (h.follow _) hboundary).follow _
  · exact h.follow _

/-- The search for the next bus step stops at one. -/
theorem programEnded_settle (hrealizes : tables.Realizes forms) (p : Processor) :
    (p.settle tables).1.programEnded tables = false := by
  obtain ⟨n, -, hloop⟩ := loop_settle hrealizes p
  simpa using hloop.stopped

theorem Passed.step {β : Type} (hrealizes : tables.Realizes forms) (bus : Bus β) {run : Run β}
    (h : run.processor.Passed tables) : (run.step tables bus).processor.Passed tables :=
  (Passed.receive h.settle (programEnded_settle hrealizes run.processor) _).follow _

/-- What hosts lead to is passed through. -/
theorem Reached.passed (hrealizes : tables.Realizes forms) (h : p.Reached tables) :
    p.Passed tables := by
  induction h with
  | initial => exact .initial
  | move _ hmove ih =>
    cases hmove with
    | step => exact ih.step hrealizes _
    | setInterruptLevel level => exact .setInterruptLevel ih level
    | reset => exact .reset ih
    | edit registers => exact .edit ih registers
    | owe debt => exact .owe ih debt

/-- The parts of steps keep the chain in order. -/
theorem Passed.orderly (hrealizes : tables.Realizes forms) (h : p.Passed tables) :
    p.Orderly tables := by
  induction h with
  | initial | reset => exact (orderly_reset hrealizes _).1
  | proceed _ _ hnext ih => exact orderly_proceed ih hnext
  | start => exact orderly_begin hrealizes _
  | @receive p _ _ reply ih =>
    intro stage hstage
    rw [instruction_receive]
    refine ih stage ?_
    simpa only [stages, phase_receive, microOp_receive] using hstage
  | setInterruptLevel | edit | owe => assumption

/-! ## In bounds -/

variable (tables) in
/-- Every number that the processor holds names something. -/
structure InBounds (p : Processor) : Prop where
  /-- The next bus step is inside the table, and so is the end of its program. -/
  step : tables.Ends p.busStep
  /-- In the midst of an instruction the micro-operation is on the chain of its opcode. -/
  chain : p.phase = .instruction → ∃ entry, tables.entry? p.opcode = some entry ∧
    entry.instruction = p.instruction ∧ tables.OnChain entry.start p.microOp
  registers : p.instruction.InRange
  addresses : ∀ step ∈ p.upcoming tables, step.address.inRange
  transfer : p.transfer.InOrder

/-- What an operation chooses ends inside the table of steps. -/
theorem ends_chosen (h : tables.Enclosed) {offset : Nat} (hchosen : tables.programs.Chosen offset) :
    tables.Ends offset := by
  cases hchosen with
  | branchTaken => exact h.branchTaken
  | branchByteNotTaken => exact h.branchByteNotTaken
  | branchWordNotTaken => exact h.branchWordNotTaken
  | subroutine => exact h.subroutine
  | loopLeft => exact h.loopLeft
  | loopExpired => exact h.loopExpired
  | loopTaken => exact h.loopTaken
  | listRead => exact h.listRead _
  | listWrite => exact h.listWrite _

/-- Entering a micro-operation of a chain leads to a program that ends inside the table of steps. -/
theorem ends_enterMicroOp (h : tables.Enclosed) (hphase : p.phase = .instruction) {start : Nat}
    (hchain : tables.OnChain start p.microOp) : tables.Ends (p.enterMicroOp tables).busStep := by
  unfold enterMicroOp
  dsimp only []
  split
  · exact h.empty
  · next program hprogram =>
    split
    · -- the program of the micro-operation, unless the operation chooses one
      dsimp only []
      cases hchosen : (p.act tables (tables.microOp p.microOp).action
          (tables.microOp p.microOp).target).2 with
      | none => exact hchain.ends hprogram
      | some offset => exact ends_chosen h (chosen_act hchosen)
    · next hfired =>
      rcases p.phase_act tables (tables.microOp p.microOp).action
        (tables.microOp p.microOp).target with hkept | ⟨-, hstep⟩
      · exact absurd (hkept.trans hphase) hfired
      · rw [hstep]
        exact h.exception

theorem opcode_enterMicroOp : (p.enterMicroOp tables).opcode = p.opcode := by
  unfold enterMicroOp
  dsimp only []
  split
  · rfl
  · split <;> exact opcode_act p tables _ _

/-- Steps that are brought in keep the addresses in range. -/
theorem addresses_of_brings {steps : Activity} (hbrings : p.Brings tables steps)
    (hsteps : ∀ step ∈ steps, step.address.inRange) :
    ∀ step ∈ p.upcoming tables, step.address.inRange := by
  obtain ⟨front, hfirm, hbehind⟩ := hbrings
  have hfront : ∀ step ∈ front, step.address.inRange := fun step hstep =>
    (Bool.and_eq_true_iff.1 (hfirm step hstep)).2
  rcases hbehind with hbehind | hreplaced
  · rw [hbehind]
    exact fun step hstep => (List.mem_append.1 hstep).elim (hfront step) (hsteps step)
  · rw [hreplaced]
    exact hfront

theorem inBounds_reset (hrealizes : tables.Realizes forms) (h : tables.Enclosed)
    (hregisters : p.instruction.InRange) (htransfer : p.transfer.InOrder) :
    (p.reset tables).InBounds tables where
  step := h.reset
  chain hphase := by simp [Processor.reset] at hphase
  registers := hregisters
  addresses := by
    rw [upcoming_of_phase_ne (by simp [Processor.reset]), activity_reset hrealizes]
    exact fun step hstep =>
      (Bool.and_eq_true_iff.1 (FixedPrograms.firm_reset step hstep)).2
  transfer := htransfer

theorem InBounds.proceed (hrealizes : tables.Realizes forms) (henclosed : tables.Enclosed)
    (h : p.InBounds tables) (horderly : p.Orderly tables) (hended : p.programEnded tables)
    (hnext : p.hasNext tables) : (p.proceed tables).InBounds tables := by
  obtain ⟨hphase, hterminal⟩ := (p.hasNext_iff tables).1 hnext
  obtain ⟨entry, hentry, hinstruction, hchain⟩ := h.chain hphase
  have hsucc := hchain.succ hterminal
  exact
    { step := ends_enterMicroOp henclosed (by exact hphase) hsucc
      chain := fun _ => by
        refine ⟨entry, ?_, ?_, ?_⟩
        · rw [Processor.proceed, opcode_enterMicroOp]
          exact hentry
        · rw [Processor.proceed, instruction_enterMicroOp]
          exact hinstruction
        · rw [microOp_proceed]
          exact hsucc
      registers := by
        rw [Processor.proceed, instruction_enterMicroOp]
        exact h.registers
      addresses := addresses_of_brings (brings_proceed hrealizes horderly hended hnext) h.addresses
      transfer := inOrder_enterMicroOp (by exact h.transfer) tables }

theorem InBounds.start (hrealizes : tables.Realizes forms) (henclosed : tables.Enclosed)
    (h : p.InBounds tables) : (p.begin tables (p.start tables)).InBounds tables := by
  obtain ⟨steps, -, hsteps, hbrings⟩ := brings_begin hrealizes p
  have haddresses := addresses_of_brings hbrings hsteps
  have htransfer := inOrder_begin h.transfer tables (p.start tables)
  cases hentry : (p.start tables).entry with
  | interrupt level =>
    rw [begin_interrupt p hentry] at haddresses htransfer ⊢
    exact ⟨henclosed.interrupt, fun hphase => by simp [accept, enterException] at hphase,
      h.registers, haddresses, htransfer⟩
  | exception vector =>
    rw [begin_exception p hentry] at haddresses htransfer ⊢
    exact ⟨henclosed.exception, fun hphase => by simp [refuse, enterException] at hphase,
      h.registers, haddresses, htransfer⟩
  | instruction entry =>
    have hfound := entry_of_start hentry
    have hregular := regular_of_decode? (recipe_of_entry hrealizes hfound)
    have hchain := henclosed.onChain hfound
    rw [begin_instruction p hentry] at haddresses htransfer ⊢
    exact
      { step := ends_enterMicroOp henclosed rfl hchain
        chain := fun _ => by
          refine ⟨entry, ?_, ?_, ?_⟩
          · rw [opcode_enterMicroOp]
            exact hfound
          · rw [instruction_enterMicroOp]
            rfl
          · rw [microOp_enterMicroOp]
            exact hchain
        registers := by
          rw [instruction_enterMicroOp]
          exact hregular.instruction
        addresses := haddresses
        transfer := htransfer }

theorem InBounds.receive (h : p.InBounds tables) (hended : p.programEnded tables = false)
    (reply : Reply) : (p.receive (tables.step p.busStep) reply).InBounds tables where
  step := by
    rw [busStep_receive]
    exact h.step.succ hended
  chain := by
    rw [phase_receive, opcode_receive, instruction_receive, microOp_receive]
    exact h.chain
  registers := by
    rw [instruction_receive]
    exact h.registers
  addresses := by
    have hupcoming : p.upcoming tables = tables.step p.busStep ::
        (p.receive (tables.step p.busStep) reply).upcoming tables := by
      rw [upcoming, activity_eq_cons tables hended, List.cons_append]
      simp only [upcoming, activity, stages, busStep_receive, phase_receive, microOp_receive]
    exact fun step hstep => h.addresses step (hupcoming ▸ List.mem_cons_of_mem _ hstep)
  transfer := inOrder_receive h.transfer _ _

/-- **All that the processor passes through is in bounds.** -/
theorem Passed.inBounds (hrealizes : tables.Realizes forms) (henclosed : tables.Enclosed)
    (h : p.Passed tables) : p.InBounds tables := by
  induction h with
  | initial => exact inBounds_reset hrealizes henclosed (.bare _ _) ListTransfer.inOrder_none
  | proceed hpassed hended hnext ih =>
    exact ih.proceed hrealizes henclosed (hpassed.orderly hrealizes) hended hnext
  | start _ _ ih => exact ih.start hrealizes henclosed
  | receive _ hended reply ih => exact ih.receive hended reply
  | reset _ ih => exact inBounds_reset hrealizes henclosed ih.registers ih.transfer
  | setInterruptLevel _ _ ih | edit _ _ ih | owe _ _ ih =>
    exact ⟨ih.step, ih.chain, ih.registers, ih.addresses, ih.transfer⟩

/-! ## Nothing fails -/

variable (tables) in
/-- Whatever the processor does next, all that it looks up is there, and all arithmetic keeps to its
guards. -/
structure Unfailing (p : Processor) : Prop where
  /-- The next bus step is inside the table, and an end of a program is at it or behind it. -/
  step : p.busStep < tables.steps.size ∧ tables.Ends p.busStep
  /-- In the midst of an instruction the micro-operation is inside its table and on the chain of the
  opcode. Unless it is the last one, so is the next one, and the program of that is inside the table
  of steps. -/
  chain : p.phase = .instruction →
    p.microOp < tables.microOps.size ∧
      ∃ entry, tables.entry? p.opcode = some entry ∧ entry.instruction = p.instruction ∧
        tables.OnChain entry.start p.microOp ∧
        ((tables.microOp p.microOp).isTerminal = false →
          p.microOp + 1 < tables.microOps.size ∧ tables.OnChain entry.start (p.microOp + 1) ∧
            ∀ program, (tables.microOp (p.microOp + 1)).program = some program →
              tables.Ends program)
  /-- The opcode that comes next has an entry. If it is legal, its chain is inside the table of
  micro-operations, and the registers of its instruction exist. -/
  next : (Half.high.get p.prefetch).toNat < tables.entries.size ∧
    ∀ entry, tables.entry? (Half.high.get p.prefetch) = some entry →
      entry.start < tables.microOps.size ∧ tables.OnChain entry.start entry.start ∧
        entry.instruction.InRange
  registers : p.instruction.InRange
  /-- The register, the latch or the frame word that the next bus step addresses exists. -/
  address : p.programEnded tables = false → (tables.step p.busStep).address.inRange
  /-- The register that is next in a register-list transfer has a place in its list. -/
  transfer : ∃ list start long descending moved,
    p.transfer = ListTransfer.advance^[moved] (.begin list start long descending) ∧
      (listed list descending).length ≤ 16 ∧
      ∀ register half rest, p.transfer.words = (register, half) :: rest →
        ∃ hplace : ListTransfer.place long moved < (listed list descending).length,
          (listed list descending)[ListTransfer.place long moved] = register
  /-- There is room for the words of a register list. -/
  room : ∀ direction,
    (p.beginListTransfer tables.programs direction).1.transfer.words.length ≤
      FixedPrograms.maxListWords
  /-- A multiplication takes more cycles than the fetch before it. -/
  cycles :
    let source := Half.low.get p.source
    (4 ≤ Multiply.unsignedCycles source ∧ (Multiply.unsignedCycles source - 4) * 2 < 0x10000) ∧
      4 ≤ Multiply.signedCycles source ∧ (Multiply.signedCycles source - 4) * 2 < 0x10000
  /-- Its product fits into a long word. -/
  product :
    let source := Half.low.get p.source
    let destination := Half.low.get p.destination
    source.toNat * destination.toNat < 0x100000000 ∧
      -0x80000000 ≤ source.toInt * destination.toInt ∧
      source.toInt * destination.toInt < 0x80000000
  /-- A bit operation shifts its mask by less than the width of a long word. -/
  bit : p.source.toNat % p.instruction.size.bits < 32
  /-- So do shifts and rotates with all that they shift, whatever the count. -/
  shift : ∀ (kind : ShiftKind) (count : Nat),
    kind.guarded? p.destination count p.instruction.size p.registers.sr =
      some (kind.apply p.destination count p.instruction.size p.registers.sr)
  /-- The sum of decimal operands is corrected without a borrow. -/
  decimal : PackedDecimal.IsDecimal p.source → PackedDecimal.IsDecimal p.destination →
    PackedDecimal.add? p.source p.destination p.registers.sr =
      some (PackedDecimal.add p.source p.destination p.registers.sr)

theorem bit_lt (size : Size) (n : Nat) : n % size.bits < 32 := by
  obtain ⟨hlow, hhigh⟩ := ShiftKind.bits_bounds size
  exact Nat.lt_of_lt_of_le (Nat.mod_lt _ (Nat.lt_of_lt_of_le (by decide) hlow)) hhigh

/-- In bounds nothing fails. -/
theorem InBounds.unfailing (hrealizes : tables.Realizes forms) (henclosed : tables.Enclosed)
    (h : p.InBounds tables) : p.Unfailing tables where
  step := ⟨h.step.lt_size, h.step⟩
  chain hphase := by
    obtain ⟨entry, hentry, hinstruction, hchain⟩ := h.chain hphase
    refine ⟨hchain.lt_size, entry, hentry, hinstruction, hchain, fun hgoes => ?_⟩
    have hsucc := hchain.succ hgoes
    exact ⟨hsucc.lt_size, hsucc, fun program hprogram => hsucc.ends hprogram⟩
  next := by
    refine ⟨by rw [henclosed.entries]; exact BitVec.isLt _, fun entry hentry => ?_⟩
    have hchain := henclosed.onChain hentry
    exact ⟨hchain.lt_size, hchain,
      (regular_of_decode? (recipe_of_entry hrealizes hentry)).instruction⟩
  registers := h.registers
  address hended := by
    refine h.addresses _ ?_
    rw [upcoming, activity_eq_cons tables hended]
    exact List.mem_cons_self
  transfer := h.transfer.position
  room _ := ListTransfer.length_words_begin_le _ _ _ _
  cycles := ⟨Multiply.unsignedCycles_bounds _, Multiply.signedCycles_bounds _⟩
  product := ⟨Multiply.unsigned_lt _ _, Multiply.signed_bounds _ _⟩
  bit := bit_lt _ _
  shift kind count := ShiftKind.guarded?_eq _ _ kind count _
  decimal hsource hdestination := PackedDecimal.add?_eq hsource hdestination _

end Processor

/-- Tables that were built are those of the instruction set. -/
theorem Tables.eq_compile_of_build {config : Config} {tables : Tables}
    (h : Tables.build config forms = .ok tables) : tables = .compile forms := by
  unfold Tables.build at h
  split at h
  · cases h
  · exact (Except.ok.inj h).symm

/-- **No look-up and no guard ever fails.** With tables that were built, hosts lead only to what the
processor passes through, and nothing fails at any point that it passes through. -/
theorem Tables.unfailing_of_build {config : Config} {tables : Tables}
    (hbuild : Tables.build config forms = .ok tables) :
    (∀ p : Processor, p.Reached tables → p.Passed tables) ∧
      ∀ p : Processor, p.Passed tables → p.Unfailing tables := by
  obtain rfl := Tables.eq_compile_of_build hbuild
  exact ⟨fun p hreached => hreached.passed Tables.realizes_compile,
    fun p hpassed =>
      (hpassed.inBounds Tables.realizes_compile Tables.enclosed_compile).unfailing
        Tables.realizes_compile Tables.enclosed_compile⟩

/-- A new processor after its reset sequence is one of those. -/
theorem Tables.unfailing_resetNop :
    Tables.build ⟨false, false⟩ forms = .ok (.compile forms) ∧
      (Run.resetNop (.compile forms)).processor.Unfailing (.compile forms) := by
  have hbuild : Tables.build ⟨false, false⟩ forms = .ok (.compile forms) := rfl
  obtain ⟨hpassed, hunfailing⟩ := Tables.unfailing_of_build hbuild
  exact ⟨hbuild, hunfailing _ (hpassed _ (Run.reached_resetNop _))⟩

end M68k
