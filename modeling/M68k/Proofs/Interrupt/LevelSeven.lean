import M68k.Proofs.Exception.Return
import M68k.Proofs.Execution.Outside
import M68k.Proofs.Session.Reachable

/-!
# Level 7

A rise of the interrupt level to 7 is remembered until its interrupt is taken, so that it is taken
even under a mask of 7. The memory works like a credit: a rise banks it, an interrupt spends it, and
there is never more than one in the bank. The comparison of the level with the mask knows nothing of
the credit, though. Once a handler has lowered the mask, it takes the same rise again.

## Main definitions

* `Run.Event`, `Run.play`: what a host does between two bus steps, short of a reset
* `Run.tally`: how often something happens along the way
* `Run.takesSeven`, `Run.risesToSeven`, `Run.lapses`: what is counted

## Main results

* `Processor.inputs_settle`: only a level 7 interrupt spends the memory of a rise
* `Run.lapses_eq`: an interrupt that no rise backs is a lapse
* `Run.levelSeven_account`: each level 7 interrupt has a rise of its own or is a lapse
* `Run.levelSeven_taken_again`: there are lapses
-/

namespace M68k

open Encoding

/-- The level of the interrupt that starts. -/
def Start.level? (start : Start) : Option Level :=
  match start.entry with
  | .interrupt level => some level
  | .exception _ | .instruction _ => none

/-- What starts at a boundary is a level 7 interrupt. -/
def Start.isSeven (start : Start) : Bool :=
  match start.entry with
  | .interrupt level => level == 7
  | .exception _ | .instruction _ => false

/-! ## The interrupt inputs -/

namespace Processor

variable {tables : Tables}

/-- The interrupt inputs and the memory of a rise. -/
def inputs (p : Processor) : Level × Bool := (p.interruptLevel, p.levelSevenRose)

theorem inputs_of_control {p q : Processor} (h : p.control = q.control) : p.inputs = q.inputs :=
  congrArg (fun control => (control.interruptLevel, control.levelSevenRose)) h

/-- What does not look outside changes no input. -/
theorem Blind.inputs {f : Processor → Processor} (h : Blind f) (p : Processor) :
    (f p).inputs = p.inputs :=
  congrArg (fun o : Outside => (o.interruptLevel, o.levelSevenRose)) (h.outside p)

/-- What a new level makes of the inputs depends on nothing else. -/
theorem inputs_setInterruptLevel {p q : Processor} (h : p.inputs = q.inputs) (level : Level) :
    (p.setInterruptLevel level).inputs = (q.setInterruptLevel level).inputs := by
  obtain ⟨hlevel, hrose⟩ := Prod.mk.inj h
  simp only [inputs, setInterruptLevel, hlevel, hrose]

/-- Only a level 7 interrupt spends the memory of a rise. -/
theorem inputs_begin (p : Processor) (start : Start) :
    (p.begin tables start).inputs = (p.interruptLevel, p.levelSevenRose && !start.isSeven) := by
  obtain ⟨opcode, address, entry⟩ := start
  cases entry with
  | interrupt level => rfl
  | exception vector =>
    rw [Start.isSeven, Bool.not_false, Bool.and_true]
    rfl
  | instruction entry =>
    rw [Start.isSeven, Bool.not_false, Bool.and_true]
    exact (blind_enterMicroOp tables).inputs _

/-- **The memory of a rise** lasts until a level 7 interrupt begins. -/
theorem inputs_settle (p : Processor) :
    (p.settle tables).1.inputs =
      (p.interruptLevel, p.levelSevenRose && !(p.settle tables).2.any Start.isSeven) := by
  have hfollow : (p.follow tables fun _ => true).inputs = p.inputs :=
    (blind_follow tables _).inputs p
  obtain ⟨hlevel, hrose⟩ := Prod.mk.inj hfollow
  unfold settle
  dsimp only
  split
  · rw [(blind_follow tables _).inputs, inputs_begin, hlevel, hrose]
    rfl
  · rw [hfollow, Option.any_none, Bool.not_false, Bool.and_true]
    rfl

/-- Actions change no input. -/
theorem inputs_act (p : Processor) (action : Action) (target : Target) :
    (p.act tables action target).1.inputs = p.inputs := by
  have hblind : Blind fun p => (p.act tables action target).1 := fun p o =>
    congrArg Prod.fst (withOutside_act p o tables action target)
  exact hblind.inputs p

/-- What makes an interrupt pending. -/
theorem pendingInterrupt?_congr {p q : Processor} (hinputs : q.inputs = p.inputs)
    (hmask : q.registers.mask = p.registers.mask) : q.pendingInterrupt? = p.pendingInterrupt? := by
  obtain ⟨hlevel, hrose⟩ := Prod.mk.inj hinputs
  rw [pendingInterrupt?, pendingInterrupt?, hlevel, hrose, hmask]

/-- A level 7 interrupt begins where the level is 7 and either its rise is remembered or the mask is
below 7. -/
theorem pendingInterrupt?_eq_seven (p : Processor) :
    p.pendingInterrupt? = some 7 ↔
      p.interruptLevel = 7 ∧ (p.levelSevenRose ∨ p.registers.mask ≠ 7) := by
  have hbelow : p.interruptLevel = 7 → (p.interruptLevel > p.registers.mask ↔
      p.registers.mask ≠ 7) := by
    intro h
    rw [h, gt_iff_lt]
    generalize p.registers.mask = mask
    revert mask
    decide
  unfold pendingInterrupt?
  simp only [Bool.or_eq_true, decide_eq_true_eq, Bool.and_eq_true, beq_iff_eq]
  constructor
  · intro h
    split at h
    · rename_i hpending
      obtain hlevel : p.interruptLevel = 7 := Option.some.inj h
      refine ⟨hlevel, ?_⟩
      rcases hpending with habove | ⟨-, hrose⟩
      · exact .inr ((hbelow hlevel).1 habove)
      · exact .inl hrose
    · cases h
  · rintro ⟨hlevel, hcause⟩
    rw [if_pos, hlevel]
    rcases hcause with hrose | hmask
    · exact .inr ⟨hlevel, hrose⟩
    · exact .inl ((hbelow hlevel).2 hmask)

@[simp] theorem pendingInterrupt?_timeless (p : Processor) :
    p.timeless.pendingInterrupt? = p.pendingInterrupt? := rfl

theorem isSeven_eq (start : Start) : start.isSeven = start.level?.any (· == 7) := by
  rw [Start.isSeven, Start.level?]
  cases start.entry <;> rfl

/-- What starts at a boundary is the interrupt that is pending, if there is one. -/
theorem level?_start (p : Processor) : (p.start tables).level? = p.pendingInterrupt? := by
  rw [start, Start.level?]
  dsimp only
  cases p.pendingInterrupt? with
  | some level => rfl
  | none =>
    dsimp only
    cases tables.entry? (Half.high.get p.prefetch) with
    | none => rfl
    | some entry =>
      dsimp only
      by_cases hrefused :
          (entry.instruction.requiresSupervisor && !p.registers.isSupervisor) = true
      · rw [if_pos hrefused]
      · rw [if_neg hrefused]

/-- What starts at a boundary is a level 7 interrupt if that is what is pending. -/
theorem isSeven_start (p : Processor) :
    (p.start tables).isSeven = decide (p.pendingInterrupt? = some 7) := by
  rw [isSeven_eq, level?_start]
  cases p.pendingInterrupt? with
  | some level => simp only [Option.any_some, Option.some.injEq, Bool.beq_eq_decide_eq]
  | none => rfl

end Processor

section

variable {β : Type} {tables : Tables} (bus : Bus β)

theorem Run.inputs_perform (activity : Activity) (run : Run β) :
    (run.perform bus activity).processor.inputs = run.processor.inputs :=
  Processor.inputs_of_control (control_perform bus activity run)

theorem Run.inputs_execute (stages : List Stage) (run : Run β) :
    (run.execute bus tables stages).processor.inputs = run.processor.inputs := by
  induction stages generalizing run with
  | nil => rfl
  | cons stage stages ih =>
    rw [execute]
    split
    · rw [ih, inputs_perform]
      exact Processor.inputs_act _ _ _
    · rw [inputs_perform]
      exact Processor.inputs_act _ _ _

/-- An instruction run spends the memory of a rise if it takes a level 7 interrupt. -/
theorem Processor.inputs_runInstruction (hrealizes : tables.Realizes forms) {p : Processor}
    (hboundary : p.atBoundary tables) (b : β) :
    (p.runInstruction tables bus b).processor.inputs =
      (p.interruptLevel, p.levelSevenRose && !(p.start tables).isSeven) := by
  have hunplaced := (runInstruction_atBoundary bus hrealizes hboundary b).2
  refine (congrArg inputs (Run.processor_of_unplaced hunplaced) :).trans ?_
  generalize p.start tables = start
  obtain ⟨opcode, address, entry⟩ := start
  change (Run.fromStart tables bus _ _).processor.inputs = _
  cases entry with
  | interrupt level =>
    rw [Run.fromStart_interrupt bus rfl, Run.inputs_perform]
    rfl
  | exception vector =>
    rw [Run.fromStart_exception bus rfl, Run.inputs_perform, Start.isSeven, Bool.not_false,
      Bool.and_true]
    rfl
  | instruction entry =>
    rw [Run.fromStart_instruction bus rfl, Run.inputs_execute, Start.isSeven, Bool.not_false,
      Bool.and_true]
    rfl

/-- Without an interrupt the inputs stay what they are. -/
theorem Processor.inputs_runInstruction_of_none (hrealizes : tables.Realizes forms) {p : Processor}
    (hboundary : p.atBoundary tables) (hinterrupt : p.pendingInterrupt? = none) (b : β) :
    (p.runInstruction tables bus b).processor.inputs = p.inputs := by
  have hnotSeven : (p.start tables).isSeven = false := by
    rw [isSeven_start, hinterrupt]
    rfl
  rw [inputs_runInstruction bus hrealizes hboundary, hnotSeven, Bool.not_false, Bool.and_true]
  rfl

end

/-! ## Events -/

namespace Run

variable {β : Type}

/-- What a host does between two bus steps, short of a reset. -/
inductive Event
  | step
  /-- The interrupt inputs are driven. -/
  | drive (level : Level)
  /-- The host replaces the registers. -/
  | edit (registers : Registers)
  /-- The overrun of timed runs is noted or dropped. -/
  | owe (debt : HalfCycles)

variable (tables : Tables) (bus : Bus β)

/-- What an event makes of a run. -/
def Event.apply (event : Event) (run : Run β) : Run β :=
  match event with
  | step => run.step tables bus
  | drive level => run.modify (·.setInterruptLevel level)
  | edit registers => run.modify fun p => { p with registers := registers }
  | owe debt => run.modify fun p => { p with debt := debt }

/-- Events one after the other. -/
def play (events : List Event) (run : Run β) : Run β :=
  events.foldl (fun run event => event.apply tables bus run) run

/-- How often something happens along the way. -/
def tally (happens : Run β → Event → Bool) : List Event → Run β → Nat
  | [], _ => 0
  | event :: events, run =>
    (happens run event).toNat + tally happens events (event.apply tables bus run)

/-- The event is a step that begins a level 7 interrupt. -/
def takesSeven (run : Run β) : Event → Bool
  | .step => (run.processor.settle tables).2.any Start.isSeven
  | _ => false

/-- The event is a rise of the level to 7. -/
def risesToSeven (run : Run β) : Event → Bool
  | .drive level => level == 7 && run.processor.interruptLevel != 7
  | _ => false

/-- The event is a step from a boundary at which the level is held at 7 under a lower mask, although
its rise has been taken. -/
def lapses (run : Run β) : Event → Bool
  | .step =>
    let p := run.processor.follow tables fun _ => true
    p.atBoundary tables && p.interruptLevel == 7 && p.registers.mask != 7 && !p.levelSevenRose
  | _ => false

variable {tables bus}

/-- A step keeps the interrupt inputs, and the memory of a rise until it is taken. -/
theorem inputs_step (run : Run β) :
    (run.step tables bus).processor.inputs =
      (run.processor.interruptLevel,
        run.processor.levelSevenRose && !takesSeven tables run .step) := by
  rw [takesSeven, ← Processor.inputs_settle]
  refine ((Processor.blind_fireBusFree tables).inputs _).trans ?_
  exact Processor.inputs_of_control (Processor.control_receive _ _ _)

/-- **An interrupt that no rise backs is a lapse**, and the other way round. -/
theorem lapses_eq (run : Run β) (event : Event) :
    lapses tables run event = (takesSeven tables run event && !run.processor.levelSevenRose) := by
  cases event with
  | drive | edit | owe => rfl
  | step =>
    have hrose : (run.processor.follow tables fun _ => true).levelSevenRose =
        run.processor.levelSevenRose :=
      congrArg Prod.snd ((Processor.blind_follow tables _).inputs _)
    rw [lapses, takesSeven, Processor.settle, ← hrose]
    dsimp only
    generalize (run.processor.follow tables fun _ => true) = p
    cases hboundary : p.atBoundary tables with
    | false => rfl
    | true =>
      have hpending := p.pendingInterrupt?_eq_seven
      simp only [if_true, Option.any_some, Processor.isSeven_start, hpending, Bool.true_and]
      cases p.levelSevenRose with
      | true => simp
      | false => simp [bne, Bool.beq_eq_decide_eq]

/-! ## The account of rises -/

variable (tables bus) in
/-- What is taken in an event and what is still remembered behind it has been remembered before, or
it is a rise or a lapse. -/
theorem account_apply (run : Run β) (event : Event) :
    (takesSeven tables run event).toNat +
        (event.apply tables bus run).processor.levelSevenRose.toNat ≤
      (risesToSeven run event).toNat + (lapses tables run event).toNat +
        run.processor.levelSevenRose.toNat := by
  rw [lapses_eq]
  cases event with
  | step =>
    have hrose : (run.step tables bus).processor.levelSevenRose =
        (run.processor.levelSevenRose && !takesSeven tables run .step) :=
      congrArg Prod.snd (inputs_step run)
    rw [Event.apply, hrose]
    generalize takesSeven tables run .step = taken
    cases taken <;> cases run.processor.levelSevenRose <;> simp
  | drive level =>
    have hrose : (Event.apply tables bus (.drive level) run).processor.levelSevenRose =
        (run.processor.levelSevenRose || risesToSeven run (.drive level)) := rfl
    have htakes : takesSeven tables run (.drive level) = false := rfl
    rw [hrose, htakes]
    cases risesToSeven run (.drive level) <;> cases run.processor.levelSevenRose <;> decide
  | edit | owe => exact Nat.le_refl _

/-- **The account of a run**: every level 7 interrupt uses up a rise of its own, or is a lapse. -/
theorem tally_takesSeven_le (events : List Event) (run : Run β) :
    tally tables bus (takesSeven tables) events run ≤
      tally tables bus risesToSeven events run + tally tables bus (lapses tables) events run +
        run.processor.levelSevenRose.toNat := by
  -- on the events: what is remembered at the end of one is what the next begins with
  induction events generalizing run with
  | nil => exact Nat.zero_le _
  | cons event events ih =>
    have hevent := account_apply tables bus run event
    have hrest := ih (event.apply tables bus run)
    simp only [tally]
    omega

/-- Every lapse is a level 7 interrupt. -/
theorem tally_lapses_le (events : List Event) (run : Run β) :
    tally tables bus (lapses tables) events run ≤
      tally tables bus (takesSeven tables) events run := by
  induction events generalizing run with
  | nil => exact Nat.le_refl _
  | cons event events ih =>
    have hevent : (lapses tables run event).toNat ≤ (takesSeven tables run event).toNat := by
      rw [lapses_eq]
      cases takesSeven tables run event with
      | true => exact Bool.toNat_le _
      | false => exact Nat.le_refl _
    exact Nat.add_le_add hevent (ih _)

/-- **Level 7 is taken once per rise, lapses aside.** From construction on, a level 7 interrupt that
has no rise of its own begins where the level is still held at 7 and the mask is lower, and there
one begins each time. -/
theorem levelSeven_account (bus : Bus β) (b : β) (events : List Event) :
    let tables := Tables.compile forms
    let first := Run.begin (.initial tables) b
    let taken := tally tables bus (takesSeven tables) events first
    let rises := tally tables bus risesToSeven events first
    let lapsed := tally tables bus (lapses tables) events first
    taken ≤ rises + lapsed ∧ lapsed ≤ taken :=
  ⟨tally_takesSeven_le events _, tally_lapses_le events _⟩

/-! ## A lapse -/

theorem tally_append (happens : Run β → Event → Bool) (first second : List Event) (run : Run β) :
    tally tables bus happens (first ++ second) run =
      tally tables bus happens first run +
        tally tables bus happens second (play tables bus first run) := by
  induction first generalizing run with
  | nil => exact (Nat.zero_add _).symm
  | cons event first ih =>
    rw [List.cons_append, tally, tally, ih, Nat.add_assoc]
    rfl

theorem tally_eq_zero {happens : Run β → Event → Bool} {events : List Event}
    (h : ∀ event ∈ events, ∀ run, happens run event = false) (run : Run β) :
    tally tables bus happens events run = 0 := by
  induction events generalizing run with
  | nil => rfl
  | cons event events ih =>
    have hrest := ih (fun event hevent => h event (List.mem_cons_of_mem _ hevent))
      (event.apply tables bus run)
    rw [tally, h event List.mem_cons_self run, hrest]
    rfl

/-- An interrupt pending at a boundary is taken in the next step. -/
theorem takesSeven_of_atBoundary {run : Run β} (hboundary : run.processor.atBoundary tables)
    (hpending : run.processor.pendingInterrupt? = some 7) :
    takesSeven tables run .step = true := by
  rw [takesSeven, Processor.settle_of_atBoundary hboundary, Option.any_some,
    Processor.isSeven_start, hpending]
  rfl

variable (tables bus) in
/-- Go on to the next instruction boundary. -/
def instruct (run : Run β) : Run β :=
  (run.processor.runInstruction tables bus run.bus).after run

@[simp] theorem processor_instruct (run : Run β) :
    (run.instruct tables bus).processor =
      (run.processor.runInstruction tables bus run.bus).processor := rfl

@[simp] theorem snapshot_instruct (run : Run β) :
    (run.instruct tables bus).snapshot =
      (run.processor.runInstruction tables bus run.bus).snapshot := rfl

/-- The events of an instruction run: its overrun is dropped, and it steps. -/
def instructing (n : Nat) : List Event := .owe 0 :: List.replicate (n + 1) .step

/-- No instruction run drives the interrupt inputs. -/
theorem tally_risesToSeven_instructing (n : Nat) (run : Run β) :
    tally tables bus risesToSeven (instructing n) run = 0 := by
  apply tally_eq_zero
  intro event hevent run
  rcases List.mem_cons.1 hevent with rfl | hstep
  · rfl
  · obtain rfl := List.eq_of_mem_replicate hstep
    rfl

variable (bus) in
/-- An instruction run takes an interrupt that is pending where it begins. -/
theorem one_le_tally_takesSeven_instructing (n : Nat) {run : Run β}
    (hboundary : run.processor.atBoundary tables)
    (hpending : run.processor.pendingInterrupt? = some 7) :
    1 ≤ tally tables bus (takesSeven tables) (instructing n) run := by
  have htaken : takesSeven tables (Event.apply tables bus (.owe 0) run) .step = true :=
    takesSeven_of_atBoundary hboundary hpending
  rw [instructing, List.replicate_succ, tally, tally, htaken, Bool.toNat_true]
  omega

variable (tables bus) in
/-- Going on to the next boundary plays some steps. -/
theorem exists_play_instruct (run : Run β) :
    ∃ n, play tables bus (instructing n) run = run.instruct tables bus := by
  have hsteps (stop : Run β → Bool) (limit : Nat) (first : Run β) :
      ∃ n, play tables bus (List.replicate n .step) (first.after run) =
        (first.untilStop tables bus stop limit).after run := by
    induction limit generalizing first with
    | zero => exact ⟨0, rfl⟩
    | succ limit ih =>
      unfold untilStop
      split
      · exact ⟨0, rfl⟩
      · obtain ⟨n, hn⟩ := ih (first.step tables bus)
        refine ⟨n + 1, Eq.trans ?_ hn⟩
        rw [after_step]
        rfl
  obtain ⟨n, hn⟩ := hsteps (fun run => run.processor.atBoundary tables) tables.stepLimit
    ((Run.begin { run.processor with debt := 0 } run.bus).step tables bus)
  refine ⟨n, Eq.trans ?_ hn⟩
  rw [after_step, after_begin]
  rfl

/-! ### A handler that lowers the mask -/

section Lapse

variable (tables)

/-- A new processor after its reset sequence, on a bus that answers with the opcode of `RTE` all the
time. So a return loads a status with a mask of 6. -/
def resetReturn : Run Unit := (begin (.initial tables) ()).instruct tables (Bus.constant 0x4E73)

/-- The level has risen to 7. -/
def raised : Run Unit := (resetReturn tables).modify (·.setInterruptLevel 7)

/-- The interrupt is taken. -/
def handling : Run Unit := (raised tables).instruct tables (Bus.constant 0x4E73)

/-- Its handler has returned. -/
def returned : Run Unit := (handling tables).instruct tables (Bus.constant 0x4E73)

/-- The end of the reset sequence, out of place and time. -/
def resetSnapshot : Snapshot Unit :=
  (Run.begin { Processor.initial tables with debt := 0 } ()).snapshot.perform
    (Bus.constant 0x4E73) FixedPrograms.resetActivity

/-- The risen level, out of place and time. -/
def raisedSnapshot : Snapshot Unit :=
  (resetSnapshot tables).withProcessor ((resetSnapshot tables).processor.setInterruptLevel 7)

/-- The interrupt, out of place and time. -/
def handlingSnapshot : Snapshot Unit :=
  Snapshot.perform (Bus.constant 0x4E73) FixedPrograms.interruptActivity
    ⟨({ (raisedSnapshot tables).processor with debt := 0 } : Processor).accept 7, ()⟩

/-- The return, out of place and time. -/
def returnedSnapshot : Snapshot Unit :=
  (Processor.dispatched (handlingSnapshot tables).processor returnInstruction ()).execute
    (Bus.constant 0x4E73) returnStages

variable {tables}

theorem snapshot_resetReturn (hrealizes : tables.Realizes forms) :
    (resetReturn tables).processor.atBoundary tables ∧
      (resetReturn tables).snapshot = resetSnapshot tables :=
  Processor.snapshot_runInstruction_initial (Bus.constant 0x4E73) hrealizes ()

theorem risesToSeven_resetReturn (hrealizes : tables.Realizes forms) :
    risesToSeven (resetReturn tables) (.drive 7) = true := by
  have hlevel : (resetReturn tables).processor.interruptLevel = 0 :=
    (congrArg (·.processor.interruptLevel) (snapshot_resetReturn hrealizes).2).trans (by cbv)
  rw [risesToSeven, hlevel]
  rfl

theorem snapshot_raised (hrealizes : tables.Realizes forms) :
    (raised tables).processor.atBoundary tables ∧
      (raised tables).snapshot = raisedSnapshot tables := by
  obtain ⟨hboundary, hsnapshot⟩ := snapshot_resetReturn hrealizes
  refine ⟨hboundary, ?_⟩
  rw [raisedSnapshot, ← hsnapshot]
  rfl

theorem pendingInterrupt?_raised (hrealizes : tables.Realizes forms) :
    (raised tables).processor.pendingInterrupt? = some 7 := by
  have hsnapshot := (snapshot_raised hrealizes).2
  have hlevel : (raised tables).processor.interruptLevel = 7 :=
    (congrArg (·.processor.interruptLevel) hsnapshot).trans (by cbv)
  have hrose : (raised tables).processor.levelSevenRose = true :=
    (congrArg (·.processor.levelSevenRose) hsnapshot).trans (by cbv)
  exact (Processor.pendingInterrupt?_eq_seven _).2 ⟨hlevel, .inl hrose⟩

theorem snapshot_handling (hrealizes : tables.Realizes forms) :
    (handling tables).processor.atBoundary tables ∧
      (handling tables).snapshot = handlingSnapshot tables := by
  obtain ⟨hboundary, hsnapshot⟩ := snapshot_raised hrealizes
  have hpending := pendingInterrupt?_raised hrealizes
  have hentry : ((raised tables).processor.start tables).entry = .interrupt 7 := by
    simp only [Processor.start, hpending]
  obtain ⟨hfinal, hinterrupt⟩ :=
    Processor.runInstruction_atBoundary (Bus.constant 0x4E73) hrealizes hboundary ()
  rw [fromStart_interrupt _ hentry] at hinterrupt
  have hperform := snapshot_of_unplaced hinterrupt
  rw [snapshot_perform] at hperform
  rw [handling, processor_instruct, snapshot_instruct, hperform, handlingSnapshot, ← hsnapshot]
  exact ⟨hfinal, rfl⟩

theorem snapshot_returned (hrealizes : tables.Realizes forms) :
    (returned tables).processor.atBoundary tables ∧
      (returned tables).snapshot = returnedSnapshot tables := by
  obtain ⟨hboundary, hsnapshot⟩ := snapshot_handling hrealizes
  have hprocessor : (handling tables).processor.timeless = (handlingSnapshot tables).processor :=
    congrArg (·.processor) hsnapshot
  have hopcode : Half.high.get (handling tables).processor.prefetch = 0x4E73 := by
    rw [← Processor.prefetch_timeless, hprocessor]
    cbv
  have hsupervisor : (handling tables).processor.registers.isSupervisor = true := by
    rw [← Processor.registers_timeless, hprocessor]
    cbv
  have hinterrupt : (handling tables).processor.pendingInterrupt? = none := by
    rw [← Processor.pendingInterrupt?_timeless, hprocessor]
    cbv
  have hdecode : decode? forms (Half.high.get (handling tables).processor.prefetch) =
      some ⟨returnInstruction, returnStages⟩ := by
    rw [hopcode]
    rfl
  have hreturn := Processor.snapshot_runInstruction (Bus.constant 0x4E73) hrealizes hboundary
    hinterrupt hdecode (fun _ => hsupervisor) rfl ()
  have hdispatched : Processor.dispatched (handling tables).snapshot.processor returnInstruction () =
      (handling tables).processor.dispatched returnInstruction () := rfl
  rw [returned, processor_instruct, snapshot_instruct, hreturn, returnedSnapshot, ← hsnapshot,
    hdispatched]
  refine ⟨?_, rfl⟩
  exact (Processor.runInstruction_atBoundary (Bus.constant 0x4E73) hrealizes hboundary ()).1

/-- The handler has lowered the mask, so that the interrupt is pending again. -/
theorem pendingInterrupt?_returned (hrealizes : tables.Realizes forms) :
    (returned tables).processor.pendingInterrupt? = some 7 := by
  have hprocessor : (returned tables).processor.timeless = (returnedSnapshot tables).processor :=
    congrArg (·.processor) (snapshot_returned hrealizes).2
  rw [← Processor.pendingInterrupt?_timeless, hprocessor]
  cbv

/-- **A rise may be taken twice.** The level is held at 7 from its only rise on. -/
theorem levelSeven_taken_again :
    let tables := Tables.compile forms
    let bus := Bus.constant 0x4E73
    let first := Run.begin (.initial tables) ()
    ∃ events : List Event,
      tally tables bus risesToSeven events first = 1 ∧
        2 ≤ tally tables bus (takesSeven tables) events first := by
  have hrealizes := Tables.realizes_compile
  dsimp only
  generalize Tables.compile forms = tables at hrealizes ⊢
  obtain ⟨resetting, hreset⟩ := exists_play_instruct tables (.constant 0x4E73)
    (.begin (.initial tables) ())
  obtain ⟨entering, henter⟩ := exists_play_instruct tables (.constant 0x4E73) (raised tables)
  obtain ⟨returning, hreturn⟩ := exists_play_instruct tables (.constant 0x4E73) (handling tables)
  rw [← resetReturn] at hreset
  rw [← handling] at henter
  rw [← returned] at hreturn
  have hraise : play tables (.constant 0x4E73) [.drive 7] (resetReturn tables) = raised tables :=
    rfl
  refine ⟨instructing resetting ++ ([.drive 7] ++
    (instructing entering ++ (instructing returning ++ [.step]))), ?_, ?_⟩
  · have hrise : tally tables (.constant 0x4E73) risesToSeven [.drive 7] (resetReturn tables) =
        1 := by
      rw [tally, risesToSeven_resetReturn hrealizes]
      rfl
    have hlast : tally tables (.constant 0x4E73) risesToSeven [.step] (returned tables) = 0 := rfl
    rw [tally_append, tally_append, tally_append, tally_append, hreset, hraise, henter, hreturn,
      hrise, hlast]
    simp only [tally_risesToSeven_instructing]
  · -- the return has lowered the mask
    have hentered := one_le_tally_takesSeven_instructing (.constant 0x4E73) entering
      (snapshot_raised hrealizes).1 (pendingInterrupt?_raised hrealizes)
    have hagain : 1 ≤ tally tables (.constant 0x4E73) (takesSeven tables) [.step]
        (returned tables) := by
      rw [tally, takesSeven_of_atBoundary (snapshot_returned hrealizes).1
        (pendingInterrupt?_returned hrealizes), Bool.toNat_true]
      omega
    rw [tally_append, tally_append, tally_append, tally_append, hreset, hraise, henter, hreturn]
    omega

end Lapse

end Run

end M68k
