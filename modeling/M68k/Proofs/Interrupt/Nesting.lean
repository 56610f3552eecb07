import M68k.Proofs.Interrupt.LevelSeven
import M68k.Proofs.Privilege.Isolation

/-!
# Nested interrupts

As long as no instruction writes the status register, only interrupts change the mask, and each of
them raises it to its own level. So a handler is interrupted by higher levels only, or at level 7 by
a new rise of the level, and the mask shows which level was accepted last.

## Main definitions

* `Operation.writesStatus`: the operations that write the status register as a whole
* `Run.starts`, `Run.accepted`, `Run.executed`: what starts along the way
* `Run.KeepsStatus`: nothing but interrupts touches the mask
* `Run.NestsUpwards`: how interrupts follow each other

## Main results

* `Processor.mask_act`: actions leave the mask alone
* `Run.steady_step`: what a step makes of the mask
* `Run.isChain_accepted`: each interrupt is above the one before
* `Run.nestsUpwards`: interrupts never nest downwards
-/

namespace M68k

open Encoding

/-- The operation writes the status register as a whole. -/
def Operation.writesStatus : Operation → Bool
  | moveToSr | bitwiseToSr _ | rte => true
  | _ => false

namespace Start

/-- The instruction that starts. -/
def instruction? (start : Start) : Option Instruction :=
  match start.entry with
  | .instruction entry => some entry.instruction
  | .interrupt _ | .exception _ => none

end Start

/-! ## The mask -/

namespace Processor

variable {tables : Tables} {p : Processor}

theorem mask_beginException (vector : Byte) (returnAddress : Long) :
    (p.beginException tables vector returnAddress).registers.mask = p.registers.mask :=
  (p.handling_enterException returnAddress).mask

/-- Privileged operations that do not write the status register leave it alone. -/
theorem sr_compute_of_isPrivileged (hprivileged : p.instruction.operation.isPrivileged)
    (hquiet : p.instruction.operation.writesStatus = false) :
    p.compute.registers.sr = p.registers.sr := by
  unfold compute
  cases hoperation : p.instruction.operation with
  | moveToSr | bitwiseToSr | rte => simp [hoperation, Operation.writesStatus] at hquiet
  | moveToUsp =>
    simp only [Registers.setUsp]
    split <;> rfl
  | moveFromUsp =>
    simp only [writeDestination]
    cases p.instruction.destination <;> rfl
  | reset => rfl
  | _ => simp [hoperation, Operation.isPrivileged] at hprivileged

/-- **Actions leave the mask alone**, unless they write the status register. -/
theorem mask_act (himplemented : p.registers.Implemented) (action : Action) (target : Target)
    (hquiet : p.instruction.operation.writesStatus = false) :
    (p.act tables action target).1.registers.mask = p.registers.mask := by
  by_cases htrap : p.instruction.operation = .trap
  · rcases p.traps_or_stays action with ⟨rfl, -⟩ | hstays
    · rw [act_of_trap p tables target htrap]
      exact mask_beginException _ _
    · refine (sameSystem_act himplemented tables action target fun haction => ?_).mask
      exact absurd htrap (hstays haction)
  · cases hprivileged : p.instruction.operation.isPrivileged with
    | false =>
      exact (sameSystem_act himplemented tables action target fun _ => ⟨hprivileged, htrap⟩).mask
    | true =>
      -- privileged operations may change the system byte, so that `sameSystem_act` does not apply
      by_cases haction : action = .operate
      · subst haction
        have hcompute : p.act tables .operate target = (p.compute, none) := by
          simp only [act]
          unfold operate
          cases hoperation : p.instruction.operation <;>
            simp [hoperation, Operation.isPrivileged] at hprivileged ⊢
        rw [hcompute, Registers.mask, sr_compute_of_isPrivileged hprivileged hquiet]
        rfl
      · rw [act_of_ne_operate p tables target haction]
        exact (sameSystem_prepare p action target).mask

theorem mask_enterMicroOp (himplemented : p.registers.Implemented)
    (hquiet : p.instruction.operation.writesStatus = false) :
    (p.enterMicroOp tables).registers.mask = p.registers.mask := by
  simp only [enterMicroOp]
  split
  · rfl
  · split <;> exact mask_act himplemented _ _ hquiet

/-- An interrupt pending is above the mask, or has risen to level 7. -/
theorem above_of_pendingInterrupt? {level : Level} (h : p.pendingInterrupt? = some level) :
    p.registers.mask < level ∨ level = 7 ∧ p.levelSevenRose := by
  unfold pendingInterrupt? at h
  split at h
  · rename_i hpending
    cases h
    simpa [Bool.or_eq_true] using hpending
  · cases h

variable (tables) in
/-- The instruction in progress. -/
def underway? (p : Processor) : Option Instruction :=
  if p.phase = .instruction ∧ p.atBoundary tables = false then some p.instruction else none

/-- Instructions leave the status register as a whole alone, and so does the one in progress. -/
structure Steady (mask : Level) (p : Processor) : Prop where
  implemented : p.registers.Implemented
  mask : p.registers.mask = mask
  quiet : p.phase = .instruction → p.instruction.operation.writesStatus = false

theorem steady_enterMicroOp {mask : Level} (h : p.Steady mask) (hphase : p.phase = .instruction) :
    (p.enterMicroOp tables).Steady mask where
  implemented := implemented_enterMicroOp h.implemented
  mask := (mask_enterMicroOp h.implemented (h.quiet hphase)).trans h.mask
  quiet _ := by
    rw [instruction_enterMicroOp]
    exact h.quiet hphase

theorem Steady.underway? {mask : Level} (h : p.Steady mask) :
    ∀ instruction ∈ p.underway? tables, instruction.operation.writesStatus = false := by
  intro instruction hmem
  rw [Processor.underway?] at hmem
  split at hmem
  · rename_i hunderway
    cases hmem
    exact h.quiet hunderway.1
  · cases hmem

/-- What starts goes on steadily, an interrupt under its own level. -/
theorem steady_begin (himplemented : p.registers.Implemented) (start : Start)
    (hquiet : ∀ instruction ∈ start.instruction?, instruction.operation.writesStatus = false) :
    (p.begin tables start).Steady (start.level?.getD p.registers.mask) := by
  obtain ⟨opcode, address, entry⟩ := start
  cases entry with
  | interrupt level =>
    exact
      { implemented := implemented_begin himplemented _
        mask := (p.handling_enterException _).setMask level |>.mask
        quiet := fun h => by cases h }
  | exception vector =>
    exact
      { implemented := implemented_begin himplemented _
        mask := mask_beginException _ _
        quiet := fun h => by cases h }
  | instruction entry =>
    exact steady_enterMicroOp ⟨himplemented, rfl, fun _ => hquiet _ rfl⟩ rfl

end Processor

/-! ## What starts along the way -/

namespace Run

variable {β : Type} {tables : Tables} {bus : Bus β}

/-- Going along a chain and running a step are steady. -/
theorem carried_steady (mask : Level) :
    Carried tables bus fun run => run.processor.Steady mask where
  enter run h hphase _ _ :=
    Processor.steady_enterMicroOp (p := { run.processor with microOp := run.processor.microOp + 1 })
      ⟨h.implemented, h.mask, h.quiet⟩ hphase
  transact run _ h _ :=
    { implemented := (run.processor.sameSystem_receive _ _).implemented h.implemented
      mask := (run.processor.sameSystem_receive _ _).mask.trans h.mask
      quiet := fun hphase =>
        (congrArg (·.operation.writesStatus) (run.processor.instruction_receive _ _)).trans
          (h.quiet ((run.processor.phase_receive _ _).symm.trans hphase)) }

variable (tables) in
/-- What starts in an event. -/
def started (run : Run β) : Event → Option Start
  | .step => (run.processor.settle tables).2
  | .drive _ | .edit _ | .owe _ => none

variable (tables bus) in
/-- What starts along the way. -/
def starting : List Event → Run β → List Start
  | [], _ => []
  | event :: events, run =>
    (started tables run event).toList ++ starting events (event.apply tables bus run)

variable (tables bus) in
/-- The levels of the interrupts that are accepted along the way. -/
def accepted (events : List Event) (run : Run β) : List Level :=
  (starting tables bus events run).filterMap Start.level?

variable (tables bus) in
/-- The instructions that are executed along the way, beginning with the one in progress. -/
def executed (events : List Event) (run : Run β) : List Instruction :=
  (run.processor.underway? tables).toList ++
    (starting tables bus events run).filterMap Start.instruction?

variable (tables bus) in
/-- The host edits no registers, and no instruction writes the status register as a whole. -/
structure KeepsStatus (events : List Event) (run : Run β) : Prop where
  unedited : ∀ event ∈ events, ∀ registers, event ≠ .edit registers
  quiet : ∀ instruction ∈ executed tables bus events run,
    instruction.operation.writesStatus = false

/-! ## A step -/

/-- **What a step makes of the mask**: the level of the interrupt that it accepts, if it does. -/
theorem steady_step (hrealizes : tables.Realizes forms) {run : Run β}
    (hreachable : run.Reachable tables bus implementedEdits)
    (hunderway : ∀ instruction ∈ run.processor.underway? tables,
      instruction.operation.writesStatus = false)
    (hstart : ∀ start ∈ started tables run .step, ∀ instruction ∈ start.instruction?,
      instruction.operation.writesStatus = false) :
    (run.step tables bus).processor.Steady
      (((started tables run .step).bind Start.level?).getD run.processor.registers.mask) := by
  have himplemented := hreachable.implemented hrealizes
  obtain ⟨horderly, hsettled⟩ := hreachable.orderly hrealizes
  cases hboundary : run.processor.atBoundary tables with
  | true =>
    have hstarted : started tables run .step = some (run.processor.start tables) := by
      rw [started, Processor.settle_of_atBoundary hboundary]
    rw [hstarted] at hstart ⊢
    refine (carried_steady _).step hrealizes horderly hsettled (fun _ => ?_)
      fun hunderway => by rw [hboundary] at hunderway; cases hunderway
    exact Processor.steady_begin himplemented _ (hstart _ rfl)
  | false =>
    have hstarted : started tables run .step = none := by
      rw [started, Processor.settle_underway hrealizes horderly hsettled hboundary]
    rw [hstarted]
    refine (carried_steady _).step hrealizes horderly hsettled
      (fun h => by rw [hboundary] at h; cases h) fun _ => ⟨himplemented, rfl, fun hphase => ?_⟩
    exact hunderway _ (if_pos ⟨hphase, hboundary⟩)

/-- Events lead from session to session, keep the status, and accept interrupts above the mask. -/
theorem KeepsStatus.next (hrealizes : tables.Realizes forms) {run : Run β} {event : Event}
    {events : List Event} (hreachable : run.Reachable tables bus implementedEdits)
    (h : KeepsStatus tables bus (event :: events) run) :
    (event.apply tables bus run).Reachable tables bus implementedEdits ∧
      KeepsStatus tables bus events (event.apply tables bus run) ∧
      (event.apply tables bus run).processor.registers.mask =
        ((started tables run event).bind Start.level?).getD run.processor.registers.mask := by
  have hunedited := (List.forall_mem_cons.1 h.unedited).2
  have hquiet := h.quiet
  simp only [executed, starting, List.filterMap_append, List.forall_mem_append] at hquiet
  obtain ⟨hunderway, hstart, hrest⟩ := hquiet
  cases event with
  | edit registers => exact absurd rfl ((List.forall_mem_cons.1 h.unedited).1 registers)
  | drive level =>
    exact ⟨hreachable.move (.setInterruptLevel _ _),
      ⟨hunedited, List.forall_mem_append.2 ⟨hunderway, hrest⟩⟩, rfl⟩
  | owe debt =>
    exact ⟨hreachable.move (.owe _ _),
      ⟨hunedited, List.forall_mem_append.2 ⟨hunderway, hrest⟩⟩, rfl⟩
  | step =>
    have hsteady := steady_step hrealizes hreachable
      (fun instruction hmem => hunderway instruction (Option.mem_toList.2 hmem))
      fun start hmem instruction hinstruction => hstart instruction
        (List.mem_filterMap.2 ⟨start, Option.mem_toList.2 hmem, hinstruction⟩)
    refine ⟨hreachable.move (.step _), ⟨hunedited, List.forall_mem_append.2 ⟨?_, hrest⟩⟩,
      hsteady.mask⟩
    exact fun instruction hmem => hsteady.underway? instruction (Option.mem_toList.1 hmem)

/-- An interrupt that is accepted is above the mask, or has risen to level 7. -/
theorem above_of_started (hrealizes : tables.Realizes forms) {run : Run β} {event : Event}
    {level : Level} (hreachable : run.Reachable tables bus edit)
    (h : (started tables run event).bind Start.level? = some level) :
    run.processor.registers.mask < level ∨ level = 7 ∧ run.processor.levelSevenRose := by
  obtain ⟨horderly, hsettled⟩ := hreachable.orderly hrealizes
  cases event with
  | drive | edit | owe => cases h
  | step =>
    rw [started] at h
    cases hboundary : run.processor.atBoundary tables with
    | true =>
      rw [Processor.settle_of_atBoundary hboundary, Option.bind_some, Processor.level?_start] at h
      exact Processor.above_of_pendingInterrupt? h
    | false =>
      rw [Processor.settle_underway hrealizes horderly hsettled hboundary] at h
      cases h

/-- An interrupt of level 7 is one of those that are accepted. -/
theorem takesSeven_eq (run : Run β) (event : Event) :
    takesSeven tables run event =
      ((started tables run event).bind Start.level?).any (· == 7) := by
  cases event with
  | drive | edit | owe => rfl
  | step =>
    rw [takesSeven, started]
    cases (run.processor.settle tables).2 with
    | none => rfl
    | some start => exact Processor.isSeven_eq start

/-! ## Runs of events -/

theorem starting_append (first second : List Event) (run : Run β) :
    starting tables bus (first ++ second) run =
      starting tables bus first run ++ starting tables bus second (play tables bus first run) := by
  induction first generalizing run with
  | nil => rfl
  | cons event first ih =>
    rw [List.cons_append, starting, starting, ih, List.append_assoc]
    rfl

theorem accepted_cons (event : Event) (events : List Event) (run : Run β) :
    accepted tables bus (event :: events) run =
      ((started tables run event).bind Start.level?).toList ++
        accepted tables bus events (event.apply tables bus run) := by
  rw [accepted, starting, List.filterMap_append, ← accepted]
  cases started tables run event with
  | none => rfl
  | some start => cases hlevel : start.level? <;> simp [hlevel]

theorem KeepsStatus.left {first second : List Event} {run : Run β}
    (h : KeepsStatus tables bus (first ++ second) run) : KeepsStatus tables bus first run where
  unedited := (List.forall_mem_append.1 h.unedited).1
  quiet := by
    have hquiet := h.quiet
    rw [executed, starting_append, List.filterMap_append, ← List.append_assoc] at hquiet
    exact (List.forall_mem_append.1 hquiet).1

/-- What is left of the events keeps the status, too. -/
theorem KeepsStatus.right (hrealizes : tables.Realizes forms) {first second : List Event}
    {run : Run β} (hreachable : run.Reachable tables bus implementedEdits)
    (h : KeepsStatus tables bus (first ++ second) run) :
    (play tables bus first run).Reachable tables bus implementedEdits ∧
      KeepsStatus tables bus second (play tables bus first run) := by
  induction first generalizing run with
  | nil => exact ⟨hreachable, h⟩
  | cons event first ih =>
    obtain ⟨hnext, hkeeps, -⟩ := h.next hrealizes hreachable
    exact ih hnext hkeeps

/-- An interrupt of a level may come under a mask. -/
def Interrupts (mask level : Level) : Prop := mask < level ∨ mask = 7 ∧ level = 7

/-- The highest level may come under any mask. -/
theorem interrupts_seven (mask : Level) : Interrupts mask 7 := by
  unfold Interrupts
  revert mask
  decide

theorem Interrupts.le {mask level : Level} (h : Interrupts mask level) : mask ≤ level := by
  rcases h with h | ⟨rfl, rfl⟩
  · exact BitVec.le_of_lt h
  · exact BitVec.le_refl _

variable {events : List Event} {run : Run β} (hrealizes : tables.Realizes forms)
  (hreachable : run.Reachable tables bus implementedEdits)
  (hkeeps : KeepsStatus tables bus events run)
include hrealizes hreachable hkeeps

/-- **Each interrupt is above the one before**, or at level 7 like that. -/
theorem isChain_accepted :
    (run.processor.registers.mask :: accepted tables bus events run).IsChain Interrupts := by
  -- the chain of what is left begins with the mask, which is the level that is accepted now
  induction events generalizing run with
  | nil => exact .singleton _
  | cons event events ih =>
    obtain ⟨hnext, hrest, hmask⟩ := hkeeps.next hrealizes hreachable
    have hchain := ih hnext hrest
    rw [accepted_cons]
    cases htaken : (started tables run event).bind Start.level? with
    | none =>
      rw [htaken] at hmask
      rw [hmask] at hchain
      exact hchain
    | some level =>
      rw [htaken] at hmask
      rw [hmask] at hchain
      refine List.isChain_cons_cons.2 ⟨?_, hchain⟩
      rcases above_of_started hrealizes hreachable htaken with habove | ⟨rfl, -⟩
      · exact .inl habove
      · exact interrupts_seven _

/-- **The mask is the level accepted last.** -/
theorem mask_play :
    (accepted tables bus events run).getLast?.getD run.processor.registers.mask =
      (play tables bus events run).processor.registers.mask := by
  induction events generalizing run with
  | nil => rfl
  | cons event events ih =>
    obtain ⟨hnext, hrest, hmask⟩ := hkeeps.next hrealizes hreachable
    rw [accepted_cons]
    refine Eq.trans ?_ (ih hnext hrest)
    rw [hmask]
    cases (started tables run event).bind Start.level? with
    | none => rfl
    | some level =>
      rw [Option.toList_some, List.singleton_append, List.getLast?_cons]
      rfl

theorem mask_le_play :
    run.processor.registers.mask ≤ (play tables bus events run).processor.registers.mask := by
  induction events generalizing run with
  | nil => exact BitVec.le_refl _
  | cons event events ih =>
    obtain ⟨hnext, hrest, hmask⟩ := hkeeps.next hrealizes hreachable
    have hchain := isChain_accepted hrealizes hreachable hkeeps
    have hlater := ih hnext hrest
    rw [hmask] at hlater
    rw [accepted_cons] at hchain
    cases htaken : (started tables run event).bind Start.level? with
    | none =>
      rw [htaken] at hlater
      exact hlater
    | some level =>
      rw [htaken] at hlater hchain
      exact BitVec.le_trans (List.isChain_cons_cons.1 hchain).1.le hlater

/-- Under a mask of 7 every interrupt takes a rise. -/
theorem length_accepted_le (hseven : run.processor.registers.mask = 7) :
    (accepted tables bus events run).length ≤
      tally tables bus risesToSeven events run + run.processor.levelSevenRose.toNat := by
  -- the rise that is remembered counts as one more
  induction events generalizing run with
  | nil => exact Nat.zero_le _
  | cons event events ih =>
    obtain ⟨hnext, hrest, hmask⟩ := hkeeps.next hrealizes hreachable
    have hevent := account_apply tables bus run event
    have hcount :
        ((started tables run event).bind Start.level?).toList.length =
          (takesSeven tables run event).toNat ∧ lapses tables run event = false ∧
        (event.apply tables bus run).processor.registers.mask = 7 := by
      rw [lapses_eq, takesSeven_eq, hmask, hseven]
      cases htaken : (started tables run event).bind Start.level? with
      | none => exact ⟨rfl, rfl, rfl⟩
      | some level =>
        obtain ⟨rfl, hrose⟩ : level = 7 ∧ run.processor.levelSevenRose := by
          have htop : ∀ level : Level, ¬ 7 < level := by decide
          refine (above_of_started hrealizes hreachable htaken).resolve_left ?_
          rw [hseven]
          exact htop level
        rw [hrose]
        exact ⟨rfl, rfl, rfl⟩
    obtain ⟨hlength, hlapses, hnextSeven⟩ := hcount
    have hlater := ih hnext hrest hnextSeven
    rw [hlapses] at hevent
    rw [accepted_cons, List.length_append, hlength, tally]
    simp only [Bool.toNat_false] at hevent
    omega

omit hrealizes hreachable hkeeps

variable (tables bus) in
/-- How interrupts follow each other along some events. -/
structure NestsUpwards (events : List Event) (run : Run β) : Prop where
  /-- The mask never decreases. -/
  mask_le : ∀ earlier middle later, events = earlier ++ middle ++ later →
    (play tables bus earlier run).processor.registers.mask ≤
      (play tables bus (earlier ++ middle) run).processor.registers.mask
  /-- It is the level accepted last, once one has been accepted. -/
  mask_eq : ∀ earlier later level, events = earlier ++ later →
    (accepted tables bus earlier run).getLast? = some level →
      (play tables bus earlier run).processor.registers.mask = level
  /-- The levels accepted one after the other rise strictly, until they stay at 7. -/
  increasing : (accepted tables bus events run).IsChain fun level next =>
    level < next ∨ level = 7 ∧ next = 7
  /-- Once level 7 is accepted, each further interrupt takes a further rise to 7. -/
  rises : ∀ earlier later, events = earlier ++ .step :: later →
    accepted tables bus [.step] (play tables bus earlier run) = [7] →
      let handler := play tables bus (earlier ++ [.step]) run
      (accepted tables bus later handler).length ≤ tally tables bus risesToSeven later handler

theorem nestsUpwards_of_keepsStatus (hrealizes : tables.Realizes forms) {first : Run β}
    (hreachable : first.Reachable tables bus implementedEdits) {events : List Event}
    (hkeeps : KeepsStatus tables bus events first) : NestsUpwards tables bus events first := by
  constructor
  case mask_le =>
    rintro earlier middle later rfl
    obtain ⟨hmiddle, hrest⟩ := KeepsStatus.right hrealizes hreachable hkeeps.left
    rw [play, play, List.foldl_append]
    exact mask_le_play hrealizes hmiddle hrest
  case mask_eq =>
    rintro earlier later level rfl hlast
    rw [← mask_play hrealizes hreachable hkeeps.left, hlast]
    rfl
  case increasing => exact (isChain_accepted hrealizes hreachable hkeeps).tail
  case rises =>
    rintro earlier later rfl htaken
    obtain ⟨hrun, hrest⟩ := KeepsStatus.right hrealizes hreachable hkeeps
    obtain ⟨hnext, hlater, hmask⟩ := hrest.next hrealizes hrun
    rw [play, List.foldl_append, ← play]
    set run := play tables bus earlier first
    have hseven : (started tables run .step).bind Start.level? = some 7 := by
      rw [accepted_cons] at htaken
      cases hlevel : (started tables run .step).bind Start.level? with
      | none =>
        rw [hlevel] at htaken
        cases htaken
      | some level =>
        rw [hlevel] at htaken
        exact congrArg some (List.cons.inj htaken).1
    have hrose : (run.step tables bus).processor.levelSevenRose = false := by
      have hinputs := congrArg Prod.snd (@inputs_step _ tables bus run)
      rw [takesSeven_eq, hseven] at hinputs
      exact hinputs.trans (Bool.and_false _)
    rw [hseven] at hmask
    have hcount := length_accepted_le hrealizes hnext hlater hmask
    rw [Event.apply, hrose] at hcount
    exact hcount

/-- **Masked interrupts never nest downwards**, whatever the host has done before, as long as it
edits no registers and no instruction writes the status register as a whole. -/
theorem nestsUpwards {first : Run β}
    (hreachable : first.Reachable (.compile forms) bus implementedEdits) {events : List Event}
    (hkeeps : KeepsStatus (.compile forms) bus events first) :
    NestsUpwards (.compile forms) bus events first :=
  nestsUpwards_of_keepsStatus Tables.realizes_compile hreachable hkeeps

/-- With the mask at 0, a level of 3 starts an interrupt. -/
theorem starting_userNop (hrealizes : tables.Realizes forms) (bus : Bus Unit) :
    ∃ start, starting tables bus [.drive 3, .step] (userNop tables) = [start] ∧
      start.level? = some 3 ∧ start.instruction? = none := by
  set driven := (userNop tables).modify (·.setInterruptLevel 3)
  have hboundary : driven.processor.atBoundary tables := (boundary_userNop hrealizes).1
  have hpending : driven.processor.pendingInterrupt? = some 3 := by
    have hmask : driven.processor.registers.mask = (0 : Word).extractLsb' 8 3 := rfl
    have hlevel : driven.processor.interruptLevel = 3 := rfl
    rw [Processor.pendingInterrupt?, hmask, hlevel]
    rfl
  have hentry : (driven.processor.start tables).entry = .interrupt 3 := by
    simp only [Processor.start, hpending]
  refine ⟨driven.processor.start tables, ?_, ?_, ?_⟩
  · have hstarted : started tables driven .step = some (driven.processor.start tables) := by
      rw [started, Processor.settle_of_atBoundary hboundary]
    exact congrArg (fun start : Option Start => start.toList ++ []) hstarted
  · rw [Start.level?, hentry]
  · rw [Start.instruction?, hentry]

theorem keepsStatus_userNop (hrealizes : tables.Realizes forms) (bus : Bus Unit) :
    KeepsStatus tables bus [.drive 3, .step] (userNop tables) ∧
      accepted tables bus [.drive 3, .step] (userNop tables) = [3] := by
  obtain ⟨start, hstarting, hlevel, hinstruction⟩ := starting_userNop hrealizes bus
  have hidle : (userNop tables).processor.underway? tables = none := by
    rw [Processor.underway?, (boundary_userNop hrealizes).1]
    exact if_neg fun h => by cases h.2
  refine ⟨⟨by simp, ?_⟩, ?_⟩
  · rw [executed, hidle, hstarting, List.filterMap_cons, hinstruction]
    simp
  · rw [accepted, hstarting, List.filterMap_cons, hlevel]
    rfl

/-- In user mode with the mask at 0, level 3 is accepted. -/
theorem nestsUpwards_userNop :
    let bus := Bus.constant 0x4E71
    let first := userNop (.compile forms)
    first.Reachable (.compile forms) bus implementedEdits ∧
      KeepsStatus (.compile forms) bus [.drive 3, .step] first ∧
      accepted (.compile forms) bus [.drive 3, .step] first = [3] ∧
      NestsUpwards (.compile forms) bus [.drive 3, .step] first := by
  intro bus first
  have hreachable := (reachable_userNop Tables.realizes_compile).1
  obtain ⟨hkeeps, haccepted⟩ := keepsStatus_userNop Tables.realizes_compile bus
  exact ⟨hreachable, hkeeps, haccepted, nestsUpwards hreachable hkeeps⟩

end Run

end M68k
