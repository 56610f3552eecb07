import M68k.Proofs.Session.Rounds
import M68k.Proofs.Timing.Choices

/-!
# Counting down

A loop that branches to itself does nothing but count. It is executed once more than the number it
counts from, since it has run out when it passes zero. Each time the queue is filled anew from where
the program goes on, which is the loop itself until the last time. The words of the program have to
stay what they are, but the bus may be slow, and the host may drive the interrupt inputs as long as
it lets no interrupt in.

## Main definitions

* `Registers.counter`, `Registers.setCounter`: the number that a loop counts with
* `Reference.Spins`: a loop that branches to itself
* `Rounds.counting`, `Rounds.runOut`: what its executions come to

## Main results

* `Processor.completed_back`, `Processor.completed_through`: a single execution of such a loop
* `Run.loop_runs_out`: the loop runs its counter out
-/

namespace M68k

open Encoding Reference

variable {β : Type} {tables : Tables} {bus : Bus β} {words : Long → Word} {holds : β → Prop}

/-! ## Counters -/

namespace Registers

variable (r : Registers) (n : RegisterIndex)

/-- The number that a loop counts with: the low word of a data register. -/
def counter : Word := Half.low.get (r.data n)

/-- Replace the counter, and keep the upper word. -/
def setCounter (counter : Word) : Registers := r.setData n (Half.low.set (r.data n) counter)

@[simp] theorem counter_setCounter (counter : Word) :
    (r.setCounter n counter).counter n = counter := by
  rw [Registers.counter, setCounter, data_setData_self, Half.get_set_self]

theorem setCounter_setCounter (first second : Word) :
    (r.setCounter n first).setCounter n second = r.setCounter n second := by
  have hdata : (r.setCounter n first).data n = Half.low.set (r.data n) first :=
    r.data_setData_self n _
  have hlow : Half.low.set (Half.low.set (r.data n) first) second =
      Half.low.set (r.data n) second := congrArg (· ++ second) (Half.high_get_low_set _ _)
  rw [setCounter, hdata, hlow, setCounter, setCounter]
  simp only [setData, Vector.set_set]

theorem setCounter_counter : r.setCounter n (r.counter n) = r := by
  have hdata : Half.low.set (r.data n) (r.counter n) = r.data n := Half.high_append_low _
  rw [setCounter, hdata]
  simp only [setData, data, Vector.set_getElem_self, Fin.getElem_fin]

end Registers

/-! ## Loops that branch to themselves -/

namespace Reference

/-- The instruction of a loop. -/
def loopInstruction (opcode : Word) : Instruction :=
  (Instruction.bare .dbcc .word).withDestination .dataRegister (lowerRegister opcode)

/-- At an address there is a loop that branches to itself, and its condition does not hold. -/
structure Spins (words : Long → Word) (address : Long) (r : Registers) : Prop where
  loops : words address &&& 0xF0F8 = 0x50C8
  /-- The displacement counts from the word after the opcode. -/
  displacement : words (address + 2) = 0xFFFE
  condition : conditionHolds (words address) r = false

variable (tables words) in
/-- The program is at such a loop, which counts with register `n` and is in the tables. -/
structure AtLoop (address : Long) (n : RegisterIndex) (entry : TableEntry) (r : Registers) : Prop
    extends Spins words address r where
  place : here r = address
  register : .ofField (words address).toNat = n
  listed : tables.entry? (words address) = some entry
  instruction : entry.instruction = loopInstruction (words address)

variable {address : Long} {n : RegisterIndex} {entry : TableEntry} {r : Registers}

theorem Spins.decode (h : Spins words address r) :
    decode? forms (words address) =
      some ⟨loopInstruction (words address), [] ++ [.act .operate .nowhere]⟩ :=
  decode?_loop h.loops (setOrLoop_of_loop h.loops)

/-- The tables have every loop. -/
theorem Spins.exists_atLoop (h : Spins words address r) (hrealizes : tables.Realizes forms)
    (hplace : here r = address) :
    ∃ entry, AtLoop tables words address (.ofField (words address).toNat) entry r := by
  have hdecode := h.decode
  rw [← hrealizes.recipe, Tables.recipe?, Option.map_eq_some_iff] at hdecode
  obtain ⟨entry, hentry, hrecipe⟩ := hdecode
  exact ⟨entry, h, hplace, rfl, hentry, congrArg Recipe.instruction hrecipe⟩

/-- Counting leads nowhere else. -/
theorem AtLoop.setCounter (h : AtLoop tables words address n entry r) (counter : Word) :
    AtLoop tables words address n entry (r.setCounter n counter) :=
  { h with }

end Reference

/-! ## One execution -/

namespace Processor

/-- The opcode comes first in the queue. -/
theorem high_of_queue {p : Processor} {first second : Word} (h : p.prefetch = first ++ second) :
    Half.high.get p.prefetch = first :=
  (congrArg Half.high.get h).trans BitVec.extractLsb'_append_eq_left

section

variable (hbus : bus.Supplies words holds) (hrealizes : tables.Realizes forms) {p : Processor}
  {b : β} (hholds : holds b) (hboundary : p.atBoundary tables)
  (hinterrupt : p.pendingInterrupt? = none)
include hbus hrealizes hholds hboundary hinterrupt

/-- A turn ends with a refill, and the queue is good for where the program goes on. -/
theorem completed_of_turn {instruction : Instruction} {activity : Activity}
    {turned : Processor} {next : Long} {r : Registers} {time : HalfCycles}
    (hdecode : decode? forms (Half.high.get p.prefetch) =
      some ⟨instruction, [] ++ [.act .operate .nowhere]⟩)
    (hturns : instruction.operation.turns) (hunprivileged : instruction.requiresSupervisor = false)
    (hturn : (p.dispatchedRun instruction b).processor.turn =
      (turned, activity ++ (.fetch ++ .fetch)))
    (hcomes : ∀ run : Run β, run.ComesTo holds turned [] →
      ∃ q, (run.perform bus activity).ComesTo holds q [] ∧ q.registers = { r with pc := next })
    (htime : activity.time + 16 = time) :
    (p.runInstruction tables bus b).Completed tables bus words holds b (p.start tables)
      { count := 1
        next := next
        registers := r
        fetched := Fetched.refill words next
        time := time } := by
  have hunplaced := unplaced_runInstruction_turn bus hrealizes hboundary hinterrupt hdecode hturns
    hunprivileged nofun b
  have hfixed : (activity ++ (.fetch ++ .fetch) : Activity).isFlexible = false := by
    have hfixed := isFlexible_turn (p.dispatchedRun instruction b).processor
    rwa [hturn] at hfixed
  simp only [Run.execute_nil, hturn] at hunplaced
  obtain ⟨requests, hrequests, hfollow, hspent⟩ := Run.exists_requests_perform bus
    (activity ++ (.fetch ++ .fetch)) ((p.dispatchedRun instruction b).withProcessor turned)
  have hasked : (p.runInstruction tables bus b).requests = requests :=
    (Run.requests_of_unplaced hunplaced).trans hrequests
  obtain ⟨q, hacted, hregisters⟩ :=
    hcomes ((p.dispatchedRun instruction b).withProcessor turned) ⟨rfl, rfl, hholds⟩
  have hrefilled := hacted.refill hbus
  rw [← Run.perform_append, hregisters] at hrefilled
  have htimeless := (congrArg (fun p : Processor => { p with clock := 0 })
    (Run.processor_of_unplaced hunplaced)).trans hrefilled.processor
  exact
    { boundary := (runInstruction_atBoundary bus hrealizes hboundary b).1
      registers := (congrArg Processor.registers htimeless :)
      prefetch := (congrArg Processor.prefetch htimeless :)
      starts := by
        rw [(ready_of_atBoundary hboundary).starts_runInstruction bus hrealizes, if_pos hboundary]
        rfl
      fetched := (Run.fetched_of_unplaced hunplaced).trans hrefilled.fetched
      spent := by
        rw [Run.spent_of_unplaced hunplaced, hspent, hasked,
          Activity.elapsed_of_fixed hfixed, Activity.time_append, ← htime]
        exact congrArg (· + _) (Nat.zero_add _)
      since := by
        rw [Run.Since, hasked, Run.bus_of_unplaced hunplaced, hfollow]
        rfl
      holds := by
        rw [Run.bus_of_unplaced hunplaced]
        exact hrefilled.bus }

end

section

variable {p : Processor} {address : Long} {n : RegisterIndex} {entry : TableEntry}
  (hloop : AtLoop tables words address n entry p.registers)
  (hqueue : p.prefetch = words address ++ words (address + 2))
include hloop hqueue

/-- The loop starts if no interrupt comes before it. -/
theorem start_of_atLoop (hinterrupt : p.pendingInterrupt? = none) :
    p.start tables = ⟨words address, address, .instruction entry⟩ := by
  have hunprivileged : entry.instruction.requiresSupervisor = false := by
    rw [hloop.instruction]
    rfl
  simp only [start, hinterrupt, high_of_queue hqueue, hloop.listed, hunprivileged, Bool.false_and,
    Bool.false_eq_true, if_false]
  rw [← hloop.place, here]

/-- The turn of the loop, which goes on counting or has run out. -/
theorem turn_of_atLoop (b : β) :
    let counted := p.registers.setCounter n (p.registers.counter n - 1)
    let q := (p.dispatchedRun (loopInstruction (words address)) b).processor
    q.turn =
      if p.registers.counter n = 0 then
        ({ q with registers := counted, expiredTarget := address },
          .idle 4 ++ FixedPrograms.expiredLoopRead ++ (.fetch ++ .fetch))
      else
        ({ q with registers := { counted with pc := address } },
          .idle 4 ++ (.fetch ++ .fetch)) := by
  intro counted q
  have hlast (counter : Word) : counter - 1 = 0xFFFF ↔ counter = 0 := by bv_omega
  have hindex : q.instruction.destinationRegister.index = n :=
    (RegisterNumber.index_ofField _).trans hloop.register
  have hcondition : q.conditionHolds = false := by
    have hopcode : q.opcode = words address := high_of_queue hqueue
    have hcondition := hloop.condition
    rw [← hopcode] at hcondition
    exact hcondition
  have htarget : q.wordBranchTarget = address := by
    have hlow : Half.low.get p.prefetch = 0xFFFE := by
      rw [hqueue, ← hloop.displacement]
      exact BitVec.extractLsb'_append_eq_right
    have hdisplacement : Size.word.signExtend p.prefetch = -2 := by
      rw [Size.signExtend_word, hlow]
      rfl
    change p.registers.pc - 2 + Size.word.signExtend p.prefetch = address
    rw [hdisplacement, ← hloop.place, here]
    bv_omega
  simp only [turn, turnLoop, hcondition, hindex, htarget, Bool.false_eq_true, if_false]
  change (if p.registers.counter n - 1 = 0xFFFF then _ else _) = _
  simp only [hlast]
  split <;> rfl

variable (hbus : bus.Supplies words holds) (hrealizes : tables.Realizes forms) {b : β}
  (hholds : holds b) (hboundary : p.atBoundary tables)
  (hinterrupt : p.pendingInterrupt? = none)
include hbus hrealizes hholds hboundary hinterrupt

/-- **The loop goes back to itself** as long as it can count down. -/
theorem completed_back (hcounts : p.registers.counter n ≠ 0) :
    (p.runInstruction tables bus b).Completed tables bus words holds b
      ⟨words address, address, .instruction entry⟩
      { count := 1
        next := address
        registers := p.registers.setCounter n (p.registers.counter n - 1)
        fetched := Fetched.refill words address
        time := 20 } := by
  have hturn := (turn_of_atLoop hloop hqueue b).trans (if_neg hcounts)
  have hdecode : decode? forms (Half.high.get p.prefetch) = some _ :=
    (congrArg (decode? forms) (high_of_queue hqueue)).trans hloop.decode
  rw [← start_of_atLoop hloop hqueue hinterrupt]
  exact completed_of_turn hbus hrealizes hholds hboundary hinterrupt hdecode rfl rfl hturn
    (fun run hrun => ⟨_, hrun.idle hbus 4, rfl⟩) rfl

/-- **It goes on behind itself** when it has run out. -/
theorem completed_through (hcounts : p.registers.counter n = 0) :
    (p.runInstruction tables bus b).Completed tables bus words holds b
      ⟨words address, address, .instruction entry⟩
      { count := 1
        next := address + 4
        registers := p.registers.setCounter n 0xFFFF
        fetched := Fetched.refill words (address + 4)
        time := 28 } := by
  have hturn := (turn_of_atLoop hloop hqueue b).trans (if_pos hcounts)
  have hdecode : decode? forms (Half.high.get p.prefetch) = some _ :=
    (congrArg (decode? forms) (high_of_queue hqueue)).trans hloop.decode
  have hcounted : p.registers.setCounter n (p.registers.counter n - 1) =
      { p.registers.setCounter n 0xFFFF with pc := address + 4 } := by
    rw [hcounts]
    exact (goTo_of_here (hloop.setCounter 0xFFFF).place).symm
  rw [← start_of_atLoop hloop hqueue hinterrupt]
  refine completed_of_turn hbus hrealizes hholds hboundary hinterrupt hdecode rfl rfl hturn
    (fun run hrun => ?_) rfl
  obtain ⟨data, hread⟩ := (hrun.idle hbus 4).expiredLoopRead hbus
  rw [← Run.perform_append] at hread
  exact ⟨_, hread, hcounted⟩

end

end Processor

/-! ## All executions -/

namespace Rounds

variable (words) (address : Long) (r : Registers) (n : RegisterIndex)

/-- So many executions of a loop that goes back to itself. -/
def counting (count : Nat) : Rounds where
  count := count
  next := address
  registers := r.setCounter n (r.counter n - BitVec.ofNat 16 count)
  fetched := (List.replicate count (Fetched.refill words address)).flatten
  time := 20 * count

/-- All its executions, one more than it counts from. -/
def runOut : Rounds where
  count := (r.counter n).toNat + 1
  next := address + 4
  registers := r.setCounter n 0xFFFF
  fetched :=
    Fetched.refill words (address + 4) ++ (counting words address r n (r.counter n).toNat).fetched
  time := 20 * (r.counter n).toNat + 28

end Rounds

namespace Run

variable {p : Processor} {b : β} {address : Long} {n : RegisterIndex} {entry : TableEntry}
  (hloop : AtLoop tables words address n entry p.registers)

section

variable {start : Start} {run : Run β} {count : Nat}
  (h : run.Completed tables bus words holds b start (.counting words address p.registers n count))
include hloop h

theorem Completed.registers_counting :
    run.processor.registers =
      p.registers.setCounter n (p.registers.counter n - BitVec.ofNat 16 count) :=
  h.registers.trans (goTo_of_here (hloop.setCounter _).place)

theorem Completed.counter_counting :
    run.processor.registers.counter n = p.registers.counter n - BitVec.ofNat 16 count := by
  rw [h.registers_counting hloop, Registers.counter_setCounter]

/-- The program is where it was. -/
theorem Completed.atLoop_counting :
    AtLoop tables words address n entry run.processor.registers := by
  rw [h.registers_counting hloop]
  exact hloop.setCounter _

/-- No interrupt is pending where none would be if the loop had not run. -/
theorem Completed.pendingInterrupt?_counting {calls : List Call}
    (hinputs : run.processor.inputs = (p.driven calls).inputs)
    (hquiet : (p.driven calls).pendingInterrupt? = none) :
    run.processor.pendingInterrupt? = none := by
  rw [← hquiet]
  refine Processor.pendingInterrupt?_congr hinputs ?_
  rw [h.registers_counting hloop, p.registers_driven]
  rfl

end

section

variable (hbus : bus.Supplies words holds) (hrealizes : tables.Realizes forms)
include hloop hbus hrealizes

/-- One execution more. -/
theorem Completed.counting_succ {run : Run β} {count : Nat}
    (h : run.Completed tables bus words holds b ⟨words address, address, .instruction entry⟩
      (.counting words address p.registers n count))
    (hinterrupt : run.processor.pendingInterrupt? = none)
    (hcount : count < (p.registers.counter n).toNat) :
    ((run.processor.runInstruction tables bus run.bus).after run).Completed tables bus words holds b
      ⟨words address, address, .instruction entry⟩
      (.counting words address p.registers n (count + 1)) := by
  have hcounter := h.counter_counting hloop
  have hcounts : run.processor.registers.counter n ≠ 0 := by
    rw [hcounter]
    bv_omega
  have hnext : p.registers.counter n - BitVec.ofNat 16 count - 1 =
      p.registers.counter n - BitVec.ofNat 16 (count + 1) := by
    rw [BitVec.ofNat_add]
    exact BitVec.sub_sub _ _ _
  have hback := Processor.completed_back (h.atLoop_counting hloop) h.prefetch hbus hrealizes h.holds
    h.boundary hinterrupt hcounts
  rw [hcounter, h.registers_counting hloop, Registers.setCounter_setCounter, hnext] at hback
  exact hback.after h

/-- The last execution. -/
theorem Completed.runOut {run : Run β}
    (h : run.Completed tables bus words holds b ⟨words address, address, .instruction entry⟩
      (.counting words address p.registers n (p.registers.counter n).toNat))
    (hinterrupt : run.processor.pendingInterrupt? = none) :
    ((run.processor.runInstruction tables bus run.bus).after run).Completed tables bus words holds b
      ⟨words address, address, .instruction entry⟩ (.runOut words address p.registers n) := by
  have hcounts : run.processor.registers.counter n = 0 := by
    rw [h.counter_counting hloop, BitVec.ofNat_toNat, BitVec.setWidth_eq]
    exact BitVec.sub_self _
  have hthrough := Processor.completed_through (h.atLoop_counting hloop) h.prefetch hbus hrealizes
    h.holds h.boundary hinterrupt hcounts
  rw [h.registers_counting hloop, Registers.setCounter_setCounter] at hthrough
  exact hthrough.after h

variable (hholds : holds b) (hboundary : p.atBoundary tables)
  (hqueue : p.prefetch = words address ++ words (address + 2))
include hholds hboundary hqueue

/-- As long as the counter lasts, the loop goes back to itself, whatever the host does to the
interrupt inputs meanwhile. -/
theorem completed_counting {calls : List Call} (hquiet : p.Uninterrupted calls)
    (hcount : calls.count .runInstruction ≤ (p.registers.counter n).toNat) :
    (afterCalls tables bus p b calls).Completed tables bus words holds b
        ⟨words address, address, .instruction entry⟩
        (.counting words address p.registers n (calls.count .runInstruction)) ∧
      (afterCalls tables bus p b calls).processor.inputs = (p.driven calls).inputs := by
  -- on the calls, the last one last: the next instruction runs where all before it have led
  induction calls using List.reverseRecOn with
  | nil =>
    have hregisters : p.registers =
        goTo address (p.registers.setCounter n (p.registers.counter n - 0#16)) := by
      rw [BitVec.sub_zero, Registers.setCounter_counter, goTo_of_here hloop.place]
    exact
      ⟨{ boundary := hboundary
         registers := hregisters
         prefetch := hqueue
         starts := rfl
         fetched := rfl
         spent := rfl
         since := rfl
         holds := hholds }, rfl⟩
  | append_singleton calls call ih =>
    have hearlier := hquiet.of_prefix (List.prefix_append calls [call])
    rw [List.count_append] at hcount ⊢
    rw [afterCalls_concat, Processor.driven_concat]
    cases call with
    | runInstruction =>
      obtain ⟨hcompleted, hinputs⟩ := ih hearlier (Nat.le_of_succ_le hcount)
      have hinterrupt := hcompleted.pendingInterrupt?_counting hloop hinputs
        (hquiet calls List.prefix_rfl)
      have hkept := Processor.inputs_runInstruction_of_none bus hrealizes hcompleted.boundary
        hinterrupt (afterCalls tables bus p b calls).bus
      exact ⟨hcompleted.counting_succ hloop hbus hrealizes hinterrupt hcount, hkept.trans hinputs⟩
    | setInterruptLevel level =>
      obtain ⟨hcompleted, hinputs⟩ := ih hearlier hcount
      exact ⟨hcompleted.setInterruptLevel level, Processor.inputs_setInterruptLevel hinputs level⟩

/-- After one instruction more the program has gone on. -/
theorem completed_runOut {calls : List Call} (hquiet : p.Uninterrupted calls)
    (hcount : calls.count .runInstruction = (p.registers.counter n).toNat + 1) :
    (afterCalls tables bus p b calls).Completed tables bus words holds b
      ⟨words address, address, .instruction entry⟩ (.runOut words address p.registers n) := by
  induction calls using List.reverseRecOn with
  | nil => cases hcount
  | append_singleton calls call ih =>
    have hearlier := hquiet.of_prefix (List.prefix_append calls [call])
    rw [List.count_append] at hcount
    rw [afterCalls_concat]
    cases call with
    | runInstruction =>
      have hlast : calls.count .runInstruction = (p.registers.counter n).toNat :=
        Nat.succ.inj hcount
      obtain ⟨hcompleted, hinputs⟩ := completed_counting hloop hbus hrealizes hholds hboundary
        hqueue hearlier hlast.le
      rw [hlast] at hcompleted
      have hinterrupt := hcompleted.pendingInterrupt?_counting hloop hinputs
        (hquiet calls List.prefix_rfl)
      exact hcompleted.runOut hloop hbus hrealizes hinterrupt
    | setInterruptLevel level => exact (ih hearlier hcount).setInterruptLevel level

end

/-- **A loop runs its counter out.** Each of as many executions as it counts from goes back to the
loop, and one more goes on behind it. -/
theorem loop_runs_out (hbus : bus.Supplies words holds) (hholds : holds b)
    (hboundary : p.atBoundary (.compile forms)) (hplace : here p.registers = address)
    (hqueue : p.prefetch = words address ++ words (address + 2))
    (hspins : Spins words address p.registers) :
    let n := RegisterIndex.ofField (words address).toNat
    ∃ entry, Tables.entry? (.compile forms) (words address) = some entry ∧
      entry.instruction = loopInstruction (words address) ∧
      ∀ calls, p.Uninterrupted calls →
        let run := afterCalls (.compile forms) bus p b calls
        let start : Start := ⟨words address, address, .instruction entry⟩
        let count := calls.count .runInstruction
        (count ≤ (p.registers.counter n).toNat →
          run.Completed (.compile forms) bus words holds b start
            (.counting words address p.registers n count)) ∧
        (count = (p.registers.counter n).toNat + 1 →
          run.Completed (.compile forms) bus words holds b start
            (.runOut words address p.registers n)) := by
  intro n
  have hrealizes := Tables.realizes_compile
  obtain ⟨entry, hloop⟩ := hspins.exists_atLoop hrealizes hplace
  refine ⟨entry, hloop.listed, hloop.instruction, fun calls hquiet =>
    ⟨fun hcount => ?_, fun hcount => ?_⟩⟩
  · exact (completed_counting hloop hbus hrealizes hholds hboundary hqueue hquiet hcount).1
  · exact completed_runOut hloop hbus hrealizes hholds hboundary hqueue hquiet hcount

/-! ### Counting from two -/

/-- A loop at address `0x1000` that is left when its counter has run out. -/
def spinningMemory : Memory :=
  ((Memory.blank (.noise 1)).storeWordAt 0x1000 0x51C8).storeWordAt 0x1002 0xFFFE

/-- Its counter is 2. -/
def spinningRegisters : Registers :=
  { Registers.initial with pc := 0x1004 }.setData (.ofField 0) 0xABCD0002

theorem wordAt_spinningMemory :
    spinningMemory.wordAt 0x1000 = 0x51C8 ∧ spinningMemory.wordAt 0x1002 = 0xFFFE := by
  constructor
  · rw [spinningMemory, Memory.wordAt_storeWordAt, if_neg (by decide), Memory.wordAt_storeWordAt,
      if_pos rfl]
  · rw [spinningMemory, Memory.wordAt_storeWordAt, if_pos rfl]

/-- In slow memory, with the interrupt level below the mask, the loop takes three rounds. -/
theorem loop_runs_out_of_two :
    let bench : TestBench := ⟨spinningMemory, 6, 1, none, 0⟩
    let p := Processor.facing (.compile forms) 0x51C8FFFE spinningRegisters
    let calls : List Call :=
      [.runInstruction, .setInterruptLevel 3, .runInstruction, .runInstruction]
    let run := afterCalls (.compile forms) TestBench.access p bench calls
    p.Uninterrupted calls ∧ run.starts.length = 3 ∧
      run.processor.registers = goTo 0x1004 (spinningRegisters.setData (.ofField 0) 0xABCDFFFF) ∧
      run.spent = 68 + TestBench.access.waits bench run.requests := by
  intro bench p calls run
  obtain ⟨hopcode, hdisplacement⟩ := wordAt_spinningMemory
  have hplace : here p.registers = 0x1000 := by decide
  have hquiet : p.Uninterrupted calls := by decide
  have hqueue : p.prefetch =
      spinningMemory.wordAt 0x1000 ++ spinningMemory.wordAt (0x1000 + 2) := by
    change (0x51C8FFFE : Long) = _ ++ spinningMemory.wordAt 0x1002
    rw [hopcode, hdisplacement]
    rfl
  have hspins : Spins spinningMemory.wordAt 0x1000 p.registers :=
    { loops := by rw [hopcode]; rfl
      displacement := hdisplacement
      condition := by rw [hopcode]; decide }
  have hindex : RegisterIndex.ofField (spinningMemory.wordAt 0x1000).toNat = .ofField 0 := by
    rw [hopcode]
    rfl
  have hcounter : (p.registers.counter (.ofField 0)).toNat = 2 := by decide
  obtain ⟨entry, -, -, hrun⟩ := loop_runs_out (p := p) (b := bench)
    (TestBench.supplies spinningMemory) rfl (Processor.atBoundary_atRest Tables.realizes_compile _)
    hplace hqueue hspins
  have hout := (hrun calls hquiet).2 (by rw [hindex, hcounter]; rfl)
  rw [hindex] at hout
  have hdata : p.registers.setCounter (.ofField 0) 0xFFFF =
      spinningRegisters.setData (.ofField 0) 0xABCDFFFF := by decide
  refine ⟨hquiet, ?_, ?_, ?_⟩
  · rw [hout.starts, List.length_replicate, Rounds.runOut, hcounter]
  · rw [← hdata]
    exact hout.registers
  · rw [hout.spent, Rounds.runOut, hcounter]

end Run

end M68k
