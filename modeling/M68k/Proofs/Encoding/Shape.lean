import M68k.Encoding.Forms
import M68k.Tables.Fixed
import Mathlib.Algebra.Ring.Nat

/-!
# The shape of recipes

Every recipe keeps some rules that make the instruction stream flow: no activity ends its own
program, an operation that chooses what runs next has no activity of its own, and once all stages
are done the prefetch queue again holds the two words before the program counter. Most recipes keep
them in the simplest way, as each of their activities does so alone.

## Main definitions

* `Operation.redirects`, `Operation.setsCounter`, `Operation.isPrivileged`, `Operation.isPlain`,
  `Operation.isSequential`: kinds of operations
* `QueueState`, `QueueState.after`: what is known about the prefetch queue
* `Activity.Steady`: the activity keeps the prefetch queue full
* `Recipe.WellFormed`: the rules

## Main results

* `Recipe.Plain.wellFormed`: recipes of steady activities keep the rules
-/

namespace M68k

/-! ## Kinds of operations -/

namespace Operation

/-- The operation chooses the bus program that runs next, or enters an exception. -/
def redirects : Operation → Bool
  | bcc | bsr | dbcc | movem _ | trap => true
  | _ => false

/-- The operation leaves the instruction stream, or steps back in it, but chooses no program. -/
def setsCounter : Operation → Bool
  | jmp | jsr | rts | bitwiseToCcr _ | bitwiseToSr _ => true
  | _ => false

/-- The operation steps back over its immediate. -/
def rewinds : Operation → Bool
  | bitwiseToCcr _ | bitwiseToSr _ => true
  | _ => false

/-- The operation touches what belongs to supervisor mode. -/
def isPrivileged : Operation → Bool
  | moveToSr | bitwiseToSr _ | rte | moveToUsp | moveFromUsp | reset => true
  | _ => false

/-- The operation stays in the instruction stream, and is open to user mode. -/
def isPlain (operation : Operation) : Bool :=
  !(operation.redirects || operation.setsCounter || operation.isPrivileged)

/-- The next instruction is the one that follows in memory. -/
def isSequential : Operation → Bool
  | bcc | bsr | dbcc | jmp | jsr | rts | rte | rtr | trap => false
  | _ => true

end Operation

/-! ## The prefetch queue -/

/-- The step puts the word at the program counter behind the others in the prefetch queue. -/
def BusStep.isFetch (step : BusStep) : Bool :=
  step.signals.isRead && !step.signals.selectByte && step.slot == .prefetch &&
    step.address == .programCounter && step.action == .incrementProgramCounter

/-- The step loads a half of the program counter. -/
def BusStep.loadsCounter (step : BusStep) : Bool :=
  step.signals.isRead &&
    match step.slot with
    | .programCounter _ => true
    | _ => false

/-- What is known about the prefetch queue. -/
inductive QueueState
  | stale
  /-- The low word is the one before the program counter. -/
  | single
  /-- The high word is the one before the program counter, and about to be followed. -/
  | shifted
  /-- The queue holds the two words before the program counter. -/
  | full
deriving DecidableEq

namespace QueueState

/-- What is known after a bus step. -/
def after (queue : QueueState) (step : BusStep) : QueueState :=
  if step.signals.isRead then
    match step.slot with
    | .prefetch =>
      if step.isFetch then if queue = shifted then full else single else stale
    | .programCounter _ => stale
    | _ => moved queue step.action
  else moved queue step.action
where
  /-- What is known after a step action. -/
  moved (queue : QueueState) : StepAction → QueueState
    | .advancePrefetch => if queue = single ∨ queue = full then shifted else stale
    | .incrementProgramCounter => stale
    | _ => queue

/-- What is known after an activity. -/
def afterAll (queue : QueueState) (activity : Activity) : QueueState := activity.foldl after queue

@[simp] theorem afterAll_nil (queue : QueueState) : queue.afterAll [] = queue := rfl

@[simp] theorem afterAll_cons (queue : QueueState) (step : BusStep) (activity : Activity) :
    queue.afterAll (step :: activity) = (queue.after step).afterAll activity := rfl

@[simp] theorem afterAll_append (queue : QueueState) (first second : Activity) :
    queue.afterAll (first ++ second) = (queue.afterAll first).afterAll second :=
  List.foldl_append

end QueueState

namespace Activity

/-- No step of the activity ends a program. -/
def Open (activity : Activity) : Prop := ∀ step ∈ activity, step.isTerminal = false

instance (activity : Activity) : Decidable activity.Open :=
  inferInstanceAs (Decidable (∀ step ∈ activity, step.isTerminal = false))

theorem Open.append {first second : Activity} (hfirst : first.Open) (hsecond : second.Open) :
    Activity.Open (first ++ second) :=
  List.forall_mem_append.2 ⟨hfirst, hsecond⟩

/-- The program words that an activity fetches. -/
def fetches (activity : Activity) : Nat := activity.countP (·.action == .incrementProgramCounter)

@[simp] theorem fetches_nil : fetches [] = 0 := rfl

@[simp] theorem fetches_append (first second : Activity) :
    fetches (first ++ second) = first.fetches + second.fetches :=
  List.countP_append

/-- The program counter only moves on. -/
def Linear (activity : Activity) : Prop := ∀ step ∈ activity, step.loadsCounter = false

instance (activity : Activity) : Decidable activity.Linear :=
  inferInstanceAs (Decidable (∀ step ∈ activity, step.loadsCounter = false))

/-- The activity does not end its program, moves the program counter on, and keeps the prefetch
queue full. -/
structure Steady (activity : Activity) : Prop where
  isOpen : activity.Open
  linear : activity.Linear
  full : QueueState.full.afterAll activity = .full

namespace Steady

theorem nil : Steady [] := ⟨by simp [Open], by simp [Linear], rfl⟩

theorem append {first second : Activity} (hfirst : first.Steady) (hsecond : second.Steady) :
    Steady (first ++ second) where
  isOpen := hfirst.isOpen.append hsecond.isOpen
  linear := List.forall_mem_append.2 ⟨hfirst.linear, hsecond.linear⟩
  full := by rw [QueueState.afterAll_append, hfirst.full, hsecond.full]

theorem idle (duration : HalfCycles) : (idle duration).Steady :=
  ⟨by simp [Open, Activity.idle, BusStep.isTerminal], by simp [Linear, Activity.idle]; rfl, rfl⟩

theorem flexible : flexible.Steady := ⟨by decide, by decide, rfl⟩

theorem fetch : fetch.Steady := ⟨by decide, by decide, rfl⟩

theorem resetHold : resetHold.Steady := ⟨by decide, by decide, rfl⟩

theorem testAndSet (address : AddressSource) : (testAndSet address).Steady :=
  ⟨by simp [Open, Activity.testAndSet, BusStep.isTerminal],
    by simp [Linear, Activity.testAndSet]; exact ⟨rfl, rfl⟩, rfl⟩

theorem read (side : Side) (half : Half) (adjustment : Option Adjustment) (width : Width)
    (address : AddressSource) : (read side half adjustment width address).Steady := by
  rcases adjustment with _ | _ | _ <;> cases width <;>
    exact ⟨by
      simp [Open, Activity.read, Activity.transfer, Adjustment.action, BusStep.isTerminal],
      by simp [Linear, Activity.read, Activity.transfer, BusStep.loadsCounter], rfl⟩

theorem write (half : Half) (adjustment : Option Adjustment) (width : Width)
    (address : AddressSource) : (write half adjustment width address).Steady := by
  rcases adjustment with _ | _ | _ <;> cases width <;>
    exact ⟨by
      simp [Open, Activity.write, Activity.transfer, Adjustment.action, BusStep.isTerminal],
      by simp [Linear, Activity.write, Activity.transfer, BusStep.loadsCounter], rfl⟩

theorem listTransfers (read : Bool) (count : Nat) :
    (FixedPrograms.listTransfers read count).Steady := by
  unfold FixedPrograms.listTransfers
  dsimp only []
  induction count with
  | zero => exact nil
  | succ count ih =>
    rw [List.replicate_succ, List.flatten_cons]
    refine append ?_ ih
    cases read <;> exact ⟨by decide, by decide, rfl⟩

end Steady

@[simp] theorem fetches_idle (duration : HalfCycles) : (idle duration).fetches = 0 := rfl

@[simp] theorem fetches_flexible : flexible.fetches = 0 := rfl

@[simp] theorem fetches_fetch : fetch.fetches = 1 := rfl

@[simp] theorem fetches_resetHold : resetHold.fetches = 0 := rfl

@[simp] theorem fetches_testAndSet (address : AddressSource) : (testAndSet address).fetches = 0 :=
  rfl

@[simp] theorem fetches_read (side : Side) (half : Half) (adjustment : Option Adjustment)
    (width : Width) (address : AddressSource) :
    (read side half adjustment width address).fetches = 0 := by
  rcases adjustment with _ | _ | _ <;> rfl

@[simp] theorem fetches_write (half : Half) (adjustment : Option Adjustment) (width : Width)
    (address : AddressSource) : (write half adjustment width address).fetches = 0 := by
  rcases adjustment with _ | _ | _ <;> rfl

end Activity

/-! ## Stages -/

namespace Stage

/-- An operation that chooses what runs next has no activity of its own. -/
def Orderly (operation : Operation) (stage : Stage) : Prop :=
  stage.action = .operate → operation.redirects → stage.activity = []

/-- The stage takes time on the bus. -/
def Active (operation : Operation) (stage : Stage) : Prop :=
  stage.activity ≠ [] ∨
    stage.action = .operate ∧ (operation = .bcc ∨ operation = .dbcc ∨ operation = .trap)

/-- The program words that the activities of stages fetch. -/
def words (stages : List Stage) : Nat := (stages.map (·.activity.fetches)).sum

@[simp] theorem words_nil : words [] = 0 := rfl

@[simp] theorem words_cons (stage : Stage) (stages : List Stage) :
    words (stage :: stages) = stage.activity.fetches + words stages :=
  List.sum_cons

@[simp] theorem words_append (first second : List Stage) :
    words (first ++ second) = words first + words second := by
  simp [words]

/-- How often the operation is carried out. -/
def operations (stages : List Stage) : Nat := stages.countP (·.action == .operate)

theorem operations_cons (stage : Stage) (stages : List Stage) :
    operations (stage :: stages) =
      (if stage.action = .operate then 1 else 0) + operations stages := by
  simp [operations, List.countP_cons, Nat.add_comm]

@[simp] theorem operations_append (first second : List Stage) :
    operations (first ++ second) = operations first + operations second :=
  List.countP_append

/-- The words over which an operation steps back while stages are executed. -/
def rewound (operation : Operation) (stages : List Stage) : Nat :=
  if operation.rewinds then operations stages else 0

theorem rewound_cons (operation : Operation) (stage : Stage) (stages : List Stage) :
    rewound operation (stage :: stages) =
      rewound operation [stage] + rewound operation stages := by
  unfold rewound
  split
  · rw [operations, operations, List.countP_cons, List.countP_singleton, Nat.add_comm]
    rfl
  · rfl

/-- The queue is full after the stages, if it has been in this state before them. An operation that
redirects finds it full, and whatever runs next leaves it full. -/
def Refill (operation : Operation) : QueueState → List Stage → Prop
  | queue, [] => queue = .full
  | queue, stage :: stages =>
    if stage.action = .operate then
      if operation.redirects then queue = .full ∧ Refill operation .full stages
      else
        Refill operation
          ((if operation.setsCounter then QueueState.stale else queue).afterAll stage.activity)
          stages
    else Refill operation (queue.afterAll stage.activity) stages

/-- All activities are steady. -/
def AllSteady (stages : List Stage) : Prop := ∀ stage ∈ stages, stage.activity.Steady

theorem AllSteady.append {first second : List Stage} (hfirst : AllSteady first)
    (hsecond : AllSteady second) : AllSteady (first ++ second) :=
  List.forall_mem_append.2 ⟨hfirst, hsecond⟩

theorem AllSteady.cons {stage : Stage} {stages : List Stage} (hstage : stage.activity.Steady)
    (hstages : AllSteady stages) : AllSteady (stage :: stages) :=
  List.forall_mem_cons.2 ⟨hstage, hstages⟩

theorem AllSteady.nil : AllSteady [] := by simp [AllSteady]

theorem AllSteady.one {stage : Stage} (hstage : stage.activity.Steady) : AllSteady [stage] :=
  .cons hstage .nil

theorem AllSteady.refill {operation : Operation} (hcounter : operation.setsCounter = false)
    {stages : List Stage} (h : AllSteady stages) : Refill operation .full stages := by
  induction stages with
  | nil => rfl
  | cons stage stages ih =>
    have hfull : QueueState.full.afterAll stage.activity = .full := (h stage (by simp)).full
    have hstages := ih fun stage hstage => h stage (by simp [hstage])
    unfold Refill
    simp only [hcounter, hfull, hstages, Bool.false_eq_true, if_false, and_self, ite_self]

/-- Stages that fetch a word take time. -/
theorem exists_active_of_words_pos {operation : Operation} {stages : List Stage}
    (h : 0 < words stages) : ∃ stage ∈ stages, stage.Active operation := by
  induction stages with
  | nil => simp at h
  | cons stage stages ih =>
    rcases Nat.eq_zero_or_pos stage.activity.fetches with hzero | hpos
    · obtain ⟨found, hmem, hactive⟩ := ih (by simpa [hzero] using h)
      exact ⟨found, by simp [hmem], hactive⟩
    · refine ⟨stage, by simp, .inl ?_⟩
      rintro hnil
      simp [hnil] at hpos

end Stage

/-! ## Recipes -/

namespace Recipe

/-- The activities of all stages are open. -/
def Open (recipe : Recipe) : Prop := ∀ stage ∈ recipe.stages, stage.activity.Open

/-- The rules that the recipe of an instruction with `extension` extension words keeps. -/
structure WellFormed (recipe : Recipe) (extension : Nat) : Prop where
  isOpen : recipe.Open
  orderly : ∀ stage ∈ recipe.stages, stage.Orderly recipe.instruction.operation
  active : ∃ stage ∈ recipe.stages, stage.Active recipe.instruction.operation
  refill : Stage.Refill recipe.instruction.operation .full recipe.stages
  /-- A privileged operation is carried out once, in supervisor mode. -/
  privileged :
    recipe.instruction.operation.isPrivileged →
      recipe.instruction.requiresSupervisor ∧ Stage.operations recipe.stages ≤ 1
  /-- An instruction that stays in the instruction stream fetches each of its words once. -/
  linear :
    recipe.instruction.operation.isSequential →
      ∀ stage ∈ recipe.stages, stage.activity.Linear
  words :
    recipe.instruction.operation.isSequential →
      Stage.words recipe.stages =
        1 + extension + Stage.rewound recipe.instruction.operation recipe.stages

/-- Steady activities keep the rules, if the operation neither leaves the instruction stream nor is
privileged. -/
theorem WellFormed.of_steady {recipe : Recipe} {extension : Nat}
    (hcounter : recipe.instruction.operation.setsCounter = false)
    (hprivileged :
      recipe.instruction.operation.isPrivileged →
        recipe.instruction.requiresSupervisor ∧ Stage.operations recipe.stages ≤ 1)
    (hsteady : Stage.AllSteady recipe.stages)
    (horderly : ∀ stage ∈ recipe.stages, stage.Orderly recipe.instruction.operation)
    (hactive : ∃ stage ∈ recipe.stages, stage.Active recipe.instruction.operation)
    (hwords : recipe.instruction.operation.isSequential →
      Stage.words recipe.stages = 1 + extension) :
    recipe.WellFormed extension where
  isOpen stage hstage := (hsteady stage hstage).isOpen
  orderly := horderly
  active := hactive
  refill := hsteady.refill hcounter
  privileged := hprivileged
  linear _ stage hstage := (hsteady stage hstage).linear
  words hsequential := by
    have hrewinds : recipe.instruction.operation.rewinds = false := by
      revert hcounter
      cases recipe.instruction.operation <;> simp [Operation.setsCounter, Operation.rewinds]
    simp [hwords hsequential, Stage.rewound, hrewinds]

/-- A recipe that fetches `extension` extension words and the next opcode, all of whose activities
are steady, and that stays in the instruction stream. -/
structure Plain (recipe : Recipe) (extension : Nat) : Prop where
  straight :
    (recipe.instruction.operation.redirects || recipe.instruction.operation.setsCounter) = false
  privileged :
    recipe.instruction.operation.isPrivileged →
      recipe.instruction.requiresSupervisor ∧ Stage.operations recipe.stages ≤ 1
  steady : Stage.AllSteady recipe.stages
  words : Stage.words recipe.stages = 1 + extension

/-- A plain recipe of a plain operation. -/
theorem Plain.of_isPlain {instruction : Instruction} {stages : List Stage} {extension : Nat}
    (h : instruction.operation.isPlain) (hsteady : Stage.AllSteady stages)
    (hwords : Stage.words stages = 1 + extension) :
    (Recipe.mk instruction stages).Plain extension := by
  simp only [Operation.isPlain, Bool.not_eq_true', Bool.or_eq_false_iff] at h
  exact
    { straight := Bool.or_eq_false_iff.2 h.1
      privileged := fun hprivileged => by simp [h.2] at hprivileged
      steady := hsteady
      words := hwords }

/-- **Plain recipes keep the rules.** -/
theorem Plain.wellFormed {recipe : Recipe} {extension : Nat} (h : recipe.Plain extension) :
    recipe.WellFormed extension := by
  have hstraight := h.straight
  rw [Bool.or_eq_false_iff] at hstraight
  refine .of_steady hstraight.2 h.privileged h.steady ?_ ?_ fun _ => h.words
  · intro stage _ _ hredirects
    simp [hstraight.1] at hredirects
  · exact Stage.exists_active_of_words_pos (by rw [h.words]; omega)

end Recipe

end M68k
