import M68k.Proofs.Execution.Snapshot

/-!
# The data that an instruction reads and writes

Apart from fetching the program, an instruction reads its operands. Where it does so can be told
from a run, which remembers its requests, and from the stages of its recipe. So can how often it
writes.

## Main definitions

* `Run.reads`: the addresses at which a run has read data
* `Snapshot.reads`: those at which stages read data
* `Run.words`: the words that a run has read
* `Run.writes`, `Activity.writes`: how often a run or an activity writes

## Main results

* `Processor.reads_runInstruction`: an instruction run reads data where its stages do
-/

namespace M68k

/-- The step reads data, and not the program. -/
def BusStep.readsData (step : BusStep) : Bool := step.signals.isRead && !step.signals.isProgram

/-- How often the activity writes. -/
def Activity.writes (activity : Activity) : Nat := activity.countP (·.signals.isWrite)

/-- The activity reads no data. -/
def Activity.Blind (activity : Activity) : Prop := ∀ step ∈ activity, step.readsData = false

instance (activity : Activity) : Decidable activity.Blind :=
  inferInstanceAs (Decidable (∀ step ∈ activity, step.readsData = false))

/-- The addresses at which a run has read data, in order. -/
def Run.reads {β : Type} (run : Run β) : List Long :=
  (run.history.filter (·.step.readsData)).reverse.map (·.request.address)

/-- The words of data that a run has read, in order. -/
def Run.words {β : Type} (run : Run β) : List Word :=
  (run.history.filter (·.step.readsData)).reverse.map (·.value)

/-- How often a run has written. -/
def Run.writes {β : Type} (run : Run β) : Nat := run.history.countP (·.step.signals.isWrite)

namespace Snapshot

variable {β : Type} (bus : Bus β)

/-- The addresses at which an activity reads data, in order. -/
def readsDuring : Activity → Snapshot β → List Long
  | [], _ => []
  | step :: activity, s =>
    (if step.readsData then [s.processor.resolve step.address] else []) ++
      readsDuring activity (s.transact bus step)

/-- The addresses at which stages read data, in order. -/
def reads : List Stage → Snapshot β → List Long
  | [], _ => []
  | stage :: stages, s =>
    (s.fire stage).readsDuring bus stage.activity ++
      reads stages ((s.fire stage).perform bus stage.activity)

@[simp] theorem readsDuring_nil (s : Snapshot β) : s.readsDuring bus [] = [] := rfl

@[simp] theorem reads_nil (s : Snapshot β) : s.reads bus [] = [] := rfl

theorem reads_cons (stage : Stage) (stages : List Stage) (s : Snapshot β) :
    s.reads bus (stage :: stages) =
      (s.fire stage).readsDuring bus stage.activity ++
        ((s.fire stage).perform bus stage.activity).reads bus stages := rfl

theorem readsDuring_append (first second : Activity) (s : Snapshot β) :
    s.readsDuring bus (first ++ second) =
      s.readsDuring bus first ++ (s.perform bus first).readsDuring bus second := by
  induction first generalizing s with
  | nil => rfl
  | cons step first ih =>
    rw [List.cons_append, readsDuring, readsDuring, ih, List.append_assoc]
    rfl

theorem reads_append (first second : List Stage) (s : Snapshot β) :
    s.reads bus (first ++ second) =
      s.reads bus first ++ (s.execute bus first).reads bus second := by
  induction first generalizing s with
  | nil => rfl
  | cons stage first ih => rw [List.cons_append, reads_cons, reads_cons, ih, List.append_assoc]; rfl

theorem readsDuring_of_blind {activity : Activity} (h : activity.Blind) (s : Snapshot β) :
    s.readsDuring bus activity = [] := by
  induction activity generalizing s with
  | nil => rfl
  | cons step activity ih =>
    rw [readsDuring, h step List.mem_cons_self, ih fun other hother =>
      h other (List.mem_cons_of_mem _ hother)]
    rfl

theorem reads_of_blind {stages : List Stage} (h : ∀ stage ∈ stages, stage.activity.Blind)
    (s : Snapshot β) : s.reads bus stages = [] := by
  induction stages generalizing s with
  | nil => rfl
  | cons stage stages ih =>
    rw [reads_cons, readsDuring_of_blind bus (h stage List.mem_cons_self),
      ih fun other hother => h other (List.mem_cons_of_mem _ hother)]
    rfl

end Snapshot

namespace Run

variable {β : Type} (bus : Bus β) (tables : Tables)

theorem reads_of_unplaced {run other : Run β} (h : run.unplaced = other.unplaced) :
    run.reads = other.reads := by
  have hreads (run : Run β) : run.unplaced.reads = run.reads := by
    simp only [reads, unplaced, List.filter_map, ← List.map_reverse, List.map_map]
    rfl
  rw [← hreads, h, hreads]

theorem reads_transact (start : Option Start) (step : BusStep) (run : Run β) :
    (run.transact bus start step).reads =
      run.reads ++ (if step.readsData then [run.processor.resolve step.address] else []) := by
  simp only [reads, transact, List.filter_cons]
  split
  · simp [Processor.request]
  · simp

theorem reads_perform (activity : Activity) (run : Run β) :
    (run.perform bus activity).reads = run.reads ++ run.snapshot.readsDuring bus activity := by
  induction activity generalizing run with
  | nil => simp
  | cons step activity ih =>
    have hresolve : run.snapshot.processor.resolve step.address =
        run.processor.resolve step.address := by
      cases step.address <;> rfl
    rw [perform_cons, ih, reads_transact, snapshot_transact, Snapshot.readsDuring, hresolve,
      List.append_assoc]

/-- **A run reads data where its stages do.** -/
theorem reads_execute {stages : List Stage} {run : Run β} (h : run.Plain stages) :
    (run.execute bus tables stages).reads = run.reads ++ run.snapshot.reads bus stages := by
  induction stages generalizing run with
  | nil => simp
  | cons stage stages ih =>
    obtain ⟨fired, hexecute, hsnapshot, hhistory, -, hrest⟩ := h.step bus tables
    have hreads : fired.reads = run.reads := by rw [reads, hhistory, reads]
    rw [hexecute, ih hrest, reads_perform, snapshot_perform, hsnapshot, hreads, Snapshot.reads_cons,
      List.append_assoc]

/-! ## Words -/

theorem words_of_unplaced {run other : Run β} (h : run.unplaced = other.unplaced) :
    run.words = other.words := by
  have hwords (run : Run β) : run.unplaced.words = run.words := by
    simp only [words, unplaced, List.filter_map, ← List.map_reverse, List.map_map]
    rfl
  rw [← hwords, h, hwords]

theorem words_perform_of_blind {activity : Activity} (h : activity.Blind) (run : Run β) :
    (run.perform bus activity).words = run.words := by
  induction activity generalizing run with
  | nil => rfl
  | cons step activity ih =>
    rw [perform_cons, ih fun other hother => h other (List.mem_cons_of_mem _ hother)]
    simp only [words, transact, List.filter_cons, h step List.mem_cons_self, Bool.false_eq_true,
      if_false]

/-- Stages that read no data leave it at that. -/
theorem words_execute_of_blind {stages : List Stage} {run : Run β} (h : run.Plain stages)
    (hblind : ∀ stage ∈ stages, stage.activity.Blind) :
    (run.execute bus tables stages).words = run.words := by
  induction stages generalizing run with
  | nil => rfl
  | cons stage stages ih =>
    obtain ⟨fired, hexecute, -, hhistory, -, hrest⟩ := h.step bus tables
    have hwords : fired.words = run.words := by rw [words, hhistory, words]
    rw [hexecute, ih hrest fun other hother => hblind other (List.mem_cons_of_mem _ hother),
      words_perform_of_blind bus (hblind stage List.mem_cons_self), hwords]

/-! ## Writes -/

theorem writes_of_unplaced {run other : Run β} (h : run.unplaced = other.unplaced) :
    run.writes = other.writes := by
  have hwrites (run : Run β) : run.unplaced.writes = run.writes := by
    simp only [writes, unplaced, List.countP_map]
    rfl
  rw [← hwrites, h, hwrites]

theorem writes_perform (activity : Activity) (run : Run β) :
    (run.perform bus activity).writes = run.writes + activity.writes := by
  induction activity generalizing run with
  | nil => rfl
  | cons step activity ih =>
    have htransact : (run.transact bus none step).writes =
        run.writes + if step.signals.isWrite then 1 else 0 := List.countP_cons
    rw [perform_cons, ih, htransact, Activity.writes, Activity.writes, List.countP_cons]
    omega

/-- Stages that do not write leave it at that. -/
theorem writes_execute {stages : List Stage} {run : Run β} (h : run.Plain stages)
    (hsilent : ∀ stage ∈ stages, stage.activity.writes = 0) :
    (run.execute bus tables stages).writes = run.writes := by
  induction stages generalizing run with
  | nil => rfl
  | cons stage stages ih =>
    obtain ⟨fired, hexecute, -, hhistory, -, hrest⟩ := h.step bus tables
    have hwrites : fired.writes = run.writes := by rw [writes, hhistory, writes]
    rw [hexecute, ih hrest fun other hother => hsilent other (List.mem_cons_of_mem _ hother),
      writes_perform, hsilent stage List.mem_cons_self, hwrites, Nat.add_zero]

end Run

/-- **An instruction run reads data where its stages do**, unless the operation redirects. -/
theorem Processor.reads_runInstruction {β : Type} {tables : Tables} (bus : Bus β)
    (hrealizes : tables.Realizes forms) {p : Processor} {recipe : Recipe}
    (hboundary : p.atBoundary tables) (hinterrupt : p.pendingInterrupt? = none)
    (hdecode : decode? forms (Half.high.get p.prefetch) = some recipe)
    (hprivilege : recipe.instruction.requiresSupervisor → p.registers.isSupervisor)
    (hplain : recipe.instruction.operation.redirects = false) (b : β) :
    (p.runInstruction tables bus b).reads =
      (p.dispatched recipe.instruction b).reads bus recipe.stages := by
  have hfinal := unplaced_runInstruction bus hrealizes hboundary hinterrupt hdecode hprivilege b
  rw [Run.reads_of_unplaced hfinal]
  exact Run.reads_execute bus tables ⟨rfl, fun _ _ _ => hplain⟩

end M68k
