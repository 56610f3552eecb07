import M68k.Proofs.Execution.Upcoming
import M68k.Proofs.Session.Reachable

/-!
# Pacing

A flexible step may last no time, so that the time of a run does not grow with each of its steps.
But of two steps in a row one takes time, so that it grows with every other step. A timed run
therefore comes to its end, and the limit that it keeps does it no harm.

## Main definitions

* `Processor.Ready`: what holds of the processor between two steps of every session
* `Run.Paced`: of two steps in a row, one takes time, in the history as well as in what is to come

## Main results

* `Run.Reachable.paced`: every session is paced
* `Processor.Ready.loop_runFor`: timed runs of ready processors end
-/

namespace M68k

open Encoding

variable {β : Type} {tables : Tables}

/-- A firm step takes time, whatever the bus says. -/
theorem Processor.duration_pos (p : Processor) {step : BusStep} (h : step.lasts) :
    0 < p.duration step := by
  unfold BusStep.lasts at h
  unfold duration
  cases hlength : step.length with
  | fixed length => simpa [hlength] using h
  | flexible => simp [hlength] at h

variable (tables) in
/-- Between two steps of a session the chain is in order, and of two steps to come one takes
time. -/
structure Processor.Ready (p : Processor) : Prop where
  orderly : p.Orderly tables
  settled : p.Settled tables
  paced : Activity.Paced true (p.upcoming tables)

/-- At a boundary nothing is to come. -/
theorem Processor.ready_of_atBoundary {p : Processor} (h : p.atBoundary tables) :
    p.Ready tables := by
  have hmore : p.upcoming tables = [] := by
    rw [upcoming, activity_eq_nil tables (programEnded_of_atBoundary tables h),
      stages_of_atBoundary tables h]
    rfl
  obtain ⟨horderly, hsettled⟩ : (Run.begin p ()).processor.Orderly tables ∧
      (Run.begin p ()).processor.Settled tables := Run.orderly_of_atBoundary h
  exact ⟨horderly, hsettled, by rw [hmore]; trivial⟩

namespace Run

/-- Of two steps in a row, one took time. -/
def Alternating (history : List StepRecord) : Prop :=
  history.IsChain fun later earlier => 0 < later.duration ∨ 0 < earlier.duration

/-- The time of all steps in a history. -/
def elapsed (history : List StepRecord) : Nat := (history.map (·.duration)).sum

/-- Of each two steps one took a half-cycle at least. -/
theorem length_le_of_alternating :
    ∀ {history : List StepRecord}, Alternating history →
      history.length ≤ 2 * elapsed history + 1
  | [], _ => Nat.zero_le _
  | [_], _ => by simp
  | later :: earlier :: history, h => by
    have hpair : (0 : Nat) < later.duration ∨ (0 : Nat) < earlier.duration :=
      (List.isChain_cons_cons.1 h).1
    have hrest : history.length ≤ 2 * elapsed history + 1 := length_le_of_alternating h.tail.tail
    have hsum : elapsed (later :: earlier :: history) =
        later.duration + (earlier.duration + elapsed history) := rfl
    rw [hsum, List.length_cons, List.length_cons]
    rcases hpair with hpair | hpair <;> omega

variable (tables) in
/-- The time spent is that of the steps so far. Of two steps in a row one takes time, also where
those to come follow those that were run. -/
structure Paced (run : Run β) : Prop where
  orderly : run.processor.Orderly tables
  upcoming : ∃ lasted, Activity.Paced lasted (run.processor.upcoming tables) ∧
    (lasted → ∀ record ∈ run.history.head?, 0 < record.duration)
  alternating : Alternating run.history
  spent : run.spent = elapsed run.history

/-- Steps that are brought in keep the pace. -/
theorem paced_of_brings {p : Processor} {lasted : Bool} {steps : Activity}
    (hbrings : p.Brings tables steps) (hsteps : Activity.Paced lasted steps) :
    Activity.Paced lasted (p.upcoming tables) := by
  obtain ⟨front, hfront, hbehind | hreplaced⟩ := hbrings
  · rw [hbehind]
    exact .of_firm hfront hsteps
  · rw [hreplaced]
    exact hfront.paced lasted

/-- **Every part of a step keeps the pace.** -/
theorem kept_paced (bus : Bus β) (hrealizes : tables.Realizes forms) :
    Kept tables bus (Paced tables) where
  enter run h hphase hended hterminal := by
    have hnext : run.processor.hasNext tables :=
      (run.processor.hasNext_iff tables).2 ⟨hphase, hterminal⟩
    obtain ⟨lasted, hpaced, hlasted⟩ := h.upcoming
    have hbrings := Processor.brings_proceed hrealizes h.orderly hended hnext
    exact
      { h with
        orderly := Processor.orderly_proceed h.orderly hnext
        upcoming := ⟨lasted, paced_of_brings hbrings hpaced, hlasted⟩ }
  start run h hboundary := by
    obtain ⟨steps, hsteps, -, hbrings⟩ := Processor.brings_begin hrealizes run.processor
    exact
      { h with
        orderly := Processor.orderly_begin hrealizes run.processor
        upcoming := ⟨false, paced_of_brings hbrings hsteps, fun h => by cases h⟩ }
  transact run start h hended := by
    obtain ⟨lasted, hpaced, hlasted⟩ := h.upcoming
    set step := tables.step run.processor.busStep with hstep
    have hupcoming : run.processor.upcoming tables =
        step :: (run.transact bus start step).processor.upcoming tables := by
      rw [Processor.upcoming, activity_transact bus tables run start hended, ← hstep,
        List.cons_append, Processor.upcoming, stages_transact]
    rw [hupcoming] at hpaced
    obtain ⟨hone, hrest⟩ := hpaced
    have htakes (htime : step.lasts) :
        0 < run.processor.duration step + (bus run.bus (run.processor.request step)).1.wait :=
      Nat.add_pos_left (run.processor.duration_pos htime) _
    refine ⟨?_, ⟨step.lasts, hrest, fun htime record hrecord => ?_⟩, ?_, ?_⟩
    · intro stage hstage
      rw [stages_transact] at hstage
      rw [transact, Processor.instruction_receive]
      exact h.orderly stage hstage
    · obtain rfl := Option.mem_some_iff.1 hrecord
      exact htakes htime
    · refine List.isChain_cons.2 ⟨fun earlier hearlier => ?_, h.alternating⟩
      rw [Bool.or_eq_true] at hone
      rcases hone with hbefore | htime
      · exact .inr (hlasted hbefore earlier hearlier)
      · exact .inl (htakes htime)
    · simp only [transact, elapsed, List.map_cons, List.sum_cons, h.spent]
      exact Nat.add_comm _ _

/-- A ready processor begins runs that are paced. -/
theorem paced_begin {p : Processor} (h : p.Ready tables) (b : β) : Paced tables (.begin p b) where
  orderly := h.orderly
  upcoming := ⟨true, h.paced, fun _ record hrecord => by simp [Run.begin] at hrecord⟩
  alternating := .nil
  spent := rfl

theorem paced_reset (hrealizes : tables.Realizes forms) (p : Processor) (lasted : Bool) :
    Activity.Paced lasted ((p.reset tables).upcoming tables) := by
  rw [Processor.upcoming_of_phase_ne (by simp [Processor.reset]),
    Processor.activity_reset hrealizes]
  exact FixedPrograms.firm_reset.paced lasted

/-- Every session is paced. -/
theorem Reachable.paced {bus : Bus β} {edit : Edit} (hrealizes : tables.Realizes forms)
    {run : Run β} (h : run.Reachable tables bus edit) : Paced tables run := by
  have hreset (run : Run β) (halternating : Alternating run.history)
      (hspent : run.spent = elapsed run.history) :
      Paced tables (run.modify (·.reset tables)) :=
    { orderly := (Processor.orderly_reset hrealizes run.processor).1
      upcoming := ⟨false, paced_reset hrealizes run.processor false, fun h => by cases h⟩
      alternating := halternating
      spent := hspent }
  refine Reachable.induct hrealizes (fun b => hreset (.begin _ b) .nil rfl)
    (kept_paced bus hrealizes) ?_ (fun run h => hreset run h.alternating h.spent) ?_ ?_ h
  · exact fun run level h => ⟨h.orderly, h.upcoming, h.alternating, h.spent⟩
  · exact fun run registers _ h => ⟨h.orderly, h.upcoming, h.alternating, h.spent⟩
  · exact fun run debt h => ⟨h.orderly, h.upcoming, h.alternating, h.spent⟩

/-! ## Timed runs -/

section TimedRuns

variable (bus : Bus β)

/-- A limited run keeps the pace. -/
theorem paced_untilStop (hrealizes : tables.Realizes forms) (stop : Run β → Bool) (limit : Nat)
    {run : Run β} (h : Paced tables run) (hsettled : run.processor.Settled tables) :
    Paced tables (run.untilStop tables bus stop limit) := by
  induction limit generalizing run with
  | zero => exact h
  | succ limit ih =>
    unfold untilStop
    split
    · exact h
    · exact ih ((kept_paced bus hrealizes).step hrealizes h.orderly hsettled h)
        (orderly_step bus hrealizes h.orderly hsettled).2

/-- A limited run stops where it should, or goes to its limit. -/
theorem stop_or_length_untilStop (tables : Tables) (bus : Bus β) (stop : Run β → Bool)
    (limit : Nat) (run : Run β) :
    stop (run.untilStop tables bus stop limit) ∨
      (run.untilStop tables bus stop limit).history.length = run.history.length + limit := by
  induction limit generalizing run with
  | zero => exact .inr rfl
  | succ limit ih =>
    unfold untilStop
    split
    · exact .inl ‹_›
    · refine (ih (run.step tables bus)).imp_right fun hlength => hlength.trans ?_
      simp only [step, transact, List.length_cons]
      omega

end TimedRuns

end Run

namespace Processor

/-- A timed run that finds no time left over goes round until its time is spent. -/
theorem runFor_of_debt_lt {p : Processor} {duration : HalfCycles} (bus : Bus β) (b : β)
    (h : p.debt < duration) :
    p.runFor tables bus duration b =
      let run := (Run.begin p b).untilStop tables bus (fun run => duration - p.debt ≤ run.spent)
        (2 * (duration - p.debt) + 2)
      run.modify fun q => { q with debt := run.spent - (duration - p.debt) } := by
  rw [runFor, if_neg (Nat.not_le_of_lt h)]
  rfl

/-- A timed run that finds enough time left over does nothing else than use it up. -/
theorem runFor_of_le_debt {p : Processor} {duration : HalfCycles} (bus : Bus β) (b : β)
    (h : duration ≤ p.debt) :
    p.runFor tables bus duration b = .begin { p with debt := p.debt - duration } b :=
  if_pos h

/-- **Timed runs of ready processors end**: after no more steps than their limit they have spent
their time. -/
theorem Ready.loop_runFor (hrealizes : tables.Realizes forms) {p : Processor}
    (h : p.Ready tables) (bus : Bus β) (b : β) (target : Nat) :
    ∃ n ≤ 2 * target + 2,
      Loop (fun run => decide (target ≤ run.spent)) (Run.step tables bus) n (.begin p b)
        ((Run.begin p b).untilStop tables bus (fun run => target ≤ run.spent)
          (2 * target + 2)) := by
  refine Run.exists_loop_of_untilStop ?_
  rcases Run.stop_or_length_untilStop tables bus (fun run => decide (target ≤ run.spent))
    (2 * target + 2) (.begin p b) with hstop | hlength
  · exact hstop
  · -- so many steps take more time than was asked for
    have hpaced := Run.paced_untilStop bus hrealizes (fun run => decide (target ≤ run.spent))
      (2 * target + 2) (Run.paced_begin h b) h.settled
    have hbound := Run.length_le_of_alternating hpaced.alternating
    rw [hlength, ← hpaced.spent] at hbound
    have hbegun : (Run.begin p b).history.length = 0 := rfl
    rw [decide_eq_true_iff]
    omega

end Processor

end M68k
