import M68k.Proofs.Execution.Outside
import M68k.Proofs.Session.Reached
import M68k.Proofs.Tables.Compile

/-!
# Timed runs add up

A timed run goes round until its time is spent, counting what earlier runs have overrun. What is
counted is never lost: one run after another does what a single run does that lasts as long as both.
So a run may be cut anywhere, even inside a step.

## Main definitions

* `Run.runAll`: timed runs, one after the other
* `Processor.AddsUp`: timed runs from a processor add up

## Main results

* `Processor.exists_loop_runFor`: a timed run as a loop, with its debt counted in
* `Processor.runFor_after`, `Run.runAll_eq`: two timed runs are a single one, and so are many
* `Processor.clock_runFor`: what a timed run adds to the clock
* `Processor.Reached.timed_additive`: whatever hosts have done before, timed runs add up
-/

namespace M68k

open Encoding

variable {β : Type} {tables : Tables}

/-! ## Steps disregard the debt -/

namespace Processor

variable (p : Processor) (debt : HalfCycles)

theorem request_owing (step : BusStep) : (p.owing debt).request step = p.request step :=
  p.request_withTimes p.clock debt step

theorem receive_owing (step : BusStep) (reply : Reply) :
    (p.owing debt).receive step reply = (p.receive step reply).owing debt := by
  rw [owing_eq, receive_withTimes, owing_eq]
  exact congrArg ((p.receive step reply).withTimes · debt)
    (congrArg Setting.clock (p.setting_receive step reply)).symm

end Processor

/-! ## Steps keep the clock -/

namespace Run

/-- The clock goes by the time that a step takes. -/
theorem clock_step (tables : Tables) (bus : Bus β) (run : Run β) :
    (run.step tables bus).processor.clock + run.spent =
      run.processor.clock + (run.step tables bus).spent := by
  set settled := (run.processor.settle tables).1 with hsettled
  set step := tables.step settled.busStep
  set reply := (bus run.bus (settled.request step)).1
  have hspent :
      (run.step tables bus).spent = run.spent + (settled.duration step + reply.wait) := rfl
  have hreceive : (settled.receive step reply).clock =
      settled.clock + (settled.duration step + reply.wait) :=
    congrArg Setting.clock (settled.setting_receive step reply)
  have hfree : (run.step tables bus).processor.clock = (settled.receive step reply).clock :=
    (Processor.blind_follow tables _).clock _
  rw [hfree, hreceive, hspent, hsettled, Processor.clock_settle, Nat.add_right_comm, Nat.add_assoc]

theorem clock_of_loop {bus : Bus β} {stop : Run β → Bool} {n : Nat} {run final : Run β}
    (h : Loop stop (step tables bus) n run final) :
    final.processor.clock + run.spent = run.processor.clock + final.spent := by
  induction h with
  | done => rfl
  | @again n run final _ _ ih =>
    have hstep := clock_step tables bus run
    have hrest : final.processor.clock + (run.step tables bus).spent =
        (run.step tables bus).processor.clock + final.spent := ih
    refine Nat.add_right_cancel (m := (run.step tables bus).spent) ?_
    rw [Nat.add_right_comm, hrest, Nat.add_right_comm, hstep, Nat.add_right_comm]

end Run

namespace Run

/-- The run of a processor with another debt. -/
def owing (run : Run β) (debt : HalfCycles) : Run β := run.modify (·.owing debt)

theorem step_owing (bus : Bus β) (run : Run β) (debt : HalfCycles) :
    (run.owing debt).step tables bus = (run.step tables bus).owing debt := by
  have hfree (q : Processor) :
      (q.owing debt).fireBusFree tables = (q.fireBusFree tables).owing debt :=
    (Processor.blind_fireBusFree tables).owing q debt
  have hduration (q : Processor) (step : BusStep) :
      (q.owing debt).duration step = q.duration step := rfl
  simp only [step, owing, modify, withProcessor, Processor.owing_settle, transact,
    Processor.request_owing, Processor.receive_owing, hduration, hfree]
  rfl

end Run

/-! ## A timed run as a loop -/

namespace Processor

variable {p : Processor} (bus : Bus β)

/-- A timed run goes round until its time is spent, where the debt counts as spent. -/
theorem exists_loop_runFor (hrealizes : tables.Realizes forms) (h : p.Ready tables) (b : β)
    (duration : HalfCycles) :
    ∃ n final,
      Loop (fun run => decide (duration ≤ p.debt + run.spent)) (Run.step tables bus) n
        (.begin p b) final ∧
      p.runFor tables bus duration b = final.owing (p.debt + final.spent - duration) := by
  rcases Nat.lt_or_ge p.debt duration with hlate | hearly
  · obtain ⟨n, -, hloop⟩ := h.loop_runFor hrealizes bus b (duration - p.debt)
    set final := (Run.begin p b).untilStop tables bus (fun run => duration - p.debt ≤ run.spent)
      (2 * (duration - p.debt) + 2)
    have hstop : (fun run : Run β => decide (duration - p.debt ≤ run.spent)) =
        fun run => decide (duration ≤ p.debt + run.spent) :=
      funext fun run => decide_eq_decide.2 Nat.sub_le_iff_le_add'
    have hdebt : final.spent - (duration - p.debt) = p.debt + final.spent - duration := by
      rw [Nat.sub_sub_right _ (Nat.le_of_lt hlate), Nat.add_comm]
    rw [hstop] at hloop
    refine ⟨n, final, hloop, (runFor_of_debt_lt bus b hlate).trans ?_⟩
    rw [← hdebt]
    rfl
  · -- the debt covers the run, which goes round no time
    refine ⟨0, .begin p b, .done ?_, ?_⟩
    · simpa using Nat.le_trans hearly (Nat.le_add_right _ _)
    · exact runFor_of_le_debt bus b hearly

/-- A loop that counts the debt as spent is a timed run. -/
theorem runFor_of_loop (hrealizes : tables.Realizes forms) (h : p.Ready tables) {b : β}
    {duration : HalfCycles} {n : Nat} {final : Run β}
    (hloop : Loop (fun run => decide (duration ≤ p.debt + run.spent)) (Run.step tables bus) n
      (.begin p b) final) :
    p.runFor tables bus duration b = final.owing (p.debt + final.spent - duration) := by
  obtain ⟨m, other, hother, hrun⟩ := exists_loop_runFor bus hrealizes h b duration
  obtain ⟨-, rfl⟩ := hloop.unique hother
  exact hrun

/-- **Two timed runs are a single one** that lasts as long as both. -/
theorem runFor_after (hrealizes : tables.Realizes forms) (h : p.Reached tables) (b : β)
    (first second : HalfCycles) :
    let run := p.runFor tables bus first b
    (run.processor.runFor tables bus second run.bus).after run =
      p.runFor tables bus (first + second) b := by
  intro run
  obtain ⟨n, middle, hfirst, hrun⟩ := exists_loop_runFor bus hrealizes (h.ready hrealizes) b first
  obtain ⟨m, last, hsecond, hnext⟩ :=
    exists_loop_runFor bus hrealizes ((h.runFor bus b first).ready hrealizes) run.bus second
  have hmiddle : first ≤ p.debt + middle.spent := by simpa using hfirst.stopped
  have hdebt : run.processor.debt = p.debt + middle.spent - first := by
    rw [show run = _ from hrun]
    rfl
  -- the second loop goes on from the middle, where only the debt is another one
  let resume (other : Run β) : Run β := (other.owing middle.processor.debt).after middle
  have hresume : resume (.begin run.processor run.bus) = middle := by
    simp only [resume, show run = _ from hrun, Run.owing, Run.modify]
    exact Run.after_begin middle _
  have hrest : Loop (fun run => decide (first + second ≤ p.debt + run.spent))
      (Run.step tables bus) m (resume (.begin run.processor run.bus)) (resume last) := by
    refine hsecond.map (fun other => ?_) fun other _ => ?_
    · refine decide_eq_decide.2 ?_
      change first + second ≤ p.debt + (other.spent + middle.spent) ↔
        second ≤ run.processor.debt + other.spent
      rw [hdebt, ← Nat.sub_add_comm hmiddle, Nat.le_sub_iff_add_le (Nat.le_add_right_of_le hmiddle),
        Nat.add_comm second, Nat.add_assoc, Nat.add_comm other.spent]
    · simp only [resume]
      rw [← Run.after_step, Run.step_owing]
  rw [hresume] at hrest
  have hwhole := hfirst.trans (fun other hstop => ?_) hrest
  · have hleft : p.debt + middle.spent - first + last.spent - second =
        p.debt + (resume last).spent - (first + second) := by
      change _ = p.debt + (last.spent + middle.spent) - (first + second)
      rw [← Nat.sub_add_comm hmiddle, Nat.sub_sub, Nat.add_assoc, Nat.add_comm middle.spent]
    rw [runFor_of_loop bus hrealizes (h.ready hrealizes) hwhole, hnext, hdebt, hleft,
      show run = _ from hrun]
    rfl
  · rw [decide_eq_true_iff] at hstop ⊢
    exact Nat.le_trans (Nat.le_add_right _ _) hstop

end Processor

/-! ## Many timed runs -/

namespace Run

/-- Timed runs, one after the other. -/
def runAll (tables : Tables) (bus : Bus β) (durations : List HalfCycles) (run : Run β) : Run β :=
  durations.foldl
    (fun run duration => (run.processor.runFor tables bus duration run.bus).after run) run

theorem after_assoc (run middle first : Run β) :
    (run.after middle).after first = run.after (middle.after first) := by
  simp only [after, Nat.add_assoc, List.append_assoc]

/-- **Of many timed runs only the sum matters.** -/
theorem runAll_eq (bus : Bus β) (hrealizes : tables.Realizes forms) (durations : List HalfCycles)
    {run : Run β} (h : run.processor.Reached tables) :
    run.runAll tables bus durations =
      (run.processor.runFor tables bus durations.sum run.bus).after run := by
  induction durations generalizing run with
  | nil =>
    rw [List.sum_nil, Processor.runFor_of_le_debt bus run.bus (Nat.zero_le _)]
    exact (after_begin run run.processor).symm
  | cons duration durations ih =>
    have hadd := Processor.runFor_after bus hrealizes h run.bus duration durations.sum
    set next := (run.processor.runFor tables bus duration run.bus).after run
    have hnext : next.processor.Reached tables := h.runFor bus run.bus duration
    rw [List.sum_cons, ← hadd, after_assoc]
    exact ih hnext

end Run

/-! ## The clock -/

namespace Processor

/-- **What is run is asked for or owed.** -/
theorem clock_runFor (bus : Bus β) (hrealizes : tables.Realizes forms) {p : Processor}
    (h : p.Ready tables) (b : β) (duration : HalfCycles) :
    let final := (p.runFor tables bus duration b).processor
    final.clock + p.debt = p.clock + duration + final.debt := by
  intro final
  obtain ⟨n, last, hloop, hrun⟩ := exists_loop_runFor bus hrealizes h b duration
  have hstop : duration ≤ p.debt + last.spent := by simpa using hloop.stopped
  have hclock : last.processor.clock = p.clock + last.spent := Run.clock_of_loop hloop
  have hfinal : final = last.processor.owing (p.debt + last.spent - duration) :=
    congrArg Run.processor hrun
  calc final.clock + p.debt
      = p.clock + last.spent + p.debt := by rw [hfinal, ← hclock]; rfl
    _ = p.clock + (duration + (p.debt + last.spent - duration)) := by
      rw [Nat.add_sub_cancel' hstop, Nat.add_assoc, Nat.add_comm last.spent]
    _ = p.clock + duration + final.debt := by rw [hfinal, Nat.add_assoc]; rfl

variable (tables) in
/-- Timed runs from a processor add up, on a bus in some state. -/
structure AddsUp (bus : Bus β) (p : Processor) (b : β) : Prop where
  /-- Two of them leave the same processor and the same bus as a single one, after the same
  steps. -/
  two : ∀ first second,
    let run := p.runFor tables bus first b
    (run.processor.runFor tables bus second run.bus).after run =
      p.runFor tables bus (first + second) b
  /-- Of many of them only the sum matters. -/
  many : ∀ durations,
    (Run.begin p b).runAll tables bus durations = p.runFor tables bus durations.sum b
  /-- The clock goes by what was asked for, less the debt at the beginning and with that in the
  end. -/
  clock : ∀ durations,
    let final := ((Run.begin p b).runAll tables bus durations).processor
    final.clock + p.debt = p.clock + durations.sum + final.debt

theorem addsUp_of_reached (bus : Bus β) (hrealizes : tables.Realizes forms) {p : Processor}
    (h : p.Reached tables) (b : β) : p.AddsUp tables bus b := by
  have hmany (durations : List HalfCycles) :
      (Run.begin p b).runAll tables bus durations = p.runFor tables bus durations.sum b := by
    have hbegun : (Run.begin p b).processor.Reached tables := h
    rw [Run.runAll_eq bus hrealizes durations hbegun]
    simp only [Run.after, Run.begin, Nat.add_zero, List.append_nil]
  refine
    { two := runFor_after bus hrealizes h b
      many := hmany
      clock := fun durations => ?_ }
  rw [hmany durations]
  exact clock_runFor bus hrealizes (h.ready hrealizes) b durations.sum

/-- **Timed runs add up**, whatever hosts have done before and on every bus. From construction on
the clock shows the time asked for and the debt. -/
theorem Reached.timed_additive {p : Processor} (h : p.Reached (.compile forms)) (bus : Bus β)
    (b : β) :
    p.AddsUp (.compile forms) bus b ∧
      ∀ durations,
        let final :=
          ((Run.begin (Processor.initial (.compile forms)) b).runAll (.compile forms) bus
            durations).processor
        final.clock = durations.sum + final.debt := by
  refine ⟨addsUp_of_reached bus Tables.realizes_compile h b, fun durations => ?_⟩
  have hclock :=
    (addsUp_of_reached bus Tables.realizes_compile .initial b).clock durations
  have hnew : (Processor.initial (.compile forms)).clock = 0 ∧
      (Processor.initial (.compile forms)).debt = 0 := ⟨rfl, rfl⟩
  simpa only [hnew, Nat.add_zero, Nat.zero_add] using hclock

/-- A new processor after its reset sequence is one of those. -/
theorem addsUp_resetNop :
    (Run.resetNop (.compile forms)).processor.Reached (.compile forms) ∧
      (Run.resetNop (.compile forms)).processor.AddsUp (.compile forms) (Bus.constant 0x4E71) () :=
  ⟨Run.reached_resetNop _, (Reached.timed_additive (Run.reached_resetNop _) _ ()).1⟩

end Processor

end M68k
