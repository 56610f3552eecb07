import M68k.Proofs.Latches.InStep
import M68k.Proofs.Session.Additive
import M68k.Proofs.Session.Bounds
import M68k.Proofs.Session.Calls

/-!
# Sessions in step

Two sessions whose processors are in step, on buses that cannot be told apart, stay in step through
bus steps, timed runs, instruction runs and whatever else a host does to both, as long as it looks at
no more than a programmer sees. So a host cannot tell them apart either.

## Main definitions

* `Run.InStep`: two sessions in step
* `HostCall.Discreet`: a call that looks at no more than a programmer sees

## Main results

* `Run.InStep.step`: both take the same bus step
* `Run.InStep.drive`, `Run.InStep.drives`: calls keep them in step
-/

namespace M68k

open Encoding

variable {β : Type} {tables : Tables} {bus : Bus β}

/-- A call that does the same to registers that a programmer cannot tell apart. -/
def HostCall.Discreet : HostCall → Prop
  | .edit change => ∀ r s : Registers, r.Alike s → (change r).Alike (change s)
  | .runFor _ | .runInstruction | .setInterruptLevel _ | .reset => True

namespace Run

variable (tables bus) in
/-- Two sessions that could not be told apart so far, with the same ahead of them. -/
structure InStep (run other : Run β) : Prop where
  processor : run.processor.InStep tables other.processor
  debt : run.processor.debt = other.processor.debt
  bus : bus.Alike run.bus other.bus
  spent : run.spent = other.spent
  observed : run.observed = other.observed

namespace InStep

variable {run other : Run β}

/-! ## Steps -/

/-- What they agree on in front of the next bus step, they agree on behind it. -/
theorem transact (h : run.InStep tables bus other)
    (hended : run.processor.programEnded tables = false) (start start' : Option Start) :
    (run.transact bus start (tables.step run.processor.busStep)).InStep tables bus
      (other.transact bus start' (tables.step other.processor.busStep)) := by
  have hbefore : Agree _ bus run other :=
    ⟨h.processor.agree_step hended, h.bus, h.spent, h.observed⟩
  obtain ⟨hheard, -⟩ := h.bus.next hbefore.processor.seen_request
  have hafter := hbefore.transact start start'
  have hstep := (h.processor.step hended).1
  have hprocessor := h.processor.receive hended hheard
  rw [← hstep] at hprocessor ⊢
  have hdebt (r : Run β) (start : Option Start) (step : BusStep) :
      (r.transact bus start step).processor.debt = r.processor.debt :=
    congrArg Setting.debt (r.processor.setting_receive step _)
  exact
    { processor := hprocessor
      debt := by rw [hdebt, hdebt, h.debt]
      bus := hafter.bus
      spent := hafter.spent
      observed := hafter.observed }

/-- **Both take the same bus step.** -/
theorem step (hrealizes : tables.Realizes forms) (h : run.InStep tables bus other) :
    (run.step tables bus).InStep tables bus (other.step tables bus) := by
  have hdebt (p : Processor) : (p.settle tables).1.debt = p.debt :=
    congrArg (·.1.debt) (Processor.owing_settle p tables p.debt)
  have hdebt' (p : Processor) : (p.fireBusFree tables).debt = p.debt :=
    congrArg Outside.debt ((Processor.blind_fireBusFree tables).outside p)
  obtain ⟨hprocessor, hstart⟩ := h.processor.settle hrealizes
  have hsettled : (run.withProcessor (run.processor.settle tables).1).InStep tables bus
      (other.withProcessor (other.processor.settle tables).1) :=
    { h with processor := hprocessor, debt := (hdebt _).trans (h.debt.trans (hdebt _).symm) }
  have hnext := hsettled.transact (Processor.programEnded_settle hrealizes run.processor)
    (run.processor.settle tables).2 (other.processor.settle tables).2
  exact
    { hnext with
      processor := hnext.processor.fireBusFree hrealizes
      debt := (hdebt' _).trans (hnext.debt.trans (hdebt' _).symm) }

/-- A limited run goes on for as many steps, if it looks at the same on both sides. -/
theorem untilStop (hrealizes : tables.Realizes forms) {stop : Run β → Bool}
    (hstop : ∀ run other : Run β, run.InStep tables bus other → stop run = stop other)
    (limit : Nat) (h : run.InStep tables bus other) :
    (run.untilStop tables bus stop limit).InStep tables bus
      (other.untilStop tables bus stop limit) := by
  induction limit generalizing run other with
  | zero => exact h
  | succ limit ih =>
    rw [Run.untilStop, Run.untilStop, ← hstop run other h]
    split
    · exact h
    · exact ih (h.step hrealizes)

/-- The time and the steps of a run are counted from elsewhere. -/
theorem after {earlier earlier' : Run β} (h : run.InStep tables bus other)
    (hspent : earlier.spent = earlier'.spent) (hobserved : earlier.observed = earlier'.observed) :
    (run.after earlier).InStep tables bus (other.after earlier') where
  processor := h.processor
  debt := h.debt
  bus := h.bus
  spent := congrArg₂ (· + ·) h.spent hspent
  observed := by
    simp only [Run.observed, Run.after, List.map_append]
    exact congrArg₂ (· ++ ·) h.observed hobserved

/-! ## Calls -/

/-- Another debt, the same on both sides. -/
theorem owe (h : run.InStep tables bus other) {debt debt' : HalfCycles} (hdebt : debt = debt') :
    (run.withProcessor { run.processor with debt := debt }).InStep tables bus
      (other.withProcessor { other.processor with debt := debt' }) := by
  subst hdebt
  exact { h with processor := h.processor.owe debt, debt := rfl }

/-- Runs that have not begun. -/
theorem begin (h : run.InStep tables bus other) :
    (Run.begin run.processor run.bus).InStep tables bus (.begin other.processor other.bus) :=
  { h with spent := rfl, observed := rfl }

/-- A timed run. -/
theorem runFor (hrealizes : tables.Realizes forms) (h : run.InStep tables bus other)
    (duration : HalfCycles) :
    (run.processor.runFor tables bus duration run.bus).InStep tables bus
      (other.processor.runFor tables bus duration other.bus) := by
  unfold Processor.runFor
  rw [← h.debt]
  split
  · exact h.begin.owe rfl
  · have hstop (r s : Run β) (hrs : r.InStep tables bus s) :
        decide (duration - run.processor.debt ≤ r.spent) =
          decide (duration - run.processor.debt ≤ s.spent) := by rw [hrs.spent]
    have hlater := h.begin.untilStop hrealizes hstop (2 * (duration - run.processor.debt) + 2)
    exact hlater.owe (congrArg (· - (duration - run.processor.debt)) hlater.spent)

/-- An instruction run. -/
theorem runInstruction (hrealizes : tables.Realizes forms) (h : run.InStep tables bus other) :
    (run.processor.runInstruction tables bus run.bus).InStep tables bus
      (other.processor.runInstruction tables bus other.bus) :=
  ((h.begin.owe (Eq.refl 0)).step hrealizes).untilStop hrealizes
    (fun _ _ hrs => hrs.processor.atBoundary) tables.stepLimit

/-- **A call** keeps the sessions in step. -/
theorem drive (hrealizes : tables.Realizes forms) (h : run.InStep tables bus other)
    {call : HostCall} (hdiscreet : call.Discreet) :
    (run.drive tables bus call).InStep tables bus (other.drive tables bus call) := by
  cases call with
  | runFor duration => exact (h.runFor hrealizes duration).after h.spent h.observed
  | runInstruction => exact (h.runInstruction hrealizes).after h.spent h.observed
  | setInterruptLevel level =>
    exact { h with processor := h.processor.setInterruptLevel level }
  | reset =>
    exact { h with processor := Processor.inStep_reset hrealizes h.processor.agree_nothing }
  | edit change =>
    exact { h with processor := h.processor.edit (hdiscreet _ _ h.processor.agree.registers) }

/-- **So do calls in a row.** -/
theorem drives (hrealizes : tables.Realizes forms) {calls : List HostCall}
    (hdiscreet : ∀ call ∈ calls, call.Discreet) (h : run.InStep tables bus other) :
    (calls.foldl (Run.drive tables bus) run).InStep tables bus
      (calls.foldl (Run.drive tables bus) other) := by
  induction calls generalizing run other with
  | nil => exact h
  | cons call calls ih =>
    exact ih (fun later hlater => hdiscreet later (List.mem_cons_of_mem _ hlater))
      (h.drive hrealizes (hdiscreet call List.mem_cons_self))

/-- What a host may look at is the same. -/
theorem visible (h : run.InStep tables bus other) :
    run.processor.visible = other.processor.visible :=
  (Processor.agree_nothing_iff.1 h.processor.agree_nothing).1

end InStep

end Run

end M68k
