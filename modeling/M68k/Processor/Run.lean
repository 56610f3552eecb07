import M68k.Processor.Step

/-!
# Runs

A processor runs against a bus, one step at a time. A timed run lasts for at least the time asked
for: steps are never split, and the overrun is taken off the next timed run. An instruction run goes
on to the next instruction boundary.

## Main definitions

* `StepRecord`: what one step did
* `Run`: a processor and the state of its bus, with the time spent and the steps run
* `Run.transact`, `Run.step`, `Run.untilStop`
* `Processor.runFor`, `Processor.runInstruction`
-/

namespace M68k

/-- What one step did. -/
structure StepRecord where
  /-- What was started, if the step came after an instruction boundary. -/
  start : Option Start
  /-- The step that was run. -/
  step : BusStep
  request : Request
  /-- The word on the bus when the step was over. -/
  value : Word
  duration : HalfCycles
deriving DecidableEq, Repr

/-- A run of a processor against a bus with state `β`. -/
structure Run (β : Type) where
  processor : Processor
  bus : β
  spent : HalfCycles
  /-- The steps so far, the last one first. -/
  history : List StepRecord

namespace Run

variable {β : Type}

/-- The run that has not begun. -/
def begin (p : Processor) (b : β) : Run β := ⟨p, b, 0, []⟩

/-- Offer a bus step to the bus, and take the answer. -/
def transact (bus : Bus β) (start : Option Start) (step : BusStep) (run : Run β) : Run β :=
  let request := run.processor.request step
  let (reply, b) := bus run.bus request
  let duration := run.processor.duration step + reply.wait
  { processor := run.processor.receive step reply
    bus := b
    spent := run.spent + duration
    history := ⟨start, step, request, reply.value, duration⟩ :: run.history }

/-- Run one bus step. -/
def step (tables : Tables) (bus : Bus β) (run : Run β) : Run β :=
  let (settled, start) := run.processor.settle tables
  let run := { run with processor := settled }.transact bus start (tables.step settled.busStep)
  { run with processor := run.processor.fireBusFree tables }

/-- Run until `stop` holds, for at most `limit` steps. -/
def untilStop (tables : Tables) (bus : Bus β) (stop : Run β → Bool) : Nat → Run β → Run β
  | 0, run => run
  | limit + 1, run =>
    if stop run then run else untilStop tables bus stop limit (run.step tables bus)

end Run

namespace Tables

/-- A bound on the steps of an instruction: each micro-operation runs at most one bus program. -/
def stepLimit (tables : Tables) : Nat := (tables.microOps.size + 1) * (tables.steps.size + 1)

end Tables

namespace Processor

variable {β : Type}

/-- Run for at least `duration`. Only flexible steps may last no time, and never two of them in a
row, so that twice as many steps as half-cycles are enough. -/
def runFor (tables : Tables) (bus : Bus β) (duration : HalfCycles) (p : Processor) (b : β) :
    Run β :=
  if duration ≤ p.debt then .begin { p with debt := p.debt - duration } b
  else
    let target := duration - p.debt
    let run := (Run.begin p b).untilStop tables bus (fun run => target ≤ run.spent) (2 * target + 2)
    { run with processor := { run.processor with debt := run.spent - target } }

/-- Run to the next instruction boundary. What was left over from timed runs is dropped. -/
def runInstruction (tables : Tables) (bus : Bus β) (p : Processor) (b : β) : Run β :=
  ((Run.begin { p with debt := 0 } b).step tables bus).untilStop tables bus
    (fun run => run.processor.atBoundary tables) tables.stepLimit

end Processor

end M68k
