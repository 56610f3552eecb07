import M68k.Proofs.Session.Reached

/-!
# Calls of a host

A host runs the processor for some time or to the next boundary, drives the interrupt inputs, resets
the processor and edits its registers. It may do so in any order, and depending on all that it has
seen before. What it sees is settled by the calls that it has made, so that whatever holds after each
list of calls holds of every host.

## Main definitions

* `HostCall`: what a host may ask for
* `Run.drive`: how it is done
* `Run.session`: a list of calls from construction on

## Main results

* `Run.reached_session`: calls lead to processors that hosts lead to
-/

namespace M68k

/-- What a host may ask of a processor, and do to it. -/
inductive HostCall
  | runFor (duration : HalfCycles)
  | runInstruction
  | setInterruptLevel (level : Level)
  | reset
  /-- Replace the registers, perhaps by what is made from them. -/
  | edit (change : Registers → Registers)

namespace Run

variable {β : Type} (tables : Tables) (bus : Bus β)

/-- Do what the host asks for. -/
def drive (run : Run β) : HostCall → Run β
  | .runFor duration => (run.processor.runFor tables bus duration run.bus).after run
  | .runInstruction => (run.processor.runInstruction tables bus run.bus).after run
  | .setInterruptLevel level => run.modify (·.setInterruptLevel level)
  | .reset => run.modify (·.reset tables)
  | .edit change => run.modify fun p => { p with registers := change p.registers }

/-- A new processor on a bus, after some calls of the host. -/
def session (b : β) (calls : List HostCall) : Run β :=
  calls.foldl (drive tables bus) (.begin (.initial tables) b)

theorem session_append (b : β) (calls later : List HostCall) :
    session tables bus b (calls ++ later) =
      later.foldl (drive tables bus) (session tables bus b calls) :=
  List.foldl_append

variable {tables}

theorem reached_drive {run : Run β} (h : run.processor.Reached tables) (call : HostCall) :
    (run.drive tables bus call).processor.Reached tables := by
  have hmove {next : Run β} (hmove : Move tables bus (fun _ _ => True) run next) :
      next.processor.Reached tables :=
    .move h hmove
  cases call with
  | runFor duration => exact h.runFor bus run.bus duration
  | runInstruction => exact h.runInstruction bus run.bus
  | setInterruptLevel level => exact hmove (.setInterruptLevel run level)
  | reset => exact hmove (.reset run)
  | edit change => exact hmove (.edit run (change run.processor.registers) trivial)

/-- Calls lead to processors that hosts lead to. -/
theorem reached_session (b : β) (calls : List HostCall) :
    (session tables bus b calls).processor.Reached tables := by
  induction calls using List.reverseRecOn with
  | nil => exact .initial
  | append_singleton calls call ih =>
    rw [session_append]
    exact reached_drive bus ih call

end Run

end M68k
