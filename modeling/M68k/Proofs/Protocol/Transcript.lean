import M68k.Proofs.Protocol.Events
import M68k.Proofs.Session.Bounds
import M68k.Proofs.Session.Calls

/-!
# What the bus sees of a session

A host may break off a run anywhere, even between the two halves of a transfer, and go on later or
reset the processor. In the order of the steps, and with the resets among them, all that the bus sees
keeps to the protocol, as long as the host edits registers between instructions only.

## Main definitions

* `Run.shown`, `Run.transcript`: what the bus sees of a call and of many
* `Run.EditsAtBoundaries`: the host edits registers between instructions only

## Main results

* `Run.requests_transcript`: the requests of a transcript are those of the session
* `Run.protocol_transcript`: every transcript keeps to the protocol
-/

namespace M68k

/-- The request of a step. -/
def BusEvent.request? : BusEvent → Option Request
  | step request => some request
  | reset => none

namespace Run

variable {β : Type} (tables : Tables) (bus : Bus β)

/-- What the bus sees of a call. -/
def shown (run : Run β) : HostCall → List BusEvent
  | .runFor duration => (run.processor.runFor tables bus duration run.bus).events
  | .runInstruction => (run.processor.runInstruction tables bus run.bus).events
  | .reset => [.reset]
  | .setInterruptLevel _ | .edit _ => []

/-- What the bus sees of some calls, one after the other. -/
def transcript (run : Run β) : List HostCall → List BusEvent
  | [] => []
  | call :: calls =>
    run.shown tables bus call ++ transcript (run.drive tables bus call) calls

/-- The host edits registers at instruction boundaries only. -/
def EditsAtBoundaries (run : Run β) : List HostCall → Prop
  | [] => True
  | call :: calls =>
    (∀ change, call = .edit change → run.processor.atBoundary tables) ∧
      EditsAtBoundaries (run.drive tables bus call) calls

variable {tables}

/-! ## Transcripts and sessions -/

/-- The requests of a call are those that it puts into the history. -/
theorem requests_shown (run : Run β) (call : HostCall) :
    (run.drive tables bus call).history.reverse.map (·.request) =
      run.history.reverse.map (·.request) ++
        (run.shown tables bus call).filterMap BusEvent.request? := by
  have hrequests (other : Run β) : other.events.filterMap BusEvent.request? =
      other.history.reverse.map (·.request) := by
    rw [events, List.filterMap_map]
    exact List.filterMap_eq_map_iff_forall_eq_some.2 fun _ _ => rfl
  cases call with
  | runFor | runInstruction => simp [drive, shown, after, hrequests]
  | _ => simp [drive, shown, modify, BusEvent.request?]

/-- **The requests of a transcript are those of the session**, in the order of its steps. -/
theorem requests_transcript (b : β) (calls : List HostCall) :
    (transcript tables bus (.begin (.initial tables) b) calls).filterMap BusEvent.request? =
      (session tables bus b calls).history.reverse.map (·.request) := by
  suffices ∀ run : Run β, (calls.foldl (drive tables bus) run).history.reverse.map (·.request) =
      run.history.reverse.map (·.request) ++
        (run.transcript tables bus calls).filterMap BusEvent.request? from
    (this (.begin (.initial tables) b)).symm
  induction calls with
  | nil => simp [transcript]
  | cons call calls ih =>
    intro run
    rw [List.foldl_cons, ih, requests_shown, transcript, List.filterMap_append, List.append_assoc]

end Run

/-! ## Calls keep to the protocol -/

namespace Processor

variable {β : Type} {tables : Tables} {p q : Processor} {seen : List BusEvent}

namespace KeepsTo

/-- A change of the processor that leaves its chain and all addresses alone. -/
theorem of_resolve (h : p.KeepsTo tables seen)
    (hq : ∀ source, q.resolve source = p.resolve source) (hstep : q.busStep = p.busStep)
    (hop : q.microOp = p.microOp) (hphase : q.phase = p.phase)
    (hinstruction : q.instruction = p.instruction) : q.KeepsTo tables seen := by
  obtain ⟨event, hlast, held, hobeys⟩ := h.obeys
  exact ⟨h.protocol, event, hlast, held, hobeys.of_resolve hq hstep hop hphase hinstruction⟩

theorem owe (h : p.KeepsTo tables seen) (debt : HalfCycles) :
    { p with debt := debt }.KeepsTo tables seen :=
  h.of_resolve (fun source => by cases source <;> rfl) rfl rfl rfl rfl

/-- A run of its own begins with no events. -/
theorem begin (h : p.KeepsTo tables seen) (b : β) :
    (Run.begin p b).processor.KeepsTo tables (seen ++ (Run.begin p b).events) := by
  simpa [Run.begin, Run.events] using h

theorem runFor (hrealizes : tables.Realizes forms) (hready : p.Ready tables)
    (h : p.KeepsTo tables seen) (bus : Bus β) (b : β) (duration : HalfCycles) :
    (p.runFor tables bus duration b).processor.KeepsTo tables
      (seen ++ (p.runFor tables bus duration b).events) := by
  unfold Processor.runFor
  split
  · exact (h.owe _).begin b
  · exact ((Run.kept_keepsTo bus hrealizes seen).untilStop hrealizes _ _ hready.orderly
      hready.settled (h.begin b)).owe _

theorem runInstruction (hrealizes : tables.Realizes forms) (hready : p.Ready tables)
    (h : p.KeepsTo tables seen) (bus : Bus β) (b : β) :
    (p.runInstruction tables bus b).processor.KeepsTo tables
      (seen ++ (p.runInstruction tables bus b).events) := by
  have hkept := Run.kept_keepsTo bus hrealizes seen
  have hbegun : (Run.begin { p with debt := 0 } b).processor.Orderly tables ∧
      (Run.begin { p with debt := 0 } b).processor.Settled tables :=
    ⟨hready.orderly, hready.settled⟩
  obtain ⟨horderly, hsettled⟩ := Run.orderly_step bus hrealizes hbegun.1 hbegun.2
  exact hkept.untilStop hrealizes _ _ horderly hsettled
    (hkept.step hrealizes hbegun.1 hbegun.2 ((h.owe 0).begin b))

end KeepsTo

end Processor

namespace Run

variable {β : Type} {tables : Tables} {run : Run β} {seen : List BusEvent}

/-- A call keeps to the protocol, wherever the calls before it have left the processor. -/
theorem keepsTo_drive (hrealizes : tables.Realizes forms) (bus : Bus β)
    (hready : run.processor.Ready tables) (h : run.processor.KeepsTo tables seen) {call : HostCall}
    (hedit : ∀ change, call = .edit change → run.processor.atBoundary tables) :
    (run.drive tables bus call).processor.KeepsTo tables
      (seen ++ run.shown tables bus call) := by
  cases call with
  | runFor duration => exact h.runFor hrealizes hready bus run.bus duration
  | runInstruction => exact h.runInstruction hrealizes hready bus run.bus
  | setInterruptLevel level =>
    rw [shown, List.append_nil]
    exact h.of_resolve (fun source => by cases source <;> rfl) rfl rfl rfl rfl
  | reset =>
    exact ⟨h.protocol.concat nofun fun _ _ => trivial, .reset, List.getLast?_concat, none,
      .reset hrealizes _⟩
  | edit change =>
    obtain ⟨event, hlast, held, hobeys⟩ := h.obeys
    rw [shown, List.append_nil]
    exact ⟨h.protocol, event, hlast, none,
      hobeys.of_atBoundary (hedit change rfl) rfl rfl rfl⟩

/-- So do many calls. -/
theorem protocol_of_keepsTo (hrealizes : tables.Realizes forms) (bus : Bus β)
    (calls : List HostCall) (hreached : run.processor.Reached tables)
    (h : run.processor.KeepsTo tables seen) (hedits : run.EditsAtBoundaries tables bus calls) :
    Protocol (seen ++ run.transcript tables bus calls) := by
  induction calls generalizing run seen with
  | nil =>
    rw [transcript, List.append_nil]
    exact h.protocol
  | cons call calls ih =>
    obtain ⟨hedit, hedits⟩ := hedits
    rw [transcript, ← List.append_assoc]
    exact ih (reached_drive bus hreached call)
      (keepsTo_drive hrealizes bus (hreached.ready hrealizes) h hedit) hedits

/-- **The protocol of the bus.** On tables that were built, on any bus, and whatever a host does that
edits registers at instruction boundaries only: data is only selected in steps that hold their
address, as a byte or as a word; a step that strobes a new address selects nothing, and the next one
holds this address, unless a reset comes first, and it says the same about reading, the program and
acknowledging; and each step that holds an address comes directly behind one that strobes or holds
the same. Before the first step there is a reset. -/
theorem protocol_transcript {config : Config} (hbuild : Tables.build config forms = .ok tables)
    (bus : Bus β) (b : β) (calls : List HostCall)
    (hedits : (Run.begin (.initial tables) b).EditsAtBoundaries tables bus calls) :
    Protocol (.reset :: transcript tables bus (.begin (.initial tables) b) calls) := by
  obtain rfl := Tables.eq_compile_of_build hbuild
  have hreset : Protocol [.reset] := ⟨by simp, List.isChain_singleton _⟩
  have hinitial : (Processor.initial (.compile forms)).KeepsTo (.compile forms) [.reset] :=
    ⟨hreset, .reset, rfl, none, .reset Tables.realizes_compile _⟩
  exact protocol_of_keepsTo Tables.realizes_compile bus calls .initial hinitial hedits

/-- For one, where the host edits registers after the reset sequence, and later resets the
processor in the middle of a transfer. -/
theorem protocol_transcript_reset :
    Tables.build ⟨false, false⟩ forms = .ok (.compile forms) ∧
      (Run.begin (.initial (.compile forms)) ()).EditsAtBoundaries (.compile forms)
        (Bus.constant 0x4E71)
        [.runInstruction, .edit (·.setSp 0x1000), .runFor 5, .reset, .runInstruction] ∧
      Protocol (.reset :: transcript (.compile forms) (Bus.constant 0x4E71)
        (.begin (.initial (.compile forms)) ())
        [.runInstruction, .edit (·.setSp 0x1000), .runFor 5, .reset, .runInstruction]) := by
  have hbuild : Tables.build ⟨false, false⟩ forms = .ok (.compile forms) := rfl
  have hboundary : (resetNop (.compile forms)).processor.atBoundary (.compile forms) :=
    (processor_resetNop Tables.realizes_compile).1
  have hedits : (Run.begin (.initial (.compile forms)) ()).EditsAtBoundaries (.compile forms)
      (Bus.constant 0x4E71)
      [.runInstruction, .edit (·.setSp 0x1000), .runFor 5, .reset, .runInstruction] :=
    ⟨nofun, fun _ _ => hboundary, nofun, nofun, nofun, trivial⟩
  exact ⟨hbuild, hedits, protocol_transcript hbuild (Bus.constant 0x4E71) () _ hedits⟩

end Run

end M68k
