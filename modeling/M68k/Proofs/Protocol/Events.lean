import M68k.Proofs.Protocol.Recipes
import M68k.Proofs.Session.Reachable

/-!
# The protocol of the bus

The bus sees requests, and may see that the host resets the processor. Between two requests there is
whatever the processor does on its own, which includes operations, the decoding of instructions and
the entry into exceptions. A strobed address is held all the same, unless a reset comes in between.

## Main definitions

* `BusEvent`: what the bus sees
* `Protocol`: events that keep to the protocol
* `Processor.Shows`: what the processor has last put on the bus
* `Processor.Obeys`: all that is left of its chain continues from there
* `Processor.KeepsTo`: the events so far keep to the protocol, and so will those to come

## Main results

* `Processor.Obeys.receive`: a step continues from the one before it
* `Processor.Obeys.enterMicroOp`, `Processor.Obeys.begin`: so does what is started
* `Run.kept_keepsTo`: a run keeps to the protocol step by step
-/

namespace M68k

open Encoding

/-- What the bus sees. -/
inductive BusEvent
  | step (request : Request)
  /-- The host resets the processor. -/
  | reset

namespace BusEvent

/-- The event may come directly behind `earlier`. An address that is held is the one before. -/
def Follows : BusEvent → BusEvent → Prop
  | step request, step earlier =>
    request.signals.Follows earlier.signals ∧
      (request.signals.sameAddress → request.address = earlier.address)
  | step request, reset => request.signals.sameAddress = false
  | reset, _ => True

/-- No strobed address waits for its transfer. -/
def Rests : BusEvent → Prop
  | step request => request.signals.newAddress = false
  | reset => True

end BusEvent

/-- The events, in their order, keep to the protocol of the bus. -/
structure Protocol (events : List BusEvent) : Prop where
  sound : ∀ request, .step request ∈ events → request.signals.Sound
  chain : events.IsChain fun earlier later => later.Follows earlier

theorem Protocol.concat {events : List BusEvent} {event : BusEvent} (h : Protocol events)
    (hsound : ∀ request, event = .step request → request.signals.Sound)
    (hfollows : ∀ earlier ∈ events.getLast?, event.Follows earlier) :
    Protocol (events ++ [event]) where
  sound request hmem := by
    rcases List.mem_append.1 hmem with hmem | hmem
    · exact h.sound request hmem
    · exact hsound request (List.mem_singleton.1 hmem).symm
  chain := List.isChain_append.2
    ⟨h.chain, List.isChain_singleton _, fun earlier hearlier later hlater => by
      obtain rfl : event = later := by simpa using hlater
      exact hfollows earlier hearlier⟩

/-! ## The last event -/

namespace Processor

/-- The last event on the bus. Where an address still stands, it was presented by `held`, and is
looked up the same now. -/
structure Shows (p : Processor) (event : BusEvent) (held : Option BusStep) : Prop where
  rests : held = none → event.Rests
  stands : ∀ step ∈ held, ∃ request, event = .step request ∧ request.signals = step.signals ∧
    request.address = p.resolve step.address

variable {tables : Tables} {p q : Processor} {event : BusEvent} {held : Option BusStep}

namespace Shows

theorem of_resolve (h : p.Shows event held) (hq : ∀ source, q.resolve source = p.resolve source) :
    q.Shows event held where
  rests := h.rests
  stands step hstep := by
    obtain ⟨request, hevent, hsignals, haddress⟩ := h.stands step hstep
    exact ⟨request, hevent, hsignals, haddress.trans (hq _).symm⟩

/-- Behind an event that leaves no address waiting nothing needs to stand. -/
theorem of_rests (h : event.Rests) : p.Shows event none := ⟨fun _ => h, by simp⟩

theorem event_rests (h : p.Shows event held) (hheld : BusStep.Rests held) : event.Rests := by
  cases held with
  | none => exact h.rests rfl
  | some step =>
    obtain ⟨request, rfl, hsignals, -⟩ := h.stands step rfl
    exact (congrArg Signals.newAddress hsignals).trans (hheld step rfl)

/-- **A step that joins what stands follows the last event.** -/
theorem follows {step : BusStep} (h : p.Shows event held) (hjoins : step.Joins held) :
    (BusEvent.step (p.request step)).Follows event := by
  cases held with
  | none =>
    have hsame : step.signals.sameAddress = false := hjoins.alone rfl
    have hrests := h.rests rfl
    cases event with
    | reset => exact hsame
    | step earlier =>
      have hnew : earlier.signals.newAddress = false := hrests
      exact ⟨⟨by simp [hnew], by simp [hnew], by simp [request, hsame]⟩, by simp [request, hsame]⟩
  | some last =>
    obtain ⟨earlier, rfl, hsignals, haddress⟩ := h.stands last rfl
    obtain ⟨hfollows, hsource⟩ := hjoins.follows last rfl
    refine ⟨hsignals ▸ hfollows, fun hsame => ?_⟩
    rw [haddress, ← hsource hsame]
    rfl

/-- Once the step is over, it is what stands. -/
theorem receive {step : BusStep} (hjoins : step.Joins held) (reply : Reply) :
    (p.receive step reply).Shows (.step (p.request step)) step.standing := by
  unfold BusStep.standing
  split
  · rename_i hkeeps
    refine ⟨by simp, fun last hlast => ?_⟩
    obtain rfl : step = last := by simpa using hlast
    exact ⟨_, rfl, rfl, (p.resolve_receive hkeeps reply step.address).symm⟩
  · rename_i hmoves
    refine .of_rests ?_
    by_contra hnew
    exact hmoves (hjoins.keeps (by simpa [BusEvent.Rests, request] using hnew))

end Shows

/-! ## Actions -/

variable (tables) in
/-- The operation of test-and-set chooses no program, and moves no address. -/
theorem act_of_keepsAddresses {action : Action} (target : Target)
    (h : p.instruction.keepsAddresses action) :
    (p.act tables action target).2 = none ∧
      ∀ source, (p.act tables action target).1.resolve source = p.resolve source := by
  obtain ⟨rfl, hoperation, hdestination⟩ := h
  rw [act_of_plain p tables target (by rw [hoperation]; rfl)]
  refine ⟨rfl, fun source => ?_⟩
  have hmode : Status.has (Status.logical p.registers.sr p.destination .byte) Status.supervisor =
      p.registers.isSupervisor := by
    rw [← Status.has_supervisor_system, Status.system_logical, Status.has_supervisor_system,
      Registers.isSupervisor]
  have hcompute : p.compute =
      (p.setStatus (Status.logical p.registers.sr p.destination .byte)).writeOperand
        .destinationLatch .byte (p.destination ||| 0x80) := by
    rw [← hdestination]
    simp only [compute, hoperation]
    rfl
  rw [hcompute, setStatus, Registers.setStatus_of_mode hmode]
  cases source <;> rfl

/-! ## What is left of the chain -/

variable (tables) in
/-- What is left of the chain continues from the last event on the bus. -/
structure Obeys (p : Processor) (event : BusEvent) (held : Option BusStep) : Prop where
  shows : p.Shows event held
  running : (p.activity tables).Linked held
  following : Stage.Linked p.instruction ((p.activity tables).behind held) (p.stages tables)

namespace Obeys

/-- Where a program has ended, no strobed address waits. -/
theorem rests (h : p.Obeys tables event held) (hended : p.programEnded tables) :
    BusStep.Rests held := by
  have hrunning := h.running
  rwa [activity_eq_nil tables hended] at hrunning

/-- A change of the processor that leaves its chain and all addresses alone. -/
theorem of_resolve (h : p.Obeys tables event held)
    (hq : ∀ source, q.resolve source = p.resolve source) (hstep : q.busStep = p.busStep)
    (hop : q.microOp = p.microOp) (hphase : q.phase = p.phase)
    (hinstruction : q.instruction = p.instruction) : q.Obeys tables event held := by
  have hactivity : q.activity tables = p.activity tables := by
    rw [activity, activity, hstep]
  have hstages : q.stages tables = p.stages tables := by
    rw [stages, stages, hphase, hop]
  refine ⟨h.shows.of_resolve hq, ?_, ?_⟩
  · rw [hactivity]
    exact h.running
  · rw [hactivity, hstages, hinstruction]
    exact h.following

/-- A program that takes over continues from any event that leaves no address waiting. -/
theorem of_phase_ne (hrests : event.Rests) (hphase : p.phase ≠ .instruction)
    (hwhole : (p.activity tables).isWhole) : p.Obeys tables event none where
  shows := .of_rests hrests
  running := Activity.linked_of_isWhole hwhole BusStep.rests_none
  following := by
    rw [stages_of_phase_ne tables hphase]
    trivial

/-- **A step continues from the one before it.** -/
theorem receive (h : p.Obeys tables event held) (hended : p.programEnded tables = false)
    (reply : Reply) :
    (tables.step p.busStep).signals.Sound ∧
      (BusEvent.step (p.request (tables.step p.busStep))).Follows event ∧
        (p.receive (tables.step p.busStep) reply).Obeys tables
          (.step (p.request (tables.step p.busStep))) (tables.step p.busStep).standing := by
  obtain ⟨hshows, hactivity, hstages⟩ := h
  rw [activity_eq_cons tables hended] at hactivity hstages
  obtain ⟨hjoins, hrest⟩ := hactivity
  have hleft : (p.receive (tables.step p.busStep) reply).activity tables =
      tables.activityAt (p.busStep + 1) := by
    rw [Processor.activity, busStep_receive]
  have hchain : (p.receive (tables.step p.busStep) reply).stages tables = p.stages tables := by
    rw [Processor.stages, phase_receive, microOp_receive]
    rfl
  refine ⟨hjoins.sound, hshows.follows hjoins, .receive hjoins reply, ?_, ?_⟩
  · rw [hleft]
    exact hrest
  · rw [hleft, hchain, instruction_receive]
    exact hstages

/-- **So does the micro-operation that is entered.** -/
theorem enterMicroOp (hrealizes : tables.Realizes forms) (hphase : p.phase = .instruction)
    (hshows : p.Shows event held) (hheld : BusStep.Rests held)
    (hstages : Stage.Linked p.instruction held (tables.stagesAt p.microOp)) :
    ∃ held, (p.enterMicroOp tables).Obeys tables event held := by
  have hrests := hshows.event_rests hheld
  cases entered_enterMicroOp tables hphase with
  | ended hnone hq =>
    rw [hq]
    refine ⟨none, .of_rests hrests, ?_, ?_⟩
    · rw [Processor.activity, hrealizes.empty]
      exact BusStep.rests_none
    · rw [stages_of_instruction tables (by exact hphase)]
      simp only [hnone, List.tail_nil]
      trivial
  | trapped stage stages hcons hq hfired hstep =>
    refine ⟨none, of_phase_ne hrests (by simp [hfired]) ?_⟩
    rw [Processor.activity, hstep, hrealizes.exception]
    exact FixedPrograms.isWhole_exception
  | acted stage stages offset hcons hq hfired hactivity hrest =>
    have hinstruction : (p.enterMicroOp tables).instruction = p.instruction := by
      rw [hq]
      exact instruction_act p tables stage.action stage.target
    rw [hcons] at hstages
    by_cases hkeeps : p.instruction.keepsAddresses stage.action
    · -- the address of the read stands while the operation is carried out
      obtain ⟨hchosen, hresolve⟩ := act_of_keepsAddresses tables stage.target hkeeps
      simp only [Stage.Linked, if_pos hkeeps] at hstages
      rw [hchosen] at hactivity
      have hown : (p.enterMicroOp tables).activity tables = stage.activity := hactivity
      refine ⟨held, hshows.of_resolve fun source => ?_, ?_, ?_⟩
      · rw [hq, ← hresolve source]
        cases source <;> rfl
      · rw [hown]
        exact hstages.1
      · rw [hown, hrest, hinstruction]
        exact hstages.2
    · simp only [Stage.Linked, if_neg hkeeps] at hstages
      cases hchosen : (p.act tables stage.action stage.target).2 with
      | none =>
        rw [hchosen] at hactivity
        have hown : (p.enterMicroOp tables).activity tables = stage.activity := hactivity
        refine ⟨none, .of_rests hrests, ?_, ?_⟩
        · rw [hown]
          exact hstages.1
        · rw [hown, hrest, hinstruction]
          exact hstages.2
      | some chosen =>
        obtain ⟨-, hredirects⟩ := redirects_of_chosen hchosen
        have hoperation : p.instruction.operation ≠ .tas := by
          intro hoperation
          simp [hoperation, Operation.redirects] at hredirects
        rw [hchosen] at hactivity
        have hother : (p.enterMicroOp tables).activity tables = tables.activityAt chosen :=
          hactivity
        refine ⟨none, .of_rests hrests, ?_, ?_⟩
        · rw [hother]
          exact Activity.linked_of_isWhole
            (FixedPrograms.isWhole_chosen hrealizes (chosen_act hchosen)) BusStep.rests_none
        · rw [hrest, hinstruction]
          exact hstages.2.of_ne_tas hoperation

/-- The chain goes on. -/
theorem proceed (hrealizes : tables.Realizes forms) (h : p.Obeys tables event held)
    (hphase : p.phase = .instruction) (hended : p.programEnded tables)
    (hterminal : (tables.microOp p.microOp).isTerminal = false) :
    ∃ held, (p.proceed tables).Obeys tables event held := by
  have hfollowing := h.following
  rw [activity_eq_nil tables hended, stages_eq_of_follow hphase hterminal] at hfollowing
  have hshows : { p with microOp := p.microOp + 1 }.Shows event held :=
    h.shows.of_resolve fun source => by cases source <;> rfl
  exact enterMicroOp hrealizes hphase hshows (h.rests hended) hfollowing

/-- **And so does whatever is started at a boundary.** -/
theorem begin (hrealizes : tables.Realizes forms) (hrests : event.Rests) :
    ∃ held, (p.begin tables (p.start tables)).Obeys tables event held := by
  cases hentry : (p.start tables).entry with
  | interrupt level =>
    rw [begin_interrupt p hentry]
    refine ⟨none, of_phase_ne hrests (by simp [accept, enterException]) ?_⟩
    rw [Processor.activity, hrealizes.interrupt]
    exact FixedPrograms.isWhole_interrupt
  | exception vector =>
    rw [begin_exception p hentry]
    refine ⟨none, of_phase_ne hrests (by simp [refuse, enterException]) ?_⟩
    rw [Processor.activity, hrealizes.exception]
    exact FixedPrograms.isWhole_exception
  | instruction entry =>
    rw [begin_instruction p hentry]
    have hlinked := linked_of_decode? (recipe_of_entry hrealizes (entry_of_start hentry))
    exact enterMicroOp hrealizes rfl (.of_rests hrests) BusStep.rests_none hlinked

/-- Nothing that comes before a reset matters. -/
theorem reset (hrealizes : tables.Realizes forms) (p : Processor) :
    (p.reset tables).Obeys tables .reset none := by
  refine of_phase_ne trivial (by simp [Processor.reset]) ?_
  rw [Processor.activity]
  simp only [Processor.reset, hrealizes.reset]
  exact FixedPrograms.isWhole_reset

/-- At a boundary all that addresses are looked up from may be replaced. -/
theorem of_atBoundary (h : p.Obeys tables event held) (hboundary : p.atBoundary tables)
    (hstep : q.busStep = p.busStep) (hop : q.microOp = p.microOp) (hphase : q.phase = p.phase) :
    q.Obeys tables event none := by
  have hended := programEnded_of_atBoundary tables hboundary
  have hactivity : q.activity tables = [] := by
    rw [Processor.activity, hstep]
    exact activity_eq_nil tables hended
  have hstages : q.stages tables = [] := by
    rw [Processor.stages, hphase, hop]
    exact stages_of_atBoundary tables hboundary
  refine ⟨.of_rests (h.shows.event_rests (h.rests hended)), ?_, ?_⟩
  · rw [hactivity]
    exact BusStep.rests_none
  · rw [hstages]
    trivial

end Obeys

variable (tables) in
/-- The events so far keep to the protocol, and so do those to come. -/
structure KeepsTo (p : Processor) (events : List BusEvent) : Prop where
  protocol : Protocol events
  obeys : ∃ event ∈ events.getLast?, ∃ held, p.Obeys tables event held

end Processor

namespace Run

variable {β : Type} {tables : Tables}

/-- What the bus has seen of the run, in the order of the steps. -/
def events (run : Run β) : List BusEvent := run.history.reverse.map fun record => .step record.request

theorem events_transact (bus : Bus β) (start : Option Start) (step : BusStep) (run : Run β) :
    (run.transact bus start step).events = run.events ++ [.step (run.processor.request step)] := by
  simp [events, transact]

/-- **A run keeps to the protocol step by step**, whatever the bus has seen before it. -/
theorem kept_keepsTo (bus : Bus β) (hrealizes : tables.Realizes forms) (earlier : List BusEvent) :
    Kept tables bus fun run => run.processor.KeepsTo tables (earlier ++ run.events) where
  enter run h hphase hended hterminal := by
    obtain ⟨event, hlast, held, hobeys⟩ := h.obeys
    obtain ⟨held, hproceeds⟩ := hobeys.proceed hrealizes hphase hended hterminal
    exact ⟨h.protocol, event, hlast, held, hproceeds⟩
  transact run start h hended := by
    obtain ⟨event, hlast, held, hobeys⟩ := h.obeys
    obtain ⟨hsound, hfollows, hreceives⟩ := hobeys.receive hended
      (bus run.bus (run.processor.request (tables.step run.processor.busStep))).1
    rw [events_transact, ← List.append_assoc]
    refine ⟨h.protocol.concat ?_ ?_, _, List.getLast?_concat, _, hreceives⟩
    · intro request hrequest
      cases hrequest
      exact hsound
    · intro other hother
      obtain rfl := Option.mem_unique hlast hother
      exact hfollows
  start run h hboundary := by
    obtain ⟨event, hlast, held, hobeys⟩ := h.obeys
    have hrests := hobeys.shows.event_rests
      (hobeys.rests (Processor.programEnded_of_atBoundary tables hboundary))
    obtain ⟨held, hbegins⟩ := Processor.Obeys.begin (p := run.processor) hrealizes hrests
    exact ⟨h.protocol, event, hlast, held, hbegins⟩

end Run

end M68k
