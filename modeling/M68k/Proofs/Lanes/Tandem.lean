import M68k.Proofs.Lanes.Data
import M68k.Proofs.Execution.Outside
import M68k.Proofs.Tables.Contents
import M68k.Proofs.Latches.Boundary

/-!
# Waits and the unused lane carry no information

A processor takes in the data on the bus, and nothing else. Put against two buses with the same
data, it runs in tandem: it issues the same steps with the same words, and only its clocks and the
times of its instructions tell the buses apart. What they tell are the waits.

A byte goes to the lower half of its place. The one place that takes whole words from any transfer
is the register list, to which no step of the tables moves a byte.

## Main definitions

* `Processor.SameButClock`: two processors are the same except for their clocks
* `Run.Tandem`: what two runs have in common, step by step
* `Leg`, `Processor.legs`: the runs of calls in a row
* `Leg.InTandem`: what two of them have in common

## Main results

* `Processor.receive_of_data`: of an answer, only the data are taken in
* `Run.Tandem.step`: runs in tandem stay so
* `Processor.tandem_of_sameData`: calls in a row run in tandem
-/

namespace M68k

variable {β γ : Type} {bus : Bus β} {other : Bus γ} {b : β} {c : γ} {tables : Tables}

/-! ## Bus steps -/

namespace Processor

/-- The processors differ in their clocks at most. -/
def SameButClock (p q : Processor) : Prop := { p with clock := 0 } = { q with clock := 0 }

variable {p q : Processor}

/-- The processor at another time. -/
theorem SameButClock.eq_withTimes (h : p.SameButClock q) : q = p.withTimes q.clock p.debt := by
  have hback : ({ q with clock := 0 } : Processor).withTimes q.clock q.debt = q := rfl
  have hdebt : p.debt = q.debt := (congrArg Processor.debt h :)
  rw [← hback, ← h, hdebt]
  rfl

theorem SameButClock.withTimes (h : p.SameButClock q) (clock : HalfCycles) :
    p.SameButClock (q.withTimes clock q.debt) := h

/-- Neither finds another bus step. -/
theorem SameButClock.settle (h : p.SameButClock q) (tables : Tables) :
    (p.settle tables).1.SameButClock (q.settle tables).1 ∧
      (p.settle tables).2 = (q.settle tables).2 := by
  have hsettle := settle_withTimes p tables q.clock p.debt
  have hdebt : (p.settle tables).1.debt = p.debt :=
    congrArg (·.1.debt) (settle_withTimes p tables p.clock p.debt)
  rw [← h.eq_withTimes, ← hdebt] at hsettle
  rw [hsettle]
  exact ⟨rfl, rfl⟩

theorem SameButClock.fireBusFree (h : p.SameButClock q) (tables : Tables) :
    (p.fireBusFree tables).SameButClock (q.fireBusFree tables) := by
  have hblind := blind_fireBusFree tables
  have hfree : (p.withTimes q.clock p.debt).fireBusFree tables =
      (p.fireBusFree tables).withTimes q.clock p.debt := hblind.withTimes p q.clock p.debt
  have hdebt : (p.fireBusFree tables).debt = p.debt := congrArg Outside.debt (hblind.outside p)
  rw [h.eq_withTimes, hfree, ← hdebt]
  rfl

/-- A byte reaches its place without the upper half of its word. -/
theorem storeSlot_byte (p : Processor) {slot : DataSlot} {value value' : Word}
    (hslot : slot ≠ .listWord) (h : value &&& 0x00FF = value' &&& 0x00FF) :
    p.storeSlot slot value true = p.storeSlot slot value' true := by
  have hlow : value.extractLsb' 0 8 = value'.extractLsb' 0 8 := by
    simpa [BitVec.setWidth_eq_extractLsb'] using setWidth_byte_of_and h
  cases slot with
  | listWord => exact absurd rfl hslot
  | _ => simp only [storeSlot, hlow, if_true]

/-- **Of an answer, only the data are taken in**, by a step that keeps bytes out of register
lists. -/
theorem receive_of_data (p : Processor) {step : BusStep} {reply reply' : Reply}
    (hlane : step.keepsLane) (hdata : reply.data step.signals = reply'.data step.signals) :
    (p.receive step reply).SameButClock (p.receive step reply') := by
  have hread (q : Processor) :
      (if step.signals.isRead then q.storeSlot step.slot reply.value step.signals.selectByte
        else q) =
        if step.signals.isRead then q.storeSlot step.slot reply'.value step.signals.selectByte
        else q := by
    split
    · rename_i hread
      simp only [Reply.data, hread, Bool.not_true, Bool.false_eq_true, if_false] at hdata
      cases hbyte : step.signals.selectByte with
      | false =>
        simp only [hbyte, Bool.false_eq_true, if_false] at hdata
        rw [hdata]
      | true =>
        simp only [hbyte, if_true] at hdata
        have hslot : step.slot ≠ .listWord := by
          simpa [BusStep.keepsLane, hbyte] using hlane
        exact q.storeSlot_byte hslot hdata
    · rfl
  simp only [SameButClock, receive, hread]

end Processor

/-! ## Runs -/

/-- What the processor does in a step, apart from the time that it takes. -/
def StepRecord.issued (record : StepRecord) : Option Start × BusStep × Request :=
  (record.start, record.step, record.request)

namespace Run

/-- What the processor has asked for, the first step first. -/
def requests (run : Run β) : List Request := run.history.reverse.map (·.request)

/-- The steps that the processor has run, the last one first. -/
def issued (run : Run β) : List (Option Start × BusStep × Request) :=
  run.history.map StepRecord.issued

theorem requests_transact (bus : Bus β) (start : Option Start) (step : BusStep) (run : Run β) :
    (run.transact bus start step).requests = run.requests ++ [run.processor.request step] := by
  simp only [requests, transact, List.reverse_cons, List.map_append, List.map_cons, List.map_nil]

theorem issued_transact (bus : Bus β) (start : Option Start) (step : BusStep) (run : Run β) :
    (run.transact bus start step).issued =
      (start, step, run.processor.request step) :: run.issued := rfl

/-- The bus has followed the requests since the state `b`. -/
def Since (bus : Bus β) (b : β) (run : Run β) : Prop := run.bus = bus.follow b run.requests

theorem Since.transact {run : Run β} (h : run.Since bus b) (start : Option Start) (step : BusStep) :
    (run.transact bus start step).Since bus b := by
  have hnext : (run.transact bus start step).bus =
      bus.follow run.bus [run.processor.request step] := rfl
  rw [Since, requests_transact, hnext, h]
  exact List.foldl_append.symm

/-- A step adds its wait to those before. -/
theorem Since.waits_transact {run : Run β} (h : run.Since bus b) (start : Option Start)
    (step : BusStep) :
    bus.waits b (run.transact bus start step).requests =
      bus.waits b run.requests + (bus run.bus (run.processor.request step)).1.wait := by
  rw [requests_transact, Bus.waits_append, ← h]
  rfl

variable (bus other b c) in
/-- Two runs, from states `b` and `c` of their buses, that only the time tells apart. -/
structure Tandem (run : Run β) (run' : Run γ) : Prop where
  since : run.Since bus b
  since' : run'.Since other c
  data : bus.SameData other run.bus run'.bus
  processor : run.processor.SameButClock run'.processor
  issued : run.issued = run'.issued
  /-- The times differ by the waits. -/
  spent : run.spent + other.waits c run'.requests = run'.spent + bus.waits b run.requests

namespace Tandem

variable {run : Run β} {run' : Run γ}

theorem begin (hdata : bus.SameData other b c) {p q : Processor} (h : p.SameButClock q) :
    Tandem bus other b c (.begin p b) (.begin q c) :=
  ⟨rfl, rfl, hdata, h, rfl, rfl⟩

theorem withProcessor (h : Tandem bus other b c run run') {p q : Processor}
    (hsame : p.SameButClock q) :
    Tandem bus other b c (run.withProcessor p) (run'.withProcessor q) :=
  { h with processor := hsame }

/-- Both buses are offered the same request, and answer with the same data. -/
theorem transact (h : Tandem bus other b c run run') (start : Option Start) {step : BusStep}
    (hlane : step.keepsLane) :
    Tandem bus other b c (run.transact bus start step) (run'.transact other start step) := by
  have hprocessor := h.processor.eq_withTimes
  have hrequest : run'.processor.request step = run.processor.request step := by
    rw [hprocessor, Processor.request_withTimes]
  have hduration : run'.processor.duration step = run.processor.duration step := by
    rw [hprocessor]
    rfl
  obtain ⟨hdata, hnext⟩ := h.data.next (run.processor.request step)
  refine ⟨h.since.transact start step, h.since'.transact start step, ?_, ?_, ?_, ?_⟩
  · simp only [Run.transact, hrequest]
    exact hnext
  · -- the other bus answers with other bits, but the processor takes in the same data from it
    set reply := (other run'.bus (run.processor.request step)).1 with hreply
    have hreceive := run.processor.receive_of_data hlane hdata
    have hdebt : (run.processor.receive step reply).debt = run.processor.debt :=
      congrArg Setting.debt (run.processor.setting_receive step reply)
    have hother : (run'.transact other start step).processor =
        (run.processor.receive step reply).withTimes
          (run'.processor.clock + (run.processor.duration step + reply.wait))
          run.processor.debt := by
      rw [← Processor.receive_withTimes, ← hprocessor, hreply, ← hrequest]
      rfl
    rw [hother, ← hdebt]
    exact hreceive.withTimes _
  · rw [issued_transact, issued_transact, hrequest, h.issued]
  · have hadd (t t' w w' d u u' : Nat) (hspent : t + w' = t' + w) :
        t + (d + u) + (w' + u') = t' + (d + u') + (w + u) := by omega
    have htime : (run.transact bus start step).spent = run.spent +
        (run.processor.duration step +
          (bus run.bus (run.processor.request step)).1.wait) := rfl
    have htime' : (run'.transact other start step).spent = run'.spent +
        (run'.processor.duration step +
          (other run'.bus (run'.processor.request step)).1.wait) := rfl
    rw [h.since.waits_transact, h.since'.waits_transact, htime, htime', hduration]
    exact hadd _ _ _ _ _ _ _ h.spent

/-- **Runs in tandem stay so**, as long as no byte goes to a register list. -/
theorem step (h : Tandem bus other b c run run') (hlanes : ∀ n, (tables.step n).keepsLane) :
    Tandem bus other b c (run.step tables bus) (run'.step tables other) := by
  obtain ⟨hsame, hstart⟩ := h.processor.settle tables
  have hbusStep : (run.processor.settle tables).1.busStep =
      (run'.processor.settle tables).1.busStep := (congrArg Processor.busStep hsame :)
  have hnext := (h.withProcessor hsame).transact (run.processor.settle tables).2
    (hlanes (run.processor.settle tables).1.busStep)
  have hfree := hnext.withProcessor (hnext.processor.fireBusFree tables)
  have hstep' : run'.step tables other =
      let next := (run'.withProcessor (run'.processor.settle tables).1).transact other
        (run.processor.settle tables).2 (tables.step (run.processor.settle tables).1.busStep)
      next.withProcessor (next.processor.fireBusFree tables) := by
    rw [hstart, hbusStep]
    rfl
  rw [hstep']
  exact hfree

/-- A limited run goes on for as many steps on both sides. -/
theorem untilStop (hlanes : ∀ n, (tables.step n).keepsLane) {stop : Processor → Bool}
    (hstop : ∀ p q, p.SameButClock q → stop p = stop q) (limit : Nat)
    (h : Tandem bus other b c run run') :
    Tandem bus other b c (run.untilStop tables bus (fun run => stop run.processor) limit)
      (run'.untilStop tables other (fun run => stop run.processor) limit) := by
  induction limit generalizing run run' with
  | zero => exact h
  | succ limit ih =>
    have hboth : stop run.processor = stop run'.processor := hstop _ _ h.processor
    cases hrun : stop run.processor with
    | true => simpa only [Run.untilStop, ← hboth, hrun, if_true] using h
    | false =>
      simpa only [Run.untilStop, ← hboth, hrun, Bool.false_eq_true, if_false] using
        ih (h.step hlanes)

end Tandem

end Run

/-! ## Calls -/

/-- The run of a call, with the state of the bus before it. -/
structure Leg (β : Type) where
  before : β
  run : Run β

namespace Processor

/-- The runs of calls in a row. -/
def legs (tables : Tables) (bus : Bus β) : List Call → Processor → β → List (Leg β)
  | [], _, _ => []
  | call :: calls, p, b =>
    let run := call.run tables bus p b
    ⟨b, run⟩ :: legs tables bus calls run.processor run.bus

end Processor

/-- Two runs of a call that only the time tells apart. -/
structure Leg.InTandem (bus : Bus β) (other : Bus γ) (leg : Leg β) (leg' : Leg γ) : Prop where
  /-- The processor runs the same steps after the same starts, with the same words. -/
  issued : leg.run.issued = leg'.run.issued
  processor : leg.run.processor.SameButClock leg'.run.processor
  /-- The times differ by the waits. -/
  spent : leg.run.spent + other.waits leg'.before leg'.run.requests =
    leg'.run.spent + bus.waits leg.before leg.run.requests

/-- A call runs in tandem. -/
theorem Call.tandem (hlanes : ∀ n, (tables.step n).keepsLane) (call : Call) {p q : Processor}
    (h : p.SameButClock q) (hdata : bus.SameData other b c) :
    Run.Tandem bus other b c (call.run tables bus p b) (call.run tables other q c) := by
  cases call with
  | runInstruction =>
    have hbegun : ({ p with debt := 0 } : Processor).SameButClock { q with debt := 0 } :=
      (congrArg (fun r : Processor => { r with debt := 0 }) h :)
    have hstop (p q : Processor) (h : p.SameButClock q) :
        p.atBoundary tables = q.atBoundary tables := by
      rw [h.eq_withTimes]
      rfl
    exact ((Run.Tandem.begin hdata hbegun).step hlanes).untilStop hlanes hstop tables.stepLimit
  | setInterruptLevel level =>
    exact .begin hdata (congrArg (fun r : Processor => r.setInterruptLevel level) h :)

theorem Processor.tandem_of_keepsLane (hlanes : ∀ n, (tables.step n).keepsLane) (calls : List Call)
    {p q : Processor} (h : p.SameButClock q) (hdata : bus.SameData other b c) :
    List.Forall₂ (Leg.InTandem bus other) (p.legs tables bus calls b)
      (q.legs tables other calls c) := by
  induction calls generalizing p q b c with
  | nil => exact .nil
  | cons call calls ih =>
    have htandem := call.tandem hlanes h hdata
    exact .cons ⟨htandem.issued, htandem.processor, htandem.spent⟩
      (ih htandem.processor htandem.data)

/-- **Waits and the unused lane carry no information.** Against two buses with the same data, calls
in a row run the same steps with the same words and leave processors that differ in their clocks at
most. The time of each instruction differs by the waits of its steps, and by nothing else. -/
theorem Processor.tandem_of_sameData (p : Processor) (hdata : bus.SameData other b c)
    (calls : List Call) :
    List.Forall₂ (Leg.InTandem bus other) (p.legs (.compile forms) bus calls b)
      (p.legs (.compile forms) other calls c) :=
  tandem_of_keepsLane Tables.keepsLane_step calls rfl hdata

/-- A new processor goes through its reset, an instruction and an interrupt in memory without waits
and in memory with waits and a stuck lane. -/
theorem Processor.tandem_initial :
    let swift : TestBench := ⟨.blank (.noise 1), 0, 0, none, 0⟩
    let slow : TestBench := { swift with wait := 6, idleWait := 1, highByte := 0xA500 }
    let p := Processor.initial (.compile forms)
    let calls : List Call :=
      [.runInstruction, .runInstruction, .setInterruptLevel 7, .runInstruction]
    Bus.SameData TestBench.access TestBench.access swift slow ∧
      List.Forall₂ (Leg.InTandem TestBench.access TestBench.access)
        (p.legs (.compile forms) TestBench.access calls swift)
        (p.legs (.compile forms) TestBench.access calls slow) := by
  intro swift slow p calls
  have hdata : Bus.SameData TestBench.access TestBench.access swift slow :=
    swift.sameData_access 6 1 0xA500
  exact ⟨hdata, p.tandem_of_sameData hdata calls⟩

end M68k
