import M68k.Proofs.Execution.Stages
import M68k.Proofs.Latches.Agreement

/-!
# Agreement along bus steps

Of two processors that agree on what is live in front of a bus step, a discreet machine sees the
same request. If it answers both in the same way, they agree on what is live behind the step.

## Main definitions

* `Observed`: what can be seen of a step from outside
* `Run.Agree`: two runs that could not be told apart so far, and cannot be told apart

## Main results

* `Processor.Agree.seen_request`: the machine sees the same request
* `Processor.Agree.receive`: an answer leaves the processors in agreement
* `Run.Agree.perform`: so does an activity
-/

namespace M68k

namespace Processor.Agree

variable {live : Live} {p q : Processor}

/-! ## Requests -/

theorem resolve {source : AddressSource} (h : Agree (live.beforeAddress source) p q) :
    p.resolve source = q.resolve source := by
  cases source with
  | none => rfl
  | programCounter => exact h.registers.pc
  | effectiveAddress number => exact h.address_of_use
  | addressRegister register => exact h.registers.address _
  | frame number =>
    have hframe : p.frame = q.frame := h.frame rfl
    exact congrArg (FrameAddresses.get · _) hframe
  | expiredTarget => exact h.expiredTarget rfl
  | listTransfer =>
    have htransfer : p.transfer = q.transfer := h.transfer rfl
    exact congrArg ListTransfer.address htransfer
  | acknowledge =>
    have hlevel : p.acknowledgedLevel = q.acknowledgedLevel := (h.acknowledge rfl).1
    simp only [Processor.resolve, hlevel]

theorem listWord (h : Agree live p q) (hlive : live.transfer) :
    p.transfer.value p.registers = q.transfer.value q.registers := by
  rw [h.transfer hlive]
  unfold ListTransfer.value
  split
  · rfl
  · rw [h.registers.listed]

theorem loadSlot {slot : DataSlot} {bits : Word} (h : Agree (live.beforeLoad slot bits) p q) :
    p.loadSlot slot &&& bits = q.loadSlot slot &&& bits := by
  cases slot with
  | none => rfl
  | latch side half => exact h.data_of_use.half
  | prefetch => rw [Processor.loadSlot, Processor.loadSlot, h.prefetch]
  | stackPointer half => rw [Processor.loadSlot, Processor.loadSlot, h.registers.sp]
  | programCounter half => rw [Processor.loadSlot, Processor.loadSlot, h.registers.pc]
  | listWord => exact congrArg (· &&& bits) (h.listWord rfl)
  | interruptVector =>
    have hvector : p.interruptVector = q.interruptVector := (h.acknowledge rfl).2
    rw [Processor.loadSlot, Processor.loadSlot, hvector]

/-- **The machine sees the same request.** -/
theorem seen_request {step : BusStep} (h : Agree (step.liveBefore live) p q) :
    (p.request step).seen = (q.request step).seen := by
  have haddress := h.resolve
  have hslot := (h.mono (Live.within_beforeAddress _ _)).loadSlot
  simp only [request, Request.seen, haddress, hslot]

theorem duration (h : Agree live p q) (step : BusStep) : p.duration step = q.duration step := by
  unfold Processor.duration
  split
  · rfl
  · exact h.flexibleLength

/-! ## Answers -/

theorem timed (h : Agree live p q) (step : BusStep) : Agree live (p.timed step) (q.timed step) := by
  rw [timed_eq, timed_eq, h.flexibleLength]
  exact { h with flexibleLength := rfl }

/-- A read fills its slot. -/
theorem storeSlot {slot : DataSlot} {byte : Bool} (h : Agree (live.beforeStore slot byte) p q)
    (value : Word) : Agree live (p.storeSlot slot value byte) (q.storeSlot slot value byte) := by
  cases slot with
  | none => exact h
  | latch side half =>
    refine h.setData ?_
    have hdata := h.data side
    simp only [Live.beforeStore, Live.fillData, Latches.get_set_self] at hdata
    exact hdata.replace value
  | prefetch =>
    have hprefetch : p.prefetch = q.prefetch := h.prefetch
    exact { h with prefetch := by simp only [Processor.storeSlot, hprefetch] }
  | stackPointer half =>
    have hsp := h.registers.sp
    simp only [Processor.storeSlot, hsp]
    exact h.withRegisters (h.registers.setSp _)
  | programCounter half =>
    have hpc := h.registers.pc
    simp only [Processor.storeSlot, hpc]
    exact h.withRegisters (h.registers.setPc _)
  | listWord =>
    have hlive : live.Within { live with transfer := true } :=
      { live.within_refl with transfer := fun _ => rfl }
    have htransfer : p.transfer = q.transfer := h.transfer rfl
    refine (h.mono hlive).withRegisters ?_
    rw [htransfer]
    unfold ListTransfer.store
    split
    · exact h.registers
    · rw [h.registers.listed]
      exact h.registers.setListed _ _
  | interruptVector =>
    refine { h with acknowledge := fun hlive => ?_ }
    obtain ⟨hlevel, hvector⟩ := h.acknowledge hlive
    exact ⟨hlevel, by simp only [Processor.storeSlot, hvector]⟩

theorem applyStepAction {action : StepAction} (h : Agree (live.beforeStepAction action) p q) :
    Agree live (p.applyStepAction action) (q.applyStepAction action) := by
  have hmoved (side : Side) (distance : Long) (h : Agree live p q) (other : Side)
      (hlive : live.address.has other) :
      (p.effectiveAddress.set side (p.effectiveAddress.get side + distance)).get other =
        (q.effectiveAddress.set side (q.effectiveAddress.get side + distance)).get other := by
    rw [Latches.get_set_eq, Latches.get_set_eq]
    split
    · rename_i hsame
      rw [← hsame, h.address other hlive]
    · exact h.address other hlive
  cases action with
  | none | endProgram => exact h
  | advancePrefetch =>
    have hprefetch : p.prefetch = q.prefetch := h.prefetch
    exact { h with prefetch := by simp only [Processor.applyStepAction, hprefetch] }
  | incrementProgramCounter =>
    have hpc := h.registers.pc
    simp only [Processor.applyStepAction, hpc]
    exact h.withRegisters (h.registers.setPc _)
  | incrementEffectiveAddress side => exact { h with address := hmoved side 2 h }
  | decrementEffectiveAddress side =>
    refine { h with address := fun other hlive => ?_ }
    simpa only [Processor.applyStepAction, BitVec.sub_eq_add_neg] using
      hmoved side (-2) h other hlive
  | advanceList =>
    exact { h with transfer := fun hlive => congrArg ListTransfer.advance (h.transfer hlive) }
  | vectorFromAcknowledge =>
    have hlive : (live.fillAddress .source).Within
        { live.fillAddress .source with acknowledge := true } :=
      { (live.fillAddress .source).within_refl with acknowledge := fun _ => rfl }
    have hvector : p.interruptVector = q.interruptVector := (h.acknowledge rfl).2
    have hset := (h.mono hlive).setEffectiveAddress ((p.interruptVector &&& 0xFF).setWidth 32 <<< 2)
    have hother : q.applyStepAction .vectorFromAcknowledge =
        { q with
          effectiveAddress :=
            q.effectiveAddress.set .source ((p.interruptVector &&& 0xFF).setWidth 32 <<< 2) } := by
      rw [hvector]
      rfl
    rw [hother]
    exact hset

/-- **An answer leaves the processors in agreement.** Only reads look at its word. -/
theorem receive {step : BusStep} (h : Agree (step.liveBefore live) p q) {reply reply' : Reply}
    (hheard : reply.heard step.signals = reply'.heard step.signals) :
    Agree live (p.receive step reply) (q.receive step reply') := by
  have hread :=
    (h.mono (Live.within_beforeAddress _ _)).mono (Live.within_beforeLoad _ _ _)
  have hloaded : Agree (live.beforeStepAction step.action) (p.loaded step reply)
      (q.loaded step reply') := by
    cases hdirection : step.signals.isRead with
    | true =>
      have hvalue : reply.value = reply'.value := by
        simpa [Reply.heard, hdirection] using congrArg Reply.value hheard
      rw [loaded_of_read p reply hdirection, loaded_of_read q reply' hdirection, hvalue]
      rw [if_pos hdirection] at hread
      exact (hread.timed step).storeSlot _
    | false =>
      rw [loaded_of_not_read p reply hdirection, loaded_of_not_read q reply' hdirection]
      rw [if_neg (by simp [hdirection])] at hread
      exact hread.timed step
  rw [receive_eq, receive_eq]
  exact { hloaded.applyStepAction with }

end Processor.Agree

/-! ## Runs -/

/-- What can be seen of a step from outside: the request, as far as the machine looks at it, and the
time it takes. -/
structure Observed where
  request : Request
  duration : HalfCycles
deriving DecidableEq

/-- What can be seen of a step. -/
def StepRecord.observed (record : StepRecord) : Observed := ⟨record.request.seen, record.duration⟩

namespace Run

variable {β : Type}

/-- What can be seen of a run, the last step first. -/
def observed (run : Run β) : List Observed := run.history.map StepRecord.observed

/-- The same was seen of both runs, and the processors and buses agree on all that is to come. -/
structure Agree (live : Live) (bus : Bus β) (run other : Run β) : Prop where
  processor : run.processor.Agree live other.processor
  bus : bus.Alike run.bus other.bus
  spent : run.spent = other.spent
  observed : run.observed = other.observed

namespace Agree

variable {live : Live} {bus : Bus β} {run other : Run β}

theorem withProcessor {before : Live} (h : Agree before bus run other) {p q : Processor}
    (hprocessor : p.Agree live q) :
    Agree live bus (run.withProcessor p) (other.withProcessor q) :=
  { h with processor := hprocessor }

/-- A bus step. -/
theorem transact {step : BusStep} (h : Agree (step.liveBefore live) bus run other)
    (start start' : Option Start) :
    Agree live bus (run.transact bus start step) (other.transact bus start' step) := by
  have hseen := h.processor.seen_request
  obtain ⟨hheard, hbus⟩ := h.bus.next hseen
  have hwait := congrArg Reply.wait hheard
  have hduration := h.processor.duration step
  exact
    { processor := h.processor.receive hheard
      bus := hbus
      spent := by
        simp only [Run.transact, h.spent, hduration]
        exact congrArg _ (congrArg _ hwait)
      observed := by
        simp only [Run.observed, Run.transact, List.map_cons, StepRecord.observed, hseen, hduration]
        exact congrArg₂ _ (congrArg _ (congrArg _ hwait)) h.observed }

/-- **An activity leaves the runs in agreement.** -/
theorem perform {activity : Activity} (h : Agree (activity.liveBefore live) bus run other) :
    Agree live bus (run.perform bus activity) (other.perform bus activity) := by
  induction activity generalizing run other with
  | nil => exact h
  | cons step activity ih => exact ih (h.transact none none)

end Agree

end Run

end M68k
