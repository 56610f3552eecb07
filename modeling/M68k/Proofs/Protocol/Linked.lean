import M68k.Proofs.Execution.Upcoming
import M68k.Proofs.Privilege.Status

/-!
# Bus steps that belong together

A transfer is two steps: one strobes the address, and the next one holds it and moves the data. Both
look the address up on their own, so that it only stays the same if nothing has changed in between
that it is looked up from. The test-and-set instruction holds the address of its read for two steps
more, and carries out its operation in the meantime.

## Main definitions

* `Signals.Sound`: what one step may assert
* `Signals.Follows`: what it may assert directly behind another one
* `BusStep.keepsAddresses`: running the step moves no address
* `Activity.Linked`: the steps of an activity belong together in this way
* `Activity.isWhole`: the activity is made of whole transfers

## Main results

* `Processor.resolve_receive`: a step that keeps addresses keeps every address
* `Activity.isWhole_append`: activities made of whole transfers may be put together
* `Activity.linked_of_isWhole`: their steps belong together
-/

namespace M68k

/-! ## Signals -/

/-- Data only travels under an address that is held, as a byte or as a word. A new address is
strobed before. -/
@[mk_iff]
structure Signals.Sound (signals : Signals) : Prop where
  held : signals.transfersData → signals.sameAddress
  single : signals.transfersData → signals.selectByte ≠ signals.selectWord
  strobe : signals.newAddress → signals.transfersData = false ∧ signals.sameAddress = false

/-- The signals may be asserted directly behind `earlier`. A new address is held next, for a
transfer of the same kind, and an address is held only where there is one. -/
@[mk_iff]
structure Signals.Follows (signals earlier : Signals) : Prop where
  held : earlier.newAddress → signals.sameAddress
  kind : earlier.newAddress →
    signals.read = earlier.read ∧ signals.isProgram = earlier.isProgram ∧
      signals.interruptAcknowledge = earlier.interruptAcknowledge
  behind : signals.sameAddress → earlier.newAddress ∨ earlier.sameAddress

/-! ## Addresses -/

/-- A word read into the slot may move an address. -/
def DataSlot.movesAddress : DataSlot → Bool
  | stackPointer _ | programCounter _ | listWord => true
  | none | latch _ _ | prefetch | interruptVector => false

/-- The action may move an address. -/
def StepAction.movesAddress : StepAction → Bool
  | none | advancePrefetch | endProgram => false
  | _ => true

/-- Running the step moves no address, whatever it is looked up from. -/
def BusStep.keepsAddresses (step : BusStep) : Bool :=
  !step.action.movesAddress && !(step.signals.isRead && step.slot.movesAddress)

namespace Processor

variable (p : Processor)

theorem resolve_storeSlot {slot : DataSlot} (h : slot.movesAddress = false) (value : Word)
    (byte : Bool) (source : AddressSource) :
    (p.storeSlot slot value byte).resolve source = p.resolve source := by
  cases slot with
  | none | latch | prefetch | interruptVector => cases source <;> rfl
  | stackPointer | programCounter | listWord => cases h

theorem resolve_applyStepAction {action : StepAction} (h : action.movesAddress = false)
    (source : AddressSource) :
    (p.applyStepAction action).resolve source = p.resolve source := by
  cases action with
  | none | advancePrefetch | endProgram => cases source <;> rfl
  | _ => cases h

/-- **A step that keeps addresses keeps every address.** -/
theorem resolve_receive {step : BusStep} (h : step.keepsAddresses) (reply : Reply)
    (source : AddressSource) : (p.receive step reply).resolve source = p.resolve source := by
  simp only [BusStep.keepsAddresses, Bool.and_eq_true, Bool.not_eq_true', Bool.and_eq_false_iff]
    at h
  obtain ⟨haction, hslot⟩ := h
  have htimed : (p.timed step).resolve source = p.resolve source := by
    rw [timed_eq]
    cases source <;> rfl
  have hloaded : (p.loaded step reply).resolve source = p.resolve source := by
    cases hread : step.signals.isRead with
    | true =>
      have hkept : step.slot.movesAddress = false := by simpa [hread] using hslot
      rw [loaded_of_read p reply hread, resolve_storeSlot _ hkept, htimed]
    | false => rw [loaded_of_not_read p reply hread, htimed]
  have hmoved := resolve_applyStepAction (p.loaded step reply) haction source
  rw [← hloaded, ← hmoved, receive_eq]
  cases source <;> rfl

end Processor

/-! ## Steps in a row -/

namespace BusStep

/-- The step as the one before the next, if its address still stands then. -/
def standing (step : BusStep) : Option BusStep := if step.keepsAddresses then some step else none

/-- The step may come behind `held`, which is the step before it if the address of that one still
stands. -/
structure Joins (step : BusStep) (held : Option BusStep) : Prop where
  sound : step.signals.Sound
  keeps : step.signals.newAddress → step.keepsAddresses
  alone : held = none → step.signals.sameAddress = false
  follows : ∀ earlier ∈ held, step.signals.Follows earlier.signals ∧
    (step.signals.sameAddress → step.address = earlier.address)

/-- No strobed address waits for its transfer. -/
def Rests (held : Option BusStep) : Prop := ∀ earlier ∈ held, earlier.signals.newAddress = false

theorem rests_none : Rests none := by simp [Rests]

theorem rests_standing {step : BusStep} (h : step.signals.newAddress = false) :
    Rests step.standing := by
  intro earlier hearlier
  unfold standing at hearlier
  split at hearlier <;> cases hearlier
  exact h

/-- The step asserts no address and selects nothing. -/
def isQuiet (step : BusStep) : Bool :=
  !step.signals.newAddress && !step.signals.sameAddress && !step.signals.transfersData

/-- The step strobes an address, and `hold` is its transfer. -/
def isPair (strobe hold : BusStep) : Bool :=
  strobe.signals.newAddress && !strobe.signals.sameAddress && !strobe.signals.transfersData &&
    strobe.keepsAddresses && hold.signals.sameAddress && !hold.signals.newAddress &&
    hold.signals.selectByte != hold.signals.selectWord && hold.address == strobe.address &&
    hold.signals.read == strobe.signals.read && hold.signals.isProgram == strobe.signals.isProgram &&
    hold.signals.interruptAcknowledge == strobe.signals.interruptAcknowledge

variable {step strobe hold : BusStep} {held : Option BusStep}

/-- A step that holds no address may come behind any one that leaves no address waiting. -/
theorem Joins.of_apart (hsound : step.signals.Sound)
    (hkeeps : step.signals.newAddress → step.keepsAddresses)
    (hsame : step.signals.sameAddress = false) (hheld : Rests held) : step.Joins held where
  sound := hsound
  keeps := hkeeps
  alone _ := hsame
  follows earlier hearlier := by
    refine ⟨⟨?_, ?_, ?_⟩, ?_⟩ <;> simp [hsame, hheld earlier hearlier]

/-- The address of a transfer that is over may be held for one step more. -/
theorem Joins.of_held {earlier : BusStep} (hsound : step.signals.Sound)
    (hnew : step.signals.newAddress = false) (haddress : step.address = earlier.address)
    (hsame : earlier.signals.sameAddress) (hdone : earlier.signals.newAddress = false) :
    step.Joins (some earlier) where
  sound := hsound
  keeps := by simp [hnew]
  alone := by simp
  follows last hlast := by
    obtain rfl : earlier = last := by simpa using hlast
    exact ⟨⟨by simp [hdone], by simp [hdone], fun _ => .inr hsame⟩, fun _ => haddress⟩

theorem joins_of_isQuiet (h : step.isQuiet) (hheld : Rests held) :
    step.Joins held ∧ Rests step.standing := by
  simp only [isQuiet, Bool.and_eq_true, Bool.not_eq_true'] at h
  obtain ⟨⟨hnew, hsame⟩, hdata⟩ := h
  have hsound : step.signals.Sound := ⟨by simp [hdata], by simp [hdata], by simp [hnew]⟩
  exact ⟨.of_apart hsound (by simp [hnew]) hsame hheld, rests_standing hnew⟩

theorem joins_of_isPair (h : strobe.isPair hold) (hheld : Rests held) :
    strobe.Joins held ∧ hold.Joins strobe.standing ∧ Rests hold.standing := by
  simp only [isPair, Bool.and_eq_true, Bool.not_eq_true', bne_iff_ne, beq_iff_eq] at h
  obtain ⟨⟨⟨⟨⟨⟨⟨⟨⟨⟨hnew, hapart⟩, hdata⟩, hkeeps⟩, hsame⟩, hnot⟩, hone⟩, haddress⟩, hread⟩,
    hprogram⟩, hacknowledge⟩ := h
  have hstanding : strobe.standing = some strobe := if_pos hkeeps
  refine ⟨.of_apart ⟨by simp [hdata], by simp [hdata], fun _ => ⟨hdata, hapart⟩⟩ (fun _ => hkeeps)
    hapart hheld, ?_, rests_standing hnot⟩
  rw [hstanding]
  refine ⟨⟨fun _ => hsame, fun _ => hone, by simp [hnot]⟩, by simp [hnot], by simp, ?_⟩
  intro earlier hearlier
  obtain rfl : strobe = earlier := by simpa using hearlier
  exact ⟨⟨fun _ => hsame, fun _ => ⟨hread, hprogram, hacknowledge⟩, fun _ => .inl hnew⟩,
    fun _ => haddress⟩

end BusStep

namespace Activity

open BusStep

/-- Each step may come behind the one before it, the first one behind `held`, and no strobed address
is left over. -/
def Linked (held : Option BusStep) : Activity → Prop
  | [] => Rests held
  | step :: activity => step.Joins held ∧ Linked step.standing activity

/-- What stands behind an activity. -/
def behind (held : Option BusStep) (activity : Activity) : Option BusStep :=
  activity.foldl (fun _ step => step.standing) held

theorem Linked.rests {held : Option BusStep} {activity : Activity} (h : Linked held activity) :
    Rests (activity.behind held) := by
  induction activity generalizing held with
  | nil => exact h
  | cons step activity ih => exact ih h.2

/-- The activity is made of quiet steps and whole transfers. -/
def isWhole : Activity → Bool
  | [] => true
  | [step] => step.isQuiet
  | step :: next :: activity =>
    if step.isQuiet then isWhole (next :: activity) else step.isPair next && isWhole activity

/-- **Whole activities may be put together.** -/
@[simp] theorem isWhole_append {first second : Activity} (h : first.isWhole) :
    isWhole (first ++ second) = isWhole second := by
  fun_induction isWhole first with
  | case1 => rfl
  | case2 step =>
    cases second with
    | nil => exact h
    | cons next second => simp only [List.singleton_append, isWhole, h, if_true]
  | case3 step next activity hquiet ih =>
    have hrest : isWhole (next :: activity ++ second) = isWhole second := ih h
    simpa only [List.cons_append, isWhole, hquiet, if_true] using hrest
  | case4 step next activity hloud ih =>
    obtain ⟨hpair, hrest⟩ := Bool.and_eq_true_iff.1 h
    simp only [List.cons_append, isWhole, if_neg hloud, hpair, Bool.true_and]
    exact ih hrest

/-- **A whole activity is linked**, behind any step that leaves no address waiting. -/
theorem linked_of_isWhole {held : Option BusStep} {activity : Activity} (h : activity.isWhole)
    (hheld : Rests held) : Linked held activity := by
  fun_induction isWhole activity generalizing held with
  | case1 => exact hheld
  | case2 step => exact joins_of_isQuiet h hheld
  | case3 step next activity hquiet ih =>
    obtain ⟨hjoins, hrests⟩ := joins_of_isQuiet hquiet hheld
    exact ⟨hjoins, ih h hrests⟩
  | case4 step next activity hloud ih =>
    obtain ⟨hpair, hrest⟩ := Bool.and_eq_true_iff.1 h
    obtain ⟨hstrobe, hhold, hrests⟩ := joins_of_isPair hpair hheld
    exact ⟨hstrobe, hhold, ih hrest hrests⟩

/-! ## Activities -/

@[simp] theorem isWhole_nil : isWhole [] := by decide

@[simp] theorem isWhole_idle (duration : HalfCycles) : (idle duration).isWhole := by
  simp [idle, isWhole, isQuiet, Signals.idle, Signals.transfersData]

@[simp] theorem isWhole_flexible : flexible.isWhole := by decide

@[simp] theorem isWhole_resetHold : resetHold.isWhole := by decide

@[simp] theorem isWhole_fetch : fetch.isWhole := by decide

@[simp] theorem isWhole_transfer (read isProgram : Bool) (width : Width) (address : AddressSource)
    (slot : DataSlot) (action : StepAction) :
    (transfer read isProgram width address slot action).isWhole := by
  cases width <;> simp [transfer, isWhole, isQuiet, isPair, keepsAddresses,
    StepAction.movesAddress, Signals.isRead, Signals.transfersData]

@[simp] theorem isWhole_read (side : Side) (half : Half) (adjustment : Option Adjustment)
    (width : Width) (address : AddressSource) :
    (read side half adjustment width address).isWhole :=
  isWhole_transfer _ _ _ _ _ _

@[simp] theorem isWhole_write (half : Half) (adjustment : Option Adjustment) (width : Width)
    (address : AddressSource) : (write half adjustment width address).isWhole :=
  isWhole_transfer _ _ _ _ _ _

@[simp] theorem isWhole_stackRead (half : Half) : (stackRead half).isWhole :=
  isWhole_transfer _ _ _ _ _ _

end Activity

/-! ## Fixed programs -/

namespace FixedPrograms

theorem isWhole_reset : resetActivity.isWhole := by decide

theorem isWhole_exception : exceptionActivity.isWhole := by decide

theorem isWhole_interrupt : interruptActivity.isWhole := by decide

theorem isWhole_listTransfers (read : Bool) (count : Nat) : (listTransfers read count).isWhole := by
  induction count with
  | zero => rfl
  | succ count ih =>
    rw [listTransfers, List.replicate_succ, List.flatten_cons,
      Activity.isWhole_append (Activity.isWhole_transfer _ _ _ _ _ _)]
    exact ih

/-- The programs that operations choose are made of whole transfers. -/
theorem isWhole_chosen {tables : Tables} (hrealizes : tables.Realizes forms) {offset : Nat}
    (h : tables.programs.Chosen offset) : (tables.activityAt offset).isWhole := by
  have hwhole : ∀ activity ∈ redirections, activity.isWhole := by decide
  rcases Processor.activityAt_chosen hrealizes h with hmem | ⟨read, count, hlist⟩
  · exact hwhole _ hmem
  · rw [hlist]
    exact isWhole_listTransfers read count

end FixedPrograms

end M68k
