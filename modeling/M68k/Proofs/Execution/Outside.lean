import M68k.Proofs.Execution.Setting

/-!
# What the chain in progress does not see

The interrupt inputs matter at instruction boundaries only, and the accounts of time matter to hosts
only. On its way along a chain the processor neither looks at them nor changes them, so that going
along commutes with any change that a host makes there.

## Main definitions

* `Outside`: the interrupt inputs and the accounts of time
* `Processor.outside`, `Processor.withOutside`: look at them, and replace them
* `Processor.Blind`: an update that does neither
* `Processor.withTimes`: the processor with other accounts of time

## Main results

* `Processor.blind_follow`: going along a chain commutes with changes outside
* `Processor.settle_withTimes`: the search for the next bus step disregards the time
* `Processor.receive_withTimes`: bus steps move the clock on, wherever it stands
-/

namespace M68k

/-- The interrupt inputs and the accounts of time. -/
structure Outside where
  interruptLevel : Level
  levelSevenRose : Bool
  clock : HalfCycles
  debt : HalfCycles

namespace Processor

/-- What is outside the chain in progress. -/
def outside (p : Processor) : Outside where
  interruptLevel := p.interruptLevel
  levelSevenRose := p.levelSevenRose
  clock := p.clock
  debt := p.debt

/-- The processor with something else outside. -/
def withOutside (p : Processor) (o : Outside) : Processor :=
  { p with
    interruptLevel := o.interruptLevel
    levelSevenRose := o.levelSevenRose
    clock := o.clock
    debt := o.debt }

/-- The update does the same whatever is outside, and leaves it alone. -/
def Blind (f : Processor → Processor) : Prop :=
  ∀ (p : Processor) (o : Outside), f (p.withOutside o) = (f p).withOutside o

/-- A blind update changes nothing outside. -/
theorem Blind.outside {f : Processor → Processor} (h : Blind f) (p : Processor) :
    (f p).outside = p.outside := by
  have hhere : f p = (f p).withOutside p.outside := h p p.outside
  exact (congrArg Processor.outside hhere :)

variable (p : Processor) (o : Outside)

@[simp] theorem phase_withOutside : (p.withOutside o).phase = p.phase := rfl

@[simp] theorem microOp_withOutside : (p.withOutside o).microOp = p.microOp := rfl

/-! ## Actions -/

/-- Other inputs and accounts are another setting. -/
theorem withOutside_eq :
    p.withOutside o = p.withSetting
      { p.setting with
        interruptLevel := o.interruptLevel
        levelSevenRose := o.levelSevenRose
        clock := o.clock
        debt := o.debt } := rfl

/-- Actions do the same whatever is outside, and choose the same program. A trap goes elsewhere in
the tables, but looks at nothing outside either. -/
theorem withOutside_act (tables : Tables) (action : Action) (target : Target) :
    (p.withOutside o).act tables action target =
      ((p.act tables action target).1.withOutside o, (p.act tables action target).2) := by
  rcases p.traps_or_stays action with ⟨rfl, htrap⟩ | hstays
  · rw [act_of_trap p tables target htrap, act_of_trap (p.withOutside o) tables target htrap]
    rfl
  · rw [withOutside_eq, act_withSetting p _ tables action target hstays, withOutside_eq,
      setting_act p tables action target hstays]

/-! ## Chains -/

variable (tables : Tables)

theorem blind_enterMicroOp : Blind (·.enterMicroOp tables) := fun p o => by
  simp only [enterMicroOp, microOp_withOutside, withOutside_act, phase_withOutside]
  split
  · rfl
  · split <;> rfl

/-- **Going along a chain does the same whatever is outside**, and leaves it alone. -/
theorem blind_follow (wanted : MicroOp → Bool) : Blind (·.follow tables wanted) := fun p o => by
  show (p.withOutside o).follow tables wanted = (p.follow tables wanted).withOutside o
  fun_induction follow tables wanted p with
  | case1 p hfollow ih =>
    rw [follow, if_pos (by exact hfollow), ← ih]
    exact congrArg (follow tables wanted)
      (blind_enterMicroOp tables { p with microOp := p.microOp + 1 } o)
  | case2 p hfollow => rw [follow, if_neg (by exact hfollow)]

theorem blind_fireBusFree (tables : Tables) : Blind (·.fireBusFree tables) := blind_follow tables _

/-! ## The accounts of time -/

/-- A blind update leaves the clock alone. -/
theorem Blind.clock {f : Processor → Processor} (h : Blind f) (p : Processor) :
    (f p).clock = p.clock :=
  congrArg Outside.clock (h.outside p)

/-- The processor with other accounts of time. -/
def withTimes (p : Processor) (clock debt : HalfCycles) : Processor :=
  { p with clock := clock, debt := debt }

variable (clock debt : HalfCycles)

theorem withTimes_eq :
    p.withTimes clock debt = p.withOutside { p.outside with clock := clock, debt := debt } := rfl

/-- A blind update disregards the time. -/
theorem Blind.withTimes {f : Processor → Processor} (h : Blind f) :
    f (p.withTimes clock debt) = (f p).withTimes clock debt := by
  rw [withTimes_eq, h, withTimes_eq, h.outside]

theorem begin_withTimes (start : Start) :
    (p.withTimes clock debt).begin tables start =
      (p.begin tables start).withTimes clock debt := by
  cases hentry : start.entry with
  | interrupt level | exception vector =>
    simp only [begin, hentry]
    rfl
  | instruction entry =>
    simp only [begin, hentry]
    exact (blind_enterMicroOp tables).withTimes
      { p with
        phase := .instruction
        opcode := start.opcode
        instruction := entry.instruction
        microOp := entry.start } clock debt

/-- **The search for the next bus step disregards the time.** -/
theorem settle_withTimes :
    (p.withTimes clock debt).settle tables =
      ((p.settle tables).1.withTimes clock debt, (p.settle tables).2) := by
  have hfollow (q : Processor) (wanted : MicroOp → Bool) :
      (q.withTimes clock debt).follow tables wanted =
        (q.follow tables wanted).withTimes clock debt :=
    (blind_follow tables wanted).withTimes q clock debt
  have hboundary (q : Processor) :
      (q.withTimes clock debt).atBoundary tables = q.atBoundary tables := rfl
  have hstart (q : Processor) : (q.withTimes clock debt).start tables = q.start tables := rfl
  simp only [settle, hfollow, hboundary, hstart, begin_withTimes]
  split <;> rfl

/-- It takes no time. -/
theorem clock_settle : (p.settle tables).1.clock = p.clock :=
  congrArg (·.1.clock) (settle_withTimes p tables p.clock p.debt)

theorem request_withTimes (step : BusStep) :
    (p.withTimes clock debt).request step = p.request step :=
  p.request_withSetting { p.setting with clock := clock, debt := debt } step

/-- A bus step moves the clock on, wherever it stands. -/
theorem receive_withTimes (step : BusStep) (reply : Reply) :
    (p.withTimes clock debt).receive step reply =
      (p.receive step reply).withTimes (clock + (p.duration step + reply.wait)) debt := by
  have htimes (q : Processor) (clock debt : HalfCycles) : q.withTimes clock debt =
    q.withSetting { q.setting with clock := clock, debt := debt } := rfl
  rw [htimes p, receive_withSetting, htimes, setting_receive]
  rfl

/-! ## The debt -/

/-- The processor with another debt. -/
def owing (p : Processor) (debt : HalfCycles) : Processor := { p with debt := debt }

theorem owing_eq : p.owing debt = p.withTimes p.clock debt := rfl

/-- A blind update disregards the debt. -/
theorem Blind.owing {f : Processor → Processor} (h : Blind f) :
    f (p.owing debt) = (f p).owing debt := by
  rw [owing_eq, h.withTimes, owing_eq, h.clock]

/-- **The search for the next bus step disregards the debt.** -/
theorem owing_settle :
    (p.owing debt).settle tables = ((p.settle tables).1.owing debt, (p.settle tables).2) := by
  rw [owing_eq, settle_withTimes, owing_eq, clock_settle]

end Processor

end M68k
