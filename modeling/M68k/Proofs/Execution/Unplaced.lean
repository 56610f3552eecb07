import M68k.Proofs.Execution.Setting

/-!
# Processors out of place and time

What a processor does to its registers and latches depends on the tables only through the programs
that are chosen, never on where in the tables it stands, and it never looks at the clock. So moving
a processor to another place and another time commutes with everything that an action or a bus step
does.

## Main definitions

* `Processor.placed`: a processor in another place at another time
* `Processor.Oblivious`: an update that disregards both
* `Processor.unplaced`: a processor without its position in the tables
* `Processor.timeless`: a processor without its clock either

## Main results

* `Processor.unplaced_act`, `Processor.unplaced_receive`: actions and bus steps disregard the place
* `Processor.timeless_receive`: bus steps disregard the time
-/

namespace M68k.Processor

/-- The processor in another place at another time. -/
def placed (p : Processor) (microOp busStep : Nat) (clock : HalfCycles) : Processor :=
  { p with microOp := microOp, busStep := busStep, clock := clock }

/-- The update does the same wherever and whenever the processor is. -/
def Oblivious (f : Processor → Processor) : Prop :=
  ∀ (p : Processor) (microOp busStep : Nat) (clock : HalfCycles),
    f (p.placed microOp busStep clock) = (f p).placed microOp busStep clock

/-- The processor without its position in the tables. -/
def unplaced (p : Processor) : Processor := { p with microOp := 0, busStep := 0 }

/-- The processor without its position and without its clock. -/
def timeless (p : Processor) : Processor := { p.unplaced with clock := 0 }

theorem Oblivious.timeless {f : Processor → Processor} (h : Oblivious f) (p : Processor) :
    (f p).timeless = f p.timeless :=
  (h p 0 0 0).symm

variable (p : Processor)

@[simp] theorem registers_unplaced : p.unplaced.registers = p.registers := rfl

@[simp] theorem prefetch_unplaced : p.unplaced.prefetch = p.prefetch := rfl

@[simp] theorem effectiveAddress_unplaced : p.unplaced.effectiveAddress = p.effectiveAddress := rfl

@[simp] theorem data_unplaced : p.unplaced.data = p.data := rfl

@[simp] theorem transfer_unplaced : p.unplaced.transfer = p.transfer := rfl

@[simp] theorem phase_unplaced : p.unplaced.phase = p.phase := rfl

@[simp] theorem opcode_unplaced : p.unplaced.opcode = p.opcode := rfl

@[simp] theorem instruction_unplaced : p.unplaced.instruction = p.instruction := rfl

@[simp] theorem flexibleLength_unplaced : p.unplaced.flexibleLength = p.flexibleLength := rfl

@[simp] theorem clock_unplaced : p.unplaced.clock = p.clock := rfl

/-! ## Actions -/

/-- Another place and another time are another setting. -/
theorem placed_eq (microOp busStep : Nat) (clock : HalfCycles) :
    p.placed microOp busStep clock = p.withSetting
      { p.setting with microOp := microOp, busStep := busStep, clock := clock } := rfl

/-- An update that disregards the setting disregards place and time. -/
theorem Indifferent.oblivious {f : Processor → Processor} (h : Indifferent f) : Oblivious f :=
  fun p microOp busStep clock => by
    rw [placed_eq, h, placed_eq, h.setting]

/-- **Actions disregard the position.** They do the same to a processor without it, and choose the
same program. -/
theorem unplaced_act (tables : Tables) (action : Action) (target : Target) :
    (p.act tables action target).1.unplaced =
        (p.unplaced.act tables action target).1.unplaced ∧
      (p.act tables action target).2 = (p.unplaced.act tables action target).2 := by
  rcases p.traps_or_stays action with ⟨rfl, htrap⟩ | hstays
  · rw [act_of_trap p tables target htrap, act_of_trap p.unplaced tables target htrap]
    exact ⟨rfl, rfl⟩
  · have hunplaced : p.unplaced = p.withSetting { p.setting with microOp := 0, busStep := 0 } := rfl
    rw [hunplaced, act_withSetting p _ tables action target hstays,
      ← setting_act p tables action target hstays]
    exact ⟨rfl, rfl⟩

/-! ## Bus steps -/

/-- A bus step moves on by one place, and by its duration. -/
theorem receive_placed (microOp busStep : Nat) (clock : HalfCycles) (step : BusStep)
    (reply : Reply) :
    (p.placed microOp busStep clock).receive step reply =
      (p.receive step reply).placed microOp (busStep + 1)
        (clock + (p.duration step + reply.wait)) := by
  rw [placed_eq, receive_withSetting, placed_eq, setting_receive]

@[simp] theorem request_unplaced (step : BusStep) : p.unplaced.request step = p.request step :=
  p.request_withSetting { p.setting with microOp := 0, busStep := 0 } step

theorem request_timeless (step : BusStep) : p.timeless.request step = p.request step :=
  p.request_withSetting { p.setting with microOp := 0, busStep := 0, clock := 0 } step

@[simp] theorem duration_unplaced (step : BusStep) : p.unplaced.duration step = p.duration step :=
  rfl

/-- **Bus steps disregard the position.** -/
theorem unplaced_receive (step : BusStep) (reply : Reply) :
    (p.receive step reply).unplaced = (p.unplaced.receive step reply).unplaced := by
  have hhere := p.receive_placed p.microOp p.busStep p.clock step reply
  have hclock : (p.receive step reply).clock = p.clock + (p.duration step + reply.wait) :=
    congrArg Processor.clock hhere
  have hplaced := p.receive_placed 0 0 p.clock step reply
  rw [← hclock] at hplaced
  exact (congrArg Processor.unplaced hplaced).symm

/-- **Bus steps disregard the time**, and how long the bus makes them wait. -/
theorem timeless_receive (step : BusStep) (reply : Reply) :
    (p.receive step reply).timeless =
      (p.timeless.receive step ⟨reply.value, 0⟩).timeless := by
  have hplaced := p.receive_placed 0 0 0 step ⟨reply.value, 0⟩
  exact (congrArg Processor.timeless hplaced).symm

end M68k.Processor
