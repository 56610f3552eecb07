import M68k.Proofs.Latches.Recipes
import M68k.Proofs.Session.Reachable

/-!
# The length of flexible steps

Some operations set the length of a flexible step that comes behind them in the same stage. The step
uses the length up, so that at every instruction boundary there is none left.

## Main definitions

* `Processor.Elapses`: a length that has been set is about to be used up

## Main results

* `Run.kept_elapses`: single moves keep this up
* `Run.Reachable.flexibleLength_eq_zero`: at a boundary no length is left
-/

namespace M68k

/-- An operation that sets a length chooses no bus program. -/
theorem Instruction.redirects_of_lengthens {instruction : Instruction}
    (h : instruction.lengthens) : instruction.operation.redirects = false := by
  unfold lengthens at h
  split at h <;> simp_all [Operation.redirects]

namespace Processor

variable {tables : Tables} (p : Processor)

/-! ## Frame conditions -/

@[simp] theorem flexibleLength_writeOperand (operand : Operand) (size : Size) (value : Long) :
    (p.writeOperand operand size value).flexibleLength = p.flexibleLength := by
  cases operand <;> rfl

@[simp] theorem flexibleLength_writeDestination (size : Size) (value : Long) :
    (p.writeDestination size value).flexibleLength = p.flexibleLength :=
  flexibleLength_writeOperand p _ _ _

@[simp] theorem flexibleLength_finish (size : Size) (computed : Computed) :
    (p.finish size computed).flexibleLength = p.flexibleLength :=
  flexibleLength_writeDestination _ _ _

@[simp] theorem flexibleLength_finishLogical (size : Size) (value : Long) :
    (p.finishLogical size value).flexibleLength = p.flexibleLength :=
  flexibleLength_finish p _ _

theorem flexibleLength_prepare (action : Action) (target : Target) :
    (p.prepare action target).flexibleLength = p.flexibleLength := by
  cases action with
  | address form => exact onSides_keeps p flexibleLength target fun _ _ => rfl
  | increment stride | decrement stride =>
    exact onSides_keeps p flexibleLength target fun _ _ => rfl
  | immediate | longImmediate | latchList =>
    exact onSides_keeps p flexibleLength target fun _ _ => rfl
  | finishList direction =>
    cases direction <;> simp only [prepare, finishList] <;> split <;> rfl
  | none | operate | pushJumpReturn | pushBranchReturn | popReturn | locateFrame => rfl

/-- A change of a bit in memory takes no longer. -/
theorem flexibleLength_operateOnBit {kind : BitKind}
    (h : (kind != .test && p.instruction.destination.isDataRegister) = false) :
    (p.operateOnBit kind).flexibleLength = p.flexibleLength := by
  unfold operateOnBit
  dsimp only []
  split
  · rfl
  · rename_i hchange
    have hmemory : p.instruction.destination.isDataRegister = false := by
      simpa only [bne, hchange, Bool.not_false, Bool.true_and] using h
    rw [flexibleLength_writeDestination]
    have hneg : ¬ p.instruction.destination.isDataRegister = true := by simp [hmemory]
    exact if_neg hneg

theorem flexibleLength_compute (h : p.instruction.lengthens = false) :
    p.compute.flexibleLength = p.flexibleLength := by
  unfold Instruction.lengthens at h
  unfold compute
  cases hoperation : p.instruction.operation <;> rw [hoperation] at h <;> dsimp only [] at h ⊢
  case bit kind => exact flexibleLength_operateOnBit p h
  case scc => simp [setOnCondition, h]
  case shift kind => simp [shift, h]
  case mulu | muls => cases h
  all_goals first | rfl | simp

/-- Only an operation that may set a length does. -/
theorem flexibleLength_act (tables : Tables) (action : Action) (target : Target)
    (h : action = .operate → p.instruction.lengthens = false) :
    (p.act tables action target).1.flexibleLength = p.flexibleLength := by
  by_cases haction : action = .operate
  · subst haction
    have hcompute := flexibleLength_compute p (h rfl)
    simp only [act, operate]
    split
    · simp only [branch]
      (repeat' split) <;> rfl
    · rfl
    · simp only [decrementAndBranch]
      (repeat' split) <;> rfl
    · rfl
    · rfl
    · exact hcompute
  · rw [act_of_ne_operate p tables target haction]
    exact flexibleLength_prepare p action target

theorem flexibleLength_receive (step : BusStep) (reply : Reply) :
    (p.receive step reply).flexibleLength =
      if step.length = .flexible then 0 else p.flexibleLength := by
  have hstored (q : Processor) (slot : DataSlot) (value : Word) (byte : Bool) :
      (q.storeSlot slot value byte).flexibleLength = q.flexibleLength := by
    cases slot <;> rfl
  have hmoved (q : Processor) (action : StepAction) :
      (q.applyStepAction action).flexibleLength = q.flexibleLength := by
    cases action <;> rfl
  refine (hmoved (p.loaded step reply) step.action).trans ?_
  cases hread : step.signals.isRead with
  | true => rw [loaded_of_read p reply hread, hstored, timed_eq]
  | false => rw [loaded_of_not_read p reply hread, timed_eq]

/-! ## Chains -/

variable (tables) in
/-- A length that has been set is used up by the bus program in progress, and so are those that will
be set by the stages to come. -/
structure Elapses (p : Processor) : Prop where
  length : p.flexibleLength = 0 ∨ ∃ step ∈ p.activity tables, step.length = .flexible
  timed : ∀ stage ∈ p.stages tables, stage.Timed p.instruction

variable {p}

/-- Where a bus program has ended, no length is left. -/
theorem Elapses.eq_zero (h : p.Elapses tables) (hended : p.programEnded tables) :
    p.flexibleLength = 0 := by
  refine h.length.resolve_right ?_
  rw [activity_eq_nil tables hended]
  simp

/-- No length is set where no stages are to come. -/
theorem elapses_of_zero (hlength : p.flexibleLength = 0) (hstages : p.stages tables = []) :
    p.Elapses tables where
  length := .inl hlength
  timed stage hstage := by
    rw [hstages] at hstage
    cases hstage

/-- Entering a micro-operation may set a length that its activity uses up. -/
theorem elapses_enterMicroOp (hphase : p.phase = .instruction) (hlength : p.flexibleLength = 0)
    (htimed : ∀ stage ∈ tables.stagesAt p.microOp, stage.Timed p.instruction) :
    (p.enterMicroOp tables).Elapses tables := by
  cases entered_enterMicroOp tables hphase with
  | ended hstages hq =>
    rw [hq]
    refine elapses_of_zero hlength ?_
    rw [stages_of_instruction tables (by exact hphase)]
    simp only [hstages, List.tail_nil]
  | acted stage stages offset hstages hq hfired hactivity hrest =>
    rw [hstages] at htimed
    refine ⟨?_, fun later hlater => ?_⟩
    · rw [hactivity]
      by_cases hsets : stage.action = .operate ∧ p.instruction.lengthens
      · obtain ⟨haction, hlengthens⟩ := hsets
        rw [haction, p.act_of_plain tables stage.target
          (Instruction.redirects_of_lengthens hlengthens)]
        exact .inr (htimed stage List.mem_cons_self haction hlengthens)
      · refine .inl ?_
        rw [hq]
        refine Eq.trans (p.flexibleLength_act tables stage.action stage.target ?_) hlength
        intro haction
        simpa [haction] using hsets
    · rw [instruction_enterMicroOp]
      exact htimed later (List.mem_cons_of_mem _ (hrest ▸ hlater))
  | trapped stage stages hstages hq hfired hstep =>
    refine elapses_of_zero ?_ (stages_of_phase_ne tables (by simp [hfired]))
    have htrap : stage.action = .operate → p.instruction.lengthens = false := by
      intro haction
      by_contra hlengthens
      have hplain := Instruction.redirects_of_lengthens (by simpa using hlengthens)
      rw [hq, haction, p.act_of_plain tables stage.target hplain] at hfired
      have hkept := congrArg Control.phase p.control_compute
      exact Phase.noConfusion ((hkept.trans hphase).symm.trans hfired)
    rw [hq]
    exact (p.flexibleLength_act tables stage.action stage.target htrap).trans hlength

/-- The recipe of an instruction that starts is tidy. -/
theorem tidy_of_entry (hrealizes : tables.Realizes forms) {opcode : Word} {entry : TableEntry}
    (h : tables.entry? opcode = some entry) :
    (Recipe.mk entry.instruction (tables.stagesAt entry.start)).Tidy :=
  tidy_of_decode? (recipe_of_entry hrealizes h)

theorem elapses_begin (hrealizes : tables.Realizes forms) (hlength : p.flexibleLength = 0) :
    (p.begin tables (p.start tables)).Elapses tables := by
  cases hentry : (p.start tables).entry with
  | interrupt level =>
    rw [begin_interrupt _ hentry]
    exact elapses_of_zero hlength (stages_of_phase_ne tables Phase.noConfusion)
  | exception vector =>
    rw [begin_exception _ hentry]
    exact elapses_of_zero hlength (stages_of_phase_ne tables Phase.noConfusion)
  | instruction entry =>
    rw [begin_instruction _ hentry]
    exact elapses_enterMicroOp rfl hlength
      (tidy_of_entry hrealizes (entry_of_start hentry)).timed

end Processor

namespace Run

variable {β : Type} {tables : Tables} {run : Run β}

/-- **A length that has been set is used up**, at every step. -/
theorem kept_elapses (bus : Bus β) (hrealizes : tables.Realizes forms) :
    Kept tables bus fun run => run.processor.Elapses tables where
  enter run h hphase hended hterminal := by
    refine Processor.elapses_enterMicroOp hphase (h.eq_zero hended) fun stage hstage => ?_
    refine h.timed stage ?_
    rw [Processor.stages_eq_of_follow hphase hterminal]
    exact hstage
  start run h hboundary :=
    Processor.elapses_begin hrealizes
      (h.eq_zero (Processor.programEnded_of_atBoundary tables hboundary))
  transact run start h hended := by
    refine ⟨?_, ?_⟩
    · have hlength := run.processor.flexibleLength_receive (tables.step run.processor.busStep)
        (bus run.bus (run.processor.request (tables.step run.processor.busStep))).1
      have hset := h.length
      simp only [activity_transact bus tables run start hended, List.mem_cons,
        exists_eq_or_imp] at hset
      by_cases hflexible : (tables.step run.processor.busStep).length = .flexible
      · exact .inl (hlength.trans (if_pos hflexible))
      · rw [if_neg hflexible] at hlength
        exact hset.imp hlength.trans fun hlater => hlater.resolve_left hflexible
    · rw [stages_transact]
      simpa only [transact, Processor.instruction_receive] using h.timed

/-- **At every boundary of a session no length is left** for a flexible step. -/
theorem Reachable.flexibleLength_eq_zero {bus : Bus β} {edit : Edit}
    (hrealizes : tables.Realizes forms) (h : run.Reachable tables bus edit)
    (hboundary : run.processor.atBoundary tables) : run.processor.flexibleLength = 0 := by
  have hreset (run : Run β) : (run.modify (·.reset tables)).processor.Elapses tables :=
    Processor.elapses_of_zero rfl (Processor.stages_of_phase_ne tables Phase.noConfusion)
  have helapses : run.processor.Elapses tables := by
    refine Reachable.induct hrealizes (fun b => hreset (.begin _ b)) (kept_elapses bus hrealizes)
      ?_ (fun run _ => hreset run) ?_ ?_ h
    · exact fun run level h => ⟨h.length, h.timed⟩
    · exact fun run registers _ h => ⟨h.length, h.timed⟩
    · exact fun run debt h => ⟨h.length, h.timed⟩
  exact helapses.eq_zero (Processor.programEnded_of_atBoundary tables hboundary)

end Run

end M68k
