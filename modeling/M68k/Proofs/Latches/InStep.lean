import M68k.Proofs.Execution.Relocated
import M68k.Proofs.Latches.Boundary

/-!
# In step

Two processors are in step when they stand at the same place, with the same instruction if there is
one, and agree on all that is live in front of what they are about to do. Then they stay in step:
they enter the same micro-operations, offer the same bus steps, and at a boundary they start the
same. Nothing is asked of what they have done before.

## Main definitions

* `Processor.ahead`: what is live in front of all that a processor is about to do
* `Processor.InStep`: two processors in step

## Main results

* `Processor.InStep.settle`: both go on to the same bus step, having started the same
* `Processor.InStep.receive`: the same answer keeps them in step
-/

namespace M68k.Processor

open Encoding

variable {tables : Tables} {p q : Processor}

variable (tables) in
/-- What is live in front of what is left of the bus program and of the chain in progress. -/
def ahead (p : Processor) : Live :=
  (p.activity tables).liveBefore (Stage.liveBefore p.instruction (p.stages tables))

variable (tables) in
/-- Two processors with the same ahead of them, which agree on all that is live there. -/
structure InStep (p q : Processor) : Prop where
  phase : p.phase = q.phase
  activity : p.activity tables = q.activity tables
  together : p.phase = .instruction → p.Together p.instruction q
  microOp : p.phase = .instruction → p.microOp = q.microOp
  orderly : p.Orderly tables
  agree : p.Agree (p.ahead tables) q

/-- Outside of instructions there is no more ahead than the bus program in progress. -/
theorem inStep_of_phase_ne (hp : p.phase ≠ .instruction) (hphase : p.phase = q.phase)
    (hactivity : p.activity tables = q.activity tables)
    (h : p.Agree ((p.activity tables).liveBefore .nothing) q) : p.InStep tables q where
  phase := hphase
  activity := hactivity
  together hinstruction := absurd hinstruction hp
  microOp hinstruction := absurd hinstruction hp
  orderly stage hstage := by
    rw [stages_of_phase_ne tables hp] at hstage
    cases hstage
  agree := by
    rw [ahead, stages_of_phase_ne tables hp]
    exact h

namespace InStep

/-! ## What is looked at -/

theorem programEnded (h : p.InStep tables q) : p.programEnded tables = q.programEnded tables := by
  rw [← activity_isEmpty, ← activity_isEmpty, h.activity]

/-- The next bus step is the same, and so are those behind it. -/
theorem step (h : p.InStep tables q) (hended : p.programEnded tables = false) :
    tables.step p.busStep = tables.step q.busStep ∧
      tables.activityAt (p.busStep + 1) = tables.activityAt (q.busStep + 1) := by
  have hended' : q.programEnded tables = false := h.programEnded ▸ hended
  have hactivity := h.activity
  rw [activity_eq_cons tables hended, activity_eq_cons tables hended'] at hactivity
  exact List.cons.inj hactivity

theorem atBoundary (h : p.InStep tables q) : p.atBoundary tables = q.atBoundary tables := by
  rw [Processor.atBoundary, Processor.atBoundary, h.programEnded, ← h.phase]
  cases hphase : p.phase with
  | reset | exception => rfl
  | instruction => simp only [h.microOp hphase]

/-- At a boundary no latch is live. -/
theorem agree_of_atBoundary (h : p.InStep tables q) (hboundary : p.atBoundary tables) :
    p.Agree .nothing q := by
  have hagree := h.agree
  rwa [ahead, activity_eq_nil tables (programEnded_of_atBoundary tables hboundary),
    stages_of_atBoundary tables hboundary] at hagree

end InStep

/-! ## Micro-operations -/

/-- Two processors that stand at one place of a chain are in step at one bus step, if they agree on
what is live in front of the program there and of the rest of the chain. -/
theorem inStep_atStep (htogether : p.Together p.instruction q) (hmicroOp : p.microOp = q.microOp)
    {rest : List Stage} (hrest : (tables.stagesAt p.microOp).tail = rest)
    (horderly : ∀ stage ∈ rest, stage.Orderly p.instruction.operation) {offset : Nat}
    (h : p.Agree ((tables.activityAt offset).liveBefore (Stage.liveBefore p.instruction rest)) q) :
    (p.atStep offset).InStep tables (q.atStep offset) := by
  have hstages : (p.atStep offset).stages tables = rest :=
    (stages_of_instruction tables (by exact htogether.phase)).trans hrest
  exact
    { phase := htogether.phase.trans htogether.phase_other.symm
      activity := rfl
      together := fun _ => { htogether with }
      microOp := fun _ => hmicroOp
      orderly := fun stage hstage => by
        rw [hstages] at hstage
        exact horderly stage hstage
      agree := by
        rw [ahead, activity_atStep, hstages]
        exact { h with } }

/-- Two processors that agree in front of a chain enter it in step. -/
theorem inStep_enterMicroOp (hrealizes : tables.Realizes forms)
    (htogether : p.Together p.instruction q) (hmicroOp : p.microOp = q.microOp)
    (horderly : ∀ stage ∈ tables.stagesAt p.microOp, stage.Orderly p.instruction.operation)
    (h : p.Agree (Stage.liveBefore p.instruction (tables.stagesAt p.microOp)) q) :
    (p.enterMicroOp tables).InStep tables (q.enterMicroOp tables) := by
  cases hstages : tables.stagesAt p.microOp with
  | nil =>
    rw [hstages] at horderly h
    rw [enterMicroOp_of_nil hstages, enterMicroOp_of_nil (hmicroOp ▸ hstages)]
    refine inStep_atStep htogether hmicroOp (congrArg List.tail hstages) horderly ?_
    rw [hrealizes.empty]
    exact h
  | cons stage stages =>
    rw [hstages] at horderly h
    obtain ⟨program, hprogram, henter⟩ := enterMicroOp_of_cons hstages
    rw [henter p rfl, henter q hmicroOp.symm]
    have hstage := horderly stage List.mem_cons_self
    rcases p.traps_or_stays stage.action with ⟨haction, htrap⟩ | hstays
    · -- a trap enters its exception
      obtain ⟨action, target, activity⟩ := stage
      obtain rfl : action = .operate := haction
      have hentered := h.trap tables htogether htrap target
      rw [act_of_trap p tables target htrap,
        act_of_trap q tables target (htogether.executes_other ▸ htrap)] at hentered ⊢
      rw [← hrealizes.exception] at hentered
      exact inStep_of_phase_ne Phase.noConfusion rfl rfl hentered
    · obtain ⟨hchosen, hacted⟩ := h.act hrealizes htogether hstage hstays
      have hstays' : stage.action = .operate → q.instruction.operation ≠ .trap :=
        htogether.same ▸ hstays
      have hnext := htogether.of_control (p.control_act tables _ stage.target hstays)
        (q.control_act tables _ stage.target hstays')
      have hplace := microOp_act tables p stage.action stage.target
      rw [if_pos hnext.phase, if_pos hnext.phase_other, ← hchosen]
      have hperformed : tables.activityAt
          ((p.act tables stage.action stage.target).2.getD program) =
          ((p.act tables stage.action stage.target).2.map tables.activityAt).getD
            stage.activity := by
        cases (p.act tables stage.action stage.target).2 with
        | none => exact hprogram
        | some offset => rfl
      refine inStep_atStep { hnext with executes := rfl, executes_other := hnext.same.symm }
        (hplace.trans (hmicroOp.trans (microOp_act tables q _ _).symm))
        (congrArg List.tail ((congrArg tables.stagesAt hplace).trans hstages))
        (fun later hlater => ?_) ?_
      · rw [hnext.executes]
        exact horderly later (List.mem_cons_of_mem _ hlater)
      · rw [hnext.executes, hperformed]
        exact hacted

namespace InStep

/-- Going on to the next micro-operation of the chain. -/
theorem proceed (hrealizes : tables.Realizes forms) (h : p.InStep tables q)
    (hphase : p.phase = .instruction) (hended : p.programEnded tables)
    (hterminal : (tables.microOp p.microOp).isTerminal = false) :
    (p.proceed tables).InStep tables (q.proceed tables) := by
  have hstages := stages_eq_of_follow hphase hterminal
  have hagree := h.agree
  have horderly := h.orderly
  rw [ahead, activity_eq_nil tables hended, hstages] at hagree
  rw [Orderly, hstages] at horderly
  exact inStep_enterMicroOp hrealizes { h.together hphase with }
    (congrArg (· + 1) (h.microOp hphase)) horderly { hagree with }

/-- **Along the chain** both go equally far. -/
theorem follow (hrealizes : tables.Realizes forms) (wanted : MicroOp → Bool)
    (h : p.InStep tables q) :
    (p.follow tables wanted).InStep tables (q.follow tables wanted) := by
  have hsame {p q : Processor} (h : p.InStep tables q) :
      (p.phase = .instruction ∧ p.programEnded tables ∧
        ¬ (tables.microOp p.microOp).isTerminal ∧ wanted (tables.microOp (p.microOp + 1))) ↔
      (q.phase = .instruction ∧ q.programEnded tables ∧
        ¬ (tables.microOp q.microOp).isTerminal ∧ wanted (tables.microOp (q.microOp + 1))) := by
    rw [← h.phase, ← h.programEnded]
    refine and_congr_right fun hphase => ?_
    rw [h.microOp hphase]
  fun_induction Processor.follow tables wanted p generalizing q with
  | case1 p hfollow ih =>
    rw [Processor.follow.eq_1 tables wanted q, if_pos ((hsame h).1 hfollow)]
    obtain ⟨hphase, hended, hterminal, -⟩ := hfollow
    exact ih (h.proceed hrealizes hphase hended (by simpa using hterminal))
  | case2 p hfollow =>
    rw [Processor.follow.eq_1 tables wanted q, if_neg fun hfollow' => hfollow ((hsame h).2 hfollow')]
    exact h

theorem fireBusFree (hrealizes : tables.Realizes forms) (h : p.InStep tables q) :
    (p.fireBusFree tables).InStep tables (q.fireBusFree tables) :=
  h.follow hrealizes _

end InStep

/-! ## Boundaries -/

/-- **What starts at a boundary** starts in step, whatever has happened before. -/
theorem inStep_begin (hrealizes : tables.Realizes forms) (h : p.Agree .nothing q) :
    (p.begin tables (p.start tables)).InStep tables (q.begin tables (q.start tables)) := by
  have hstart : p.start tables = q.start tables := h.start
  rw [← hstart]
  cases hentry : (p.start tables).entry with
  | interrupt level =>
    rw [begin_interrupt p hentry, begin_interrupt q hentry]
    have haccepted := h.accept level
    rw [← hrealizes.interrupt] at haccepted
    exact inStep_of_phase_ne Phase.noConfusion rfl rfl { haccepted with }
  | exception vector =>
    rw [begin_exception p hentry, begin_exception q hentry]
    have hrefused := h.refuse tables (p.start tables) vector
    rw [← hrealizes.exception] at hrefused
    exact inStep_of_phase_ne Phase.noConfusion rfl rfl { hrefused with }
  | instruction entry =>
    rw [begin_instruction p hentry, begin_instruction q hentry]
    have hwellFormed := wellFormed_of_entry hrealizes (entry_of_start hentry)
    have hdead : Stage.liveBefore entry.instruction (tables.stagesAt entry.start) = .nothing :=
      (tidy_of_entry hrealizes (entry_of_start hentry)).dead
    refine inStep_enterMicroOp hrealizes ⟨rfl, rfl, rfl, rfl, rfl⟩ rfl hwellFormed.orderly ?_
    rw [dispatch]
    dsimp only
    rw [hdead]
    exact { h with }

namespace InStep

/-- **Both go on to the same bus step**, having started the same. -/
theorem settle (hrealizes : tables.Realizes forms) (h : p.InStep tables q) :
    (p.settle tables).1.InStep tables (q.settle tables).1 ∧
      (p.settle tables).2 = (q.settle tables).2 := by
  have hfollow := h.follow hrealizes fun _ => true
  simp only [Processor.settle, ← hfollow.atBoundary]
  split
  · rename_i hboundary
    have hagree := hfollow.agree_of_atBoundary hboundary
    exact ⟨(inStep_begin hrealizes hagree).follow hrealizes _, congrArg some hagree.start⟩
  · exact ⟨hfollow, rfl⟩

/-! ## Bus steps and hosts -/

/-- What is live in front of the next bus step. -/
theorem agree_step (h : p.InStep tables q) (hended : p.programEnded tables = false) :
    p.Agree ((tables.step p.busStep).liveBefore ((tables.activityAt (p.busStep + 1)).liveBefore
      (Stage.liveBefore p.instruction (p.stages tables)))) q := by
  have hagree := h.agree
  rwa [ahead, activity_eq_cons tables hended] at hagree

/-- **The same answer keeps them in step.** -/
theorem receive (h : p.InStep tables q) (hended : p.programEnded tables = false)
    {reply reply' : Reply}
    (hheard : reply.heard (tables.step p.busStep).signals =
      reply'.heard (tables.step p.busStep).signals) :
    (p.receive (tables.step p.busStep) reply).InStep tables
      (q.receive (tables.step q.busStep) reply') := by
  obtain ⟨hstep, hlater⟩ := h.step hended
  have hagree := h.agree_step hended
  rw [← hstep]
  generalize tables.step p.busStep = step at hheard hagree ⊢
  have hcontrol := p.control_receive step reply
  have hcontrol' := q.control_receive step reply'
  have hrest : (p.receive step reply).stages tables = p.stages tables := by
    simp only [stages, phase_receive, microOp_receive]
  exact
    { phase := by rw [phase_receive, phase_receive, h.phase]
      activity := by
        rw [Processor.activity, Processor.activity, busStep_receive, busStep_receive, hlater]
      together := fun hphase => by
        rw [phase_receive] at hphase
        rw [instruction_receive]
        exact (h.together hphase).of_control hcontrol hcontrol'
      microOp := fun hphase => by
        rw [phase_receive] at hphase
        rw [microOp_receive, microOp_receive, h.microOp hphase]
      orderly := fun stage hstage => by
        rw [hrest] at hstage
        rw [instruction_receive]
        exact h.orderly stage hstage
      agree := by
        rw [ahead, hrest, instruction_receive, Processor.activity, busStep_receive]
        exact hagree.receive hheard }

/-- What a host does to both keeps them in step, if it looks at what a programmer sees. -/
theorem setInterruptLevel (h : p.InStep tables q) (level : Level) :
    (p.setInterruptLevel level).InStep tables (q.setInterruptLevel level) :=
  { h with
    together := fun hphase => { h.together hphase with }
    agree :=
      { h.agree with
        interruptLevel := rfl
        levelSevenRose := by
          simp only [Processor.setInterruptLevel, h.agree.interruptLevel,
            h.agree.levelSevenRose] } }

theorem owe (h : p.InStep tables q) (debt : HalfCycles) :
    InStep tables { p with debt := debt } { q with debt := debt } :=
  { h with
    together := fun hphase => { h.together hphase with }
    agree := { h.agree with } }

theorem edit (h : p.InStep tables q) {r s : Registers} (hedit : r.Alike s) :
    InStep tables { p with registers := r } { q with registers := s } :=
  { h with
    together := fun hphase => { h.together hphase with }
    agree := { h.agree with registers := hedit } }

/-- What they agree on in any case. -/
theorem agree_nothing (h : p.InStep tables q) : p.Agree .nothing q :=
  h.agree.mono (Live.nothing_within _)

end InStep

/-- A reset fills the latch that its sequence uses. -/
theorem inStep_reset (hrealizes : tables.Realizes forms) (h : p.Agree .nothing q) :
    (p.reset tables).InStep tables (q.reset tables) := by
  have hbefore : FixedPrograms.resetActivity.liveBefore .nothing =
      { Live.nothing with address := .src } := by decide
  have hfilled : Live.nothing = Live.fillAddress { Live.nothing with address := .src } .source := by
    decide
  have hset : Agree { Live.nothing with address := .src }
      { p with effectiveAddress := p.effectiveAddress.set .source 0 }
      { q with effectiveAddress := q.effectiveAddress.set .source 0 } :=
    Agree.setEffectiveAddress (hfilled ▸ h) 0
  refine inStep_of_phase_ne Phase.noConfusion rfl rfl ?_
  rw [activity_reset hrealizes, hbefore]
  exact
    { hset with
      registers := h.registers.setStatus _
      levelSevenRose := rfl
      flexibleLength := rfl }

end M68k.Processor
