import M68k.Proofs.Execution.Relocated
import M68k.Proofs.Session.Bounds
import M68k.Proofs.Session.Calls
import M68k.Proofs.Session.Termination

/-!
# Storage is not seen

Bus programs are shared wherever they occur, also inside the programs of exceptions, branches, loops
and register lists. None of this can be told from a run. A processor on tables in which each stage
has a bus program to itself puts the same on the bus at the same times, and in between it differs
in the offset of the next bus step alone. Each instruction runs the steps of its own stages, whatever
else uses them.

## Main definitions

* `Run.Relocated`: the same run on other tables
* `Processor.OnOwnSteps`: the steps ahead are those of a stage of the instruction, or of the program
  that its operation has chosen

## Main results

* `Run.Relocated.step`, `Run.Relocated.drive`: steps and calls lead to the same run again
* `Processor.Passed.onOwnSteps`: instructions run their own steps
* `Run.session_of_unshared`: no host can tell whether programs are shared
-/

namespace M68k

open Encoding

variable {β : Type} {tables other : Tables} (bus : Bus β)

namespace Run

/-- The same run on other tables: the processors differ in the offset of the next bus step at most,
and the steps ahead read the same. -/
def Relocated (tables other : Tables) (run run' : Run β) : Prop :=
  ∃ q, run' = run.withProcessor q ∧ run.processor.Relocated tables other q

variable {run run' : Run β}

/-- The time and the steps of a run are counted from elsewhere. -/
theorem Relocated.after (h : run.Relocated tables other run') {earlier earlier' : Run β}
    (hearlier : earlier.Relocated tables other earlier') :
    (run.after earlier).Relocated tables other (run'.after earlier') := by
  obtain ⟨q, rfl, hq⟩ := h
  obtain ⟨q', rfl, -⟩ := hearlier
  exact ⟨q, rfl, hq⟩

/-! ## Steps -/

/-- The same request gets the same answer. -/
theorem Relocated.transact (h : run.Relocated tables other run') (start : Option Start)
    (hended : run.processor.programEnded tables = false) :
    (run.transact bus start (tables.step run.processor.busStep)).Relocated tables other
      (run'.transact bus start (other.step run'.processor.busStep)) := by
  obtain ⟨q, rfl, hq⟩ := h
  have hrequest (step : BusStep) : q.request step = run.processor.request step := by
    rw [hq.processor]
    exact run.processor.request_withSetting
      { run.processor.setting with busStep := q.busStep } step
  have hduration (step : BusStep) : q.duration step = run.processor.duration step := by
    rw [hq.processor]
    rfl
  refine ⟨q.receive (other.step q.busStep)
    (bus run.bus (run.processor.request (tables.step run.processor.busStep))).1, ?_,
    hq.receive hended _⟩
  simp only [Run.transact, withProcessor, hrequest, hduration, (hq.step hended).1]

/-- **A step on other tables is the same step.** -/
theorem Relocated.step (ht : tables.Relocated forms other) (h : run.Relocated tables other run') :
    (run.step tables bus).Relocated tables other (run'.step other bus) := by
  obtain ⟨q, rfl, hq⟩ := h
  obtain ⟨hsettled, hstart⟩ := hq.settle ht
  have hended : (run.processor.settle tables).1.programEnded tables = false :=
    Processor.programEnded_settle ht.left run.processor
  have hbefore : (run.withProcessor (run.processor.settle tables).1).Relocated tables other
      (run.withProcessor (q.settle other).1) :=
    ⟨_, rfl, hsettled⟩
  obtain ⟨q', htransact, hq'⟩ :=
    hbefore.transact bus (run.processor.settle tables).2 hended
  refine ⟨q'.fireBusFree other, ?_, hq'.fireBusFree ht⟩
  rw [step_eq, step_eq, advance, advance, processor_withProcessor, ← hstart]
  rw [withProcessor_withProcessor, htransact]
  rfl

/-- A limited run that looks at nothing but the time goes on for as many steps. -/
theorem Relocated.untilStop (ht : tables.Relocated forms other) {stop : Run β → Bool}
    (hstop : ∀ run run' : Run β, run.Relocated tables other run' → stop run = stop run')
    (limit : Nat) (h : run.Relocated tables other run') :
    (run.untilStop tables bus stop limit).Relocated tables other
      (run'.untilStop other bus stop limit) := by
  induction limit generalizing run run' with
  | zero => exact h
  | succ limit ih =>
    rw [Run.untilStop, Run.untilStop, ← hstop run run' h]
    split
    · exact h
    · exact ih (h.step bus ht)

/-! ## Calls -/

variable {p q : Processor}

theorem relocated_begin (h : p.Relocated tables other q) (b : β) :
    (begin p b).Relocated tables other (begin q b) :=
  ⟨q, rfl, h⟩

/-- A timed run on other tables is the same run. -/
theorem relocated_runFor (ht : tables.Relocated forms other) (h : p.Relocated tables other q)
    (duration : HalfCycles) (b : β) :
    (p.runFor tables bus duration b).Relocated tables other (q.runFor other bus duration b) := by
  have hdebt : q.debt = p.debt := by
    rw [h.processor]
    rfl
  unfold Processor.runFor
  rw [hdebt]
  split
  · exact relocated_begin (h.owe _) b
  · have hspent (run run' : Run β) (h : run.Relocated tables other run') :
        decide (duration - p.debt ≤ run.spent) = decide (duration - p.debt ≤ run'.spent) := by
      obtain ⟨q', rfl, -⟩ := h
      rfl
    obtain ⟨q', hrun, hq'⟩ := (relocated_begin h b).untilStop bus ht hspent
      (2 * (duration - p.debt) + 2)
    dsimp only
    rw [hrun]
    exact ⟨_, rfl, hq'.owe _⟩

/-- An instruction run on other tables is the same run. The tables bound the number of its steps
differently, but it ends at a boundary before either bound. -/
theorem relocated_runInstruction (ht : tables.Relocated forms other) (hp : p.Ready tables)
    (hq : q.Ready other) (h : p.Relocated tables other q) (b : β) :
    (p.runInstruction tables bus b).Relocated tables other (q.runInstruction other bus b) := by
  obtain ⟨-, n, -, hloop⟩ := hp.loop_runInstruction bus ht.left b
  obtain ⟨-, m, -, hloop'⟩ := hq.loop_runInstruction bus ht.right b
  have hfirst := (relocated_begin (h.owe 0) b).step bus ht
  have hboundary (run run' : Run β) (h : run.Relocated tables other run') :
      run.processor.atBoundary tables = run'.processor.atBoundary other := by
    obtain ⟨q', rfl, hq'⟩ := h
    exact hq'.atBoundary
  obtain ⟨final, hsame, hfinal⟩ :=
    hloop.exists_of_related hboundary (fun run run' h _ => h.step bus ht) hfirst
  obtain ⟨-, rfl⟩ := hsame.unique hloop'
  exact hfinal

/-- **A call is answered by the same run on other tables.** -/
theorem Relocated.drive (ht : tables.Relocated forms other)
    (hready : run.processor.Ready tables) (hready' : run'.processor.Ready other)
    (h : run.Relocated tables other run') (call : HostCall) :
    (run.drive tables bus call).Relocated tables other (run'.drive other bus call) := by
  have hwhole := h
  obtain ⟨q, rfl, hq⟩ := h
  cases call with
  | runFor duration => exact (relocated_runFor bus ht hq duration run.bus).after hwhole
  | runInstruction =>
    exact (relocated_runInstruction bus ht hready hready' hq run.bus).after hwhole
  | setInterruptLevel level => exact ⟨_, rfl, hq.setInterruptLevel level⟩
  | reset => exact ⟨_, rfl, hq.reset ht⟩
  | edit change => exact ⟨_, rfl, hq.edit change⟩

/-- Sessions with the same calls are the same on other tables. -/
theorem relocated_session (ht : tables.Relocated forms other) (b : β) (calls : List HostCall) :
    (session tables bus b calls).Relocated tables other (session other bus b calls) := by
  induction calls using List.reverseRecOn with
  | nil => exact relocated_begin (Processor.relocated_initial ht) b
  | append_singleton calls call ih =>
    rw [session_append, session_append]
    exact ih.drive bus ht ((reached_session bus b calls).ready ht.left)
      ((reached_session bus b calls).ready ht.right) call

end Run

/-! ## Own steps -/

namespace Processor

variable {p : Processor}

variable (tables) in
/-- The steps ahead are the rest of the activity of a stage, or of the program that its operation
has chosen in its place. -/
def WithinStage (p : Processor) (stage : Stage) : Prop :=
  p.activity tables <:+ stage.activity ∨
    stage.action = .operate ∧ ∃ (q : Processor) (offset : Nat),
      q.opcode = p.opcode ∧ q.instruction = p.instruction ∧
        (q.operate tables).2 = some offset ∧ p.activity tables <:+ tables.activityAt offset

variable (tables) in
/-- The instruction in progress is the one that its opcode is decoded to. It stands at some stage of
its own, with the steps of that stage ahead and the stages behind it to come, or it has no more
steps. -/
def OnOwnSteps (p : Processor) : Prop :=
  ∃ recipe before, decode? forms p.opcode = some recipe ∧ recipe.instruction = p.instruction ∧
    recipe.stages = before ++ tables.stagesAt p.microOp ∧
    (p.activity tables = [] ∨
      ∃ stage ∈ (tables.stagesAt p.microOp).head?, p.WithinStage tables stage)

/-- Entering a micro-operation of its own chain, an instruction keeps to its own steps. -/
theorem onOwnSteps_enterMicroOp (hrealizes : tables.Realizes forms) {recipe : Recipe}
    (before : List Stage) (hdecode : decode? forms p.opcode = some recipe)
    (hinstruction : recipe.instruction = p.instruction)
    (hstages : recipe.stages = before ++ tables.stagesAt p.microOp)
    (hphase : (p.enterMicroOp tables).phase = .instruction) :
    (p.enterMicroOp tables).OnOwnSteps tables := by
  refine ⟨recipe, before, by rwa [opcode_enterMicroOp], by rwa [instruction_enterMicroOp],
    by rwa [microOp_enterMicroOp], ?_⟩
  rw [microOp_enterMicroOp]
  cases hchain : tables.stagesAt p.microOp with
  | nil =>
    rw [enterMicroOp_of_nil hchain]
    exact .inl hrealizes.empty
  | cons stage stages =>
    refine .inr ⟨stage, rfl, ?_⟩
    obtain ⟨program, hprogram, henter⟩ := enterMicroOp_of_cons hchain
    rw [henter p rfl] at hphase ⊢
    have hfired : (p.act tables stage.action stage.target).1.phase = .instruction := by
      split at hphase
      · assumption
      · exact hphase
    rw [if_pos hfired]
    cases hchosen : (p.act tables stage.action stage.target).2 with
    | none =>
      refine .inl ?_
      rw [activity_atStep, Option.getD_none, hprogram]
    | some offset =>
      obtain ⟨haction, -⟩ := redirects_of_chosen hchosen
      rw [haction] at hchosen
      refine .inr ⟨haction, p, offset, ?_, ?_, hchosen, List.suffix_rfl⟩
      · exact (opcode_act p tables stage.action stage.target).symm
      · exact (instruction_act p tables stage.action stage.target).symm

theorem WithinStage.receive {stage : Stage} (h : p.WithinStage tables stage)
    (hended : p.programEnded tables = false) (reply : Reply) :
    (p.receive (tables.step p.busStep) reply).WithinStage tables stage := by
  have hrest : (p.receive (tables.step p.busStep) reply).activity tables <:+ p.activity tables := by
    rw [activity_eq_cons tables hended, activity, busStep_receive]
    exact List.suffix_cons _ _
  rcases h with hown | ⟨haction, q, offset, hopcode, hinstruction, hoffset, hchosen⟩
  · exact .inl (hrest.trans hown)
  · exact .inr ⟨haction, q, offset, hopcode.trans (opcode_receive p _ reply).symm,
      hinstruction.trans (instruction_receive p _ reply).symm, hoffset, hrest.trans hchosen⟩

/-- **Instructions run their own steps**, wherever those are stored and whatever else uses them. -/
theorem Passed.onOwnSteps (hrealizes : tables.Realizes forms) (h : p.Passed tables)
    (hphase : p.phase = .instruction) : p.OnOwnSteps tables := by
  induction h with
  | initial | reset => cases hphase
  | @proceed p _ hended hnext ih =>
    obtain ⟨hbefore, hterminal⟩ := (p.hasNext_iff tables).1 hnext
    obtain ⟨recipe, before, hdecode, hinstruction, hstages, -⟩ := ih hbefore
    rw [tables.stagesAt_eq_cons hterminal] at hstages
    refine onOwnSteps_enterMicroOp hrealizes
      (before ++ [tables.stageOf (tables.microOp p.microOp)]) hdecode hinstruction ?_ hphase
    rw [hstages, List.append_assoc]
    rfl
  | @start p _ _ _ =>
    cases hentry : (p.start tables).entry with
    | interrupt level =>
      rw [begin_interrupt p hentry] at hphase
      cases hphase
    | exception vector =>
      rw [begin_exception p hentry] at hphase
      cases hphase
    | instruction entry =>
      rw [begin_instruction p hentry] at hphase ⊢
      have hdecode := recipe_of_entry hrealizes (entry_of_start hentry)
      exact onOwnSteps_enterMicroOp hrealizes [] hdecode rfl rfl hphase
  | @receive p _ hended reply ih =>
    rw [phase_receive] at hphase
    obtain ⟨recipe, before, hdecode, hinstruction, hstages, hactivity⟩ := ih hphase
    have hgoes : p.activity tables ≠ [] := by
      rw [activity_eq_cons tables hended]
      exact List.cons_ne_nil _ _
    obtain ⟨stage, hstage, hwithin⟩ := hactivity.resolve_left hgoes
    refine ⟨recipe, before, ?_, ?_, ?_, .inr ⟨stage, ?_, hwithin.receive hended reply⟩⟩
    · rwa [opcode_receive]
    · rwa [instruction_receive]
    · rwa [microOp_receive]
    · rwa [microOp_receive]
  | setInterruptLevel _ _ ih | edit _ _ ih | owe _ _ ih =>
    exact ih hphase

end Processor

/-! ## Sharing -/

/-- The tables of the instruction set in which each stage has a bus program to itself, and nothing is
looked up. The fixed programs are put into the store by `fixed`. -/
def Tables.unshared (fixed : Placement) : Tables := compileWith fixed ProgramStore.append forms

theorem Tables.relocated_unshared {fixed : Placement} (hfixed : fixed.Faithful) :
    (compile forms).Relocated forms (unshared fixed) :=
  relocated_compileWith ProgramStore.place_faithful ProgramStore.place_faithful hfixed
    ProgramStore.append_faithful fun _ _ h => (wellFormed_of_decode? h).isOpen

/-- **No host can tell whether bus programs are shared.** On tables that were built and on those in
which each stage has a program to itself, the same calls lead to the same history of bus steps, with
the same starts, requests, words and durations, to the same time spent, to the same state of the bus
and to the same processor but for the offset of the next bus step, from which on it reads the same
steps. Nor does sharing lead an instruction astray: at each point that the processor of the session
passes through, the steps ahead in an instruction are those of its own stage, or of the program that
its own operation has chosen. -/
theorem Run.session_of_unshared {config : Config}
    (hbuild : Tables.build config forms = .ok tables) {fixed : Placement}
    (hfixed : fixed.Faithful) (bus : Bus β) (b : β) (calls : List HostCall) :
    let run := session tables bus b calls
    let run' := session (.unshared fixed) bus b calls
    (run'.history = run.history ∧ run'.spent = run.spent ∧ run'.bus = run.bus ∧
      run'.processor = { run.processor with busStep := run'.processor.busStep } ∧
      run'.processor.activity (.unshared fixed) = run.processor.activity tables ∧
      run'.processor.atBoundary (.unshared fixed) = run.processor.atBoundary tables) ∧
    run.processor.Passed tables ∧
    ∀ p : Processor, p.Passed tables → p.phase = .instruction →
      p.programEnded tables = false →
        ∃ recipe before stage, decode? forms p.opcode = some recipe ∧
          recipe.instruction = p.instruction ∧
          recipe.stages = before ++ stage :: p.stages tables ∧ p.WithinStage tables stage := by
  obtain rfl := Tables.eq_compile_of_build hbuild
  have ht := Tables.relocated_unshared hfixed
  obtain ⟨q, hrun, hq⟩ := relocated_session bus ht b calls
  refine ⟨?_, (reached_session bus b calls).passed ht.left, fun p hpassed hphase hended => ?_⟩
  · simp only [hrun]
    exact ⟨rfl, rfl, rfl, hq.processor, hq.activity.symm, hq.atBoundary.symm⟩
  · obtain ⟨recipe, before, hdecode, hinstruction, hstages, hactivity⟩ :=
      hpassed.onOwnSteps ht.left hphase
    have hgoes : p.activity (.compile forms) ≠ [] := by
      rw [p.activity_eq_cons _ hended]
      exact List.cons_ne_nil _ _
    obtain ⟨stage, hstage, hwithin⟩ := hactivity.resolve_left hgoes
    refine ⟨recipe, before, stage, hdecode, hinstruction, ?_, hwithin⟩
    rw [hstages, Processor.stages_of_instruction _ hphase, List.eq_cons_of_mem_head? hstage,
      List.tail_cons]

/-- For one, with fixed programs that have steps of their own as well. -/
theorem Run.session_of_unshared_append :
    Tables.build ⟨false, false⟩ forms = .ok (.compile forms) ∧
      Placement.Faithful ProgramStore.append ∧
      (session (.unshared ProgramStore.append) (Bus.constant 0x4E71) ()
          [.runInstruction, .runFor 100]).history =
        (session (.compile forms) (Bus.constant 0x4E71) ()
          [.runInstruction, .runFor 100]).history := by
  have hbuild : Tables.build ⟨false, false⟩ forms = .ok (.compile forms) := rfl
  obtain ⟨⟨hhistory, -⟩, -⟩ := session_of_unshared hbuild ProgramStore.append_faithful
    (Bus.constant 0x4E71) () [.runInstruction, .runFor 100]
  exact ⟨hbuild, ProgramStore.append_faithful, hhistory⟩

end M68k
