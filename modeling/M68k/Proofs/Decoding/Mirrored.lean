import M68k.Proofs.Decoding.Basic

/-!
# Written chains

Stages that a decoder writes down, and the same stages put into a draft from a recipe, make the same
bus steps and the same micro-operations. A program is found where a search finds it, whichever index
knows it, and stages without bus activity get the empty program once the chain is closed.

## Main definitions

* `ProgramStore.shared`: where a search finds a program, or how the steps grow
* `FixedPrograms.Ready`: the indices of a store are right, and it has the programs that stages
  refer to
* `MicroOp.supplied`: a micro-operation with the empty program if it had none
* `Tables.Draft.Mirrors`: a draft made from recipes, against one with an open chain at its end
* `Tables.Draft.finishChain`: closes a chain

## Main results

* `FixedPrograms.ready_place`: the store of the fixed programs is ready
* `Tables.Draft.Mirrors.written`: writing stages down mirrors adding them
* `Tables.Draft.Mirrors.finishChain`: closing a chain mirrors adding it
-/

namespace M68k

/-! ## Searching the store -/

namespace ProgramStore

variable {store later : ProgramStore} {program : List BusStep}

/-- The place where a search finds a program, and the steps that it is found in: it is stored at the
end unless it already occurs. -/
def shared (steps : Array BusStep) (program : List BusStep) : Nat × Array BusStep :=
  match firstOccurrence? program steps.toList with
  | some offset => (offset, steps)
  | none => (steps.size, steps ++ program)

theorem Indexed.place_eq_shared (h : store.Indexed) (program : List BusStep) :
    ((store.place program).1, (store.place program).2.steps) = shared store.steps program := by
  rw [ProgramStore.place, shared]
  cases hplaced : store.placed[program]? with
  | some offset => simp only [h.placed program offset hplaced]
  | none => cases firstOccurrence? program store.steps.toList <;> rfl

/-- Assembling a pattern is placing its program. -/
theorem Indexed.assemble_eq_shared (h : store.Indexed) {key : ProgramKey}
    (hparse : key.parse = .ok program) {offset : Nat}
    (hstored : store.assemble key.pattern key.addresses key.width = .ok (offset, later)) :
    (offset, later.steps) = shared store.steps program ∧ later.Indexed := by
  constructor
  · rw [assemble_eq] at hstored
    split at hstored
    · next known hknown =>
      cases hstored
      obtain ⟨found, hfound, hoccurs⟩ := h.assembled key _ hknown
      cases hfound.symm.trans hparse
      rw [shared, hoccurs]
    · rw [hparse] at hstored
      cases hstored
      exact h.place_eq_shared program
  · obtain ⟨error, herror, -⟩ | ⟨found, place, next, hfound, hnext, hplaces⟩ :=
      h.assemble key
    · cases herror.symm.trans hparse
    · cases hstored.symm.trans hnext
      exact hplaces.indexed

end ProgramStore

theorem Activity.isProgram {activity : Activity} (h : activity.Open) :
    IsProgram activity.toProgram :=
  ⟨activity, h, rfl⟩

/-! ## The fixed programs -/

namespace FixedPrograms

variable {programs : FixedPrograms} {store later : ProgramStore}

/-- The indices of the store are right, and the fixed programs that stages refer to are found where
they should be. -/
structure Ready (programs : FixedPrograms) (store : ProgramStore) : Prop where
  indexed : store.Indexed
  empty : firstOccurrence? (Activity.toProgram []) store.steps.toList = some programs.empty
  popFrame :
    firstOccurrence? Encoding.popFrame.toProgram store.steps.toList = some programs.popFrame

theorem Ready.mono (h : programs.Ready store) (hindexed : later.Indexed)
    (hgrown : store.GrownTo later) : programs.Ready later where
  indexed := hindexed
  empty := firstOccurrence?_mono h.empty hgrown
  popFrame := firstOccurrence?_mono h.popFrame hgrown

theorem exists_found (h : store.Indexed) {activity : Activity} (hopen : activity.Open) :
    ∃ offset later, store.place activity.toProgram = (offset, later) ∧ later.Indexed ∧
      store.GrownTo later ∧
      firstOccurrence? activity.toProgram later.steps.toList = some offset :=
  have hplaces := h.place (Activity.isProgram hopen)
  ⟨_, _, rfl, hplaces.indexed, ProgramStore.place_faithful.grownTo store _, hplaces.found⟩

theorem ready_place :
    (place ProgramStore.place .empty).1.Ready (place ProgramStore.place .empty).2 := by
  have hempty : Activity.Open [] := by decide
  have hreset : resetActivity.Open := by decide
  have htaken : Activity.Open (.idle 4 ++ .fetch ++ .fetch) := by decide
  have hbyteNotTaken : Activity.Open (.idle 8 ++ .fetch) := by decide
  have hwordNotTaken : Activity.Open (.idle 8 ++ .fetch ++ .fetch) := by decide
  have hrefill : Activity.Open (.fetch ++ .fetch) := by decide
  have hexpired : Activity.Open (.idle 4 ++ expiredLoopRead ++ .fetch ++ .fetch) := by decide
  have hread := open_listTransfers true (maxListWords + 1)
  have hwrite := open_listTransfers false maxListWords
  have hexception : exceptionActivity.Open := by decide
  have hinterrupt : interruptActivity.Open := by decide
  have hpop : Encoding.popFrame.Open := by decide
  obtain ⟨o₁, s₁, e₁, h₁, -, p₁⟩ := exists_found ProgramStore.indexed_empty hempty
  obtain ⟨o₂, s₂, e₂, h₂, g₂, -⟩ := exists_found h₁ hreset
  obtain ⟨o₃, s₃, e₃, h₃, g₃, -⟩ := exists_found h₂ htaken
  obtain ⟨o₄, s₄, e₄, h₄, g₄, -⟩ := exists_found h₃ hbyteNotTaken
  obtain ⟨o₅, s₅, e₅, h₅, g₅, -⟩ := exists_found h₄ hwordNotTaken
  obtain ⟨o₆, s₆, e₆, h₆, g₆, -⟩ := exists_found h₅ hrefill
  obtain ⟨o₇, s₇, e₇, h₇, g₇, -⟩ := exists_found h₆ hexpired
  obtain ⟨o₈, s₈, e₈, h₈, g₈, -⟩ := exists_found h₇ hread
  obtain ⟨o₉, s₉, e₉, h₉, g₉, -⟩ := exists_found h₈ hwrite
  obtain ⟨o₁₀, s₁₀, e₁₀, h₁₀, g₁₀, -⟩ := exists_found h₉ hexception
  obtain ⟨o₁₁, s₁₁, e₁₁, h₁₁, g₁₁, -⟩ := exists_found h₁₀ hinterrupt
  obtain ⟨o₁₂, s₁₂, e₁₂, h₁₂, g₁₂, p₁₂⟩ := exists_found h₁₁ hpop
  simp only [place, e₁, e₂, e₃, e₄, e₅, e₆, e₇, e₈, e₉, e₁₀, e₁₁, e₁₂]
  have hgrown : s₁.GrownTo s₁₂ :=
    g₂.trans <| g₃.trans <| g₄.trans <| g₅.trans <| g₆.trans <| g₇.trans <| g₈.trans <| g₉.trans <|
      g₁₀.trans <| g₁₁.trans g₁₂
  exact ⟨h₁₂, firstOccurrence?_mono p₁ hgrown, p₁₂⟩

end FixedPrograms

/-! ## Open chains -/

/-- The micro-operation with the empty program if it has none. -/
def MicroOp.supplied (empty : Nat) (op : MicroOp) : MicroOp :=
  { op with program := some (op.program.getD empty) }

namespace Tables.Draft

variable {programs : FixedPrograms} {start : Nat} {draft next later other : Draft} {stage : Stage}

/-- The micro-operations, of which those from `start` on have got programs. -/
def supplied (programs : FixedPrograms) (start : Nat) (draft : Draft) : Array MicroOp :=
  draft.microOps.mapIdx fun i op => if start ≤ i then op.supplied programs.empty else op

/-- Close the chain from `start` on: its micro-operations get programs, and its end follows. -/
def finishChain (programs : FixedPrograms) (start : Nat) (draft : Draft) : Draft :=
  { draft with microOps := (draft.supplied programs start).push .terminal }

theorem supplied_size (draft : Draft) :
    draft.supplied programs draft.microOps.size = draft.microOps := by
  refine Array.ext (Array.size_mapIdx ..) fun i _ hi => ?_
  simp only [supplied, Array.getElem_mapIdx, if_neg (Nat.not_le.2 hi)]

theorem supplied_push (h : start ≤ draft.microOps.size) {op : MicroOp}
    (hpush : next.microOps = draft.microOps.push op) :
    next.supplied programs start =
      (draft.supplied programs start).push (op.supplied programs.empty) := by
  rw [supplied, hpush, Array.mapIdx_push, if_pos h]
  rfl

/-- What writing a stage down does to the store and the micro-operations. -/
theorem Extends.exists_op (h : draft.Extends programs stage next)
    (hready : programs.Ready draft.store) :
    IsProgram stage.activity.toProgram ∧ programs.Ready next.store ∧
      ∃ program, next.microOps = draft.microOps.push ⟨stage.action, stage.target, program⟩ ∧
        (program.getD programs.empty, next.store.steps) =
          ProgramStore.shared draft.store.steps stage.activity.toProgram := by
  cases h with
  | act action target =>
    have hopen : Activity.Open [] := by decide
    refine ⟨Activity.isProgram hopen, hready, none, rfl, ?_⟩
    rw [ProgramStore.shared, Stage.act, hready.empty]
    rfl
  | popFrame action target =>
    have hopen : Encoding.popFrame.Open := by decide
    refine ⟨Activity.isProgram hopen, hready, some programs.popFrame, rfl, ?_⟩
    rw [ProgramStore.shared, hready.popFrame]
    rfl
  | @assembled action target activity key offset store hparse hstored =>
    obtain ⟨hshared, hindexed⟩ := hready.indexed.assemble_eq_shared hparse hstored
    exact ⟨ProgramKey.isProgram hparse,
      hready.mono hindexed (ProgramStore.grownTo_assemble hstored), some offset, rfl, hshared⟩

/-- `other` is what `draft` becomes when its chain from `start` on gets its programs. -/
structure Mirrors (programs : FixedPrograms) (start : Nat) (draft other : Draft) : Prop where
  begun : start ≤ draft.microOps.size
  ready : programs.Ready draft.store
  otherReady : programs.Ready other.store
  steps : other.store.steps = draft.store.steps
  microOps : other.microOps = draft.supplied programs start

/-- Writing a stage down mirrors adding it. -/
theorem Mirrors.extends (h : Mirrors programs start draft other)
    (hstage : draft.Extends programs stage next) :
    Mirrors programs start next (other.addStage ProgramStore.place stage) := by
  obtain ⟨hprogram, hready, program, hpush, hshared⟩ := hstage.exists_op h.ready
  have hplaced := h.otherReady.indexed.place_eq_shared stage.activity.toProgram
  rw [h.steps, ← hshared] at hplaced
  obtain ⟨hoffset, hsteps⟩ := Prod.mk.inj hplaced
  constructor
  · rw [hpush, Array.size_push]
    exact Nat.le_succ_of_le h.begun
  · exact hready
  · exact h.otherReady.mono (h.otherReady.indexed.place hprogram).indexed
      (ProgramStore.place_faithful.grownTo _ _)
  · exact hsteps
  · rw [supplied_push h.begun hpush, ← h.microOps]
    exact congrArg (fun offset =>
      other.microOps.push ⟨stage.action, stage.target, some offset⟩) hoffset

/-- **Writing stages down mirrors adding them.** -/
theorem Mirrors.written {stages : List Stage} (h : Mirrors programs start draft other)
    (hwritten : Written programs draft stages later) :
    Mirrors programs start later (stages.foldl (addStage ProgramStore.place) other) := by
  induction hwritten generalizing other with
  | nil => exact h
  | cons hstage _ ih => exact ih (h.extends hstage)

/-- **Closing a chain mirrors adding it.** -/
theorem Mirrors.finishChain {stages : List Stage}
    (h : Mirrors programs draft.microOps.size draft other)
    (hwritten : Written programs draft stages later) :
    let closed := later.finishChain programs draft.microOps.size
    Mirrors programs closed.microOps.size closed (other.addChain ProgramStore.place stages) := by
  intro closed
  have hlater := h.written hwritten
  constructor
  · exact Nat.le_refl _
  · exact hlater.ready
  · exact hlater.otherReady
  · exact hlater.steps
  · rw [supplied_size, addChain, hlater.microOps]
    rfl

/-- Entries are not looked at. -/
theorem Mirrors.withEntries (h : Mirrors programs start draft other)
    (entries others : Array (Option TableEntry)) :
    Mirrors programs start { draft with entries := entries } { other with entries := others } :=
  ⟨h.begun, h.ready, h.otherReady, h.steps, h.microOps⟩

end Tables.Draft

end M68k
