import M68k.Proofs.Encoding.Measured
import M68k.Proofs.Tables.Compile

/-!
# What is in the tables

Every bus step of the tables comes from a recipe or from a fixed program, or ends one. So what holds
of those holds of any step that the processor may come to.

## Main definitions

* `ProgramStore.Consists`: a property of all steps in a store
* `Placement.Frugal`: nothing else gets into the store
* `FixedPrograms.activities`: what the fixed programs do

## Main results

* `Tables.forall_step`: what holds of recipes and fixed programs holds of every step
* `Tables.keepsLane_step`: no byte goes to a register list
-/

namespace M68k

variable {P : BusStep → Prop}

/-- All steps in the store have the property. -/
def ProgramStore.Consists (P : BusStep → Prop) (store : ProgramStore) : Prop :=
  ∀ step ∈ store.steps, P step

/-- Only the program itself gets into the store. -/
def Placement.Frugal (place : Placement) : Prop :=
  ∀ (store : ProgramStore) (program : List BusStep), ∀ step ∈ (place store program).2.steps,
    step ∈ store.steps ∨ step ∈ program

namespace ProgramStore

theorem frugal_append : Placement.Frugal append := by
  intro store program step hstep
  simpa [append, ← Array.mem_toList_iff] using hstep

theorem frugal_place : Placement.Frugal place := by
  intro store program step hstep
  unfold place at hstep
  split at hstep
  · exact .inl hstep
  · cases hfound : firstOccurrence? program store.steps.toList with
    | some offset =>
      rw [hfound] at hstep
      exact .inl hstep
    | none =>
      rw [hfound] at hstep
      exact frugal_append store program step hstep

end ProgramStore

namespace Activity

/-- The program of an activity adds its end. -/
theorem forall_toProgram {activity : Activity} (hend : P .sentinel)
    (h : ∀ step ∈ activity, P step) : ∀ step ∈ activity.toProgram, P step := by
  intro step hstep
  rw [toProgram, List.mem_append, List.mem_singleton] at hstep
  rcases hstep with hstep | rfl
  · exact h step hstep
  · exact hend

end Activity

namespace Placement.Frugal

variable {place : Placement} (hplace : place.Frugal) (hend : P .sentinel)
include hplace hend

theorem consists {store : ProgramStore} (h : store.Consists P) {activity : Activity}
    (hactivity : ∀ step ∈ activity, P step) :
    (place store activity.toProgram).2.Consists P := by
  intro step hstep
  rcases hplace store _ step hstep with hold | hnew
  · exact h step hold
  · exact Activity.forall_toProgram hend hactivity step hnew

theorem consists_addChain {draft : Tables.Draft} (h : draft.store.Consists P) {stages : List Stage}
    (hstages : ∀ stage ∈ stages, ∀ step ∈ stage.activity, P step) :
    (draft.addChain place stages).store.Consists P := by
  have hadded : (stages.foldl (Tables.Draft.addStage place) draft).store.Consists P := by
    induction stages generalizing draft with
    | nil => exact h
    | cons stage stages ih =>
      obtain ⟨hstage, hstages⟩ := List.forall_mem_cons.1 hstages
      exact ih (hplace.consists hend h hstage) hstages
  exact hadded

theorem consists_addOpcode {draft : Tables.Draft} (h : draft.store.Consists P)
    {recipe : Option Recipe}
    (hrecipe : ∀ r, recipe = some r → ∀ stage ∈ r.stages, ∀ step ∈ stage.activity, P step) :
    (draft.addOpcode place recipe).store.Consists P := by
  cases recipe with
  | none => exact h
  | some recipe => exact hplace.consists_addChain hend (by exact h) (hrecipe recipe rfl)

end Placement.Frugal

namespace FixedPrograms

/-- What the fixed programs do, in the order in which they are placed. -/
def activities : List Activity :=
  [[], resetActivity, .idle 4 ++ .fetch ++ .fetch, .idle 8 ++ .fetch, .idle 8 ++ .fetch ++ .fetch,
    .fetch ++ .fetch, .idle 4 ++ expiredLoopRead ++ .fetch ++ .fetch,
    listTransfers true (maxListWords + 1), listTransfers false maxListWords, exceptionActivity,
    interruptActivity, Encoding.popFrame]

/-- The fixed programs are measured. -/
theorem measured_of_mem {activity : Activity} (h : activity ∈ activities) : activity.Measured := by
  simp only [activities, List.mem_cons, List.not_mem_nil, or_false] at h
  rcases h with rfl | rfl | rfl | rfl | rfl | rfl | rfl | rfl | rfl | rfl | rfl | rfl
  case inr.inr.inr.inr.inr.inr.inr.inl => exact measured_listTransfers _ _
  case inr.inr.inr.inr.inr.inr.inr.inr.inl => exact measured_listTransfers _ _
  all_goals decide

theorem consists_place {place : Placement} (hplace : place.Frugal) (hend : P .sentinel)
    {store : ProgramStore} (h : store.Consists P)
    (hactivities : ∀ activity ∈ activities, ∀ step ∈ activity, P step) :
    (FixedPrograms.place place store).2.Consists P := by
  simp only [activities, List.forall_mem_cons] at hactivities
  obtain ⟨h₁, h₂, h₃, h₄, h₅, h₆, h₇, h₈, h₉, h₁₀, h₁₁, h₁₂, -⟩ := hactivities
  have add {store : ProgramStore} (h : store.Consists P) {activity : Activity}
      (hactivity : ∀ step ∈ activity, P step) := hplace.consists hend h hactivity
  exact add (add (add (add (add (add (add (add (add (add (add (add h h₁) h₂) h₃) h₄) h₅) h₆) h₇)
    h₈) h₉) h₁₀) h₁₁) h₁₂

end FixedPrograms

namespace Tables

/-- What holds of recipes holds of a draft into which opcodes are compiled. -/
theorem Draft.consists_foldl (hend : P .sentinel) {forms : List Form}
    (hrecipe : ∀ opcode recipe, decode? forms opcode = some recipe →
      ∀ stage ∈ recipe.stages, ∀ step ∈ stage.activity, P step)
    {draft : Draft} (h : draft.store.Consists P) (opcodes : List Nat) :
    (opcodes.foldl (fun draft n =>
      draft.addOpcode ProgramStore.place (decode? forms (BitVec.ofNat 16 n)))
      draft).store.Consists P := by
  induction opcodes generalizing draft with
  | nil => exact h
  | cons n opcodes ih =>
    exact ih (ProgramStore.frugal_place.consists_addOpcode hend h (hrecipe _))

/-- **Every step of the tables** comes from a recipe or from a fixed program, or ends one. -/
theorem forall_step (hend : P .sentinel)
    (hfixed : ∀ activity ∈ FixedPrograms.activities, ∀ step ∈ activity, P step)
    {forms : List Form}
    (hrecipe : ∀ opcode recipe, decode? forms opcode = some recipe →
      ∀ stage ∈ recipe.stages, ∀ step ∈ stage.activity, P step) (offset : Nat) :
    P ((compile forms).step offset) := by
  have hempty : ProgramStore.empty.Consists P := by simp [ProgramStore.Consists, ProgramStore.empty]
  have hplaced : (FixedPrograms.place ProgramStore.place .empty).2.Consists P :=
    FixedPrograms.consists_place ProgramStore.frugal_place hend hempty hfixed
  have hdraft : ∃ (draft : Draft) (programs : FixedPrograms),
      compile forms = draft.toTables programs ∧ draft.store.Consists P := by
    rw [compile, compileBy_eq, compileWith]
    generalize FixedPrograms.place ProgramStore.place .empty = placed at hplaced
    obtain ⟨programs, store⟩ := placed
    have hstart : (Draft.mk store #[] #[]).store.Consists P := hplaced
    exact ⟨_, programs, rfl, Draft.consists_foldl hend hrecipe hstart (List.range 0x10000)⟩
  obtain ⟨draft, programs, htables, hsteps⟩ := hdraft
  rw [htables, step, Array.getD]
  split
  · exact hsteps _ (Array.getElem_mem _)
  · exact hend

/-- **No byte goes to a register list** in the tables. -/
theorem keepsLane_step (offset : Nat) : ((compile forms).step offset).keepsLane :=
  forall_step (by decide) (fun _ h => (FixedPrograms.measured_of_mem h).lanes)
    (fun _ _ h stage hstage => (measured_of_decode? h stage hstage).lanes) offset

end Tables

end M68k
