import M68k.Proofs.Tables.Sharing

/-!
# Decoders at work

A decoder looks at an opcode and writes its chain into the draft as it goes: each micro-operation is
appended at once, and the store assembles its bus program from a pattern. What has been assembled
stays in the store even if the opcode turns out to be illegal later on. Decoders that follow an
encoding decide first and write then.

## Main definitions

* `Decoding`: what a decoder does with the fixed programs and a draft
* `Decoding.reject`, `Decoding.demand`: give an opcode up
* `Decoding.op`, `Decoding.popFrame`, `Decoding.act`: append a micro-operation
* `Tables.Draft.Extends`, `Tables.Draft.Written`: a draft in which stages have been written down
* `Decoding.Records`: some stages are written down, whatever the draft
* `Decoding.Follows`: a decoder rejects what an encoding rejects, and writes down its recipes

## Main results

* `Decoding.Records.bind`: work that is done in turn writes its stages down in turn
* `Decoding.Follows.untouched`, `Decoding.Follows.grown`: rejected opcodes leave no trace, and
  accepted ones make the draft grow
-/

namespace M68k

/-! ## Work on a draft -/

/-- What a decoder does: given the fixed programs and a draft, it comes to a value, gives the opcode
up, or runs into a fault of a pattern. Either way it leaves a draft behind. -/
def Decoding (α : Type) : Type :=
  FixedPrograms → Tables.Draft → Except PatternError (Option α) × Tables.Draft

namespace Decoding

variable {α β : Type}

instance : Monad Decoding where
  pure value := fun _ draft => (.ok (some value), draft)
  bind work next := fun programs draft =>
    match work programs draft with
    | (.ok (some value), draft) => next value programs draft
    | (.ok none, draft) => (.ok none, draft)
    | (.error error, draft) => (.error error, draft)

/-- Give the opcode up. -/
def reject : Decoding α := fun _ draft => (.ok none, draft)

/-- Give the opcode up unless there is a value. -/
def demand : Option α → Decoding α
  | some value => pure value
  | none => reject

/-- Assemble a bus program. -/
def assemble (pattern : String) (addresses : List AddressSource) (width : Width) : Decoding Nat :=
  fun _ draft =>
    match draft.store.assemble pattern addresses width with
    | .ok (offset, store) => (.ok (some offset), { draft with store := store })
    | .error error => (.error error, draft)

/-- Append a micro-operation. -/
def push (op : MicroOp) : Decoding Unit := fun _ draft =>
  (.ok (some ()), { draft with microOps := draft.microOps.push op })

/-- Append a micro-operation with a bus program of its own. -/
def opAt (action : Action) (target : Target) (pattern : String) (addresses : List AddressSource)
    (width : Width) : Decoding Unit := do
  let program ← assemble pattern addresses width
  push ⟨action, target, some program⟩

/-- Append a micro-operation whose bus program needs no address. -/
def op (action : Action) (target : Target) (pattern : String) : Decoding Unit :=
  opAt action target pattern [] .word

/-- Append a micro-operation that pops the frame of an exception, with the fixed program for it. -/
def popFrame (action : Action) (target : Target) : Decoding Unit := fun programs =>
  push ⟨action, target, some programs.popFrame⟩ programs

/-- Append a micro-operation that has no program yet. -/
def act (action : Action) (target : Target) : Decoding Unit := push ⟨action, target, none⟩

/-- Append a micro-operation with bus activity only. -/
def bus (pattern : String) : Decoding Unit := op .none .nowhere pattern

/-- Append the micro-operation that carries out the operation. -/
def perform (pattern : String) : Decoding Unit := op .operate .nowhere pattern

/-- Idle time in front for the modes that add an index register. -/
def indexed (mode : AddressMode) (pattern : String) : String :=
  if mode.isIndexed then "n " ++ pattern else pattern

end Decoding

/-! ## What has been written -/

/-- Assembling a pattern moves nothing, whatever the indices say. -/
theorem ProgramStore.grownTo_assemble {store later : ProgramStore} {key : ProgramKey} {offset : Nat}
    (h : store.assemble key.pattern key.addresses key.width = .ok (offset, later)) :
    store.GrownTo later := by
  rw [assemble_eq] at h
  split at h
  · cases h
    exact .refl _
  · cases hparse : key.parse with
    | error error =>
      rw [hparse] at h
      cases h
    | ok program =>
      rw [hparse] at h
      cases h
      exact place_faithful.grownTo store program

namespace Tables.Draft

variable {draft next later : Draft} {programs : FixedPrograms}

/-- A stage has been written down: its micro-operation is the last one. The program of a stage
without bus activity is left open, that of a return from an exception is fixed, and any other has
been assembled from a pattern that spells it. -/
inductive Extends (programs : FixedPrograms) (draft : Draft) : Stage → Draft → Prop
  | act (action : Action) (target : Target) :
    Extends programs draft (.act action target)
      { draft with microOps := draft.microOps.push ⟨action, target, none⟩ }
  | popFrame (action : Action) (target : Target) :
    Extends programs draft ⟨action, target, Encoding.popFrame⟩
      { draft with microOps := draft.microOps.push ⟨action, target, some programs.popFrame⟩ }
  | assembled (action : Action) (target : Target) {activity : Activity} {key : ProgramKey}
    {offset : Nat} {store : ProgramStore} (hparse : key.parse = .ok activity.toProgram)
    (hstored : draft.store.assemble key.pattern key.addresses key.width = .ok (offset, store)) :
    Extends programs draft ⟨action, target, activity⟩
      ⟨store, draft.microOps.push ⟨action, target, some offset⟩, draft.entries⟩

/-- Stages have been written down, one after the other. -/
inductive Written (programs : FixedPrograms) : Draft → List Stage → Draft → Prop
  | nil (draft : Draft) : Written programs draft [] draft
  | cons {draft next later : Draft} {stage : Stage} {stages : List Stage}
    (hstage : draft.Extends programs stage next) (hrest : Written programs next stages later) :
    Written programs draft (stage :: stages) later

theorem Written.append {first second : List Stage} (h : Written programs draft first next)
    (h' : Written programs next second later) :
    Written programs draft (first ++ second) later := by
  induction h with
  | nil => exact h'
  | cons hstage _ ih => exact .cons hstage (ih h')

/-- Writing a stage down only adds to the draft. -/
theorem Extends.grownTo {stage : Stage} (h : draft.Extends programs stage next) :
    draft.GrownTo next := by
  cases h with
  | act => exact grownTo_push _ _
  | popFrame => exact grownTo_push _ _
  | assembled action target hparse hstored =>
    exact ⟨ProgramStore.grownTo_assemble hstored, by simp, List.prefix_rfl⟩

theorem Written.grownTo {stages : List Stage} (h : Written programs draft stages later) :
    draft.GrownTo later := by
  induction h with
  | nil => exact .refl _
  | cons hstage _ ih => exact hstage.grownTo.trans ih

end Tables.Draft

namespace Decoding

open Tables

variable {α β : Type} {value : α} {stages : List Stage}

/-- The work comes to a value and writes stages down, whatever the draft. -/
def Records (work : Decoding α) (value : α) (stages : List Stage) : Prop :=
  ∀ programs draft, ∃ later, work programs draft = (.ok (some value), later) ∧
    Draft.Written programs draft stages later

theorem bind_of_ok {work : Decoding α} {programs : FixedPrograms} {draft later : Draft}
    (h : work programs draft = (.ok (some value), later)) (next : α → Decoding β) :
    (work >>= next) programs draft = next value programs later := by
  change (match work programs draft with
    | (.ok (some value), draft) => next value programs draft
    | (.ok none, draft) => (.ok none, draft)
    | (.error error, draft) => (.error error, draft)) = _
  rw [h]

theorem records_pure (value : α) : Records (pure value) value [] := fun _ draft =>
  ⟨draft, rfl, .nil draft⟩

theorem Records.bind {work : Decoding α} {next : α → Decoding β} {result : β}
    {others : List Stage} (h : work.Records value stages)
    (h' : (next value).Records result others) :
    (work >>= next).Records result (stages ++ others) := by
  intro programs draft
  obtain ⟨middle, hwork, hfirst⟩ := h programs draft
  obtain ⟨later, hnext, hsecond⟩ := h' programs middle
  exact ⟨later, (bind_of_ok hwork next).trans hnext, hfirst.append hsecond⟩

/-- Work that has nothing to say, and what comes next. -/
theorem Records.andThen {work : Decoding Unit} {next : Decoding α} {others : List Stage}
    (h : work.Records () stages) (h' : next.Records value others) :
    (work >>= fun _ => next).Records value (stages ++ others) :=
  h.bind h'

/-- The last of some work, after which only the value is left to say. -/
theorem Records.last {work : Decoding Unit} (h : work.Records () stages) (value : α) :
    (work >>= fun _ => pure value).Records value stages := by
  have hlast := h.andThen (records_pure value)
  rwa [List.append_nil] at hlast

theorem records_act (action : Action) (target : Target) :
    (act action target).Records () [.act action target] := fun _ _ =>
  ⟨_, rfl, .cons (.act action target) (.nil _)⟩

theorem records_popFrame (action : Action) (target : Target) :
    (popFrame action target).Records () [⟨action, target, Encoding.popFrame⟩] := fun _ _ =>
  ⟨_, rfl, .cons (.popFrame action target) (.nil _)⟩

theorem records_opAt {pattern : String} {addresses : List AddressSource} {width : Width}
    {activity : Activity} (hparse : parsePattern pattern addresses width = .ok activity.toProgram)
    (action : Action) (target : Target) :
    (opAt action target pattern addresses width).Records () [⟨action, target, activity⟩] := by
  intro programs draft
  obtain ⟨offset, store, hstored⟩ : ∃ offset store,
      draft.store.assemble pattern addresses width = .ok (offset, store) := by
    rw [ProgramStore.assemble_eq draft.store ⟨pattern, addresses, width⟩, ProgramKey.parse]
    split
    · exact ⟨_, _, rfl⟩
    · rw [hparse]
      exact ⟨_, _, rfl⟩
  have hassembled : assemble pattern addresses width programs draft =
      (.ok (some offset), { draft with store := store }) := by
    rw [assemble, hstored]
  have hextends : draft.Extends programs ⟨action, target, activity⟩
      ⟨store, draft.microOps.push ⟨action, target, some offset⟩, draft.entries⟩ :=
    @Draft.Extends.assembled _ _ action target _ ⟨pattern, addresses, width⟩ _ _ hparse hstored
  exact ⟨_, bind_of_ok hassembled _, .cons hextends (.nil _)⟩

theorem records_op {pattern : String} {activity : Activity}
    (hparse : parsePattern pattern [] .word = .ok activity.toProgram) (action : Action)
    (target : Target) : (op action target pattern).Records () [⟨action, target, activity⟩] :=
  records_opAt hparse action target

theorem records_bus {pattern : String} {activity : Activity}
    (hparse : parsePattern pattern [] .word = .ok activity.toProgram) :
    (bus pattern).Records () [.bus activity] :=
  records_op hparse .none .nowhere

theorem records_perform {pattern : String} {activity : Activity}
    (hparse : parsePattern pattern [] .word = .ok activity.toProgram) :
    (perform pattern).Records () [.perform activity] :=
  records_op hparse .operate .nowhere

/-! ## Decoders and encodings -/

/-- A decoder follows an encoding: it gives the opcode up without having written anything, or writes
down the stages of the recipe. -/
def Follows (work : Decoding Instruction) : Option Recipe → Prop
  | none => work = reject
  | some recipe => work.Records recipe.instruction recipe.stages

theorem follows_reject : reject.Follows none := rfl

theorem Records.follows {work : Decoding Instruction} {recipe : Recipe}
    (h : work.Records recipe.instruction stages) (hstages : recipe.stages = stages) :
    work.Follows (some recipe) := by
  rw [← hstages] at h
  exact h

/-- What is demanded decides for the decoder as it does for the encoding. -/
theorem Follows.demand {choice : Option α} {next : α → Decoding Instruction}
    {encoding : α → Option Recipe}
    (h : ∀ value, choice = some value → (next value).Follows (encoding value)) :
    (demand choice >>= next).Follows (choice >>= encoding) := by
  cases choice with
  | none => rfl
  | some value => exact h value rfl

theorem Follows.ite {c : Prop} [Decidable c] {first second : Decoding Instruction}
    {recipe other : Option Recipe} (h : c → first.Follows recipe)
    (h' : ¬c → second.Follows other) :
    (if c then first else second).Follows (if c then recipe else other) := by
  split
  · exact h ‹_›
  · exact h' ‹_›

variable {work : Decoding Instruction} {recipe? : Option Recipe}

/-- **A decoder that follows an encoding leaves no trace of the opcodes it rejects.** -/
theorem Follows.untouched (h : work.Follows recipe?) (hnone : recipe? = none)
    (programs : FixedPrograms) (draft : Draft) : work programs draft = (.ok none, draft) := by
  subst hnone
  exact congrFun (congrFun h programs) draft

/-- **A decoder that follows an encoding only adds to the draft for the opcodes it accepts.** -/
theorem Follows.grown {recipe : Recipe} (h : work.Follows recipe?) (hsome : recipe? = some recipe)
    (programs : FixedPrograms) (draft : Draft) :
    ∃ later, work programs draft = (.ok (some recipe.instruction), later) ∧
      Draft.Written programs draft recipe.stages later ∧ draft.GrownTo later := by
  subst hsome
  obtain ⟨later, hwork, hwritten⟩ := h programs draft
  exact ⟨later, hwork, hwritten, hwritten.grownTo⟩

end Decoding

end M68k
