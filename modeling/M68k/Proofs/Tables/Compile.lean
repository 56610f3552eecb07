import M68k.Proofs.Encoding.Forms
import M68k.Proofs.Tables.Placement
import M68k.Proofs.Tables.ReadBack

/-!
# Compiled tables

Opcodes are compiled one after the other into drafts that only grow. What a draft holds stays
readable in every later one, so that in the end all chains and all bus programs read back to what
they were made from, whether programs are shared or not.

## Main definitions

* `Tables.Draft.Chains`: the chain of some stages begins at a micro-operation
* `Tables.Draft.Covers`: the first opcodes are compiled
* `FixedPrograms.Held`: the fixed programs are stored
* `Tables.compileWith`: tables with placements of their own for fixed programs and for stages

## Main results

* `Tables.realizes_compileWith`: faithful placements make tables that realize their forms
* `Tables.realizes_compile`: the tables of the instruction set realize its forms
-/

namespace M68k

namespace Tables

/-! ## Drafts -/

namespace Draft

variable {draft later : Draft} {place : Placement}

/-- `later` has grown from `draft`, each array at its end. -/
structure GrownTo (draft later : Draft) : Prop where
  store : draft.store.GrownTo later.store
  microOps : draft.microOps.toList <+: later.microOps.toList
  entries : draft.entries.toList <+: later.entries.toList

theorem GrownTo.refl (draft : Draft) : draft.GrownTo draft :=
  ⟨.refl _, List.prefix_rfl, List.prefix_rfl⟩

theorem GrownTo.trans {latest : Draft} (h : draft.GrownTo later) (h' : later.GrownTo latest) :
    draft.GrownTo latest :=
  ⟨h.store.trans h'.store, h.microOps.trans h'.microOps, h.entries.trans h'.entries⟩

theorem GrownTo.microOp {start : Nat} {op : MicroOp} (h : draft.GrownTo later)
    (hop : draft.microOps[start]? = some op) : later.microOps[start]? = some op := by
  obtain ⟨added, hadded⟩ := h.microOps
  rw [← Array.getElem?_toList] at hop ⊢
  have hlt := (List.getElem?_eq_some_iff.mp hop).1
  rw [← hadded, List.getElem?_append_left hlt, hop]

/-- The chain of `stages` begins at a micro-operation, and its bus programs are stored. -/
def Chains (draft : Draft) : Nat → List Stage → Prop
  | start, [] => draft.microOps[start]? = some .terminal
  | start, stage :: stages =>
    (∃ offset, draft.microOps[start]? = some ⟨stage.action, stage.target, some offset⟩ ∧
      draft.store.Holds offset stage.activity.toProgram) ∧ draft.Chains (start + 1) stages

theorem Chains.mono {start : Nat} {stages : List Stage} (h : draft.Chains start stages)
    (hgrown : draft.GrownTo later) : later.Chains start stages := by
  induction stages generalizing start with
  | nil => exact hgrown.microOp h
  | cons stage stages ih =>
    obtain ⟨⟨offset, hop, hheld⟩, hrest⟩ := h
    exact ⟨⟨offset, hgrown.microOp hop, hheld.mono hgrown.store⟩, ih hrest⟩

theorem grownTo_push (draft : Draft) (op : MicroOp) :
    draft.GrownTo { draft with microOps := draft.microOps.push op } :=
  ⟨.refl _, by simp, List.prefix_rfl⟩

variable (hplace : place.Faithful)

include hplace

theorem grownTo_addStage (draft : Draft) (stage : Stage) :
    draft.GrownTo (draft.addStage place stage) :=
  ⟨hplace.grownTo _ _, by simp [addStage], List.prefix_rfl⟩

theorem sound_addStage (h : draft.store.Sound) (stage : Stage) :
    (draft.addStage place stage).store.Sound :=
  hplace.sound h _

theorem grownTo_addChain (draft : Draft) (stages : List Stage) :
    draft.GrownTo (draft.addChain place stages) := by
  induction stages generalizing draft with
  | nil => exact grownTo_push draft _
  | cons stage stages ih =>
    exact (grownTo_addStage hplace draft stage).trans (ih (draft.addStage place stage))

theorem sound_addChain (h : draft.store.Sound) (stages : List Stage) :
    (draft.addChain place stages).store.Sound := by
  induction stages generalizing draft with
  | nil => exact h
  | cons stage stages ih => exact ih (sound_addStage hplace h stage)

/-- The chain that is added begins where the micro-operations ended before. -/
theorem chains_addChain (h : draft.store.Sound) (stages : List Stage) :
    (draft.addChain place stages).Chains draft.microOps.size stages := by
  induction stages generalizing draft with
  | nil => simp [addChain, Chains]
  | cons stage stages ih =>
    have hrest := ih (sound_addStage hplace h stage)
    have hgrown := grownTo_addChain hplace (draft.addStage place stage) stages
    refine ⟨⟨(place draft.store stage.activity.toProgram).1, ?_, ?_⟩, ?_⟩
    · exact hgrown.microOp (by simp [addStage])
    · exact (hplace.holds h stage.activity.toProgram).mono hgrown.store
    · have hsize : (draft.addStage place stage).microOps.size = draft.microOps.size + 1 := by
        simp [addStage]
      rwa [hsize] at hrest

omit hplace

theorem entries_addChain (draft : Draft) (stages : List Stage) :
    (draft.addChain place stages).entries = draft.entries := by
  induction stages generalizing draft with
  | nil => rfl
  | cons stage stages ih => exact ih (draft.addStage place stage)

/-- The draft with the entry of a legal opcode, whose chain is not there yet. -/
def withEntry (draft : Draft) (instruction : Instruction) : Draft :=
  { draft with entries := draft.entries.push (some ⟨instruction, draft.microOps.size⟩) }

theorem addOpcode_some (draft : Draft) (recipe : Recipe) :
    draft.addOpcode place (some recipe) =
      (draft.withEntry recipe.instruction).addChain place recipe.stages := rfl

theorem grownTo_withEntry (draft : Draft) (instruction : Instruction) :
    draft.GrownTo (draft.withEntry instruction) :=
  ⟨.refl _, List.prefix_rfl, by simp [withEntry]⟩

/-- An entry reads back to a recipe. -/
def Reads (draft : Draft) : Option TableEntry → Option Recipe → Prop :=
  Option.Rel fun entry recipe =>
    entry.instruction = recipe.instruction ∧ draft.Chains entry.start recipe.stages

theorem Reads.mono {entry : Option TableEntry} {recipe : Option Recipe}
    (h : draft.Reads entry recipe) (hgrown : draft.GrownTo later) : later.Reads entry recipe := by
  cases h with
  | none => exact .none
  | some h => exact .some ⟨h.1, h.2.mono hgrown⟩

/-- The first `count` opcodes are compiled. -/
structure Covers (draft : Draft) (forms : List Form) (count : Nat) : Prop where
  sound : draft.store.Sound
  size : draft.entries.size = count
  entry : ∀ k < count, ∃ entry, draft.entries[k]? = some entry ∧
    draft.Reads entry (decode? forms (BitVec.ofNat 16 k))

include hplace

theorem grownTo_addOpcode (draft : Draft) (recipe : Option Recipe) :
    draft.GrownTo (draft.addOpcode place recipe) := by
  cases recipe with
  | none => exact ⟨.refl _, List.prefix_rfl, by simp [addOpcode]⟩
  | some recipe =>
    rw [addOpcode_some]
    exact (grownTo_withEntry draft _).trans (grownTo_addChain hplace _ recipe.stages)

/-- Compiling an opcode adds an entry that reads back to its recipe. -/
theorem reads_addOpcode (h : draft.store.Sound) (recipe : Option Recipe) :
    ∃ entry, (draft.addOpcode place recipe).entries = draft.entries.push entry ∧
      (draft.addOpcode place recipe).Reads entry recipe := by
  cases recipe with
  | none => exact ⟨none, rfl, .none⟩
  | some recipe =>
    rw [addOpcode_some]
    have hchain : ((draft.withEntry recipe.instruction).addChain place recipe.stages).Chains
        draft.microOps.size recipe.stages := by
      have hsound : (draft.withEntry recipe.instruction).store.Sound := h
      exact chains_addChain hplace hsound recipe.stages
    exact ⟨_, entries_addChain _ recipe.stages, .some ⟨rfl, hchain⟩⟩

theorem sound_addOpcode (h : draft.store.Sound) (recipe : Option Recipe) :
    (draft.addOpcode place recipe).store.Sound := by
  cases recipe with
  | none => exact h
  | some recipe =>
    rw [addOpcode_some]
    have hsound : (draft.withEntry recipe.instruction).store.Sound := h
    exact sound_addChain hplace hsound recipe.stages

theorem Covers.addOpcode {forms : List Form} {count : Nat} (h : draft.Covers forms count) :
    (draft.addOpcode place (decode? forms (BitVec.ofNat 16 count))).Covers forms (count + 1) := by
  obtain ⟨added, hentries, hreads⟩ :=
    reads_addOpcode hplace h.sound (decode? forms (BitVec.ofNat 16 count))
  refine ⟨sound_addOpcode hplace h.sound _, by rw [hentries, Array.size_push, h.size], ?_⟩
  intro k hk
  rw [hentries]
  rcases Nat.lt_succ_iff_lt_or_eq.mp hk with hlt | rfl
  · obtain ⟨entry, hentry, hold⟩ := h.entry k hlt
    refine ⟨entry, ?_, hold.mono (grownTo_addOpcode hplace _ _)⟩
    rw [Array.getElem?_push_lt (by rw [h.size]; exact hlt)]
    simpa [Array.getElem?_eq_getElem, h.size, hlt] using hentry
  · exact ⟨added, by simp [← h.size], hreads⟩

/-- Compiling opcodes in increasing order covers them all. -/
theorem covers_foldl {forms : List Form} (h : draft.Covers forms 0) (count : Nat) :
    ((List.range count).foldl
      (fun draft n => draft.addOpcode place (decode? forms (BitVec.ofNat 16 n)))
      draft).Covers forms count ∧
    draft.GrownTo ((List.range count).foldl
      (fun draft n => draft.addOpcode place (decode? forms (BitVec.ofNat 16 n))) draft) := by
  induction count with
  | zero => exact ⟨h, .refl draft⟩
  | succ count ih =>
    rw [List.range_succ, List.foldl_append, List.foldl_cons, List.foldl_nil]
    exact ⟨ih.1.addOpcode hplace, ih.2.trans (grownTo_addOpcode hplace _ _)⟩

omit hplace

/-! ## Compiled tables -/

/-- The tables that a draft becomes. -/
def toTables (draft : Draft) (programs : FixedPrograms) : Tables :=
  ⟨draft.store.steps, draft.microOps, draft.entries, programs⟩

/-- A stored program reads back to its activity. -/
theorem activityAt_toTables {programs : FixedPrograms} {offset : Nat} {activity : Activity}
    (hopen : activity.Open) (h : draft.store.Holds offset activity.toProgram) :
    (draft.toTables programs).activityAt offset = activity := by
  obtain ⟨rest, hrest⟩ := h
  have hopen' : ∀ step ∈ activity, (!step.isTerminal) = true := by
    intro step hstep
    simp [hopen step hstep]
  rw [activityAt, toTables, ← hrest, Activity.toProgram, List.append_assoc,
    List.takeWhile_append_of_pos hopen', List.singleton_append, List.takeWhile_cons_of_neg]
  · simp
  · simp [BusStep.sentinel, BusStep.isTerminal]

theorem microOp_toTables {programs : FixedPrograms} {start : Nat} {op : MicroOp}
    (h : draft.microOps[start]? = some op) : (draft.toTables programs).microOp start = op := by
  obtain ⟨hlt, rfl⟩ := Array.getElem?_eq_some_iff.mp h
  simp [microOp, toTables, Array.getD, hlt]

/-- A stored chain reads back to its stages. -/
theorem stagesAt_toTables {programs : FixedPrograms} {start : Nat} {stages : List Stage}
    (hopen : ∀ stage ∈ stages, stage.activity.Open) (h : draft.Chains start stages) :
    (draft.toTables programs).stagesAt start = stages := by
  induction stages generalizing start with
  | nil =>
    apply stagesAt_eq_nil
    rw [microOp_toTables h]
    rfl
  | cons stage stages ih =>
    obtain ⟨⟨offset, hop, hheld⟩, hrest⟩ := h
    have hrest' := ih (fun stage hstage => hopen stage (List.mem_cons_of_mem _ hstage)) hrest
    have hactivity : (draft.toTables programs).activityAt offset = stage.activity :=
      activityAt_toTables (hopen stage List.mem_cons_self) hheld
    rw [stagesAt_eq_cons, microOp_toTables hop, hrest', stageOf]
    · simp only [Option.getD_some, hactivity]
    · rw [microOp_toTables hop]
      rfl

end Draft

end Tables

/-! ## Fixed programs -/

namespace FixedPrograms

/-- Each fixed program is stored at its offset. -/
structure Held (programs : FixedPrograms) (store : ProgramStore) : Prop where
  empty : store.Holds programs.empty (Activity.toProgram [])
  reset : store.Holds programs.reset resetActivity.toProgram
  branchTaken : store.Holds programs.branchTaken (Activity.toProgram (.idle 4 ++ .fetch ++ .fetch))
  branchByteNotTaken : store.Holds programs.branchByteNotTaken (Activity.toProgram (.idle 8 ++ .fetch))
  branchWordNotTaken :
    store.Holds programs.branchWordNotTaken (Activity.toProgram (.idle 8 ++ .fetch ++ .fetch))
  subroutine : store.Holds programs.subroutine (Activity.toProgram (.fetch ++ .fetch))
  loopExpired :
    store.Holds programs.loopExpired
      (Activity.toProgram (.idle 4 ++ expiredLoopRead ++ .fetch ++ .fetch))
  listRead : store.Holds programs.listRead (listTransfers true (maxListWords + 1)).toProgram
  listWrite : store.Holds programs.listWrite (listTransfers false maxListWords).toProgram
  exception : store.Holds programs.exception exceptionActivity.toProgram
  interrupt : store.Holds programs.interrupt interruptActivity.toProgram
  popFrame : store.Holds programs.popFrame Encoding.popFrame.toProgram
  loopLeft_eq : programs.loopLeft = programs.branchWordNotTaken
  loopTaken_eq : programs.loopTaken = programs.branchTaken

theorem Held.mono {programs : FixedPrograms} {store later : ProgramStore} (h : programs.Held store)
    (hgrown : store.GrownTo later) : programs.Held later where
  empty := h.empty.mono hgrown
  reset := h.reset.mono hgrown
  branchTaken := h.branchTaken.mono hgrown
  branchByteNotTaken := h.branchByteNotTaken.mono hgrown
  branchWordNotTaken := h.branchWordNotTaken.mono hgrown
  subroutine := h.subroutine.mono hgrown
  loopExpired := h.loopExpired.mono hgrown
  listRead := h.listRead.mono hgrown
  listWrite := h.listWrite.mono hgrown
  exception := h.exception.mono hgrown
  interrupt := h.interrupt.mono hgrown
  popFrame := h.popFrame.mono hgrown
  loopLeft_eq := h.loopLeft_eq
  loopTaken_eq := h.loopTaken_eq

variable {placement : Placement}

/-- Placing one more program keeps a sound store sound and what it holds in place. -/
theorem exists_placed (hplace : placement.Faithful) {store : ProgramStore} (h : store.Sound)
    (program : List BusStep) :
    ∃ offset later, placement store program = (offset, later) ∧ later.Sound ∧
      store.GrownTo later ∧ later.Holds offset program :=
  ⟨_, _, rfl, hplace.sound h program, hplace.grownTo store program, hplace.holds h program⟩

theorem held_place (hplace : placement.Faithful) {store : ProgramStore} (h : store.Sound) :
    (place placement store).2.Sound ∧
      (place placement store).1.Held (place placement store).2 := by
  -- twelve programs are placed, one after the other
  obtain ⟨o₁, s₁, e₁, h₁, -, p₁⟩ := exists_placed hplace h (Activity.toProgram [])
  obtain ⟨o₂, s₂, e₂, h₂, g₂, p₂⟩ := exists_placed hplace h₁ resetActivity.toProgram
  obtain ⟨o₃, s₃, e₃, h₃, g₃, p₃⟩ :=
    exists_placed hplace h₂ (Activity.toProgram (.idle 4 ++ .fetch ++ .fetch))
  obtain ⟨o₄, s₄, e₄, h₄, g₄, p₄⟩ :=
    exists_placed hplace h₃ (Activity.toProgram (.idle 8 ++ .fetch))
  obtain ⟨o₅, s₅, e₅, h₅, g₅, p₅⟩ :=
    exists_placed hplace h₄ (Activity.toProgram (.idle 8 ++ .fetch ++ .fetch))
  obtain ⟨o₆, s₆, e₆, h₆, g₆, p₆⟩ :=
    exists_placed hplace h₅ (Activity.toProgram (.fetch ++ .fetch))
  obtain ⟨o₇, s₇, e₇, h₇, g₇, p₇⟩ :=
    exists_placed hplace h₆ (Activity.toProgram (.idle 4 ++ expiredLoopRead ++ .fetch ++ .fetch))
  obtain ⟨o₈, s₈, e₈, h₈, g₈, p₈⟩ :=
    exists_placed hplace h₇ (listTransfers true (maxListWords + 1)).toProgram
  obtain ⟨o₉, s₉, e₉, h₉, g₉, p₉⟩ :=
    exists_placed hplace h₈ (listTransfers false maxListWords).toProgram
  obtain ⟨o₁₀, s₁₀, e₁₀, h₁₀, g₁₀, p₁₀⟩ := exists_placed hplace h₉ exceptionActivity.toProgram
  obtain ⟨o₁₁, s₁₁, e₁₁, h₁₁, g₁₁, p₁₁⟩ := exists_placed hplace h₁₀ interruptActivity.toProgram
  obtain ⟨o₁₂, s₁₂, e₁₂, h₁₂, g₁₂, p₁₂⟩ := exists_placed hplace h₁₁ Encoding.popFrame.toProgram
  simp only [place, e₁, e₂, e₃, e₄, e₅, e₆, e₇, e₈, e₉, e₁₀, e₁₁, e₁₂]
  have g₁₁' := g₁₂
  have g₁₀' := g₁₁.trans g₁₁'
  have g₉' := g₁₀.trans g₁₀'
  have g₈' := g₉.trans g₉'
  have g₇' := g₈.trans g₈'
  have g₆' := g₇.trans g₇'
  have g₅' := g₆.trans g₆'
  have g₄' := g₅.trans g₅'
  have g₃' := g₄.trans g₄'
  have g₂' := g₃.trans g₃'
  have g₁' := g₂.trans g₂'
  refine ⟨h₁₂, ?_⟩
  constructor
  · exact p₁.mono g₁'
  · exact p₂.mono g₂'
  · exact p₃.mono g₃'
  · exact p₄.mono g₄'
  · exact p₅.mono g₅'
  · exact p₆.mono g₆'
  · exact p₇.mono g₇'
  · exact p₈.mono g₈'
  · exact p₉.mono g₉'
  · exact p₁₀.mono g₁₀'
  · exact p₁₁.mono g₁₁'
  · exact p₁₂
  · rfl
  · rfl

end FixedPrograms

/-! ## Openness -/

namespace Activity

theorem open_transfer (read isProgram : Bool) (width : Width) (address : AddressSource)
    (slot : DataSlot) {action : StepAction} (h : action ≠ .endProgram) :
    (transfer read isProgram width address slot action).Open := by
  simp [Open, transfer, BusStep.isTerminal, h]

end Activity

namespace FixedPrograms

theorem open_listTransfers (read : Bool) (count : Nat) : (listTransfers read count).Open := by
  induction count with
  | zero => simp [listTransfers, Activity.Open]
  | succ count ih =>
    rw [listTransfers, List.replicate_succ, List.flatten_cons]
    exact (Activity.open_transfer _ _ _ _ _ (by decide)).append ih

end FixedPrograms

/-! ## The result -/

namespace Tables

namespace Draft

variable {draft : Draft} {programs : FixedPrograms} {forms : List Form}

theorem entry?_toTables {opcode : Word} {entry : Option TableEntry}
    (h : draft.entries[opcode.toNat]? = some entry) :
    Tables.entry? (draft.toTables programs) opcode = entry := by
  obtain ⟨hlt, rfl⟩ := Array.getElem?_eq_some_iff.mp h
  unfold entry?
  simp [toTables, Array.getD, hlt]

/-- An opcode that is covered reads back to its recipe. -/
theorem recipe?_toTables {count : Nat} (h : draft.Covers forms count)
    (hopen : ∀ opcode recipe, decode? forms opcode = some recipe → recipe.Open) {opcode : Word}
    (hlt : opcode.toNat < count) :
    (draft.toTables programs).recipe? opcode = decode? forms opcode := by
  obtain ⟨entry, hentry, hreads⟩ := h.entry opcode.toNat hlt
  rw [BitVec.ofNat_toNat, BitVec.setWidth_eq] at hreads
  rw [recipe?, entry?_toTables hentry]
  cases hdecoded : decode? forms opcode with
  | none =>
    rw [hdecoded] at hreads
    cases hreads
    rfl
  | some recipe =>
    rw [hdecoded] at hreads
    cases hreads with
    | some h =>
      obtain ⟨hinstruction, hchain⟩ := h
      rw [Option.map_some, hinstruction,
        stagesAt_toTables (hopen opcode recipe hdecoded) hchain]

/-- The tables of a draft that covers every opcode and holds the fixed programs realize the
forms. -/
theorem realizes_toTables (h : draft.Covers forms 0x10000) (hheld : programs.Held draft.store)
    (hopen : ∀ opcode recipe, decode? forms opcode = some recipe → recipe.Open) :
    (draft.toTables programs).Realizes forms where
  recipe opcode := recipe?_toTables h hopen opcode.isLt
  empty := activityAt_toTables (by decide) hheld.empty
  reset := activityAt_toTables (by decide) hheld.reset
  branchTaken := activityAt_toTables (by decide) hheld.branchTaken
  branchByteNotTaken := activityAt_toTables (by decide) hheld.branchByteNotTaken
  branchWordNotTaken := activityAt_toTables (by decide) hheld.branchWordNotTaken
  subroutine := activityAt_toTables (by decide) hheld.subroutine
  loopLeft := activityAt_toTables (by decide) (hheld.loopLeft_eq ▸ hheld.branchWordNotTaken)
  loopExpired := activityAt_toTables (by decide) hheld.loopExpired
  loopTaken := activityAt_toTables (by decide) (hheld.loopTaken_eq ▸ hheld.branchTaken)
  listRead := activityAt_toTables (FixedPrograms.open_listTransfers _ _) hheld.listRead
  listWrite := activityAt_toTables (FixedPrograms.open_listTransfers _ _) hheld.listWrite
  exception := activityAt_toTables (by decide) hheld.exception
  interrupt := activityAt_toTables (by decide) hheld.interrupt
  popFrame := activityAt_toTables (by decide) hheld.popFrame

end Draft

/-! ### Compiled tables -/

/-- The tables of a list of forms. The fixed programs are put into the store by `fixed`, those of
stages by `place`. -/
def compileWith (fixed place : Placement) (forms : List Form) : Tables :=
  let (programs, store) := FixedPrograms.place fixed .empty
  let draft := (List.range 0x10000).foldl
    (fun draft n => draft.addOpcode place (decode? forms (BitVec.ofNat 16 n)))
    (Draft.mk store #[] #[])
  draft.toTables programs

theorem compileBy_eq (place : Placement) (forms : List Form) :
    compileBy place forms = compileWith place place forms := rfl

variable {fixed place : Placement}

/-- Compiled tables are made from a draft that covers every opcode and holds the fixed programs. -/
theorem exists_draft (hfixed : fixed.Faithful) (hplace : place.Faithful) (forms : List Form) :
    ∃ (draft : Draft) (programs : FixedPrograms),
      compileWith fixed place forms = draft.toTables programs ∧ draft.Covers forms 0x10000 ∧
        programs.Held draft.store := by
  obtain ⟨hsound, hheld⟩ := FixedPrograms.held_place hfixed ProgramStore.sound_empty
  rw [compileWith]
  generalize FixedPrograms.place fixed .empty = placed at hsound hheld
  obtain ⟨programs, store⟩ := placed
  have hstart : (Draft.mk store #[] #[]).Covers forms 0 :=
    ⟨hsound, rfl, fun k hk => absurd hk (Nat.not_lt_zero k)⟩
  obtain ⟨hcovers, hgrown⟩ := Draft.covers_foldl hplace hstart 0x10000
  exact ⟨_, programs, rfl, hcovers, hheld.mono hgrown.store⟩

/-- **Compiled tables read back.** With faithful placements, the tables of open forms hold for each
opcode the recipe of the first form that accepts it, and the fixed programs. -/
theorem realizes_compileWith (hfixed : fixed.Faithful) (hplace : place.Faithful)
    {forms : List Form}
    (hopen : ∀ opcode recipe, decode? forms opcode = some recipe → recipe.Open) :
    (compileWith fixed place forms).Realizes forms := by
  obtain ⟨draft, programs, htables, hcovers, hheld⟩ := exists_draft hfixed hplace forms
  rw [htables]
  exact Draft.realizes_toTables hcovers hheld hopen

/-- **The tables of the instruction set read back.** -/
theorem realizes_compile : (compile forms).Realizes forms :=
  realizes_compileWith ProgramStore.place_faithful ProgramStore.place_faithful
    fun _ _ h => (wellFormed_of_decode? h).isOpen

end Tables

end M68k
