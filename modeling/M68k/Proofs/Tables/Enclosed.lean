import M68k.Proofs.Tables.Compile

/-!
# Enclosed tables

The processor goes from step to step and from micro-operation to micro-operation without looking
where the tables end. It need not look: from every place that it can be sent to, an end of a bus
program or of a chain comes first.

## Main definitions

* `Tables.Ends`: a bus program ends inside the table of steps
* `Tables.Chain`, `Tables.OnChain`: a chain inside the table of micro-operations, and a place on it
* `Tables.Enclosed`: all that the processor is sent to is inside the tables

## Main results

* `Tables.enclosed_compile`: the tables of the instruction set are enclosed
-/

namespace M68k

namespace Tables

variable {tables : Tables}

/-! ## Places inside the tables -/

variable (tables) in
/-- The offset is inside the table of steps, and so is an end of a program at it or behind it. -/
def Ends (offset : Nat) : Prop :=
  ∃ stop, offset ≤ stop ∧ stop < tables.steps.size ∧ (tables.step stop).isTerminal

theorem Ends.lt_size {offset : Nat} (h : tables.Ends offset) : offset < tables.steps.size := by
  obtain ⟨stop, hle, hinside, -⟩ := h
  exact Nat.lt_of_le_of_lt hle hinside

/-- Behind a step that ends no program the table goes on. -/
theorem Ends.succ {offset : Nat} (h : tables.Ends offset)
    (hopen : (tables.step offset).isTerminal = false) : tables.Ends (offset + 1) := by
  obtain ⟨stop, hle, hinside, hterminal⟩ := h
  refine ⟨stop, Nat.lt_of_le_of_ne hle ?_, hinside, hterminal⟩
  rintro rfl
  simp [hopen] at hterminal

variable (tables) in
/-- A chain of micro-operations goes from `start` to its end at `stop`, and all its bus programs end
inside the table of steps. -/
structure Chain (start stop : Nat) : Prop where
  order : start ≤ stop
  inside : stop < tables.microOps.size
  last : (tables.microOp stop).isTerminal
  programs : ∀ k, start ≤ k → k < stop →
    ∃ offset, (tables.microOp k).program = some offset ∧ tables.Ends offset

variable (tables) in
/-- The micro-operation at `offset` belongs to the chain that begins at `start`. -/
def OnChain (start offset : Nat) : Prop :=
  ∃ stop, tables.Chain start stop ∧ start ≤ offset ∧ offset ≤ stop

namespace OnChain

variable {start offset : Nat}

theorem lt_size (h : tables.OnChain start offset) : offset < tables.microOps.size := by
  obtain ⟨stop, hchain, -, hle⟩ := h
  exact Nat.lt_of_le_of_lt hle hchain.inside

/-- Where a chain has not ended it goes on. -/
theorem succ (h : tables.OnChain start offset)
    (hgoes : (tables.microOp offset).isTerminal = false) : tables.OnChain start (offset + 1) := by
  obtain ⟨stop, hchain, hstart, hle⟩ := h
  refine ⟨stop, hchain, Nat.le_succ_of_le hstart, Nat.lt_of_le_of_ne hle ?_⟩
  rintro rfl
  simp [hchain.last] at hgoes

/-- Bus programs of a chain end inside the table of steps. -/
theorem ends {program : Nat} (h : tables.OnChain start offset)
    (hprogram : (tables.microOp offset).program = some program) : tables.Ends program := by
  obtain ⟨stop, hchain, hstart, hle⟩ := h
  have hne : offset ≠ stop := by
    rintro rfl
    have hlast := hchain.last
    simp [MicroOp.isTerminal, hprogram] at hlast
  obtain ⟨found, hfound, hends⟩ := hchain.programs offset hstart (Nat.lt_of_le_of_ne hle hne)
  rw [hprogram, Option.some_inj] at hfound
  exact hfound ▸ hends

end OnChain

/-! ## Tables without a way out -/

variable (tables) in
/-- There is an entry for every opcode, each chain ends inside its table, and so does each fixed
program, wherever it may be entered. -/
structure Enclosed : Prop where
  entries : tables.entries.size = 0x10000
  chain : ∀ {opcode entry}, tables.entry? opcode = some entry →
    ∃ stop, tables.Chain entry.start stop
  empty : tables.Ends tables.programs.empty
  reset : tables.Ends tables.programs.reset
  branchTaken : tables.Ends tables.programs.branchTaken
  branchByteNotTaken : tables.Ends tables.programs.branchByteNotTaken
  branchWordNotTaken : tables.Ends tables.programs.branchWordNotTaken
  subroutine : tables.Ends tables.programs.subroutine
  loopLeft : tables.Ends tables.programs.loopLeft
  loopExpired : tables.Ends tables.programs.loopExpired
  loopTaken : tables.Ends tables.programs.loopTaken
  listRead : ∀ words, tables.Ends (FixedPrograms.listEntry tables.programs.listRead words)
  listWrite : ∀ words, tables.Ends (FixedPrograms.listEntry tables.programs.listWrite words)
  exception : tables.Ends tables.programs.exception
  interrupt : tables.Ends tables.programs.interrupt

/-- A chain is entered at its start. -/
theorem Enclosed.onChain (h : tables.Enclosed) {opcode : Word} {entry : TableEntry}
    (hentry : tables.entry? opcode = some entry) : tables.OnChain entry.start entry.start := by
  obtain ⟨stop, hchain⟩ := h.chain hentry
  exact ⟨stop, hchain, Nat.le_refl _, hchain.order⟩

namespace Draft

variable {draft : Draft} {programs : FixedPrograms}

/-- A stored program ends inside the table, also if it is entered part-way along. -/
theorem ends_toTables {offset skipped : Nat} {activity : Activity}
    (h : draft.store.Holds offset activity.toProgram) (hskipped : skipped ≤ activity.length) :
    (draft.toTables programs).Ends (offset + skipped) := by
  obtain ⟨rest, hrest⟩ := h
  have hlength := congrArg List.length hrest
  simp only [Activity.toProgram, List.length_append, List.length_cons, List.length_nil,
    List.length_drop, Array.length_toList] at hlength
  have hinside : offset + activity.length < draft.store.steps.size := by omega
  refine ⟨offset + activity.length, by omega, hinside, ?_⟩
  have hsentinel : draft.store.steps[offset + activity.length] = .sentinel := by
    have hget := congrArg (·[activity.length]?) hrest
    simp only [Activity.toProgram, List.append_assoc, List.getElem?_append_right (Nat.le_refl _),
      Nat.sub_self, List.singleton_append, List.getElem?_cons_zero, List.getElem?_drop] at hget
    rw [Array.getElem?_toList, Array.getElem?_eq_getElem hinside, Option.some_inj] at hget
    exact hget.symm
  have hstep : (draft.toTables programs).step (offset + activity.length) = .sentinel := by
    simp [step, toTables, Array.getD, hinside, hsentinel]
  rw [hstep]
  rfl

/-- A stored chain ends inside the table. -/
theorem chain_toTables {start : Nat} {stages : List Stage} (h : draft.Chains start stages) :
    (draft.toTables programs).Chain start (start + stages.length) := by
  induction stages generalizing start with
  | nil =>
    refine ⟨Nat.le_refl _, (Array.getElem?_eq_some_iff.mp h).1, ?_, fun k hle hlt => ?_⟩
    · rw [List.length_nil, Nat.add_zero, microOp_toTables h]
      rfl
    · exact absurd hlt (Nat.not_lt_of_le hle)
  | cons stage stages ih =>
    obtain ⟨⟨offset, hop, hheld⟩, hrest⟩ := h
    have hchain := ih hrest
    have hstop : start + 1 + stages.length = start + (stage :: stages).length := by
      rw [List.length_cons, Nat.add_right_comm, Nat.add_assoc]
    rw [hstop] at hchain
    refine ⟨Nat.le_add_right _ _, hchain.inside, hchain.last, fun k hle hlt => ?_⟩
    rcases Nat.eq_or_lt_of_le hle with rfl | hbehind
    · exact ⟨offset, congrArg MicroOp.program (microOp_toTables hop),
        ends_toTables hheld (Nat.zero_le _)⟩
    · exact hchain.programs k hbehind hlt

/-- The tables of a draft that covers every opcode and holds the fixed programs are enclosed. -/
theorem enclosed_toTables {forms : List Form} (h : draft.Covers forms 0x10000)
    (hheld : programs.Held draft.store) : (draft.toTables programs).Enclosed := by
  have hends {offset : Nat} {activity : Activity}
      (hstored : draft.store.Holds offset activity.toProgram) :
      (draft.toTables programs).Ends offset :=
    ends_toTables hstored (Nat.zero_le _)
  have hlist {program count : Nat} {read : Bool} (words : Nat)
      (hstored : draft.store.Holds program (FixedPrograms.listTransfers read count).toProgram)
      (hroom : FixedPrograms.maxListWords ≤ count) :
      (draft.toTables programs).Ends (FixedPrograms.listEntry program words) := by
    refine ends_toTables hstored ?_
    rw [length_listTransfers]
    omega
  exact
    { entries := h.size
      chain := fun {opcode entry} hentry => by
        obtain ⟨found, hfound, hreads⟩ := h.entry opcode.toNat opcode.isLt
        rw [entry?_toTables hfound] at hentry
        subst hentry
        generalize decode? forms _ = recipe at hreads
        cases hreads with
        | some hrecipe => exact ⟨_, chain_toTables hrecipe.2⟩
      empty := hends hheld.empty
      reset := hends hheld.reset
      branchTaken := hends hheld.branchTaken
      branchByteNotTaken := hends hheld.branchByteNotTaken
      branchWordNotTaken := hends hheld.branchWordNotTaken
      subroutine := hends hheld.subroutine
      loopLeft := hends (hheld.loopLeft_eq ▸ hheld.branchWordNotTaken)
      loopExpired := hends hheld.loopExpired
      loopTaken := hends (hheld.loopTaken_eq ▸ hheld.branchTaken)
      listRead := fun words => hlist words hheld.listRead (Nat.le_succ _)
      listWrite := fun words => hlist words hheld.listWrite (Nat.le_refl _)
      exception := hends hheld.exception
      interrupt := hends hheld.interrupt }

end Draft

/-- **The tables of the instruction set are enclosed.** -/
theorem enclosed_compile : (compile forms).Enclosed := by
  obtain ⟨draft, programs, htables, hcovers, hheld⟩ :=
    exists_draft ProgramStore.place_faithful ProgramStore.place_faithful forms
  rw [compile, compileBy_eq, htables]
  exact Draft.enclosed_toTables hcovers hheld

end Tables

end M68k
