import M68k.Proofs.Tables.Compile

/-!
# Tables with other storage

Where a bus program is stored is decided by a placement: it may share the steps of another program,
or have steps of its own. The entries of opcodes do not depend on this, because a chain takes as
many micro-operations wherever their bus programs are. So tables with different placements differ
in the offsets of bus programs only.

## Main definitions

* `Tables.Relocated`: tables of the same forms that may store bus programs in different places

## Main results

* `Tables.entries_compileWith`: entries do not depend on placements
* `Tables.relocated_compileWith`: faithful placements make tables that are relocated ones of others
-/

namespace M68k.Tables

/-- Two tables that realize the same forms and have the same entries. Their bus programs may be
stored in different places. -/
structure Relocated (forms : List Form) (tables other : Tables) : Prop where
  left : tables.Realizes forms
  right : other.Realizes forms
  entry : ∀ opcode, tables.entry? opcode = other.entry? opcode

/-! ## Entries -/

namespace Draft

/-- Drafts with the same entries, and with room for the next chain at the same offset. -/
structure SameEntries (draft other : Draft) : Prop where
  entries : draft.entries = other.entries
  size : draft.microOps.size = other.microOps.size

variable {draft other : Draft} (place place' : Placement)

theorem SameEntries.addChain (h : draft.SameEntries other) (stages : List Stage) :
    (draft.addChain place stages).SameEntries (other.addChain place' stages) := by
  induction stages generalizing draft other with
  | nil => exact ⟨h.entries, by simp only [Draft.addChain, List.foldl_nil, Array.size_push, h.size]⟩
  | cons stage stages ih =>
    have hstage : (draft.addStage place stage).SameEntries (other.addStage place' stage) :=
      ⟨h.entries, by simp only [addStage, Array.size_push, h.size]⟩
    exact ih hstage

theorem SameEntries.addOpcode (h : draft.SameEntries other) (recipe : Option Recipe) :
    (draft.addOpcode place recipe).SameEntries (other.addOpcode place' recipe) := by
  cases recipe with
  | none => exact ⟨by simp only [Draft.addOpcode, h.entries], h.size⟩
  | some recipe =>
    rw [addOpcode_some, addOpcode_some]
    have hentry :
        (draft.withEntry recipe.instruction).SameEntries (other.withEntry recipe.instruction) :=
      ⟨by simp only [withEntry, h.entries, h.size], h.size⟩
    exact hentry.addChain place place' recipe.stages

theorem SameEntries.foldl (h : draft.SameEntries other) (recipes : Nat → Option Recipe)
    (numbers : List Nat) :
    (numbers.foldl (fun draft n => draft.addOpcode place (recipes n)) draft).SameEntries
      (numbers.foldl (fun draft n => draft.addOpcode place' (recipes n)) other) := by
  induction numbers generalizing draft other with
  | nil => exact h
  | cons n numbers ih => exact ih (h.addOpcode place place' (recipes n))

end Draft

variable {fixed place fixed' place' : Placement}

/-- **Entries do not depend on where bus programs are stored.** -/
theorem entries_compileWith (forms : List Form) :
    (compileWith fixed place forms).entries = (compileWith fixed' place' forms).entries := by
  have hstart (store store' : ProgramStore) :
      (Draft.mk store #[] #[]).SameEntries (Draft.mk store' #[] #[]) :=
    ⟨rfl, rfl⟩
  -- the numbers of the opcodes stay a variable, so that nothing counts them out
  obtain ⟨numbers, hnumbers⟩ : ∃ numbers, List.range 0x10000 = numbers := ⟨_, rfl⟩
  rw [compileWith, compileWith, hnumbers]
  generalize FixedPrograms.place fixed .empty = placed
  generalize FixedPrograms.place fixed' .empty = placed'
  obtain ⟨programs, store⟩ := placed
  obtain ⟨programs', store'⟩ := placed'
  have hdrafts := (hstart store store').foldl place place'
    (fun n => decode? forms (BitVec.ofNat 16 n)) numbers
  exact hdrafts.entries

/-- **Faithful placements make tables that are relocated ones of each other.** -/
theorem relocated_compileWith (hfixed : fixed.Faithful) (hplace : place.Faithful)
    (hfixed' : fixed'.Faithful) (hplace' : place'.Faithful) {forms : List Form}
    (hopen : ∀ opcode recipe, decode? forms opcode = some recipe → recipe.Open) :
    Relocated forms (compileWith fixed place forms) (compileWith fixed' place' forms) where
  left := realizes_compileWith hfixed hplace hopen
  right := realizes_compileWith hfixed' hplace' hopen
  entry opcode := by
    have hentry {tables other : Tables} (h : tables.entries = other.entries) :
        tables.entry? opcode = other.entry? opcode := by
      unfold entry?
      rw [h]
    exact hentry (entries_compileWith forms)

end M68k.Tables
