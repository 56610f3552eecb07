import M68k.Proofs.Decoding.Mirrored
import M68k.Proofs.Decoding.Patterns

/-!
# Installing the opcodes

The tables are made opcode by opcode. An opcode is offered to the patterns in turn, and the decoder
of each that fits writes into the draft. After a rejection only the micro-operations are cut back.
With the check for overlaps on, the patterns behind the one that accepts are tried as well, and
whatever their decoders leave behind would stay.

They leave nothing behind, and no two of them accept the same opcode. So neither the check nor the
order of the patterns makes a difference, and the tables are those compiled from the opcode forms.

## Main definitions

* `Tables.CompileError`: why no tables are made
* `Tables.offer`: an opcode offered to patterns in turn
* `Tables.install`: the tables of a list of patterns

## Main results

* `Tables.install_eq`: patterns that exclude each other install what their forms compile to
* `Tables.install_of_perm`: the patterns of the instruction set can be tried in any order, with the
  check or without it
-/

namespace M68k

namespace Tables

/-- Why no tables are made. -/
inductive CompileError
  | pattern (error : PatternError)
  | overlap (overlap : Overlap)
deriving DecidableEq, Repr

/-- Cut off the micro-operations from `start` on. -/
def Draft.truncate (start : Nat) (draft : Draft) : Draft :=
  { draft with microOps := draft.microOps.extract 0 start }

/-- Offer an opcode to patterns in turn. `installed` is the entry that an earlier one has made. -/
def offer (config : Config) (programs : FixedPrograms) (opcode : Word) :
    List Pattern → Option TableEntry → Draft → Except CompileError (Option TableEntry × Draft)
  | [], installed, draft => .ok (installed, draft)
  | pattern :: patterns, installed, draft =>
    if ¬pattern.Matches opcode then offer config programs opcode patterns installed draft
    else
      let start := draft.microOps.size
      match pattern.decoder.decode opcode programs draft with
      | (.error error, _) => .error (.pattern error)
      | (.ok none, draft) =>
        offer config programs opcode patterns installed (draft.truncate start)
      | (.ok (some instruction), draft) =>
        match installed with
        | some first =>
          .error (.overlap ⟨opcode, first.instruction.operation, instruction.operation⟩)
        | none =>
          let draft := draft.finishChain programs start
          let entry : TableEntry := ⟨instruction, start⟩
          if config.refuseOverlaps then offer config programs opcode patterns (some entry) draft
          else .ok (some entry, draft)

/-- Append the entry of the next opcode. -/
def installOpcode (config : Config) (programs : FixedPrograms) (patterns : List Pattern)
    (draft : Draft) (opcode : Word) : Except CompileError Draft :=
  (offer config programs opcode patterns none draft).map fun (entry, draft) =>
    { draft with entries := draft.entries.push entry }

/-- The tables of a list of patterns. -/
def install (config : Config) (patterns : List Pattern) : Except CompileError Tables :=
  let (programs, store) := FixedPrograms.place ProgramStore.place .empty
  let draft := (List.range 0x10000).foldlM
    (fun draft n => installOpcode config programs patterns draft (BitVec.ofNat 16 n))
    (Draft.mk store #[] #[])
  draft.map (Draft.toTables · programs)

variable {config : Config} {programs : FixedPrograms} {patterns : List Pattern} {opcode : Word}
  {draft later other : Draft}

/-! ## One opcode -/

theorem Draft.truncate_size (draft : Draft) : draft.truncate draft.microOps.size = draft := by
  simp [truncate]

/-- A pattern that rejects the opcode leaves nothing to cut back. -/
theorem offer_cons_of_rejected {pattern : Pattern} (h : pattern.form.decode? opcode = none)
    (installed : Option TableEntry) (draft : Draft) :
    offer config programs opcode (pattern :: patterns) installed draft =
      offer config programs opcode patterns installed draft := by
  rw [offer]
  by_cases hmatches : pattern.Matches opcode
  · have hencoding : pattern.decoder.encoding opcode = none := (if_pos hmatches).symm.trans h
    have hdecode := (pattern.decoder.follows opcode).untouched hencoding programs draft
    simp only [hmatches, not_true_eq_false, if_false, hdecode, Draft.truncate_size]
  · simp only [hmatches, not_false_eq_true, if_true]

/-- Patterns that reject the opcode leave everything as it is. -/
theorem offer_of_rejected (h : ∀ pattern ∈ patterns, pattern.form.decode? opcode = none)
    (installed : Option TableEntry) (draft : Draft) :
    offer config programs opcode patterns installed draft = .ok (installed, draft) := by
  induction patterns with
  | nil => rfl
  | cons pattern patterns ih =>
    obtain ⟨hfirst, hrest⟩ := List.forall_mem_cons.1 h
    exact (offer_cons_of_rejected hfirst installed draft).trans (ih hrest)

/-- **The one pattern that accepts an opcode installs it**, whether overlaps are looked for or
not. -/
theorem offer_of_accepted (hexclusive : patterns.Pairwise Pattern.Excludes) {recipe : Recipe}
    (h : decode? (patterns.map Pattern.form) opcode = some recipe) (draft : Draft) :
    ∃ later, Draft.Written programs draft recipe.stages later ∧
      offer config programs opcode patterns none draft =
        .ok (some ⟨recipe.instruction, draft.microOps.size⟩,
          later.finishChain programs draft.microOps.size) := by
  induction patterns with
  | nil => cases h
  | cons pattern patterns ih =>
    obtain ⟨hfirst, hrest⟩ := List.pairwise_cons.1 hexclusive
    rw [decode?, List.map_cons, List.findSome?_cons] at h
    cases hdecoded : pattern.form.decode? opcode with
    | none =>
      rw [hdecoded] at h
      obtain ⟨later, hwritten, hoffer⟩ := ih hrest h
      exact ⟨later, hwritten, (offer_cons_of_rejected hdecoded none draft).trans hoffer⟩
    | some accepted =>
      rw [hdecoded] at h
      cases h
      obtain ⟨hmatches, hencoding⟩ := Option.ite_none_right_eq_some.1 hdecoded
      obtain ⟨later, hdecode, hwritten, -⟩ :=
        (pattern.decoder.follows opcode).grown hencoding programs draft
      refine ⟨later, hwritten, ?_⟩
      have hothers : ∀ other ∈ patterns, other.form.decode? opcode = none := by
        intro other hmem
        refine (Pattern.excludes_iff.1 (hfirst other hmem) opcode).resolve_left ?_
        rw [hdecoded]
        exact Option.some_ne_none _
      have hmatches' : pattern.Matches opcode := hmatches
      simp only [offer, hmatches', not_true_eq_false, if_false, hdecode]
      split
      · exact offer_of_rejected hothers _ _
      · rfl

/-! ## All opcodes -/

/-- But for their indices the drafts are the same. -/
structure Draft.SameAs (programs : FixedPrograms) (draft other : Draft) : Prop where
  mirrors : Draft.Mirrors programs draft.microOps.size draft other
  entries : other.entries = draft.entries

theorem Draft.Written.entries {stages : List Stage}
    (h : Draft.Written programs draft stages later) : later.entries = draft.entries := by
  induction h with
  | nil => rfl
  | cons hstage _ ih =>
    rw [ih]
    cases hstage <;> rfl

theorem Draft.SameAs.microOps (h : draft.SameAs programs other) :
    other.microOps = draft.microOps := by
  rw [h.mirrors.microOps, supplied_size]

theorem Draft.SameAs.toTables (h : draft.SameAs programs other) :
    draft.toTables programs = other.toTables programs := by
  rw [Draft.toTables, Draft.toTables, h.mirrors.steps, h.microOps, h.entries]

/-- Installing an opcode is adding the recipe that the patterns decode. -/
theorem exists_installOpcode (hexclusive : patterns.Pairwise Pattern.Excludes)
    (h : draft.SameAs programs other) (opcode : Word) :
    ∃ later, installOpcode config programs patterns draft opcode = .ok later ∧
      later.SameAs programs
        (other.addOpcode ProgramStore.place (decode? (patterns.map Pattern.form) opcode)) := by
  cases hdecoded : decode? (patterns.map Pattern.form) opcode with
  | none =>
    have hrejected : ∀ pattern ∈ patterns, pattern.form.decode? opcode = none := by
      rw [decode?, List.findSome?_map, List.findSome?_eq_none_iff] at hdecoded
      exact hdecoded
    refine ⟨_, by rw [installOpcode, offer_of_rejected hrejected]; rfl, ?_, ?_⟩
    · exact h.mirrors.withEntries _ _
    · exact congrArg (Array.push · none) h.entries
  | some recipe =>
    obtain ⟨later, hwritten, hoffer⟩ :=
      @offer_of_accepted config programs _ _ hexclusive _ hdecoded draft
    have hentry : Draft.Mirrors programs draft.microOps.size draft
        (other.withEntry recipe.instruction) := h.mirrors.withEntries draft.entries _
    refine ⟨_, by rw [installOpcode, hoffer]; rfl, ?_, ?_⟩
    · rw [Draft.addOpcode_some]
      exact (hentry.finishChain hwritten).withEntries _ _
    · rw [Draft.addOpcode_some, Draft.entries_addChain, Draft.withEntry, h.microOps, h.entries,
        ← hwritten.entries]
      rfl

/-- Installing opcodes in turn is adding the recipes that the patterns decode. -/
theorem exists_foldlM_installOpcode (hexclusive : patterns.Pairwise Pattern.Excludes)
    (h : draft.SameAs programs other) (numbers : List Nat) :
    ∃ later, numbers.foldlM (fun draft n =>
        installOpcode config programs patterns draft (BitVec.ofNat 16 n)) draft = .ok later ∧
      later.SameAs programs (numbers.foldl (fun draft n => draft.addOpcode ProgramStore.place
        (decode? (patterns.map Pattern.form) (BitVec.ofNat 16 n))) other) := by
  induction numbers generalizing draft other with
  | nil => exact ⟨draft, rfl, h⟩
  | cons n numbers ih =>
    obtain ⟨next, hnext, hsame⟩ := exists_installOpcode hexclusive h (BitVec.ofNat 16 n)
    obtain ⟨later, hlater, hrest⟩ := ih hsame
    refine ⟨later, ?_, hrest⟩
    rw [List.foldlM_cons, hnext]
    exact hlater

/-- The store that opcodes are installed into. -/
theorem Draft.sameAs_self {store : ProgramStore} (h : programs.Ready store) :
    (Draft.mk store #[] #[]).SameAs programs (Draft.mk store #[] #[]) where
  mirrors := ⟨Nat.le_refl _, h, h, rfl, (supplied_size _).symm⟩
  entries := rfl

/-- **Patterns that exclude each other install what their forms compile to**, whether overlaps are
looked for or not. -/
theorem install_eq (config : Config) (hexclusive : patterns.Pairwise Pattern.Excludes) :
    install config patterns = .ok (compile (patterns.map Pattern.form)) := by
  rw [compile, compileBy_eq, install, compileWith]
  have hready := FixedPrograms.ready_place
  generalize FixedPrograms.place ProgramStore.place .empty = placed at hready ⊢
  obtain ⟨programs, store⟩ := placed
  obtain ⟨later, hlater, hsame⟩ := @exists_foldlM_installOpcode config programs _ _ _ hexclusive
    (Draft.sameAs_self hready) (List.range 0x10000)
  simp only [hlater]
  exact congrArg Except.ok hsame.toTables

/-! ## The instruction set -/

theorem compile_congr {forms others : List Form}
    (h : ∀ opcode, decode? forms opcode = decode? others opcode) :
    compile forms = compile others := by
  rw [compile, compile, compileBy, compileBy]
  simp only [h]

/-- In any order the patterns install what the opcode forms compile to. -/
theorem install_of_perm (config : Config) {order : List Pattern} (h : order.Perm Pattern.all) :
    install config order = .ok (compile forms) := by
  rw [install_eq config ((h.pairwise_iff Pattern.Excludes.symm).2 Pattern.pairwise_all)]
  refine congrArg Except.ok (compile_congr fun opcode => ?_)
  rw [Pattern.decode?_of_perm h Pattern.pairwise_all, Pattern.decode?_all]

/-- The check for overlaps finds none. -/
theorem build_forms (config : Config) : build config forms = .ok (compile forms) := by
  rw [build, Pattern.overlap?_forms, ite_self]

/-- A decoder leaves a draft as it is, or comes to an instruction and only adds to the draft. -/
theorem decode_untouched_or_grown (decoder : Decoder) (opcode : Word) (programs : FixedPrograms)
    (draft : Draft) :
    decoder.decode opcode programs draft = (.ok none, draft) ∨
      ∃ instruction later, decoder.decode opcode programs draft = (.ok (some instruction), later) ∧
        draft.GrownTo later := by
  have hfollows := decoder.follows opcode
  cases hencoding : decoder.encoding opcode with
  | none => exact .inl (hfollows.untouched hencoding programs draft)
  | some recipe =>
    obtain ⟨later, hdecode, -, hgrown⟩ := hfollows.grown hencoding programs draft
    exact .inr ⟨_, later, hdecode, hgrown⟩

/-- **Installing the instruction set.** Whatever is in the draft, the decoder of a pattern leaves it
exactly as it is when it rejects an opcode, and only adds to it otherwise. It never fails. No opcode
is accepted by two patterns. Hence the tables do not depend on whether overlaps are looked for, nor
on the order of the patterns: they are always those compiled from the opcode forms. -/
theorem installation :
    (∀ (pattern : Pattern) (opcode : Word) (programs : FixedPrograms) (draft : Draft),
      pattern.decoder.decode opcode programs draft = (.ok none, draft) ∨
        ∃ instruction later,
          pattern.decoder.decode opcode programs draft = (.ok (some instruction), later) ∧
            draft.GrownTo later) ∧
      Pattern.all.Pairwise Pattern.Excludes ∧
      (∀ (config : Config) (order : List Pattern), order.Perm Pattern.all →
        install config order = .ok (compile forms)) ∧
      ∀ config, build config forms = .ok (compile forms) :=
  ⟨fun pattern => decode_untouched_or_grown pattern.decoder, Pattern.pairwise_all,
    fun config _ => install_of_perm config, build_forms⟩

/-- The patterns tried from the last to the first, with the check for overlaps. -/
theorem installation_reverse :
    Pattern.all.reverse.Perm Pattern.all ∧
      install ⟨true, false⟩ Pattern.all.reverse = .ok (compile forms) := by
  obtain ⟨-, -, hinstall, -⟩ := installation
  exact ⟨List.reverse_perm _, hinstall _ _ (List.reverse_perm _)⟩

end Tables

end M68k
