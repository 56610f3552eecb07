import M68k.Proofs.Tables.Compile

/-!
# Sharing programs

A program ends in its only sentinel. So no occurrence of it can begin in one stored program and end
inside another, and the first place where it occurs stays the first one while the store grows. The
index of programs and the index of patterns both say what a search would say, whatever has been
patched in between.

## Main definitions

* `IsProgram`: steps that end in their only sentinel
* `ProgramStore.Indexed`: both indices say where a search would find the program
* `StoreCall`: what a store is asked for
* `ProgramStore.after`: the store after some calls

## Main results

* `firstOccurrence?_mono`: growing does not move the first occurrence
* `firstOccurrence?_append_self`: no occurrence begins in one program and ends in another
* `ProgramStore.Indexed.after`: the indices stay right
* `ProgramStore.sharing`: what any sequence of calls can rely on
-/

namespace M68k

/-- Steps that end in their only sentinel. -/
def IsProgram (steps : List BusStep) : Prop :=
  ∃ activity : Activity, activity.Open ∧ steps = activity.toProgram

/-! ## Occurrences -/

section Occurrence

variable {run steps later : List BusStep} {offset : Nat}

/-- The first occurrence is the first of all. -/
theorem not_isPrefix_drop_of_firstOccurrence? (h : firstOccurrence? run steps = some offset)
    {earlier : Nat} (hearlier : earlier < offset) : ¬ run <+: steps.drop earlier := by
  induction steps generalizing offset earlier with
  | nil =>
    rw [firstOccurrence?] at h
    split at h
    · cases h
      omega
    · cases h
  | cons step steps ih =>
    rw [firstOccurrence?] at h
    split at h
    · cases h
      omega
    · next hrun =>
      obtain ⟨before, hbefore, rfl⟩ := Option.map_eq_some_iff.mp h
      cases earlier with
      | zero => simpa using hrun
      | succ earlier => exact ih hbefore (Nat.lt_of_succ_lt_succ hearlier)

/-- A search that fails has looked everywhere. -/
theorem not_isPrefix_drop_of_none (h : firstOccurrence? run steps = none) (place : Nat) :
    ¬ run <+: steps.drop place := by
  induction steps generalizing place with
  | nil =>
    have hrun : run ≠ [] := by simpa [firstOccurrence?] using h
    simpa using hrun
  | cons step steps ih =>
    rw [firstOccurrence?] at h
    split at h
    · cases h
    · next hrun =>
      cases place with
      | zero => simpa using hrun
      | succ place => exact ih (Option.map_eq_none_iff.mp h) place

/-- An occurrence with none before it is the first one. -/
theorem firstOccurrence?_eq_some (hoccurs : run <+: steps.drop offset)
    (hlength : offset ≤ steps.length)
    (hfirst : ∀ earlier < offset, ¬ run <+: steps.drop earlier) :
    firstOccurrence? run steps = some offset := by
  cases hfound : firstOccurrence? run steps with
  | none => exact absurd hoccurs (not_isPrefix_drop_of_none hfound offset)
  | some found =>
    rcases Nat.lt_trichotomy found offset with hlt | rfl | hgt
    · exact absurd (isPrefix_drop_of_firstOccurrence? hfound) (hfirst found hlt)
    · rfl
    · exact absurd hoccurs (not_isPrefix_drop_of_firstOccurrence? hfound hgt)

theorem length_of_firstOccurrence? (h : firstOccurrence? run steps = some offset) :
    offset ≤ steps.length := by
  induction steps generalizing offset with
  | nil =>
    rw [firstOccurrence?] at h
    split at h <;> cases h
    exact Nat.le_refl _
  | cons step steps ih =>
    rw [firstOccurrence?] at h
    split at h
    · cases h
      exact Nat.zero_le _
    · obtain ⟨before, hbefore, rfl⟩ := Option.map_eq_some_iff.mp h
      exact Nat.succ_le_succ (ih hbefore)

/-- **Growing does not move the first occurrence.** -/
theorem firstOccurrence?_mono (h : firstOccurrence? run steps = some offset)
    (hgrown : steps <+: later) : firstOccurrence? run later = some offset := by
  have hoccurs := isPrefix_drop_of_firstOccurrence? h
  refine firstOccurrence?_eq_some (hoccurs.trans (hgrown.drop offset))
    ((length_of_firstOccurrence? h).trans hgrown.length_le) ?_
  intro earlier hearlier hoccurs'
  have hroom : run.length ≤ (steps.drop earlier).length := by
    have := hoccurs.length_le
    simp only [List.length_drop] at this ⊢
    omega
  have hbefore : run <+: steps.drop earlier :=
    List.prefix_of_prefix_length_le hoccurs' (hgrown.drop earlier) hroom
  exact not_isPrefix_drop_of_firstOccurrence? h hearlier hbefore

/-- **No occurrence begins in one program and ends in another**: a program that did not occur occurs
first where it is appended. -/
theorem firstOccurrence?_append_self (hprogram : IsProgram run)
    (h : firstOccurrence? run steps = none) :
    firstOccurrence? run (steps ++ run) = some steps.length := by
  refine firstOccurrence?_eq_some (by simp) (by simp) ?_
  intro earlier hearlier hoccurs
  by_cases hroom : earlier + run.length ≤ steps.length
  · refine not_isPrefix_drop_of_none h earlier ?_
    refine List.prefix_of_prefix_length_le hoccurs ((List.prefix_append steps run).drop earlier) ?_
    simp only [List.length_drop]
    omega
  · -- the last step of the occurrence is the sentinel, but it stands inside the activity
    obtain ⟨activity, hopen, rfl⟩ := hprogram
    simp only [Activity.toProgram, List.length_append, List.length_singleton] at hroom
    have hlast := hoccurs.getElem (i := activity.length) (by simp [Activity.toProgram])
    have hplace : earlier + activity.length - steps.length < activity.length := by omega
    rw [List.getElem_drop, List.getElem_append_right (by omega)] at hlast
    simp only [Activity.toProgram] at hlast
    rw [List.getElem_append_right (Nat.le_refl _), List.getElem_append_left hplace] at hlast
    have hsentinel := hopen _ (List.getElem_mem hplace)
    rw [← hlast] at hsentinel
    simp [BusStep.sentinel, BusStep.isTerminal] at hsentinel

end Occurrence

/-! ## Patterns stand for programs -/

theorem open_activity (token : Token) (adjustment : Option Adjustment) (width : Width)
    (address : AddressSource) : (token.activity adjustment width address).Open := by
  have haction (side : Side) : Adjustment.action side adjustment ≠ .endProgram := by
    rcases adjustment with - | - | - <;> exact StepAction.noConfusion
  cases token with
  | read | write => exact Activity.open_transfer _ _ _ _ _ (haction _)
  | fetchStackPointer | fetchVector | stackWrite | stackRead =>
    exact Activity.open_transfer _ _ _ _ _ StepAction.noConfusion
  | idle | flexible | fetch | resetHold | testAndSet | interruptAcknowledge =>
    intro step hstep
    simp only [Token.activity, Activity.idle, Activity.flexible, Activity.fetch,
      Activity.resetHold, Activity.testAndSet, Activity.interruptAcknowledge, Activity.transfer,
      List.map_cons, List.map_nil, List.mem_cons, List.not_mem_nil, or_false] at hstep
    rcases hstep with rfl | rfl <;> rfl

theorem open_of_activityOfWords {width : Width} {words : List (List Char)}
    {addresses : List AddressSource} {activity : Activity}
    (h : activityOfWords width words addresses = .ok activity) : activity.Open := by
  induction words generalizing addresses activity with
  | nil =>
    cases h
    intro step hstep
    cases hstep
  | cons word words ih =>
    have hrest {rest : List AddressSource} {token : Token} {adjustment : Option Adjustment}
        {address : AddressSource}
        (h : (activityOfWords width words rest).map
          (token.activity adjustment width address ++ ·) = .ok activity) : activity.Open := by
      cases hwords : activityOfWords width words rest with
      | error error =>
        rw [hwords] at h
        cases h
      | ok behind =>
        rw [hwords] at h
        cases h
        exact (open_activity token adjustment width address).append (ih hwords)
    rw [activityOfWords] at h
    split at h
    · cases h
    · split at h
      · split at h
        · cases h
        · exact hrest h
      · exact hrest h

/-- A pattern stands for a program. -/
theorem ProgramKey.isProgram {key : ProgramKey} {program : List BusStep}
    (h : key.parse = .ok program) : IsProgram program := by
  rw [parse, parsePattern] at h
  cases hwords : activityOfWords key.width (blankSeparated key.pattern.toList) key.addresses with
  | error error =>
    rw [hwords] at h
    cases h
  | ok activity =>
    rw [hwords] at h
    cases h
    exact ⟨activity, open_of_activityOfWords hwords, rfl⟩

/-- A program that is stored can be read back. -/
theorem programAt_eq {steps : Array BusStep} {offset : Nat} {program : List BusStep}
    (hprogram : IsProgram program) (h : program <+: steps.toList.drop offset) :
    programAt steps offset = program := by
  obtain ⟨activity, hopen, rfl⟩ := hprogram
  obtain ⟨rest, hrest⟩ := h
  have hopen' : ∀ step ∈ activity, (!step.isTerminal) = true := by
    intro step hstep
    simp [hopen step hstep]
  have hbody : (activity.toProgram ++ rest).takeWhile (!·.isTerminal) = activity := by
    rw [Activity.toProgram, List.append_assoc, List.takeWhile_append_of_pos hopen',
      List.singleton_append, List.takeWhile_cons_of_neg]
    · simp
    · simp [BusStep.sentinel, BusStep.isTerminal]
  rw [programAt, ← hrest, hbody]
  simp [Activity.toProgram]

/-- Two programs occur first in the same place only if they are the same. -/
theorem firstOccurrence?_eq_iff {first second steps : List BusStep} {offset otherOffset : Nat}
    (hfirst : IsProgram first) (hsecond : IsProgram second)
    (hoffset : firstOccurrence? first steps = some offset)
    (hother : firstOccurrence? second steps = some otherOffset) :
    offset = otherOffset ↔ first = second := by
  constructor
  · rintro rfl
    have hread : programAt steps.toArray offset = first :=
      programAt_eq hfirst (isPrefix_drop_of_firstOccurrence? hoffset)
    have hreadAgain : programAt steps.toArray offset = second :=
      programAt_eq hsecond (isPrefix_drop_of_firstOccurrence? hother)
    exact hread.symm.trans hreadAgain
  · rintro rfl
    exact Option.some.inj (hoffset.symm.trans hother)

/-! ## Indices -/

namespace ProgramStore

variable {store later : ProgramStore} {program : List BusStep} {offset : Nat}

/-- Both indices say where a search would find the program. -/
structure Indexed (store : ProgramStore) : Prop where
  placed : ∀ (program : List BusStep) (offset : Nat), store.placed[program]? = some offset →
    firstOccurrence? program store.steps.toList = some offset
  assembled : ∀ (key : ProgramKey) (offset : Nat), store.assembled[key]? = some offset →
    ∃ program, key.parse = .ok program ∧
      firstOccurrence? program store.steps.toList = some offset

theorem indexed_empty : empty.Indexed := by
  constructor
  · intro program offset h
    simp [empty] at h
  · intro key offset h
    simp [empty] at h

/-- Indices stay right while the store grows. -/
theorem Indexed.mono (h : store.Indexed) (hgrown : store.GrownTo later)
    (hplaced : later.placed = store.placed) (hassembled : later.assembled = store.assembled) :
    later.Indexed := by
  constructor
  · intro program offset hknown
    rw [hplaced] at hknown
    exact firstOccurrence?_mono (h.placed program offset hknown) hgrown
  · intro key offset hknown
    rw [hassembled] at hknown
    obtain ⟨program, hparse, hfound⟩ := h.assembled key offset hknown
    exact ⟨program, hparse, firstOccurrence?_mono hfound hgrown⟩

theorem Indexed.insertPlaced (h : store.Indexed)
    (hfound : firstOccurrence? program store.steps.toList = some offset) :
    Indexed { store with placed := store.placed.insert program offset } := by
  refine ⟨?_, h.assembled⟩
  intro known place hknown
  rw [Std.HashMap.getElem?_insert] at hknown
  split at hknown
  · next heq =>
    cases hknown
    rw [← eq_of_beq heq]
    exact hfound
  · exact h.placed known place hknown

theorem Indexed.insertAssembled (h : store.Indexed) {key : ProgramKey}
    (hparse : key.parse = .ok program)
    (hfound : firstOccurrence? program store.steps.toList = some offset) :
    Indexed { store with assembled := store.assembled.insert key offset } := by
  refine ⟨h.placed, ?_⟩
  intro known place hknown
  rw [Std.HashMap.getElem?_insert] at hknown
  split at hknown
  · next heq =>
    cases hknown
    rw [← eq_of_beq heq]
    exact ⟨program, hparse, hfound⟩
  · exact h.assembled known place hknown

/-- What placing a program does to the steps that are stored. -/
structure Places (store : ProgramStore) (program : List BusStep) (offset : Nat)
    (next : ProgramStore) : Prop where
  indexed : next.Indexed
  found : firstOccurrence? program next.steps.toList = some offset
  grown : next.steps = store.steps ∨ next.steps = store.steps ++ program

/-- **Placing finds the first occurrence**, or makes one at the end. -/
theorem Indexed.place (h : store.Indexed) (hprogram : IsProgram program) :
    store.Places program (store.place program).1 (store.place program).2 := by
  unfold ProgramStore.place
  cases hknown : store.placed[program]? with
  | some offset => exact ⟨h, h.placed program offset hknown, .inl rfl⟩
  | none =>
    cases hfound : firstOccurrence? program store.steps.toList with
    | some offset => exact ⟨h.insertPlaced hfound, hfound, .inl rfl⟩
    | none =>
      have happended : firstOccurrence? program (store.append program).2.steps.toList =
          some (store.append program).1 := by
        rw [append, Array.toList_appendList]
        exact firstOccurrence?_append_self hprogram hfound
      have hindexed : (store.append program).2.Indexed :=
        h.mono (grownTo_append store program) rfl rfl
      exact ⟨hindexed.insertPlaced happended, happended, .inr rfl⟩

theorem assemble_eq (store : ProgramStore) (key : ProgramKey) :
    store.assemble key.pattern key.addresses key.width =
      match store.assembled[key]? with
      | some offset => .ok (offset, store)
      | none =>
        key.parse.map fun program =>
          ((store.place program).1,
            { (store.place program).2 with
              assembled := (store.place program).2.assembled.insert key
                (store.place program).1 }) := rfl

/-- **Assembling places the program of the pattern**, known or not, and fails only where the pattern
stands for nothing. -/
theorem Indexed.assemble (h : store.Indexed) (key : ProgramKey) :
    (∃ error, key.parse = .error error ∧
      store.assemble key.pattern key.addresses key.width = .error error) ∨
    ∃ program offset next, key.parse = .ok program ∧
      store.assemble key.pattern key.addresses key.width = .ok (offset, next) ∧
      store.Places program offset next := by
  rw [assemble_eq]
  cases hknown : store.assembled[key]? with
  | some offset =>
    obtain ⟨program, hparse, hfound⟩ := h.assembled key offset hknown
    exact .inr ⟨program, offset, store, hparse, rfl, h, hfound, .inl rfl⟩
  | none =>
    cases hparse : key.parse with
    | error error => exact .inl ⟨error, rfl, rfl⟩
    | ok program =>
      have hplaces := h.place (ProgramKey.isProgram hparse)
      exact .inr ⟨program, _, _, rfl, rfl, hplaces.indexed.insertAssembled hparse hplaces.found,
        hplaces.found, hplaces.grown⟩

/-- Patching a program changes nothing in front of it. -/
theorem patch_steps (store : ProgramStore) (offset : Nat)
    (patches : List (Nat × (BusStep → BusStep))) :
    (store.patch offset patches).steps.size = store.steps.size ∧
      (store.patch offset patches).steps.toList.take offset = store.steps.toList.take offset := by
  rw [patch]
  dsimp only
  generalize store.steps = steps
  induction patches generalizing steps with
  | nil => exact ⟨rfl, rfl⟩
  | cons entry patches ih =>
    obtain ⟨hsize, htake⟩ := ih (steps.modify (offset + entry.1) entry.2)
    rw [List.foldl_cons, hsize, htake, Array.size_modify]
    refine ⟨rfl, List.ext_getElem? fun index => ?_⟩
    simp only [Array.toList_modify, List.getElem?_take]
    split
    · rw [List.getElem?_modify_ne]
      omega
    · rfl

end ProgramStore

/-! ## Sequences of calls -/

/-- What a store is asked for. -/
inductive StoreCall
  | assemble (key : ProgramKey)
  /-- The program is appended, and then some of its steps are changed. -/
  | assembleFresh (key : ProgramKey) (patches : List (Nat × (BusStep → BusStep)))

namespace StoreCall

/-- The pattern of a call. -/
def key : StoreCall → ProgramKey
  | assemble key => key
  | assembleFresh key _ => key

/-- The answer to a call: an offset, and the store that it leaves. -/
def answer (call : StoreCall) (store : ProgramStore) : Except PatternError (Nat × ProgramStore) :=
  match call with
  | assemble key => store.assemble key.pattern key.addresses key.width
  | assembleFresh key patches =>
    (store.assembleFresh key.pattern key.addresses key.width).map fun (offset, next) =>
      (offset, next.patch offset patches)

/-- The store that a call leaves. One that fails leaves it as it is. -/
def apply (call : StoreCall) (store : ProgramStore) : ProgramStore :=
  match call.answer store with
  | .ok (_, next) => next
  | .error _ => store

end StoreCall

namespace ProgramStore

variable {store later : ProgramStore}

/-- The store after some calls. -/
def after (store : ProgramStore) (calls : List StoreCall) : ProgramStore :=
  calls.foldl (fun store call => call.apply store) store

/-- What any call does. -/
structure Grows (store : ProgramStore) (key : ProgramKey) (next : ProgramStore) : Prop where
  indexed : next.Indexed
  grownTo : store.GrownTo next
  size : next.size = store.size ∨
    ∃ program, key.parse = .ok program ∧ next.size = store.size + program.length

theorem Places.grows {program : List BusStep} {offset : Nat} {key : ProgramKey}
    {next : ProgramStore} (h : store.Places program offset next)
    (hparse : key.parse = .ok program) : store.Grows key next := by
  refine ⟨h.indexed, ?_, ?_⟩ <;> rcases h.grown with hsame | hgrown
  · rw [GrownTo, hsame]
  · rw [GrownTo, hgrown, Array.toList_appendList]
    exact List.prefix_append _ _
  · exact .inl (congrArg Array.size hsame)
  · refine .inr ⟨program, hparse, ?_⟩
    rw [size, hgrown, ← Array.length_toList, Array.toList_appendList, List.length_append]
    rfl

/-- Appending and patching leave what was stored before. -/
theorem Indexed.assembleFresh (h : store.Indexed) {key : ProgramKey} {program : List BusStep}
    (hparse : key.parse = .ok program) (patches : List (Nat × (BusStep → BusStep))) :
    store.Grows key ((store.append program).2.patch store.size patches) := by
  obtain ⟨hsize, hfront⟩ := patch_steps (store.append program).2 store.size patches
  have hgrown : store.GrownTo ((store.append program).2.patch store.size patches) := by
    have hstored : (store.append program).2.steps.toList.take store.size = store.steps.toList := by
      simp [append, size]
    rw [GrownTo, ← hstored, ← hfront]
    exact List.take_prefix _ _
  refine ⟨h.mono hgrown rfl rfl, hgrown, .inr ⟨program, hparse, ?_⟩⟩
  rw [size, hsize, append, ← Array.length_toList, Array.toList_appendList, List.length_append]
  rfl

/-- **A call** answers if its pattern stands for a program. The store grows at its end, by that
program or by nothing. -/
theorem Indexed.call (h : store.Indexed) (call : StoreCall) :
    (∃ error, call.key.parse = .error error ∧ call.answer store = .error error ∧
      call.apply store = store) ∨
    ∃ program offset, call.key.parse = .ok program ∧
      call.answer store = .ok (offset, call.apply store) ∧
      store.Grows call.key (call.apply store) := by
  cases call with
  | assemble key =>
    rcases h.assemble key with
      ⟨error, hparse, hanswer⟩ | ⟨program, offset, next, hparse, hanswer, hplaces⟩
    · refine .inl ⟨error, hparse, hanswer, ?_⟩
      rw [StoreCall.apply, StoreCall.answer, hanswer]
    · have happly : StoreCall.apply (.assemble key) store = next := by
        rw [StoreCall.apply, StoreCall.answer, hanswer]
      rw [happly]
      exact .inr ⟨program, offset, hparse, hanswer, hplaces.grows hparse⟩
  | assembleFresh key patches =>
    cases hparse : key.parse with
    | error error =>
      have hanswer : StoreCall.answer (.assembleFresh key patches) store = .error error := by
        rw [StoreCall.answer, ProgramStore.assembleFresh, ← ProgramKey.parse, hparse]
        rfl
      refine .inl ⟨error, hparse, hanswer, ?_⟩
      rw [StoreCall.apply, hanswer]
    | ok program =>
      have hanswer : StoreCall.answer (.assembleFresh key patches) store =
          .ok (store.size, (store.append program).2.patch store.size patches) := by
        rw [StoreCall.answer, ProgramStore.assembleFresh, ← ProgramKey.parse, hparse]
        rfl
      have happly : StoreCall.apply (.assembleFresh key patches) store =
          (store.append program).2.patch store.size patches := by
        rw [StoreCall.apply, hanswer]
      rw [happly]
      exact .inr ⟨program, store.size, hparse, hanswer, h.assembleFresh hparse patches⟩

/-- Whether it answers or not, a call keeps the indices right, and moves nothing. -/
theorem Indexed.apply (h : store.Indexed) (call : StoreCall) :
    (call.apply store).Indexed ∧ store.GrownTo (call.apply store) := by
  rcases h.call call with ⟨-, -, -, hsame⟩ | ⟨-, -, -, -, hgrows⟩
  · rw [hsame]
    exact ⟨h, .refl store⟩
  · exact ⟨hgrows.indexed, hgrows.grownTo⟩

/-- **The indices stay right**, and what is stored stays where it is. -/
theorem Indexed.after (h : store.Indexed) (calls : List StoreCall) :
    (store.after calls).Indexed ∧ store.GrownTo (store.after calls) := by
  induction calls generalizing store with
  | nil => exact ⟨h, .refl store⟩
  | cons call calls ih =>
    obtain ⟨hcalled, hfirst⟩ := h.apply call
    obtain ⟨hindexed, hgrown⟩ := ih hcalled
    exact ⟨hindexed, hfirst.trans hgrown⟩

theorem after_append (store : ProgramStore) (first second : List StoreCall) :
    store.after (first ++ second) = (store.after first).after second :=
  List.foldl_append

/-- An offset that has been given is that of the first occurrence, whatever comes later. -/
theorem Indexed.found_after (h : store.Indexed) {key : ProgramKey} {offset : Nat}
    {next : ProgramStore} (hanswer : StoreCall.answer (.assemble key) store = .ok (offset, next))
    (later : List StoreCall) :
    ∃ program, key.parse = .ok program ∧ IsProgram program ∧ store.GrownTo next ∧
      firstOccurrence? program (next.after later).steps.toList = some offset := by
  rcases h.assemble key with
    ⟨error, -, herror⟩ | ⟨program, found, placed, hparse, hplaced, hplaces⟩
  · rw [StoreCall.answer, herror] at hanswer
    cases hanswer
  · rw [StoreCall.answer, hplaced] at hanswer
    cases hanswer
    refine ⟨program, hparse, ProgramKey.isProgram hparse, (hplaces.grows hparse).grownTo, ?_⟩
    exact firstOccurrence?_mono hplaces.found (hplaces.indexed.after later).2

/-- **Sharing is sound.** After any calls, each further call fails where its pattern stands for
nothing, and then it might as well not have been made. Otherwise the store grows at its end, by the
program of the pattern or by nothing. What is assembled can be read back at its offset for good, and
is given the same offset as another pattern if both stand for the same program, patches or not. -/
theorem sharing (before later : List StoreCall) (call : StoreCall) :
    let store := empty.after before
    let next := call.apply store
    (∀ error, call.answer store = .error error ↔ call.key.parse = .error error) ∧
      (∀ error, call.answer store = .error error →
        empty.after (before ++ call :: later) = empty.after (before ++ later)) ∧
      store.GrownTo next ∧
      (next.size = store.size ∨
        ∃ program, call.key.parse = .ok program ∧ next.size = store.size + program.length) ∧
      ∀ key offset, call = .assemble key → call.answer store = .ok (offset, next) →
        .ok ((next.after later).program offset) = key.parse ∧
          ∀ other otherOffset final,
            StoreCall.answer (.assemble other) (next.after later) = .ok (otherOffset, final) →
              (otherOffset = offset ↔ other.parse = key.parse) := by
  dsimp only
  have hstore : (empty.after before).Indexed := (indexed_empty.after before).1
  have hcall := hstore.call call
  refine ⟨?_, ?_, ?_, ?_, ?_⟩
  · intro error
    rcases hcall with ⟨_, hparse, hanswer, -⟩ | ⟨_, _, hparse, hanswer, -⟩
    · rw [hparse, hanswer]
      exact ⟨fun h => by cases h; rfl, fun h => by cases h; rfl⟩
    · rw [hparse, hanswer]
      exact ⟨nofun, nofun⟩
  · intro error hfailed
    rcases hcall with ⟨_, -, -, hsame⟩ | ⟨_, _, -, hanswer, -⟩
    · rw [after_append, after_append]
      change ((call.apply (empty.after before)).after later) = _
      rw [hsame]
    · rw [hanswer] at hfailed
      cases hfailed
  · rcases hcall with ⟨-, -, -, hsame⟩ | ⟨-, -, -, -, hgrows⟩
    · rw [hsame]
      exact .refl _
    · exact hgrows.grownTo
  · rcases hcall with ⟨-, -, -, hsame⟩ | ⟨-, -, -, -, hgrows⟩
    · exact .inl (congrArg size hsame)
    · exact hgrows.size
  · rintro key offset rfl hanswer
    obtain ⟨program, hparse, hprogram, -, hfound⟩ := hstore.found_after hanswer later
    refine ⟨?_, ?_⟩
    · rw [hparse]
      exact congrArg Except.ok (programAt_eq hprogram (isPrefix_drop_of_firstOccurrence? hfound))
    · intro other otherOffset final hother
      have hnext := (hstore.apply (.assemble key)).1.after later
      obtain ⟨sought, hsought, hsoughtProgram, hfinal, hsoughtFound⟩ :=
        hnext.1.found_after hother []
      have hkept : firstOccurrence? program final.steps.toList = some offset :=
        firstOccurrence?_mono hfound hfinal
      rw [hsought, hparse, Except.ok.injEq]
      exact firstOccurrence?_eq_iff hsoughtProgram hprogram hsoughtFound hkept

/-- Another spelling of a pattern finds the program that was stored first, although a copy has been
appended and changed in between. -/
theorem sharing_respelled :
    let key : ProgramKey := ⟨"n np", [], .word⟩
    let respelled : ProgramKey := ⟨" n  np", [], .byte⟩
    let store := (StoreCall.assemble key).apply empty
    let later := store.after [.assembleFresh key [(0, fun step => { step with slot := .prefetch })]]
    ∃ offset final,
      store.program offset = Activity.toProgram (.idle 4 ++ .fetch) ∧
        StoreCall.answer (.assemble respelled) later = .ok (offset, final) := by
  have hparse : (ProgramKey.mk "n np" [] .word).parse =
      .ok (Activity.toProgram (.idle 4 ++ .fetch)) := rfl
  have hrespelled : (ProgramKey.mk " n  np" [] .byte).parse =
      (ProgramKey.mk "n np" [] .word).parse := rfl
  have hcall (before : List StoreCall) (key : ProgramKey) (h : key.parse =
      .ok (Activity.toProgram (.idle 4 ++ .fetch))) :
      ∃ offset, StoreCall.answer (.assemble key) (empty.after before) =
        .ok (offset, (StoreCall.assemble key).apply (empty.after before)) := by
    rcases (indexed_empty.after before).1.call (.assemble key) with
      ⟨_, herror, -⟩ | ⟨_, offset, -, hanswer, -⟩
    · cases h.symm.trans herror
    · exact ⟨offset, hanswer⟩
  obtain ⟨offset, hanswer⟩ := hcall [] ⟨"n np", [], .word⟩ hparse
  set fresh : StoreCall := .assembleFresh ⟨"n np", [], .word⟩
    [(0, fun step => { step with slot := .prefetch })]
  obtain ⟨otherOffset, hother⟩ := hcall [.assemble ⟨"n np", [], .word⟩, fresh] ⟨" n  np", [], .byte⟩
    (hrespelled.trans hparse)
  obtain ⟨-, -, -, -, hsharing⟩ := sharing [] [fresh] (.assemble ⟨"n np", [], .word⟩)
  have hsame := ((hsharing _ _ rfl hanswer).2 _ _ _ hother).2 hrespelled
  obtain ⟨-, -, -, -, hstored⟩ := sharing [] [] (.assemble ⟨"n np", [], .word⟩)
  have hread := (hstored _ _ rfl hanswer).1
  rw [hparse] at hread
  rw [hsame] at hother
  exact ⟨offset, _, Except.ok.inj hread, hother⟩

end ProgramStore

end M68k
