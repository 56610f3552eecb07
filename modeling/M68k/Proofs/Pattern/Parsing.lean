import M68k.Proofs.Pattern.Grammar
import M68k.Proofs.Tables.Sharing

/-!
# Parsing of bus patterns

A pattern is read word by word from the left, and addresses are bound on the way. Words that are in
the tables are read on past, so that what they stand for comes before whatever the others stand for.
The first word at fault ends the reading. So a pattern stands for a program exactly if it keeps to
the grammar and there are enough addresses, and the error of any other is the fault that comes
first.

## Main definitions

* `Pattern.Reading`, `Pattern.ReadAs`: words with the addresses that they bind
* `Pattern.Fine`: the words are in the tables, and there is an address for each that binds one
* `Pattern.selecting`: the selection of a step for a width

## Main results

* `Pattern.exists_readings`: fine words are read on past
* `Pattern.fine_or_fault`: words are fine, or one of them is the first at fault
* `Pattern.parsePattern_eq_error_iff`: the error of a pattern
* `Pattern.parsing`: what patterns stand for
-/

namespace M68k.Pattern

/-! ## Readings -/

/-- A word with its meaning, and the address that it binds. -/
structure Reading extends Entry where
  address : AddressSource

/-- The steps that a word stands for. -/
def Reading.steps (reading : Reading) (width : Width) : Activity :=
  reading.token.activity reading.adjustment width reading.address

/-- The words are read as the tables say, and bind `bound` from left to right. -/
structure ReadAs (words : List (List Char)) (bound : List AddressSource)
    (readings : List Reading) : Prop where
  words : readings.map (·.word) = words
  entries : ∀ reading ∈ readings, reading.toEntry ∈ lexicon
  bound : (readings.filter (·.word ∈ binders)).map (·.address) = bound

/-- The words are in the tables, and there is an address for each that binds one. -/
def Fine (words : List (List Char)) (addresses : List AddressSource) : Prop :=
  (∀ word ∈ words, IsWord word) ∧ bindings words ≤ addresses.length

section

variable {words : List (List Char)} {addresses : List AddressSource}

theorem fine_nil : Fine [] addresses := ⟨fun _ h => absurd h List.not_mem_nil, Nat.zero_le _⟩

theorem bindings_cons_of_mem {word : List Char} (h : word ∈ binders) :
    bindings (word :: words) = bindings words + 1 :=
  List.countP_cons_of_pos (by simpa using h)

theorem bindings_cons_of_not_mem {word : List Char} (h : word ∉ binders) :
    bindings (word :: words) = bindings words :=
  List.countP_cons_of_neg (by simpa using h)

/-- **One word is read on past.** -/
theorem activityOfWords_cons {entry : Entry} (hentry : entry ∈ lexicon) (width : Width) :
    (entry.word ∉ binders →
      activityOfWords width (entry.word :: words) addresses =
        (activityOfWords width words addresses).map
          (entry.token.activity entry.adjustment width .none ++ ·)) ∧
    (entry.word ∈ binders → ∀ address,
      activityOfWords width (entry.word :: words) (address :: addresses) =
        (activityOfWords width words addresses).map
          (entry.token.activity entry.adjustment width address ++ ·)) := by
  have htakes := takesAddress_eq entry hentry
  constructor
  · intro hbinder
    rw [decide_eq_false hbinder] at htakes
    simp only [activityOfWords, ofWord_of_mem entry hentry, htakes, Bool.false_eq_true, if_false]
  · intro hbinder address
    rw [decide_eq_true hbinder] at htakes
    simp only [activityOfWords, ofWord_of_mem entry hentry, htakes, if_true]

theorem map_append_append (first second : Activity) (rest : Except PatternError Activity) :
    (rest.map (second ++ ·)).map (first ++ ·) = rest.map (first ++ second ++ ·) := by
  cases rest with
  | error error => rfl
  | ok behind => exact congrArg Except.ok (List.append_assoc first second behind).symm

/-- **Words in the tables are read on past**, whatever comes after them, and whatever addresses come
after the ones that they bind. -/
theorem exists_readings {bound : List AddressSource} (hwords : ∀ word ∈ words, IsWord word)
    (hcount : bindings words = bound.length) :
    ∃ readings, ReadAs words bound readings ∧
      ∀ width after left, activityOfWords width (words ++ after) (bound ++ left) =
        (activityOfWords width after left).map (readings.flatMap (·.steps width) ++ ·) := by
  induction words generalizing bound with
  | nil =>
    obtain rfl := List.length_eq_zero_iff.1 hcount.symm
    refine ⟨[], ⟨rfl, fun _ h => absurd h List.not_mem_nil, rfl⟩, ?_⟩
    intro width after left
    exact (congrFun Except.map_id (activityOfWords width after left)).symm
  | cons word words ih =>
    obtain ⟨entry, hentry, rfl⟩ := hwords word List.mem_cons_self
    have hrest : ∀ word ∈ words, IsWord word :=
      fun word hword => hwords word (List.mem_cons_of_mem _ hword)
    by_cases hbinder : entry.word ∈ binders
    · rw [bindings_cons_of_mem hbinder] at hcount
      obtain ⟨address, bound, rfl⟩ :=
        List.exists_cons_of_length_pos (Nat.lt_of_lt_of_eq (Nat.succ_pos _) hcount)
      obtain ⟨readings, hreadings, hsteps⟩ := ih hrest (Nat.succ.inj hcount)
      refine ⟨⟨entry, address⟩ :: readings, ?_, ?_⟩
      · refine ⟨congrArg (entry.word :: ·) hreadings.words, ?_, ?_⟩
        · exact List.forall_mem_cons.2 ⟨hentry, hreadings.entries⟩
        · rw [List.filter_cons_of_pos (by simpa using hbinder), List.map_cons, hreadings.bound]
      · intro width after left
        rw [List.cons_append, List.cons_append, (activityOfWords_cons hentry width).2 hbinder,
          hsteps, map_append_append]
        rfl
    · rw [bindings_cons_of_not_mem hbinder] at hcount
      obtain ⟨readings, hreadings, hsteps⟩ := ih hrest hcount
      refine ⟨⟨entry, .none⟩ :: readings, ?_, ?_⟩
      · refine ⟨congrArg (entry.word :: ·) hreadings.words, ?_, ?_⟩
        · exact List.forall_mem_cons.2 ⟨hentry, hreadings.entries⟩
        · rw [List.filter_cons_of_neg (by simpa using hbinder), hreadings.bound]
      · intro width after left
        rw [List.cons_append, (activityOfWords_cons hentry width).1 hbinder, hsteps,
          map_append_append]
        rfl

/-- So are fine words: they bind the first addresses. -/
theorem Fine.exists_readings (h : Fine words addresses) :
    ∃ readings, ReadAs words (addresses.take (bindings words)) readings ∧
      ∀ width after, activityOfWords width (words ++ after) addresses =
        (activityOfWords width after (addresses.drop (bindings words))).map
          (readings.flatMap (·.steps width) ++ ·) := by
  have hcount : bindings words = (addresses.take (bindings words)).length :=
    (List.length_take_of_le h.2).symm
  obtain ⟨readings, hreadings, hsteps⟩ := Pattern.exists_readings h.1 hcount
  refine ⟨readings, hreadings, fun width after => ?_⟩
  rw [← hsteps width after, List.take_append_drop]

/-! ## Errors -/

/-- A word at fault ends the reading. -/
theorem activityOfWords_of_fault {word : List Char} {error : PatternError}
    (h : Fault word addresses.length error) (width : Width) (after : List (List Char)) :
    activityOfWords width (word :: after) addresses = .error error := by
  cases h with
  | unknown hplain hsigned => simp only [activityOfWords, ofWord_unknown hplain hsigned]
  | unexpected hsign hword hstem hnone =>
    subst hword
    simp only [activityOfWords, ofWord_unexpected hsign hstem hnone]
  | missing hbinder hleft =>
    obtain ⟨entry, hentry, rfl⟩ := isWord_of_mem_binders word hbinder
    have htakes := takesAddress_eq entry hentry
    rw [decide_eq_true hbinder] at htakes
    rw [List.length_eq_zero_iff.1 hleft]
    simp only [activityOfWords, ofWord_of_mem entry hentry, htakes, if_true]

/-- Words of a pattern are fine, or one of them is the first at fault. -/
theorem fine_or_fault (words : List (List Char)) (addresses : List AddressSource) :
    Fine words addresses ∨
      ∃ before word after error, words = before ++ word :: after ∧ Fine before addresses ∧
        Fault word (addresses.length - bindings before) error := by
  -- from the end: the words before are fine, or the first at fault is among them
  induction words using List.reverseRecOn with
  | nil => exact .inl fine_nil
  | append_singleton words word ih =>
    rcases ih with hfine | ⟨before, fault, after, error, rfl, hbefore, hfault⟩
    · rcases isWord_or_fault word (addresses.length - bindings words) with hword | ⟨error, hfault⟩
      · by_cases hleft : word ∈ binders ∧ addresses.length - bindings words = 0
        · exact .inr ⟨words, word, [], _, rfl, hfine, .missing hleft.1 hleft.2⟩
        · refine .inl ⟨?_, ?_⟩
          · exact List.forall_mem_append.2 ⟨hfine.1, List.forall_mem_singleton.2 hword⟩
          · have hcount := hfine.2
            rw [bindings, List.countP_append, ← bindings, ← bindings]
            by_cases hbinder : word ∈ binders
            · rw [bindings_cons_of_mem hbinder]
              have hsome : addresses.length - bindings words ≠ 0 := fun h => hleft ⟨hbinder, h⟩
              change bindings words + (0 + 1) ≤ _
              omega
            · rw [bindings_cons_of_not_mem hbinder]
              exact hcount
      · exact .inr ⟨words, word, [], error, rfl, hfine, hfault⟩
    · refine .inr ⟨before, fault, after ++ [word], error, ?_, hbefore, hfault⟩
      rw [List.append_assoc, List.cons_append]

/-- The error of words is the fault that comes first. -/
theorem activityOfWords_eq_error_iff (width : Width) {error : PatternError} :
    activityOfWords width words addresses = .error error ↔
      ∃ before word after, words = before ++ word :: after ∧ Fine before addresses ∧
        Fault word (addresses.length - bindings before) error := by
  have hfirst {before after : List (List Char)} {word : List Char} {error : PatternError}
      (hbefore : Fine before addresses)
      (hfault : Fault word (addresses.length - bindings before) error) :
      activityOfWords width (before ++ word :: after) addresses = .error error := by
    obtain ⟨readings, -, hsteps⟩ := hbefore.exists_readings
    rw [← List.length_drop] at hfault
    rw [hsteps, activityOfWords_of_fault hfault]
    rfl
  constructor
  · intro h
    rcases fine_or_fault words addresses with hfine | ⟨before, word, after, error', rfl, hbefore,
      hfault⟩
    · obtain ⟨readings, -, hsteps⟩ := hfine.exists_readings
      have hok := hsteps width []
      rw [List.append_nil, h] at hok
      cases hok
    · rw [hfirst hbefore hfault] at h
      cases h
      exact ⟨before, word, after, rfl, hbefore, hfault⟩
  · rintro ⟨before, word, after, rfl, hbefore, hfault⟩
    exact hfirst hbefore hfault

end

/-! ## Widths -/

/-- The step with the signals that select data of a width. -/
def selecting (width : Width) (step : BusStep) : BusStep :=
  { step with
    signals :=
      { step.signals with selectByte := width == .byte, selectWord := width == .word } }

/-- A width selects the data of a transfer, which is its second step. -/
theorem transfer_selecting (read isProgram : Bool) (address : AddressSource) (slot : DataSlot)
    (action : StepAction) :
    ∃ strobe data, ∀ width,
      Activity.transfer read isProgram width address slot action = [strobe, selecting width data] :=
  ⟨{ length := .fixed 5
     signals := { newAddress := true, read := read, isProgram := isProgram }
     address := address
     slot := slot
     action := .none },
   { length := .fixed 3
     signals := { sameAddress := true, read := read, isProgram := isProgram }
     address := address
     slot := slot
     action := action }, fun _ => rfl⟩

/-- The words that transfer operands have their data selected by the width, -/
theorem steps_of_transfer {reading : Reading} (h : reading.token ∈ transfers.map Prod.snd) :
    ∃ strobe data, ∀ width, reading.steps width = [strobe, selecting width data] := by
  obtain ⟨⟨word, token, adjustment⟩, address⟩ := reading
  obtain ⟨pair, hpair, htoken⟩ := List.mem_map.1 h
  have hadjustable := isAdjustable_eq pair (List.mem_append_left _ hpair)
  rw [decide_eq_true (List.mem_map_of_mem hpair), htoken] at hadjustable
  cases token with
  | read side half => exact transfer_selecting true false address _ _
  | write half => exact transfer_selecting false false address _ _
  | _ => cases hadjustable

/-- and all others stand for the same steps at both. -/
theorem steps_of_not_transfer {reading : Reading} (h : reading.token ∉ transfers.map Prod.snd)
    (width width' : Width) : reading.steps width = reading.steps width' := by
  have hall (side : Side) (half : Half) :
      Token.read side half ∈ transfers.map Prod.snd ∧
        Token.write half ∈ transfers.map Prod.snd := by
    cases side <;> cases half <;> decide
  obtain ⟨⟨word, token, adjustment⟩, address⟩ := reading
  cases token with
  | read side half => exact absurd (hall side half).1 h
  | write half => exact absurd (hall .source half).2 h
  | _ => rfl

/-! ## Patterns -/

/-- The words of a pattern. -/
def patternWords (pattern : String) : List (List Char) := words pattern.toList

theorem parsePattern_eq (pattern : String) (addresses : List AddressSource) (width : Width) :
    parsePattern pattern addresses width =
      (activityOfWords width (patternWords pattern) addresses).map Activity.toProgram := by
  rw [parsePattern, blankSeparated_eq]
  rfl

/-- The steps of fine words, before the sentinel. -/
theorem parsePattern_of_fine {pattern : String} {addresses : List AddressSource}
    (h : Fine (patternWords pattern) addresses) :
    ∃ readings,
      ReadAs (patternWords pattern) (addresses.take (bindings (patternWords pattern))) readings ∧
      ∀ width, parsePattern pattern addresses width =
        .ok (readings.flatMap (·.steps width) ++ [.sentinel]) := by
  obtain ⟨readings, hreadings, hsteps⟩ := h.exists_readings
  refine ⟨readings, hreadings, fun width => ?_⟩
  have hwords := hsteps width []
  rw [List.append_nil] at hwords
  rw [parsePattern_eq, hwords]
  simp only [activityOfWords, Except.map, List.append_nil, Activity.toProgram]

/-- **The error of a pattern is the fault that comes first.** -/
theorem parsePattern_eq_error_iff {pattern : String} {addresses : List AddressSource}
    {width : Width} {error : PatternError} :
    parsePattern pattern addresses width = .error error ↔
      ∃ before word after, patternWords pattern = before ++ word :: after ∧ Fine before addresses ∧
        Fault word (addresses.length - bindings before) error := by
  rw [← activityOfWords_eq_error_iff width, parsePattern_eq]
  cases activityOfWords width (patternWords pattern) addresses with
  | error error => exact Iff.rfl
  | ok activity => exact iff_of_false (fun h => nomatch h) (fun h => nomatch h)

/-- **A pattern stands for a program exactly if it keeps to the grammar**, and there are enough
addresses. -/
theorem parsePattern_isOk_iff {pattern : String} {addresses : List AddressSource} {width : Width} :
    (∃ program, parsePattern pattern addresses width = .ok program) ↔
      Fine (patternWords pattern) addresses := by
  constructor
  · rintro ⟨program, hprogram⟩
    refine (fine_or_fault _ addresses).resolve_right ?_
    rintro ⟨before, word, after, error, hwords, hbefore, hfault⟩
    have herror : parsePattern pattern addresses width = .error error :=
      parsePattern_eq_error_iff.2 ⟨before, word, after, hwords, hbefore, hfault⟩
    rw [hprogram] at herror
    cases herror
  · intro h
    obtain ⟨readings, -, hparse⟩ := parsePattern_of_fine h
    exact ⟨_, hparse width⟩

/-- **What a pattern stands for begins with what its first part stands for**, if that binds the
first addresses, all of them. -/
theorem parsePattern_append {before after : String} {first second : List AddressSource}
    {width : Width} {program : List BusStep} (h : parsePattern before first width = .ok program)
    (hbinds : bindings (patternWords before) = first.length) :
    parsePattern (before ++ " " ++ after) (first ++ second) width =
      (parsePattern after second width).map (program.dropLast ++ ·) := by
  have hwords :
      patternWords (before ++ " " ++ after) = patternWords before ++ patternWords after := by
    simp only [patternWords, String.toList_append, List.append_assoc]
    exact words_append_blank (by decide) _ _
  obtain ⟨readings, -, hsteps⟩ := exists_readings (parsePattern_isOk_iff.1 ⟨program, h⟩).1 hbinds
  have hprogram : program = readings.flatMap (·.steps width) ++ [.sentinel] := by
    have hbefore := hsteps width [] []
    rw [List.append_nil, List.append_nil] at hbefore
    rw [parsePattern_eq, hbefore] at h
    cases h
    simp only [List.append_nil, Activity.toProgram]
  rw [parsePattern_eq, hwords, hsteps, parsePattern_eq, hprogram, List.dropLast_concat]
  cases activityOfWords width (patternWords after) second with
  | error error => rfl
  | ok activity => exact congrArg Except.ok (List.append_assoc _ activity _)

/-- A program has only its sentinel to end it. -/
theorem filter_isTerminal (readings : List Reading) (width : Width) :
    List.filter BusStep.isTerminal (readings.flatMap (·.steps width) ++ [.sentinel]) =
      [.sentinel] := by
  have hopen : ∀ step ∈ readings.flatMap (·.steps width), ¬ step.isTerminal := by
    intro step hstep
    obtain ⟨reading, -, hmem⟩ := List.mem_flatMap.1 hstep
    rw [open_activity reading.token reading.adjustment width reading.address step hmem]
    exact Bool.false_ne_true
  rw [List.filter_append, List.filter_eq_nil_iff.2 hopen]
  rfl

/-- **The patterns are those of the grammar.** A pattern stands for a program if all its words are
in the tables and no more of them bind an address than there are; otherwise its error is that of the
first word at fault. The program is made of the steps of the words, which bind the first addresses,
and of a sentinel, the only terminal step in it. Its width selects the data of the operands that it
transfers. Where a pattern binds all its addresses, it can be followed by another one with its
own. -/
theorem parsing (pattern : String) (addresses : List AddressSource) (width : Width) :
    let words := patternWords pattern
    ((∃ program, parsePattern pattern addresses width = .ok program) ↔
      (∀ word ∈ words, IsWord word) ∧ bindings words ≤ addresses.length) ∧
    (∀ error, parsePattern pattern addresses width = .error error ↔
      ∃ before word after, words = before ++ word :: after ∧
        ((∀ word ∈ before, IsWord word) ∧ bindings before ≤ addresses.length) ∧
        Fault word (addresses.length - bindings before) error) ∧
    ∀ program, parsePattern pattern addresses width = .ok program →
      (∃ readings : List Reading, ReadAs words (addresses.take (bindings words)) readings ∧
        program = readings.flatMap (·.steps width) ++ [.sentinel] ∧
        (∀ width', parsePattern pattern addresses width' =
          .ok (readings.flatMap (·.steps width') ++ [.sentinel])) ∧
        ∀ reading ∈ readings,
          if reading.token ∈ transfers.map Prod.snd then
            ∃ strobe data, ∀ width', reading.steps width' = [strobe, selecting width' data]
          else ∀ width', reading.steps width' = reading.steps width) ∧
      program.filter BusStep.isTerminal = [.sentinel] ∧
      (bindings words = addresses.length → ∀ after left,
        parsePattern (pattern ++ " " ++ after) (addresses ++ left) width =
          (parsePattern after left width).map (program.dropLast ++ ·)) := by
  intro words
  refine ⟨parsePattern_isOk_iff, fun error => parsePattern_eq_error_iff, ?_⟩
  intro program hprogram
  obtain ⟨readings, hreadings, hparse⟩ :=
    parsePattern_of_fine (parsePattern_isOk_iff.1 ⟨program, hprogram⟩)
  obtain rfl : program = readings.flatMap (·.steps width) ++ [.sentinel] :=
    Except.ok.inj (hprogram.symm.trans (hparse width))
  refine ⟨⟨readings, hreadings, rfl, hparse, ?_⟩, ?_, ?_⟩
  · intro reading _
    split
    · next htransfer => exact steps_of_transfer htransfer
    · next htransfer => exact fun width' => steps_of_not_transfer htransfer width' width
  · exact filter_isTerminal readings width
  · intro hbinds after left
    exact parsePattern_append hprogram hbinds

/-- A read with a sign and a byte that is written back, followed by a fetch. -/
theorem parsing_read_back :
    let addresses : List AddressSource := [.effectiveAddress 0, .effectiveAddress 1]
    let program := Activity.read .source .high (some .increment) .byte (.effectiveAddress 0) ++
      Activity.testAndSet (.effectiveAddress 1) ++ [.sentinel]
    parsePattern "nR+ tas" addresses .byte = .ok program ∧
      bindings (patternWords "nR+ tas") = addresses.length ∧
      parsePattern "nR+ tas np" addresses .byte =
        (parsePattern "np" [] .byte).map (program.dropLast ++ ·) := by
  intro addresses program
  have hprogram : parsePattern "nR+ tas" addresses .byte = .ok program := by decide +kernel
  have hbinds : bindings (patternWords "nR+ tas") = addresses.length := by decide +kernel
  obtain ⟨-, -, hparsed⟩ := parsing "nR+ tas" addresses .byte
  obtain ⟨-, -, happend⟩ := hparsed program hprogram
  exact ⟨hprogram, hbinds, happend hbinds "np" []⟩

end M68k.Pattern
