import M68k.Bus.Pattern
import M68k.Proofs.Encoding.Shape

/-!
# The grammar of bus patterns

The words of a pattern stand between blanks. A word is one of twenty-one tokens, and the six that
transfer operands may end in a sign. These six and `tas` bind an address each. Here that is written
down as tables, and the tokens and adjustments that words are read as are the ones in them.

## Main definitions

* `Pattern.words`: the words of a text
* `Pattern.vocabulary`, `Pattern.transfers`: the tokens, and those that take a sign
* `Pattern.lexicon`, `Pattern.IsWord`: all words with what they mean
* `Pattern.binders`, `Pattern.bindings`: the words that bind an address, and how many there are
* `Pattern.Fault`: what can be wrong with a word

## Main results

* `Pattern.blankSeparated_eq`: texts are taken apart at blanks
* `Pattern.ofWord_of_mem`: words are read as the tables say
* `Pattern.ofWord_unknown`, `Pattern.ofWord_unexpected`: so are words that are in none
* `Pattern.isWord_or_fault`: a word that is in no table is at fault
-/

namespace M68k.Pattern

/-! ## Words -/

/-- The words of a text: whatever stands between two blanks, unless it is empty. -/
def words (text : List Char) : List (List Char) := (text.splitOnP isBlank).filter (· ≠ [])

/-- A blank parts two texts. -/
theorem words_append_blank {c : Char} (hc : isBlank c) (before after : List Char) :
    words (before ++ c :: after) = words before ++ words after := by
  rw [words, List.splitOnP_append_cons before after hc, List.filter_append]
  rfl

theorem words_cons_blank {c : Char} (hc : isBlank c) (rest : List Char) :
    words (c :: rest) = words rest := by
  rw [words, List.splitOnP_cons_eq_if_modifyHead, if_pos hc]
  rfl

/-- A word that begins before a blank is a single character. -/
theorem words_cons_cons_blank {c next : Char} (hc : isBlank c = false) (hnext : isBlank next)
    (rest : List Char) : words (c :: next :: rest) = [c] :: words (next :: rest) := by
  simp only [words, List.splitOnP_cons_eq_if_modifyHead, hc, hnext, if_true,
    Bool.false_eq_true, if_false, List.modifyHead_cons]
  rfl

/-- Any other character begins the word that the next one is in. -/
theorem words_cons_cons {c next : Char} (hc : isBlank c = false) (hnext : isBlank next = false)
    (rest : List Char) :
    ∃ word others, words (next :: rest) = word :: others ∧
      words (c :: next :: rest) = (c :: word) :: others := by
  obtain ⟨piece, pieces, hpieces⟩ := List.exists_cons_of_ne_nil (List.splitOnP_ne_nil isBlank rest)
  simp only [words, List.splitOnP_cons_eq_if_modifyHead, hc, hnext, Bool.false_eq_true, if_false,
    hpieces, List.modifyHead_cons]
  exact ⟨next :: piece, _, rfl, rfl⟩

/-- Texts are taken apart at blanks. -/
theorem blankSeparated_eq (text : List Char) : blankSeparated text = words text := by
  induction text with
  | nil =>
    rw [words, List.splitOnP_nil]
    rfl
  | cons c rest ih =>
    cases hc : isBlank c with
    | true => simp only [words_cons_blank hc, blankSeparated.eq_def (c :: rest), hc, if_true, ih]
    | false =>
      simp only [blankSeparated.eq_def (c :: rest), hc, Bool.false_eq_true, if_false, ih]
      rcases rest with - | ⟨next, rest⟩
      · simp only [words, List.splitOnP_cons_eq_if_modifyHead, hc, Bool.false_eq_true, if_false,
          List.splitOnP_nil, List.modifyHead_cons]
        rfl
      cases hnext : isBlank next with
      | true =>
        rw [words_cons_cons_blank hc hnext]
        cases words (next :: rest) with
        | nil => rfl
        | cons word others => simp only [hnext, if_true]
      | false =>
        obtain ⟨word, others, hword, hwords⟩ := words_cons_cons hc hnext rest
        rw [hword, hwords]
        simp only [hnext, Bool.false_eq_true, if_false]

/-! ## Tables of words -/

/-- The tokens that transfer operands. -/
def transfers : List (List Char × Token) :=
  [(['n', 'R'], .read .source .high),
   (['n', 'r'], .read .source .low),
   (['n', 'R', 'd'], .read .destination .high),
   (['n', 'r', 'd'], .read .destination .low),
   (['n', 'W'], .write .high),
   (['n', 'w'], .write .low)]

/-- All tokens. -/
def vocabulary : List (List Char × Token) :=
  transfers ++
    [(['t', 'a', 's'], .testAndSet),
     (['n'], .idle 4),
     (['n', 'n'], .idle 8),
     (['r'], .flexible),
     (['n', 'p'], .fetch),
     (['n', 'F'], .fetchStackPointer .high),
     (['n', 'f'], .fetchStackPointer .low),
     (['n', 'V'], .fetchVector .high),
     (['n', 'v'], .fetchVector .low),
     (['n', 'S'], .stackWrite .high),
     (['n', 's'], .stackWrite .low),
     (['n', 'U'], .stackRead .high),
     (['n', 'u'], .stackRead .low),
     (['_'], .resetHold),
     (['i'], .interruptAcknowledge)]

/-- The signs of adjustments. -/
def signs : List (Char × Adjustment) := [('+', .increment), ('-', .decrement)]

/-- A word and what it means. -/
structure Entry where
  word : List Char
  token : Token
  adjustment : Option Adjustment
deriving DecidableEq

/-- All words: the tokens, and the transfers with a sign. -/
def lexicon : List Entry :=
  (vocabulary.map fun (spelling, token) => ⟨spelling, token, none⟩) ++
    transfers.flatMap fun (spelling, token) =>
      signs.map fun (sign, adjustment) => ⟨spelling ++ [sign], token, some adjustment⟩

/-- The word is in the tables. -/
def IsWord (word : List Char) : Prop := ∃ entry ∈ lexicon, entry.word = word

/-- The words that bind an address: the transfers, with and without a sign, and `tas`. -/
def binders : List (List Char) :=
  ['t', 'a', 's'] ::
    transfers.flatMap fun (spelling, _) => [spelling, spelling ++ ['+'], spelling ++ ['-']]

/-- How many addresses the words bind. -/
def bindings (words : List (List Char)) : Nat := words.countP (· ∈ binders)

/-- What is wrong with a word that stops the reading, with `left` addresses left to bind. A word
that is no token, with a sign or without, is not known, and only then is it asked whether it takes a
sign. -/
inductive Fault (word : List Char) (left : Nat) : PatternError → Prop
  | unknown (hplain : word ∉ vocabulary.map Prod.fst)
    (hsigned : ∀ stem, ∀ sign ∈ signs.map Prod.fst,
      word = stem ++ [sign] → stem ∉ vocabulary.map Prod.fst) :
    Fault word left (.unknownToken (String.ofList word))
  | unexpected {stem : List Char} {sign : Char} (hsign : sign ∈ signs.map Prod.fst)
    (hword : word = stem ++ [sign]) (hstem : stem ∈ vocabulary.map Prod.fst)
    (hnone : stem ∉ transfers.map Prod.fst) :
    Fault word left (.unexpectedAdjustment (String.ofList word))
  | missing (hbinder : word ∈ binders) (hleft : left = 0) :
    Fault word left (.missingAddress (String.ofList word))

/-! ## Readings of words -/

theorem ofSpelling?_of_mem : ∀ pair ∈ vocabulary, Token.ofSpelling? pair.1 = some pair.2 := by
  decide

theorem mem_of_ofSpelling? {spelling : List Char} {token : Token}
    (h : Token.ofSpelling? spelling = some token) : (spelling, token) ∈ vocabulary := by
  unfold Token.ofSpelling? at h
  split at h <;> cases h <;> decide

theorem ofSpelling?_eq_none {spelling : List Char} (h : spelling ∉ vocabulary.map Prod.fst) :
    Token.ofSpelling? spelling = none := by
  cases htoken : Token.ofSpelling? spelling with
  | none => rfl
  | some token => exact absurd (List.mem_map_of_mem (mem_of_ofSpelling? htoken)) h

theorem isAdjustable_eq : ∀ pair ∈ vocabulary,
    pair.2.isAdjustable = decide (pair.1 ∈ transfers.map Prod.fst) := by
  decide

/-- The words in the tables are read as what they mean. -/
theorem ofWord_of_mem : ∀ entry ∈ lexicon,
    Token.ofWord entry.word = .ok (entry.token, entry.adjustment) := by
  decide

theorem takesAddress_eq : ∀ entry ∈ lexicon,
    entry.token.takesAddress = decide (entry.word ∈ binders) := by
  decide

theorem isWord_of_mem_binders : ∀ word ∈ binders, IsWord word := by
  have hall : ∀ word ∈ binders, word ∈ lexicon.map Entry.word := by decide
  intro word hword
  exact List.mem_map.1 (hall word hword)

/-- No token ends in a sign. -/
theorem concat_sign_not_mem (stem : List Char) {sign : Char} (hsign : sign ∈ signs.map Prod.fst) :
    stem ++ [sign] ∉ vocabulary.map Prod.fst := by
  have hall : ∀ pair ∈ vocabulary, ∀ mark ∈ signs, pair.1.getLast? ≠ some mark.1 := by decide
  intro hmem
  obtain ⟨pair, hpair, hspelling⟩ := List.mem_map.1 hmem
  obtain ⟨mark, hmark, rfl⟩ := List.mem_map.1 hsign
  exact hall pair hpair mark hmark (hspelling ▸ List.getLast?_concat)

theorem isWord_of_mem {spelling : List Char} (h : spelling ∈ vocabulary.map Prod.fst) :
    IsWord spelling := by
  obtain ⟨pair, hpair, rfl⟩ := List.mem_map.1 h
  exact ⟨⟨pair.1, pair.2, none⟩, List.mem_append_left _ (List.mem_map_of_mem hpair), rfl⟩

theorem isWord_concat_sign {stem : List Char} (hstem : stem ∈ transfers.map Prod.fst) {sign : Char}
    (hsign : sign ∈ signs.map Prod.fst) : IsWord (stem ++ [sign]) := by
  obtain ⟨pair, hpair, rfl⟩ := List.mem_map.1 hstem
  obtain ⟨mark, hmark, rfl⟩ := List.mem_map.1 hsign
  exact ⟨⟨pair.1 ++ [mark.1], pair.2, some mark.2⟩,
    List.mem_append_right _ (List.mem_flatMap.2 ⟨pair, hpair, List.mem_map_of_mem hmark⟩), rfl⟩

/-- A word that is in no table is at fault, however many addresses are left. -/
theorem isWord_or_fault (word : List Char) (left : Nat) :
    IsWord word ∨ ∃ error, Fault word left error := by
  by_cases hsigned : ∃ stem, ∃ sign ∈ signs.map Prod.fst, word = stem ++ [sign]
  · obtain ⟨stem, sign, hsign, rfl⟩ := hsigned
    by_cases hstem : stem ∈ vocabulary.map Prod.fst
    · by_cases htransfer : stem ∈ transfers.map Prod.fst
      · exact .inl (isWord_concat_sign htransfer hsign)
      · exact .inr ⟨_, .unexpected hsign rfl hstem htransfer⟩
    · refine .inr ⟨_, .unknown (concat_sign_not_mem stem hsign) ?_⟩
      rintro stem' sign' - hword
      obtain ⟨rfl, -⟩ := List.append_inj' hword rfl
      exact hstem
  · by_cases hword : word ∈ vocabulary.map Prod.fst
    · exact .inl (isWord_of_mem hword)
    · refine .inr ⟨_, .unknown hword ?_⟩
      intro stem sign hsign hstem
      exact absurd ⟨stem, sign, hsign, hstem⟩ hsigned

theorem splitAdjustment_concat {sign : Char} (hsign : sign ∈ signs.map Prod.fst)
    (stem : List Char) :
    ∃ adjustment, Token.splitAdjustment (stem ++ [sign]) = (stem, some adjustment) := by
  simp only [signs, List.map_cons, List.map_nil, List.mem_cons, List.not_mem_nil, or_false] at hsign
  rcases hsign with rfl | rfl <;> simp [Token.splitAdjustment]

theorem splitAdjustment_unsigned {word : List Char}
    (h : ¬ ∃ stem, ∃ sign ∈ signs.map Prod.fst, word = stem ++ [sign]) :
    Token.splitAdjustment word = (word, none) := by
  unfold Token.splitAdjustment
  split
  · next hlast =>
    obtain ⟨stem, hword⟩ := List.getLast?_eq_some_iff.1 hlast
    exact absurd ⟨stem, '+', by decide, hword⟩ h
  · next hlast =>
    obtain ⟨stem, hword⟩ := List.getLast?_eq_some_iff.1 hlast
    exact absurd ⟨stem, '-', by decide, hword⟩ h
  · rfl

/-- A word that is not known is read as such, -/
theorem ofWord_unknown {word : List Char} (hplain : word ∉ vocabulary.map Prod.fst)
    (hsigned : ∀ stem, ∀ sign ∈ signs.map Prod.fst,
      word = stem ++ [sign] → stem ∉ vocabulary.map Prod.fst) :
    Token.ofWord word = .error (.unknownToken (String.ofList word)) := by
  rw [Token.ofWord]
  by_cases h : ∃ stem, ∃ sign ∈ signs.map Prod.fst, word = stem ++ [sign]
  · obtain ⟨stem, sign, hsign, rfl⟩ := h
    obtain ⟨adjustment, hsplit⟩ := splitAdjustment_concat hsign stem
    simp only [hsplit, ofSpelling?_eq_none (hsigned stem sign hsign rfl)]
  · simp only [splitAdjustment_unsigned h, ofSpelling?_eq_none hplain]

/-- and so is one with a sign that it does not take. -/
theorem ofWord_unexpected {stem : List Char} {sign : Char} (hsign : sign ∈ signs.map Prod.fst)
    (hstem : stem ∈ vocabulary.map Prod.fst) (hnone : stem ∉ transfers.map Prod.fst) :
    Token.ofWord (stem ++ [sign]) =
      .error (.unexpectedAdjustment (String.ofList (stem ++ [sign]))) := by
  obtain ⟨pair, hpair, rfl⟩ := List.mem_map.1 hstem
  obtain ⟨adjustment, hsplit⟩ := splitAdjustment_concat hsign pair.1
  have hadjustable := isAdjustable_eq pair hpair
  rw [decide_eq_false hnone] at hadjustable
  simp only [Token.ofWord, hsplit, ofSpelling?_of_mem pair hpair, hadjustable, Option.isSome_some,
    Bool.not_false, Bool.and_self, if_true]

end M68k.Pattern
