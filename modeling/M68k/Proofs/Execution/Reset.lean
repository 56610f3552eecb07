import M68k.Proofs.Execution.Exchange
import M68k.Proofs.Memory.Transfers
import M68k.Proofs.Registers

/-!
# The reset sequence

Idle times, then the reads of the initial stack pointer and of the initial program counter, then a
full prefetch queue: what can be seen of it is settled by the program counter that was read, and what
becomes of a processor by the answers to its reads.

## Main definitions

* `resetPattern`: what is seen of the sequence, but for the waits
* `LongReply`, `ResetReplies`: the answers to the reads of a long word, and to the whole sequence

## Main results

* `Processor.timeless_hear_reset`: what becomes of a processor
* `Processor.observed_reset`: what is seen
-/

namespace M68k

open FixedPrograms

/-! ## What is seen of it -/

/-- The idle times in front of the reads. -/
def resetIdles : List HalfCycles := [4, 4, 4, 4, 4, 8]

/-- An idle time, as it is seen. -/
def idleTime (length : HalfCycles) : Asked := (⟨.idle, 0, 0⟩, length)

/-- The steps of the read of a program word, as they are seen, with the time that each takes. -/
def programRead (address : Long) : List Asked :=
  [(⟨{ newAddress := true, read := true, isProgram := true }, address, 0⟩, 5),
   (⟨{ sameAddress := true, read := true, selectWord := true, isProgram := true }, address, 0⟩, 3)]

/-- The steps of the reset sequence, as they are seen, if it finds the program at `entry`. -/
def resetPattern (entry : Long) : List Asked :=
  resetIdles.map idleTime ++
    [0, 2, 4, 6, entry, entry + 2].flatMap programRead

/-- The sequence has eighteen steps, and takes 76 half-cycles without waits. -/
theorem resetPattern_eq (entry : Long) :
    (resetPattern entry).length = resetActivity.length ∧
      ((resetPattern entry).map (·.2)).sum = 76 :=
  ⟨rfl, by simp [resetPattern, resetIdles, idleTime, programRead]⟩

/-- Up to the read of the program counter it is fixed. -/
theorem take_resetPattern (entry : Long) :
    (resetPattern entry).take 14 =
      resetIdles.map idleTime ++
        [0, 2, 4, 6].flatMap programRead := by
  have hparts : resetPattern entry =
      (resetIdles.map idleTime ++
        [0, 2, 4, 6].flatMap programRead) ++ [entry, entry + 2].flatMap programRead := rfl
  rw [hparts]
  exact List.take_left' rfl

/-- What is seen of steps that are answered, each with the wait in its answer. -/
def waited (steps : List Asked) (replies : List Reply) : List Observed :=
  List.zipWith (fun step reply => ⟨step.1, step.2 + reply.wait⟩) steps replies

/-- The answers to the reads of the two words of a long word, the high one first. To a read there is
one answer when its address is strobed and another one when its data is selected. -/
structure LongReply where
  strobeHigh : Reply
  high : Reply
  strobeLow : Reply
  low : Reply

namespace LongReply

/-- The answers in order. -/
def replies (long : LongReply) : List Reply :=
  [long.strobeHigh, long.high, long.strobeLow, long.low]

/-- The long word that is read. -/
def value (long : LongReply) : Long := long.high.value ++ long.low.value

theorem replies_injective {long other : LongReply}
    (h : long.replies = other.replies) : long = other := by
  cases long
  cases other
  simpa [replies] using h

end LongReply

theorem waited_append {steps : List Asked} {replies : List Reply}
    (h : steps.length = replies.length) (later : List Asked)
    (laterReplies : List Reply) :
    waited (steps ++ later) (replies ++ laterReplies) =
      waited steps replies ++ waited later laterReplies :=
  List.zipWith_append h

/-- The time of steps that are answered. -/
theorem sum_waited (steps : List Asked) (replies : List Reply) (h : steps.length = replies.length) :
    ((waited steps replies).map (·.duration)).sum =
      (steps.map (·.2)).sum + (replies.map (·.wait)).sum := by
  induction steps generalizing replies with
  | nil =>
    cases replies with
    | nil => rfl
    | cons reply replies => cases h
  | cons step steps ih =>
    cases replies with
    | nil => cases h
    | cons reply replies =>
      have hrest := ih replies (Nat.succ.inj h)
      simp only [waited, List.zipWith_cons_cons, List.map_cons, List.sum_cons] at hrest ⊢
      rw [hrest]
      exact Nat.add_add_add_comm _ _ _ _

theorem request_waited {steps : List Asked} {replies : List Reply}
    (h : steps.length = replies.length) :
    (waited steps replies).map (·.request) = steps.map (·.1) := by
  induction steps generalizing replies with
  | nil => rfl
  | cons step steps ih =>
    cases replies with
    | nil => cases h
    | cons reply replies => exact congrArg (step.1 :: ·) (ih (Nat.succ.inj h))

/-- A step which shows none of its word shows a zero. -/
theorem Request.seen_of_shown {signals : Signals} (h : signals.shown = 0) (address : Long)
    (value : Word) : (⟨signals, address, value⟩ : Request).seen = ⟨signals, address, 0⟩ := by
  rw [Request.seen, h]
  exact congrArg (Request.mk signals address) BitVec.and_zero

namespace Processor

variable (p : Processor)

/-! ### Idle times -/

theorem timeless_hear_idles (lengths : List HalfCycles) (replies : List Reply) :
    (p.hear ((lengths.flatMap Activity.idle).zip replies)).timeless = p.timeless := by
  induction lengths generalizing p replies with
  | nil => rfl
  | cons length lengths ih =>
    cases replies with
    | nil => rfl
    | cons reply replies => exact ih _ replies

theorem observed_idles (lengths : List HalfCycles) (replies : List Reply) :
    (p.asks ((lengths.flatMap Activity.idle).zip replies)).map Asked.observed =
      waited (lengths.map idleTime) replies := by
  induction lengths generalizing p replies with
  | nil => rfl
  | cons length lengths ih =>
    cases replies with
    | nil => rfl
    | cons reply replies =>
      have hsplit : (((length :: lengths).flatMap Activity.idle).zip (reply :: replies)) =
          (Activity.idle length).zip [reply] ++ (lengths.flatMap Activity.idle).zip replies := rfl
      rw [hsplit, asks_append, List.map_append, ih, List.map_cons]
      simp only [Activity.idle, List.zip_cons_cons, List.zip_nil_left, asks, List.map_cons,
        List.map_nil, Asked.observed, request]
      rw [Request.seen_of_shown (by rfl)]
      rfl

/-! ### Reads -/

/-- What is seen of the read of a program word. -/
theorem observed_programRead (slot : DataSlot) (action : StepAction) (address : AddressSource)
    (strobe word : Reply) :
    (p.asks ((Activity.transfer true true .word address slot action).zip [strobe, word])).map
        Asked.observed =
      waited (programRead (p.resolve address)) [strobe, word] := by
  have hsecond (step : BusStep) :
      (p.receive ⟨.fixed 5, { newAddress := true, read := true, isProgram := true }, address, slot,
        .none⟩ strobe).request step = p.request step := by
    rw [← request_timeless, ← p.request_timeless]
    rfl
  simp only [Activity.transfer, List.zip_cons_cons, List.zip_nil_left, asks, List.map_cons,
    List.map_nil, Asked.observed, hsecond]
  simp only [request]
  rw [Request.seen_of_shown (by rfl), Request.seen_of_shown (by rfl)]
  rfl

/-- What becomes of the processor. The strobe takes time only. -/
theorem timeless_hear_programRead (slot : DataSlot) (action : StepAction) (address : AddressSource)
    (strobe word : Reply) :
    (p.hear ((Activity.transfer true true .word address slot action).zip [strobe, word])).timeless =
      ((p.storeSlot slot word.value false).applyStepAction action).timeless := by
  set strobed : BusStep :=
    ⟨.fixed 5, { newAddress := true, read := true, isProgram := true }, address, slot, .none⟩
  have hstrobe : (p.receive strobed strobe).timeless = (p.applyStepAction strobed.action).timeless :=
    p.timeless_receive_of_not_read strobe rfl rfl
  exact (timeless_hear [(_, word)] hstrobe).trans
    (p.timeless_receive_of_read word (by rfl) (by rfl))

theorem effectiveAddress_storeSlot (slot : DataSlot) (value : Word) (byte : Bool) :
    (p.storeSlot slot value byte).effectiveAddress = p.effectiveAddress := by
  cases slot <;> rfl

/-- The read of a long word that the source address points at, whose halves go to some slots. -/
def readLong (slot : Half → DataSlot) : Activity :=
  .transfer true true .word (.ofSide .source) (slot .high) (.incrementEffectiveAddress .source) ++
    .transfer true true .word (.ofSide .source) (slot .low) (.incrementEffectiveAddress .source)

/-- What is seen of the read of a long word. -/
theorem observed_readLong (slot : Half → DataSlot) (long : LongReply) :
    (p.asks ((readLong slot).zip long.replies)).map Asked.observed =
      waited ([p.effectiveAddress.source, p.effectiveAddress.source + 2].flatMap programRead)
        long.replies := by
  set first := (Activity.transfer true true .word (.ofSide .source) (slot .high)
    (.incrementEffectiveAddress .source)).zip [long.strobeHigh, long.high] with hfirst
  have hmoved : (p.hear first).effectiveAddress.source = p.effectiveAddress.source + 2 := by
    have htimeless := p.timeless_hear_programRead (slot .high) (.incrementEffectiveAddress .source)
      (.ofSide .source) long.strobeHigh long.high
    have haddress := congrArg (·.effectiveAddress.source) htimeless
    refine haddress.trans ?_
    change (p.storeSlot (slot .high) long.high.value false).effectiveAddress.source + 2 = _
    rw [effectiveAddress_storeSlot]
  have hsplit : (readLong slot).zip long.replies = first ++
      (Activity.transfer true true .word (.ofSide .source) (slot .low)
        (.incrementEffectiveAddress .source)).zip [long.strobeLow, long.low] := rfl
  rw [hsplit, asks_append, List.map_append, hfirst, observed_programRead, ← hfirst,
    observed_programRead]
  have haddress : (p.hear first).resolve (.ofSide .source) = p.effectiveAddress.source + 2 := hmoved
  rw [haddress]
  rfl

/-- What is seen of a fetch. -/
theorem observed_fetch (strobe word : Reply) :
    (p.asks (Activity.fetch.zip [strobe, word])).map Asked.observed =
      waited (programRead p.registers.pc) [strobe, word] := by
  simp only [Activity.fetch, List.zip_cons_cons, List.zip_nil_left, asks, List.map_cons,
    List.map_nil, Asked.observed]
  simp only [request]
  rw [Request.seen_of_shown (by rfl), Request.seen_of_shown (by rfl)]
  rfl

/-- What is seen when the prefetch queue is filled. -/
theorem observed_fill (long : LongReply) :
    (p.asks ((Activity.fetch ++ .fetch).zip long.replies)).map Asked.observed =
      waited ([p.registers.pc, p.registers.pc + 2].flatMap programRead) long.replies := by
  have hsplit : (Activity.fetch ++ .fetch).zip long.replies =
      Activity.fetch.zip [long.strobeHigh, long.high] ++
        Activity.fetch.zip [long.strobeLow, long.low] := rfl
  rw [hsplit, asks_append, List.map_append, observed_fetch, observed_fetch]
  rfl

/-! ### What becomes of the processor -/

theorem timeless_hear_readLong (slot : Half → DataSlot) (long : LongReply) :
    (p.hear ((readLong slot).zip long.replies)).timeless =
      (((p.storeSlot (slot .high) long.high.value false).applyStepAction
        (.incrementEffectiveAddress .source)).storeSlot (slot .low) long.low.value
          false |>.applyStepAction (.incrementEffectiveAddress .source)).timeless := by
  have hfirst := p.timeless_hear_programRead (slot .high) (.incrementEffectiveAddress .source)
    (.ofSide .source) long.strobeHigh long.high
  exact (timeless_hear _ hfirst).trans (timeless_hear_programRead _ (slot .low)
    (.incrementEffectiveAddress .source) (.ofSide .source) long.strobeLow long.low)

theorem timeless_hear_stackPointer (long : LongReply) :
    (p.hear ((readLong .stackPointer).zip long.replies)).timeless =
      { p with
        registers := p.registers.setSp long.value
        effectiveAddress :=
          p.effectiveAddress.set .source (p.effectiveAddress.source + 2 + 2) }.timeless := by
  have hhalves : (p.registers.setSp (Half.high.set p.registers.sp long.high.value)).setSp
      (Half.low.set (p.registers.setSp (Half.high.set p.registers.sp long.high.value)).sp
        long.low.value) = p.registers.setSp long.value := by
    simp only [Registers.sp, Registers.setSp, Registers.setAddress_setAddress,
      Registers.address_setAddress_self, Half.low_set_high_set, LongReply.value]
  rw [timeless_hear_readLong, ← hhalves]
  rfl

theorem timeless_hear_vector (long : LongReply) :
    (p.hear ((readLong .programCounter).zip long.replies)).timeless =
      { p.setPc long.value with
        effectiveAddress :=
          p.effectiveAddress.set .source (p.effectiveAddress.source + 2 + 2) }.timeless := by
  rw [timeless_hear_readLong, LongReply.value, ← Half.low_set_high_set p.registers.pc]
  rfl

theorem timeless_hear_fetch (strobe word : Reply) :
    (p.hear (Activity.fetch.zip [strobe, word])).timeless = (p.fetch word.value).timeless := by
  set strobed : BusStep := ⟨.fixed 5, { newAddress := true, read := true, isProgram := true },
    .programCounter, .prefetch, .advancePrefetch⟩
  set selected : BusStep :=
    ⟨.fixed 3, { sameAddress := true, read := true, selectWord := true, isProgram := true },
      .programCounter, .prefetch, .incrementProgramCounter⟩
  have hstrobe : (p.receive strobed strobe).timeless = (p.applyStepAction strobed.action).timeless :=
    p.timeless_receive_of_not_read strobe rfl rfl
  have hselect := (p.applyStepAction strobed.action).timeless_receive_of_read word
    (show selected.length = .fixed 3 from rfl) rfl
  have hexchanges : p.hear (Activity.fetch.zip [strobe, word]) =
      (p.receive strobed strobe).hear [(selected, word)] := rfl
  rw [hexchanges, timeless_hear _ hstrobe, fetch, ← Half.low_set_high_set p.prefetch]
  exact hselect

theorem timeless_hear_fill (long : LongReply) :
    (p.hear ((Activity.fetch ++ .fetch).zip long.replies)).timeless =
      { p.setPc (p.registers.pc + 2 + 2) with prefetch := long.value }.timeless := by
  have hlow : Half.low.get (Half.low.get p.prefetch ++ long.high.value) = long.high.value :=
    BitVec.extractLsb'_append_eq_right
  have hboth : (p.fetch long.high.value).fetch long.low.value =
      { p.setPc (p.registers.pc + 2 + 2) with prefetch := long.value } := by
    simp only [fetch, hlow]
    rfl
  have hsplit : (Activity.fetch ++ .fetch).zip long.replies =
      Activity.fetch.zip [long.strobeHigh, long.high] ++
        Activity.fetch.zip [long.strobeLow, long.low] := rfl
  rw [hsplit, hear_append, timeless_hear _ (p.timeless_hear_fetch long.strobeHigh long.high),
    timeless_hear_fetch, hboth]

end Processor

/-! ## The whole sequence -/

/-- The answers to the steps of the reset sequence. -/
structure ResetReplies where
  /-- One for each idle time. -/
  idles : List Reply
  length_idles : idles.length = 6
  stack : LongReply
  entry : LongReply
  queue : LongReply

namespace ResetReplies

variable {r s : ResetReplies}

/-- The answers in order. -/
def replies (r : ResetReplies) : List Reply :=
  r.idles ++ (r.stack.replies ++ (r.entry.replies ++ r.queue.replies))

theorem exists_of_length {replies : List Reply} (h : replies.length = resetActivity.length) :
    ∃ r : ResetReplies, r.replies = replies := by
  match replies, h with
  | [i₀, i₁, i₂, i₃, i₄, i₅, s₀, w₀, s₁, w₁, s₂, w₂, s₃, w₃, s₄, w₄, s₅, w₅], _ =>
    exact ⟨⟨[i₀, i₁, i₂, i₃, i₄, i₅], rfl, ⟨s₀, w₀, s₁, w₁⟩, ⟨s₂, w₂, s₃, w₃⟩, ⟨s₄, w₄, s₅, w₅⟩⟩,
      rfl⟩

/-- The exchanges of the reset sequence, part by part. -/
theorem zip_replies (r : ResetReplies) :
    resetActivity.zip r.replies =
      (resetIdles.flatMap Activity.idle).zip r.idles ++
        ((Processor.readLong .stackPointer).zip r.stack.replies ++
          ((Processor.readLong .programCounter).zip r.entry.replies ++
            (Activity.fetch ++ .fetch).zip r.queue.replies)) := by
  have hparts : resetActivity = resetIdles.flatMap Activity.idle ++
      (Processor.readLong .stackPointer ++
        (Processor.readLong .programCounter ++ (Activity.fetch ++ .fetch))) := rfl
  have hidles : (resetIdles.flatMap Activity.idle).length = r.idles.length :=
    r.length_idles.symm
  have hlong (slot : Half → DataSlot) (long : LongReply) :
      (Processor.readLong slot).length = long.replies.length := rfl
  rw [hparts, replies, List.zip_append hidles, List.zip_append (hlong _ _),
    List.zip_append (hlong _ _)]

theorem length_replies (r : ResetReplies) : r.replies.length = resetActivity.length := by
  rw [replies, List.length_append, r.length_idles]
  rfl

/-- The answers up to the read of the program counter. -/
theorem take_replies (r : ResetReplies) :
    r.replies.take 14 = r.idles ++ (r.stack.replies ++ r.entry.replies) := by
  rw [replies, List.take_append, r.length_idles,
    List.take_of_length_le (by rw [r.length_idles]; decide)]
  rfl

theorem entry_of_take (h : r.replies.take 14 = s.replies.take 14) : r.entry = s.entry := by
  rw [take_replies, take_replies] at h
  have hlongs := (List.append_inj h (r.length_idles.trans s.length_idles.symm)).2
  exact LongReply.replies_injective (List.append_inj hlongs rfl).2

theorem replies_injective (h : r.replies = s.replies) : r = s := by
  obtain ⟨hidles, hlongs⟩ := List.append_inj h (r.length_idles.trans s.length_idles.symm)
  obtain ⟨hstack, hlongs⟩ := List.append_inj hlongs rfl
  obtain ⟨hentry, hqueue⟩ := List.append_inj hlongs rfl
  cases r
  cases s
  simp only [mk.injEq]
  exact ⟨hidles, LongReply.replies_injective hstack, LongReply.replies_injective hentry,
    LongReply.replies_injective hqueue⟩

end ResetReplies

namespace Processor

variable (p : Processor) (r : ResetReplies)

/-- The processor behind each part of the reset sequence, out of place and time. -/
theorem timeless_hear_parts :
    let idled := p.hear ((resetIdles.flatMap Activity.idle).zip r.idles)
    let stacked := idled.hear ((readLong .stackPointer).zip r.stack.replies)
    let entered := stacked.hear ((readLong .programCounter).zip r.entry.replies)
    idled.timeless = p.timeless ∧
      stacked.timeless =
        { p with
          registers := p.registers.setSp r.stack.value
          effectiveAddress :=
            p.effectiveAddress.set .source (p.effectiveAddress.source + 2 + 2) }.timeless ∧
      entered.timeless =
        { p with
          registers := { p.registers.setSp r.stack.value with pc := r.entry.value }
          effectiveAddress :=
            p.effectiveAddress.set .source (p.effectiveAddress.source + 2 + 2 + 2 + 2) }.timeless := by
  intro idled stacked entered
  have hidled : idled.timeless = p.timeless := p.timeless_hear_idles _ _
  have hstacked := (timeless_hear _ hidled).trans (p.timeless_hear_stackPointer r.stack)
  exact ⟨hidled, hstacked, (timeless_hear _ hstacked).trans (timeless_hear_vector _ r.entry)⟩

/-- **What becomes of the processor** in the reset sequence. -/
theorem timeless_hear_reset :
    (p.hear (resetActivity.zip r.replies)).timeless =
      { p with
        registers := { p.registers.setSp r.stack.value with pc := r.entry.value + 2 + 2 }
        prefetch := r.queue.value
        effectiveAddress :=
          p.effectiveAddress.set .source
            (p.effectiveAddress.source + 2 + 2 + 2 + 2) }.timeless := by
  obtain ⟨-, -, hentered⟩ := p.timeless_hear_parts r
  rw [r.zip_replies, hear_append, hear_append, hear_append, timeless_hear _ hentered,
    timeless_hear_fill]
  rfl

/-- **What is seen of the reset sequence.** -/
theorem observed_reset (hsource : p.effectiveAddress.source = 0) :
    (p.asks (resetActivity.zip r.replies)).map Asked.observed =
      waited (resetPattern r.entry.value) r.replies := by
  obtain ⟨hidled, hstacked, hentered⟩ := p.timeless_hear_parts r
  have hpattern : resetPattern r.entry.value =
      resetIdles.map idleTime ++
        ([0, 2].flatMap programRead ++
          ([4, 6].flatMap programRead ++
            [r.entry.value, r.entry.value + 2].flatMap programRead)) := rfl
  rw [r.zip_replies, asks_append, asks_append, asks_append, asks_congr _ hidled,
    asks_congr _ hstacked, asks_congr _ hentered]
  simp only [List.map_append, observed_idles, observed_readLong, observed_fill]
  rw [hpattern, ResetReplies.replies, waited_append (by rw [r.length_idles]; rfl), waited_append rfl,
    waited_append rfl]
  simp only [hsource]
  rfl

end Processor

end M68k
