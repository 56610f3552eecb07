import M68k.Memory
import Mathlib.Tactic.IntervalCases

/-!
# Discreet buses

The word in a request is not always meant for the machine. A machine is discreet if it looks at the
signals, the address and the bits that a write selects, and at the vector number that an interrupt
acknowledge offers, but not at the former content of the place that a read will fill, nor at the
upper byte of a byte write. What it answers to a write is not listened to either.

## Main definitions

* `Signals.shown`, `Request.seen`: what a machine may look at
* `Reply.heard`: what the processor listens to
* `Bus.Alike`, `Bus.Discreet`: the same is heard whenever the same was seen
* `Bus.shown`: a bus behind what may be seen of a request

## Main results

* `Bus.Alike.next`: states that are alike give one answer, and stay alike
* `Bus.discreet_of_step`: a bus is discreet if each of its steps is
* `Bus.discreet_shown`: any bus is, behind what may be seen of a request
* `TestBench.discreet_access`: memory is discreet
-/

namespace M68k

/-- The bits of the word in a request that are meant for the machine. -/
def Signals.shown (signals : Signals) : Word :=
  if !signals.transfersData then 0
  else if signals.interruptAcknowledge then 0xFFFF
  else if signals.read then 0
  else if signals.selectWord then 0xFFFF
  else 0x00FF

/-- What a discreet machine sees of a request. -/
def Request.seen (request : Request) : Request :=
  { request with value := request.value &&& request.signals.shown }

/-- What the processor hears of a reply: only reads look at the word. -/
def Reply.heard (reply : Reply) (signals : Signals) : Reply :=
  { reply with value := if signals.isRead then reply.value else 0 }

namespace Bus

variable {β : Type} (bus : Bus β)

/-- What is heard in answer to requests in a row. -/
def answers : β → List Request → List Reply
  | _, [] => []
  | b, request :: requests =>
    (bus b request).1.heard request.signals :: answers (bus b request).2 requests

/-- Two states of a bus cannot be told apart by requests of which the same is seen. -/
def Alike (b c : β) : Prop :=
  ∀ requests others : List Request, requests.map Request.seen = others.map Request.seen →
    bus.answers b requests = bus.answers c others

/-- What is heard depends only on what the machine has seen since the state `b`. -/
def Discreet (b : β) : Prop := bus.Alike b b

variable {bus} {b c : β}

/-- **States that are alike give one answer, and stay alike.** -/
theorem Alike.next (h : bus.Alike b c) {request other : Request}
    (hseen : request.seen = other.seen) :
    (bus b request).1.heard request.signals = (bus c other).1.heard other.signals ∧
      bus.Alike (bus b request).2 (bus c other).2 := by
  have hlater (requests others : List Request)
      (hmap : requests.map Request.seen = others.map Request.seen) :=
    h (request :: requests) (other :: others) (by rw [List.map_cons, List.map_cons, hseen, hmap])
  constructor
  · exact (List.cons.inj (hlater [] [] rfl)).1
  · intro requests others hmap
    exact (List.cons.inj (hlater requests others hmap)).2

/-- A bus is discreet if in every state the answer and the next state depend only on what is
seen. -/
theorem discreet_of_step
    (hstep : ∀ (b : β) (request other : Request), request.seen = other.seen →
      (bus b request).1.heard request.signals = (bus b other).1.heard other.signals ∧
        (bus b request).2 = (bus b other).2) : bus.Discreet b := by
  intro requests
  induction requests generalizing b with
  | nil =>
    intro others hmap
    rw [List.map_eq_nil_iff.1 hmap.symm]
  | cons request requests ih =>
    intro others hmap
    obtain ⟨other, rest, rfl⟩ : ∃ other rest, others = other :: rest :=
      List.exists_cons_of_ne_nil (by rintro rfl; simp at hmap)
    obtain ⟨hseen, hrest⟩ := List.cons.inj hmap
    obtain ⟨hanswer, hstate⟩ := hstep b request other hseen
    rw [answers, answers, hanswer, hstate, ih rest hrest]

/-- The bus behind what may be seen of a request. -/
def shown (bus : Bus β) : Bus β := fun b request => bus b request.seen

/-- Any bus is discreet behind what may be seen. -/
theorem discreet_shown (bus : Bus β) (b : β) : bus.shown.Discreet b :=
  discreet_of_step fun b request other hseen => by
    have hsignals : request.signals = other.signals := (congrArg Request.signals hseen :)
    rw [shown, shown, hseen, hsignals]
    exact ⟨rfl, rfl⟩

end Bus

/-! ## Memory -/

/-- A byte is the lower half of its word. -/
theorem setWidth_byte_of_and {value value' : Word} (h : value &&& 0x00FF = value' &&& 0x00FF) :
    value.setWidth 8 = value'.setWidth 8 := by
  have hlow (x : Word) : (x &&& 0x00FF).setWidth 8 = x.setWidth 8 := by
    ext i hi
    interval_cases i <;> simp
  rw [← hlow, h, hlow]

/-- A word is all of its bits. -/
theorem eq_of_and_word {value value' : Word} (h : value &&& 0xFFFF = value' &&& 0xFFFF) :
    value = value' := by
  have hall (x : Word) : x &&& 0xFFFF = x := BitVec.and_allOnes
  rwa [hall, hall] at h

/-- A transfer stores what is seen of a write, and answers a read without looking at its word. -/
theorem Memory.transfer_of_seen (memory : Memory) {signals : Signals} {value value' : Word}
    (address : Long) (hdata : signals.transfersData)
    (hvector : signals.interruptAcknowledge = false)
    (hshown : value &&& signals.shown = value' &&& signals.shown) :
    (signals.read = true →
        (memory.transfer ⟨signals, address, value⟩).1 =
          (memory.transfer ⟨signals, address, value'⟩).1) ∧
      (memory.transfer ⟨signals, address, value⟩).2 =
        (memory.transfer ⟨signals, address, value'⟩).2 := by
  simp only [Signals.shown, hdata, hvector] at hshown
  cases hread : signals.read with
  | true => cases hbyte : signals.selectByte <;> simp [transfer, hread, hbyte]
  | false =>
    refine ⟨fun hread => by simp at hread, ?_⟩
    simp only [hread, Bool.not_true, Bool.false_eq_true, if_false] at hshown
    cases hword : signals.selectWord with
    | true =>
      have hwhole : value = value' := by
        simp only [hword, if_true] at hshown
        exact eq_of_and_word hshown
      rw [hwhole]
    | false =>
      have hbyte : signals.selectByte = true := by
        simpa [Signals.transfersData, hword] using hdata
      simp only [hword, Bool.false_eq_true, if_false] at hshown
      simp only [transfer, hread, hbyte, setWidth_byte_of_and hshown]

/-- **Memory is discreet**, with all that the test bench adds to it. -/
theorem TestBench.discreet_access (bench : TestBench) : access.Discreet bench := by
  apply Bus.discreet_of_step
  intro bench request other hseen
  obtain ⟨signals, address, value⟩ := request
  obtain ⟨signals', address', value'⟩ := other
  simp only [Request.seen, Request.mk.injEq] at hseen
  obtain ⟨rfl, rfl, hshown⟩ := hseen
  cases hdata : signals.transfersData with
  | false => simp [access, hdata, Reply.heard, Signals.isRead]
  | true =>
    cases hvector : signals.interruptAcknowledge with
    | true =>
      have hoffered : value = value' := by
        simp only [Signals.shown, hdata, hvector, Bool.not_true, Bool.false_eq_true, if_false,
          if_true] at hshown
        exact eq_of_and_word hshown
      rw [hoffered]
      exact ⟨rfl, rfl⟩
    | false =>
      obtain ⟨hread, hmemory⟩ := bench.memory.transfer_of_seen address hdata hvector hshown
      simp only [access, hdata, hvector, Bool.not_true, Bool.false_eq_true, if_false, Reply.heard,
        Signals.isRead, Bool.true_and, hmemory, and_true]
      cases hdirection : signals.read with
      | false => simp
      | true => simp [hread hdirection]

end M68k
