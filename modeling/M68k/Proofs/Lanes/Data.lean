import M68k.Proofs.Execution.Exchange

/-!
# The data on the bus

Of the word in a byte transfer only the lower half travels, and a wait puts off what follows but
says nothing. What is left of a bus are the data that it answers reads with. Two buses with the same
data may differ in their waits, and in the upper half of bytes that are read.

## Main definitions

* `Request.presented`, `Reply.data`: what travels in either direction
* `Bus.data`, `Bus.waits`: the data in answer to requests in a row, and the waits that go with them
* `Bus.SameData`: two buses have the same data for each other's requests

## Main results

* `Bus.SameData.next`: buses with the same data answer with the same data, and go on to
* `TestBench.sameData_access`: neither waits nor a stuck lane change the data of memory
-/

namespace M68k

/-- The request without the upper half of a byte that is written. -/
def Request.presented (request : Request) : Request :=
  if request.signals.isWrite && request.signals.selectByte then
    { request with value := request.value &&& 0x00FF }
  else request

/-- The data in an answer: a word or a byte, if the step reads one. -/
def Reply.data (reply : Reply) (signals : Signals) : Word :=
  if !signals.isRead then 0
  else if signals.selectByte then reply.value &&& 0x00FF
  else reply.value

@[simp] theorem Request.signals_presented (request : Request) :
    request.presented.signals = request.signals := by
  unfold presented
  split <;> rfl

theorem Request.address_presented (request : Request) :
    request.presented.address = request.address := by
  unfold presented
  split <;> rfl

namespace Bus

variable {β γ : Type}

/-- The data in answer to requests in a row. -/
def data (bus : Bus β) : β → List Request → List Word
  | _, [] => []
  | b, request :: requests =>
    (bus b request).1.data request.signals :: bus.data (bus b request).2 requests

/-- The time that a bus makes the processor wait for requests in a row. -/
def waits (bus : Bus β) : β → List Request → HalfCycles
  | _, [] => 0
  | b, request :: requests => (bus b request).1.wait + bus.waits (bus b request).2 requests

/-- Two buses answer with the same data whenever they were presented with the same requests. -/
def SameData (bus : Bus β) (other : Bus γ) (b : β) (c : γ) : Prop :=
  ∀ requests others : List Request,
    requests.map Request.presented = others.map Request.presented →
      bus.data b requests = other.data c others

variable {bus : Bus β} {other : Bus γ} {b : β} {c : γ}

/-- **Buses with the same data** answer with the same data, and go on to. -/
theorem SameData.next (h : bus.SameData other b c) (request : Request) :
    (bus b request).1.data request.signals = (other c request).1.data request.signals ∧
      bus.SameData other (bus b request).2 (other c request).2 := by
  constructor
  · exact (List.cons.inj (h [request] [request] rfl)).1
  · intro requests others hmap
    have hlater := h (request :: requests) (request :: others) (by
      rw [List.map_cons, List.map_cons, hmap])
    exact (List.cons.inj hlater).2

/-- Waits add up over requests. -/
theorem waits_append (b : β) (first second : List Request) :
    bus.waits b (first ++ second) =
      bus.waits b first + bus.waits (bus.follow b first) second := by
  induction first generalizing b with
  | nil => exact (Nat.zero_add _).symm
  | cons request first ih =>
    rw [List.cons_append, waits, waits, ih, Nat.add_assoc]
    rfl

/-- Two buses have the same data if states that are related answer with the same data, and stay
related. -/
theorem sameData_of_step (related : β → γ → Prop)
    (hstep : ∀ b c, related b c → ∀ request other' : Request,
      request.presented = other'.presented →
        (bus b request).1.data request.signals = (other c other').1.data other'.signals ∧
          related (bus b request).2 (other c other').2)
    (h : related b c) : bus.SameData other b c := by
  intro requests
  induction requests generalizing b c with
  | nil =>
    intro others hmap
    rw [List.map_eq_nil_iff.1 hmap.symm]
    rfl
  | cons request requests ih =>
    intro others hmap
    obtain ⟨first, rest, rfl⟩ : ∃ first rest, others = first :: rest :=
      List.exists_cons_of_ne_nil (by rintro rfl; simp at hmap)
    obtain ⟨hpresented, hrest⟩ := List.cons.inj hmap
    obtain ⟨hdata, hnext⟩ := hstep b c h request first hpresented
    rw [data, data, hdata, ih hnext rest hrest]

end Bus

/-! ## Memory -/

/-- What is presented of a request settles what memory does with it. -/
theorem Memory.transfer_of_presented (memory : Memory) {request other : Request}
    (hpresented : request.presented = other.presented) (hdata : request.signals.transfersData) :
    (request.signals.read → (memory.transfer request).1 = (memory.transfer other).1) ∧
      (memory.transfer request).2 = (memory.transfer other).2 := by
  obtain ⟨signals, address, value⟩ := request
  obtain ⟨signals', address', value'⟩ := other
  obtain rfl : signals = signals' := by
    simpa using congrArg Request.signals hpresented
  obtain rfl : address = address' := by
    simpa [Request.address_presented] using congrArg Request.address hpresented
  simp only at hdata
  cases hread : signals.read <;> cases hbyte : signals.selectByte <;>
    simp [Request.presented, Signals.isWrite, hdata, hread, hbyte] at hpresented
  · simp [transfer, hread, hbyte, hpresented]
  · simp [transfer, hread, hbyte, setWidth_byte_of_and hpresented]
  · simp [transfer, hread, hbyte]
  · simp [transfer, hread, hbyte]

/-- The data of a byte that is read do not show what disturbs the upper half. -/
theorem and_low_disturbed (value highByte : Word) :
    (value ||| (highByte &&& 0xFF00)) &&& 0x00FF = value &&& 0x00FF := by
  rw [BitVec.and_or_distrib_right, BitVec.and_assoc]
  simp

/-- **Neither waits nor a stuck lane change the data of memory.** -/
theorem TestBench.sameData_access (bench : TestBench) (wait idleWait : HalfCycles)
    (highByte : Word) :
    Bus.SameData access access bench
      { bench with wait := wait, idleWait := idleWait, highByte := highByte } := by
  refine Bus.sameData_of_step
    (fun b c => c.memory = b.memory ∧ c.vector = b.vector) ?_ ⟨rfl, rfl⟩
  rintro b c ⟨hmemory, hvector⟩ request other hpresented
  have hsignals : other.signals = request.signals := by
    simpa using (congrArg Request.signals hpresented).symm
  cases hdata : request.signals.transfersData with
  | false => simp [access, hsignals, hdata, Reply.data, Signals.isRead, hmemory, hvector]
  | true =>
    cases hacknowledge : request.signals.interruptAcknowledge with
    | true =>
      refine ⟨?_, ?_⟩
      · cases hread : request.signals.read with
        | false => simp [Reply.data, Signals.isRead, hsignals, hread]
        | true =>
          obtain rfl : request = other := by
            simpa [Request.presented, Signals.isWrite, hsignals, hread] using hpresented
          simp only [access, hdata, hacknowledge, hvector, Bool.not_true, Bool.false_eq_true,
            if_false, if_true, Reply.data]
      · simp [access, hsignals, hdata, hacknowledge, hmemory, hvector]
    | false =>
      obtain ⟨hread, hstored⟩ := b.memory.transfer_of_presented hpresented hdata
      refine ⟨?_, ?_⟩
      · cases hdirection : request.signals.read with
        | false => simp [Reply.data, Signals.isRead, hsignals, hdirection]
        | true =>
          have hword := hread hdirection
          simp only [access, Reply.data, Signals.isRead, hsignals, hdata, hacknowledge, hdirection,
            hmemory, hword, Bool.not_true, Bool.false_eq_true, if_false, Bool.true_and]
          split
          · rw [and_low_disturbed, and_low_disturbed]
          · rfl
      · simp [access, hsignals, hdata, hacknowledge, hmemory, hvector, hstored]

end M68k
