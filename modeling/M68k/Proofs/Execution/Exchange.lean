import M68k.Proofs.Latches.Steps

/-!
# What a processor hears

A bus gets at a processor through its answers alone. What a processor asks for in some steps, and
what becomes of it, is a function of the answers to these steps, whatever the bus is.

## Main definitions

* `Exchange`: a bus step with the answer to it
* `Processor.hear`, `Processor.asks`: what becomes of a processor in some exchanges, and what it asks
  for
* `Bus.follow`: what becomes of a bus
* `Run.Exchanged`: a run that some exchanges lead to

## Main results

* `Run.exists_exchanged`: an activity is performed by exchanges
* `Bus.Alike.follow`: buses that cannot be told apart stay so
-/

namespace M68k

/-! ## Buses -/

namespace Bus

variable {β : Type} (bus : Bus β)

/-- The bus after some requests. -/
def follow (b : β) (requests : List Request) : β :=
  requests.foldl (fun b request => (bus b request).2) b

theorem take_answers (b : β) (requests : List Request) (n : Nat) :
    (bus.answers b requests).take n = bus.answers b (requests.take n) := by
  induction requests generalizing b n with
  | nil => rw [answers, List.take_nil, List.take_nil, answers]
  | cons request requests ih =>
    cases n with
    | zero => rfl
    | succ n => rw [answers, List.take_succ_cons, List.take_succ_cons, answers, ih]

/-- **Buses that cannot be told apart stay so**, if the same is seen of what they are asked. -/
theorem Alike.follow {bus : Bus β} {b c : β} (h : bus.Alike b c) {requests others : List Request}
    (hseen : requests.map Request.seen = others.map Request.seen) :
    bus.Alike (bus.follow b requests) (bus.follow c others) := by
  induction requests generalizing b c others with
  | nil =>
    obtain rfl := List.map_eq_nil_iff.1 hseen.symm
    exact h
  | cons request requests ih =>
    obtain ⟨other, rest, rfl⟩ : ∃ other rest, others = other :: rest :=
      List.exists_cons_of_ne_nil (by rintro rfl; simp at hseen)
    obtain ⟨hfirst, hrest⟩ := List.cons.inj hseen
    exact ih (h.next hfirst).2 hrest

end Bus

/-! ## Processors -/

/-- A bus step with the answer to it. -/
abbrev Exchange := BusStep × Reply

/-- A request with the time that its step takes. -/
abbrev Asked := Request × HalfCycles

/-- What can be seen of a request. -/
def Asked.observed (asked : Asked) : Observed := ⟨asked.1.seen, asked.2⟩

namespace Processor

/-- The processor after some exchanges. -/
def hear (p : Processor) (exchanges : List Exchange) : Processor :=
  exchanges.foldl (fun p exchange => p.receive exchange.1 exchange.2) p

/-- What the processor asks for in some exchanges. -/
def asks (p : Processor) : List Exchange → List Asked
  | [] => []
  | (step, reply) :: exchanges =>
    (p.request step, p.duration step + reply.wait) :: (p.receive step reply).asks exchanges

variable (p : Processor)

theorem hear_append (first second : List Exchange) :
    p.hear (first ++ second) = (p.hear first).hear second :=
  List.foldl_append

theorem asks_append (first second : List Exchange) :
    p.asks (first ++ second) = p.asks first ++ (p.hear first).asks second := by
  induction first generalizing p with
  | nil => rfl
  | cons exchange first ih => exact congrArg _ (ih _)

/-- Of an answer the processor takes in what it listens to. -/
theorem receive_heard (step : BusStep) (reply : Reply) :
    p.receive step (reply.heard step.signals) = p.receive step reply := by
  cases hread : step.signals.isRead <;> simp [receive, Reply.heard, hread]

/-! ### Time does not matter -/

theorem timeless_receive_timeless (step : BusStep) (reply : Reply) :
    (p.timeless.receive step reply).timeless = (p.receive step reply).timeless :=
  (p.timeless.timeless_receive step reply).trans (p.timeless_receive step reply).symm

theorem timeless_hear (exchanges : List Exchange) {p q : Processor}
    (h : p.timeless = q.timeless) : (p.hear exchanges).timeless = (q.hear exchanges).timeless := by
  induction exchanges generalizing p q with
  | nil => exact h
  | cons exchange exchanges ih =>
    refine ih ?_
    rw [← p.timeless_receive_timeless, h, q.timeless_receive_timeless]

theorem asks_congr (exchanges : List Exchange) {p q : Processor}
    (h : p.timeless = q.timeless) : p.asks exchanges = q.asks exchanges := by
  induction exchanges generalizing p q with
  | nil => rfl
  | cons exchange exchanges ih =>
    obtain ⟨step, reply⟩ := exchange
    have hrequest : p.request step = q.request step := by
      rw [← p.request_timeless, h, q.request_timeless]
    have hduration : p.duration step = q.duration step :=
      (congrArg (Processor.duration · step) h :)
    rw [asks, asks, hrequest, hduration, ih]
    rw [← p.timeless_receive_timeless, h, q.timeless_receive_timeless]

end Processor

/-! ## Runs -/

/-- What a step has asked for. -/
def StepRecord.asked (record : StepRecord) : Asked := (record.request, record.duration)

namespace Run

variable {β : Type} (bus : Bus β)

/-- A run that exchanges lead to. -/
structure Exchanged (run final : Run β) (exchanges : List Exchange) : Prop where
  timeless : final.processor.timeless = (run.processor.hear exchanges).timeless
  asked : final.history.map (·.asked) =
    (run.processor.asks exchanges).reverse ++ run.history.map (·.asked)
  spent : final.spent = run.spent + ((run.processor.asks exchanges).map (·.2)).sum
  answers : bus.answers run.bus ((run.processor.asks exchanges).map (·.1)) = exchanges.map (·.2)
  bus : final.bus = bus.follow run.bus ((run.processor.asks exchanges).map (·.1))

/-- **An activity is performed by exchanges**, each of its steps with what is heard in answer. -/
theorem exists_exchanged (activity : Activity) (run : Run β) :
    ∃ replies : List Reply, replies.length = activity.length ∧
      Exchanged bus run (run.perform bus activity) (activity.zip replies) := by
  induction activity generalizing run with
  | nil => exact ⟨[], rfl, rfl, rfl, rfl, rfl, rfl⟩
  | cons step activity ih =>
    set reply := (bus run.bus (run.processor.request step)).1
    obtain ⟨replies, hlength, h⟩ := ih (run.transact bus none step)
    have hprocessor : (run.transact bus none step).processor =
        run.processor.receive step (reply.heard step.signals) :=
      (run.processor.receive_heard step reply).symm
    refine ⟨reply.heard step.signals :: replies, congrArg (· + 1) hlength, ?_⟩
    rw [List.zip_cons_cons, perform_cons]
    obtain ⟨htimeless, hasked, hspent, hanswers, hbus⟩ := h
    rw [hprocessor] at htimeless hasked hspent hanswers hbus
    exact
      { timeless := htimeless
        asked := by
          rw [hasked, Processor.asks, List.reverse_cons, List.append_assoc]
          rfl
        spent := by
          rw [hspent, Processor.asks, List.map_cons, List.sum_cons, ← Nat.add_assoc]
          rfl
        answers := congrArg (reply.heard step.signals :: ·) hanswers
        bus := hbus }

variable {bus} {run final other : Run β} {exchanges : List Exchange}

namespace Exchanged

/-- Places and marks of boundaries do not count. -/
theorem of_unplaced (h : Exchanged bus run final exchanges)
    (hsame : other.unplaced = final.unplaced) : Exchanged bus run other exchanges where
  timeless := (congrArg (·.processor) (snapshot_of_unplaced hsame)).trans h.timeless
  asked := (map_history_of_unplaced hsame fun _ => rfl).trans h.asked
  spent := (congrArg (·.spent) hsame).trans h.spent
  answers := h.answers
  bus := (bus_of_unplaced hsame).trans h.bus

/-- What is seen of the exchanges. -/
theorem observed (h : Exchanged bus run final exchanges) :
    final.observed =
      ((run.processor.asks exchanges).map Asked.observed).reverse ++ run.observed := by
  have hasked := congrArg (List.map Asked.observed) h.asked
  rwa [List.map_append, List.map_reverse, List.map_map, List.map_map] at hasked

/-- What is asked for from the beginning of a run. -/
theorem requests {p : Processor} {b : β} (h : Exchanged bus (begin p b) final exchanges) :
    final.history.reverse.map (·.request) = (p.asks exchanges).map (·.1) := by
  have hasked := congrArg (fun asked => (asked.map Prod.fst).reverse) h.asked
  have hbegin : (begin p b).history.map (·.asked) = [] := rfl
  rw [hbegin, List.append_nil, List.map_reverse, List.reverse_reverse, List.map_map] at hasked
  rw [List.map_reverse]
  exact hasked

end Exchanged

end Run

end M68k
