import M68k.Proofs.Flow.Reference
import M68k.Proofs.Interrupt.LevelSeven
import M68k.Proofs.Lanes.Tandem
import M68k.Proofs.Prefetch.Supply
import M68k.Proofs.Session.Termination

/-!
# Rounds

A program that executes the same instruction time and again goes round. What some of these
executions come to is told by how many they were, where the program goes on, what they have fetched
and how long they took. Rounds after rounds are rounds. A host may drive the interrupt inputs between
two of them, as long as no interrupt is pending when the next one starts.

## Main definitions

* `Run.afterCalls`: what calls of a host have come to
* `Processor.Uninterrupted`: calls that let no interrupt in
* `Rounds`, `Run.Completed`: what some executions of an instruction come to

## Main results

* `Run.Completed.after`: rounds after rounds
-/

namespace M68k

open Encoding Reference

variable {β : Type} {tables : Tables} {bus : Bus β} {words : Long → Word} {holds : β → Prop}

/-! ## Calls that let no interrupt in -/

/-- A processor on a bus, after some calls of a host at instruction boundaries. -/
def Run.afterCalls (tables : Tables) (bus : Bus β) (p : Processor) (b : β) (calls : List Call) :
    Run β :=
  calls.foldl (fun run call => (call.run tables bus run.processor run.bus).after run) (.begin p b)

theorem Run.afterCalls_concat (p : Processor) (b : β) (calls : List Call) (call : Call) :
    afterCalls tables bus p b (calls ++ [call]) =
      (call.run tables bus (afterCalls tables bus p b calls).processor
        (afterCalls tables bus p b calls).bus).after (afterCalls tables bus p b calls) :=
  List.foldl_append

namespace Processor

/-- The processor with its interrupt inputs driven as by some calls, none of which is run. -/
def driven (p : Processor) (calls : List Call) : Processor :=
  calls.foldl
    (fun p call =>
      match call with
      | .runInstruction => p
      | .setInterruptLevel level => p.setInterruptLevel level)
    p

theorem driven_concat (p : Processor) (calls : List Call) (call : Call) :
    p.driven (calls ++ [call]) = (p.driven calls).driven [call] :=
  List.foldl_append

theorem registers_driven (p : Processor) (calls : List Call) :
    (p.driven calls).registers = p.registers := by
  induction calls using List.reverseRecOn with
  | nil => rfl
  | append_singleton calls call ih =>
    rw [driven_concat, ← ih]
    cases call <;> rfl

/-- Under the mask of the processor no interrupt is pending whenever the calls run an
instruction. -/
def Uninterrupted (p : Processor) (calls : List Call) : Prop :=
  ∀ earlier, earlier ++ [.runInstruction] <+: calls → (p.driven earlier).pendingInterrupt? = none

instance (p : Processor) (calls : List Call) : Decidable (p.Uninterrupted calls) :=
  decidable_of_iff
    (∀ earlier ∈ calls.inits, earlier ++ [.runInstruction] <+: calls →
      (p.driven earlier).pendingInterrupt? = none)
    ⟨fun h earlier hearlier =>
      h earlier ((List.mem_inits _ _).2 ((List.prefix_append _ _).trans hearlier)) hearlier,
    fun h earlier _ => h earlier⟩

theorem Uninterrupted.of_prefix {p : Processor} {calls later : List Call}
    (h : p.Uninterrupted later) (hinit : calls <+: later) : p.Uninterrupted calls :=
  fun earlier hearlier => h earlier (hearlier.trans hinit)

end Processor

/-! ## Rounds after rounds -/

/-- What some executions of an instruction come to. -/
structure Rounds where
  /-- How many there were. -/
  count : Nat
  /-- Where the program goes on. -/
  next : Long
  /-- The registers there, the program counter aside. -/
  registers : Registers
  /-- The words fetched into the prefetch queue, the last one first. -/
  fetched : List Fetched
  /-- The time without waits. -/
  time : HalfCycles

variable (tables bus words holds) in
/-- A run from the state `b` of the bus has come to some executions of the same instruction. Of the
program that consists of `words`, the queue holds those to go on with. -/
structure Run.Completed (b : β) (start : Start) (rounds : Rounds) (run : Run β) : Prop where
  boundary : run.processor.atBoundary tables
  registers : run.processor.registers = goTo rounds.next rounds.registers
  prefetch : run.processor.prefetch = words rounds.next ++ words (rounds.next + 2)
  /-- Nothing else was started, and no interrupt accepted. -/
  starts : run.starts = List.replicate rounds.count start
  fetched : run.fetched = rounds.fetched
  spent : run.spent = rounds.time + bus.waits b run.requests
  since : run.Since bus b
  holds : holds run.bus

namespace Run

variable (run earlier : Run β)

theorem requests_after : (run.after earlier).requests = earlier.requests ++ run.requests := by
  simp only [requests, after, List.reverse_append, List.map_append]

theorem starts_after : (run.after earlier).starts = run.starts ++ earlier.starts := by
  simp only [starts, after, List.filterMap_append]

theorem fetched_after : (run.after earlier).fetched = run.fetched ++ earlier.fetched := by
  simp only [fetched, after, List.filterMap_append]

variable {run earlier} {b : β} {start : Start}

/-- **Rounds add up.** -/
theorem Completed.after {first second : Rounds}
    (h : run.Completed tables bus words holds earlier.bus start second)
    (hearlier : earlier.Completed tables bus words holds b start first) :
    (run.after earlier).Completed tables bus words holds b start
      { count := first.count + second.count
        next := second.next
        registers := second.registers
        fetched := second.fetched ++ first.fetched
        time := first.time + second.time } where
  boundary := h.boundary
  registers := h.registers
  prefetch := h.prefetch
  starts := by
    rw [starts_after, h.starts, hearlier.starts, ← List.replicate_add, Nat.add_comm]
  fetched := by rw [fetched_after, h.fetched, hearlier.fetched]
  spent := by
    have hadd (t t' w w' : Nat) : t' + w' + (t + w) = t + t' + (w + w') := by omega
    have hspent : (run.after earlier).spent = run.spent + earlier.spent := rfl
    rw [requests_after, Bus.waits_append, ← hearlier.since, hspent, h.spent, hearlier.spent]
    exact hadd _ _ _ _
  since := by
    have hbus : (run.after earlier).bus = run.bus := rfl
    rw [Since, requests_after, hbus, h.since, hearlier.since]
    exact List.foldl_append.symm
  holds := h.holds

/-- Interrupt inputs have no part in rounds. -/
theorem Completed.setInterruptLevel {rounds : Rounds}
    (h : run.Completed tables bus words holds b start rounds) (level : Level) :
    ((Run.begin (run.processor.setInterruptLevel level) run.bus).after run).Completed tables bus
      words holds b start rounds := by
  rw [after_begin]
  exact { h with }

end Run

end M68k
