import M68k.Proofs.Session.Additive

/-!
# Firing early is not seen on the bus

Behind each step the processor fires the micro-operations without bus activity that come next. A
lazy processor leaves them to the search for the next step, which fires them anyway. In between only
the host looks at the processor or changes it, and what it may change outside of the registers has
nothing to do with them. So both put the same on the bus, and the one is always ahead of the other
by what is still to be fired.

## Main definitions

* `Run.lazyStep`: a step behind which nothing is fired
* `TimedCall`, `Run.call`: what a host may ask of a processor, and how it is done
* `TimedCall.Answered`, `TimedCall.AllAnswered`: calls answered one step after the other, with any
  kind of step

## Main results

* `Run.step_fired`: a step of the lazy processor, and a step of the other one
* `Run.exists_lazy`: every schedule of calls, carried out lazily and not
-/

namespace M68k

open Encoding

variable {β : Type} {tables : Tables}

/-! ## Steps -/

namespace Processor

variable (tables) (p : Processor)

/-- Who goes along the whole chain in the end may stop on the way. -/
theorem follow_follow (wanted : MicroOp → Bool) :
    ((p.follow tables wanted).follow tables fun _ => true) = p.follow tables fun _ => true := by
  fun_induction follow tables wanted p with
  | case1 p hfollow ih =>
    obtain ⟨hphase, hended, hterminal, -⟩ := hfollow
    rw [ih, follow.eq_1 tables (fun _ => true) p, if_pos ⟨hphase, hended, hterminal, rfl⟩]
  | case2 => rfl

/-- The search for the next bus step fires what was not fired before. -/
theorem settle_fireBusFree : (p.fireBusFree tables).settle tables = p.settle tables := by
  simp only [settle, fireBusFree, follow_follow]

theorem fireBusFree_setInterruptLevel (level : Level) :
    (p.setInterruptLevel level).fireBusFree tables =
      (p.fireBusFree tables).setInterruptLevel level := by
  have houtside : (p.fireBusFree tables).outside = p.outside :=
    (blind_fireBusFree tables).outside p
  have hlevel (q : Processor) : q.setInterruptLevel level =
      q.withOutside
        { q.outside with
          interruptLevel := level
          levelSevenRose := q.outside.levelSevenRose ||
            (level == 7 && q.outside.interruptLevel != 7) } := rfl
  rw [hlevel, hlevel, houtside]
  exact blind_fireBusFree tables p _

/-- A new processor has nothing to fire. -/
theorem fireBusFree_initial : (initial tables).fireBusFree tables = initial tables := by
  rw [fireBusFree, follow, if_neg (by simp [initial, reset])]

end Processor

namespace Run

section

variable (tables)

/-- Run one bus step, and leave the micro-operations behind it to the next one. -/
def lazyStep (bus : Bus β) (run : Run β) : Run β :=
  let (settled, start) := run.processor.settle tables
  { run with processor := settled }.transact bus start (tables.step settled.busStep)

/-- Fire the micro-operations without bus activity that come next. -/
def fired (run : Run β) : Run β := run.modify (·.fireBusFree tables)

end

variable {bus : Bus β} (run : Run β)

@[simp] theorem debt_fired : (run.fired tables).processor.debt = run.processor.debt :=
  congrArg Outside.debt ((Processor.blind_fireBusFree tables).outside run.processor)

theorem owing_fired (debt : HalfCycles) :
    (run.fired tables).owing debt = (run.owing debt).fired tables :=
  congrArg run.withProcessor ((Processor.blind_fireBusFree tables).owing run.processor debt).symm

/-- **A step is a lazy step**, and the firing of what it has left. It does not matter whether
something was left by the step before. -/
theorem step_fired :
    (run.fired tables).step tables bus = (run.lazyStep tables bus).fired tables := by
  have hsettle : (run.fired tables).processor.settle tables = run.processor.settle tables :=
    run.processor.settle_fireBusFree tables
  have hlazy : (run.fired tables).lazyStep tables bus = run.lazyStep tables bus := by
    simp only [lazyStep, hsettle]
    rfl
  exact congrArg (fired tables) hlazy

theorem iterate_step_fired (n : Nat) :
    (step tables bus)^[n] (run.fired tables) = ((lazyStep tables bus)^[n] run).fired tables :=
  have hsemiconj : Function.Semiconj (fired tables) (lazyStep tables bus) (step tables bus) :=
    fun run => (step_fired run).symm
  (hsemiconj.iterate_right n run).symm

end Run

/-! ## Calls -/

/-- What a host may ask of a processor without looking into it. -/
inductive TimedCall
  | runFor (duration : HalfCycles)
  | setInterruptLevel (level : Level)

namespace Run

/-- Do what the host asks for. -/
def call (tables : Tables) (bus : Bus β) (run : Run β) : TimedCall → Run β
  | .runFor duration => (run.processor.runFor tables bus duration run.bus).after run
  | .setInterruptLevel level => run.modify (·.setInterruptLevel level)

end Run

namespace TimedCall

variable (advance : Run β → Run β)

/-- A call has led from one run to another, with `advance` for a step. No limit is kept. -/
inductive Answered : TimedCall → Run β → Run β → Prop
  /-- The time was run already. -/
  | covered {run : Run β} {duration : HalfCycles} (h : duration ≤ run.processor.debt) :
    Answered (.runFor duration) run (run.owing (run.processor.debt - duration))
  /-- Steps are run until the time is spent. -/
  | timed {run final : Run β} {duration : HalfCycles} {n : Nat} (h : run.processor.debt < duration)
    (hloop : Loop
      (fun next => decide (duration - run.processor.debt ≤ next.spent - run.spent)) advance n run
      final) :
    Answered (.runFor duration) run
      (final.owing (final.spent - run.spent - (duration - run.processor.debt)))
  | level (run : Run β) (level : Level) :
    Answered (.setInterruptLevel level) run (run.modify (·.setInterruptLevel level))

/-- Calls have led from one run to another, one after the other. -/
inductive AllAnswered : List TimedCall → Run β → Run β → Prop
  | nil (run : Run β) : AllAnswered [] run run
  | cons {call : TimedCall} {calls : List TimedCall} {run next final : Run β}
    (h : Answered advance call run next) (rest : AllAnswered calls next final) :
    AllAnswered (call :: calls) run final

variable {advance}

theorem Answered.unique {call : TimedCall} {run next other : Run β}
    (h : Answered advance call run next) (h' : Answered advance call run other) : next = other := by
  cases h with
  | covered hdebt =>
    cases h' with
    | covered => rfl
    | timed hlate => exact absurd hdebt (Nat.not_le_of_lt hlate)
  | timed hlate hloop =>
    cases h' with
    | covered hdebt => exact absurd hdebt (Nat.not_le_of_lt hlate)
    | timed _ hloop' =>
      obtain ⟨-, rfl⟩ := hloop.unique hloop'
      rfl
  | level =>
    cases h'
    rfl

/-- Calls lead to one run only. -/
theorem AllAnswered.unique {calls : List TimedCall} {run final other : Run β}
    (h : AllAnswered advance calls run final) (h' : AllAnswered advance calls run other) :
    final = other := by
  induction h with
  | nil =>
    cases h'
    rfl
  | cons hcall _ ih =>
    cases h' with
    | cons hcall' rest' =>
      obtain rfl := hcall.unique hcall'
      exact ih rest'

section

variable {bus : Bus β}

variable (bus) in
/-- A processor that is ready answers all calls. -/
theorem answered_call (hrealizes : tables.Realizes forms) {run : Run β}
    (h : run.processor.Ready tables) (call : TimedCall) :
    Answered (Run.step tables bus) call run (run.call tables bus call) := by
  cases call with
  | runFor duration =>
    rcases Nat.lt_or_ge run.processor.debt duration with hlate | hearly
    · obtain ⟨n, -, hloop⟩ :=
        h.loop_runFor hrealizes bus run.bus (duration - run.processor.debt)
      set final := (Run.begin run.processor run.bus).untilStop tables bus
        (fun next => duration - run.processor.debt ≤ next.spent)
        (2 * (duration - run.processor.debt) + 2)
      have hafter : Loop
          (fun next => decide (duration - run.processor.debt ≤ next.spent - run.spent))
          (Run.step tables bus) n ((Run.begin run.processor run.bus).after run)
          (final.after run) := by
        refine hloop.map (fun next => ?_) fun next _ => (Run.after_step next run).symm
        rw [show (next.after run).spent = next.spent + run.spent from rfl, Nat.add_sub_cancel]
      rw [show (Run.begin run.processor run.bus).after run = run from
        Run.after_begin run run.processor] at hafter
      have hanswered := Answered.timed hlate hafter
      rw [show (final.after run).spent = final.spent + run.spent from rfl,
        Nat.add_sub_cancel] at hanswered
      rw [Run.call, Processor.runFor_of_debt_lt bus run.bus hlate]
      exact hanswered
    · rw [Run.call, Processor.runFor_of_le_debt bus run.bus hearly, Run.after_begin]
      exact .covered hearly
  | setInterruptLevel level => exact .level run level

/-- What is answered by steps is answered by lazy steps as well, with something left to fire. -/
theorem exists_lazy_of_answered {call : TimedCall} {run next : Run β}
    (h : Answered (Run.step tables bus) call (run.fired tables) next) :
    ∃ lazy, Answered (Run.lazyStep tables bus) call run lazy ∧ lazy.fired tables = next := by
  generalize hrun : run.fired tables = real at h
  cases h with
  | covered hdebt =>
    subst hrun
    rw [Run.debt_fired] at hdebt ⊢
    exact ⟨_, .covered hdebt, (run.owing_fired _).symm⟩
  | timed hlate hloop =>
    subst hrun
    rw [Run.debt_fired] at hlate hloop ⊢
    have hadvance (next : Run β) :
        (next.fired tables).step tables bus = (next.lazyStep tables bus).fired tables :=
      next.step_fired
    obtain ⟨final, hlazy, rfl⟩ :=
      Loop.exists_of_map (fun _ => rfl) (fun next _ => hadvance next) hloop
    exact ⟨_, .timed hlate hlazy, (final.owing_fired _).symm⟩
  | level _ level =>
    subst hrun
    exact ⟨_, .level run level,
      congrArg run.withProcessor (run.processor.fireBusFree_setInterruptLevel tables level)⟩

end

end TimedCall

namespace Run

variable (bus : Bus β)

theorem reached_call {run : Run β} (h : run.processor.Reached tables) (call : TimedCall) :
    (run.call tables bus call).processor.Reached tables := by
  cases call with
  | runFor duration => exact h.runFor bus run.bus duration
  | setInterruptLevel level => exact h.setInterruptLevel level

/-- A lazy processor can go along with the other one through all calls. -/
theorem exists_allAnswered (hrealizes : tables.Realizes forms) (calls : List TimedCall)
    {run : Run β} (h : (run.fired tables).processor.Reached tables) :
    ∃ lazy, TimedCall.AllAnswered (lazyStep tables bus) calls run lazy ∧
      lazy.fired tables = calls.foldl (call tables bus) (run.fired tables) := by
  -- on the calls: behind each of them the lazy run still fires to the real one
  induction calls generalizing run with
  | nil => exact ⟨run, .nil run, rfl⟩
  | cons next calls ih =>
    obtain ⟨lazy, hanswered, hlazy⟩ := TimedCall.exists_lazy_of_answered
      (TimedCall.answered_call bus hrealizes (h.ready hrealizes) next)
    have hreached := reached_call bus h next
    rw [← hlazy] at hreached
    obtain ⟨final, hrest, hfinal⟩ := ih hreached
    exact ⟨final, .cons hanswered hrest, by rw [hfinal, hlazy, List.foldl_cons]⟩

variable (tables) in
/-- The lazy processor answers all calls from construction on, in one way only. At the end of them
and after any number of further steps it has run the same steps as the other one, with the same
requests, words and durations and with the same starts of instructions, interrupts and exceptions,
and it is about to decide the same. The other one is where the lazy one comes to when it fires what
it has left. -/
structure FollowedLazily (b : β) (calls : List TimedCall) (lazy : Run β) : Prop where
  answered : TimedCall.AllAnswered (lazyStep tables bus) calls (.begin (.initial tables) b) lazy
  unique : ∀ other,
    TimedCall.AllAnswered (lazyStep tables bus) calls (.begin (.initial tables) b) other →
      other = lazy
  same : ∀ n,
    let lazily := (lazyStep tables bus)^[n] lazy
    let real := (step tables bus)^[n] (calls.foldl (call tables bus) (.begin (.initial tables) b))
    real.history = lazily.history ∧ real.spent = lazily.spent ∧ real.bus = lazily.bus ∧
      real.processor.settle tables = lazily.processor.settle tables ∧
      real.processor = lazily.processor.fireBusFree tables

theorem exists_followedLazily (hrealizes : tables.Realizes forms) (b : β) (calls : List TimedCall) :
    ∃ lazy, FollowedLazily tables bus b calls lazy := by
  set start : Run β := .begin (.initial tables) b
  have hfired : start.fired tables = start :=
    congrArg start.withProcessor (Processor.fireBusFree_initial tables)
  have hreached : (start.fired tables).processor.Reached tables := by
    rw [hfired]
    exact .initial
  obtain ⟨lazy, hanswered, hlazy⟩ := exists_allAnswered bus hrealizes calls hreached
  rw [hfired] at hlazy
  refine ⟨lazy, hanswered, fun other hother => hother.unique hanswered, fun n => ?_⟩
  rw [← hlazy, iterate_step_fired]
  exact ⟨rfl, rfl, rfl, Processor.settle_fireBusFree tables _, rfl⟩

/-- **Firing early is not seen on the bus**, whatever the bus is and however the host drives the
processor from construction on. -/
theorem exists_lazy (b : β) (calls : List TimedCall) :
    ∃ lazy, FollowedLazily (.compile forms) bus b calls lazy :=
  exists_followedLazily bus Tables.realizes_compile b calls

end Run

end M68k
