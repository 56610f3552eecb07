import M68k.Processor.Run
import Mathlib.Logic.Function.Iterate

/-!
# Loops

Runs go round until some condition holds, and nothing bounds them but that condition. A loop that
comes to an end does so in one state only, after one number of rounds. Where a limit is kept, it
does no harm as long as the condition holds in the end.

## Main definitions

* `Loop`: a loop comes to its end after some number of rounds

## Main results

* `Loop.unique`: the end and the number of rounds are unique
* `Loop.trans`: a loop may be interrupted at a weaker condition
* `Loop.map`, `Loop.exists_of_map`, `Loop.exists_of_related`: two loops that go in step
* `Run.exists_loop_of_untilStop`: a limited run that was not cut short is a loop
-/

namespace M68k

variable {σ τ : Type}

/-- The loop that goes round until `stop` holds comes to its end after some number of rounds. -/
inductive Loop (stop : σ → Bool) (advance : σ → σ) : Nat → σ → σ → Prop
  | done {s : σ} (h : stop s) : Loop stop advance 0 s s
  | again {n : Nat} {s t : σ} (h : stop s = false) (rest : Loop stop advance n (advance s) t) :
    Loop stop advance (n + 1) s t

namespace Loop

variable {stop : σ → Bool} {advance : σ → σ} {n m : Nat} {s t u : σ}

/-- Where a loop has ended its condition holds. -/
theorem stopped (h : Loop stop advance n s t) : stop t := by
  induction h with
  | done hstop => exact hstop
  | again _ _ ih => exact ih

/-- **A loop has one end**, and comes to it in one number of rounds. -/
theorem unique (h : Loop stop advance n s t) (h' : Loop stop advance m s u) : n = m ∧ t = u := by
  -- in each round both look at the same state, so that neither stops before the other
  induction h generalizing m u with
  | done hstop =>
    cases h' with
    | done => exact ⟨rfl, rfl⟩
    | again hgoes => simp [hstop] at hgoes
  | again hgoes _ ih =>
    cases h' with
    | done hstop => simp [hstop] at hgoes
    | again _ rest =>
      obtain ⟨hcount, hend⟩ := ih rest
      exact ⟨congrArg (· + 1) hcount, hend⟩

/-- A loop may be interrupted where a weaker condition holds, and go on from there. -/
theorem trans {earlier : σ → Bool} (h : Loop earlier advance n s t)
    (hweaker : ∀ s, stop s → earlier s) (h' : Loop stop advance m t u) :
    Loop stop advance (n + m) s u := by
  induction h with
  | done => rwa [Nat.zero_add]
  | @again k s t hgoes _ ih =>
    have hcontinues : stop s = false := by
      by_contra hstop
      have hearlier := hweaker s (by simpa using hstop)
      simp [hearlier] at hgoes
    rw [Nat.add_right_comm]
    exact .again hcontinues (ih h')

section Map

variable {stop' : τ → Bool} {advance' : τ → τ} {f : σ → τ}

/-- A loop that goes in step with another one ends with it. -/
theorem map (hstop : ∀ s, stop' (f s) = stop s)
    (hadvance : ∀ s, stop s = false → advance' (f s) = f (advance s))
    (h : Loop stop advance n s t) : Loop stop' advance' n (f s) (f t) := by
  induction h with
  | done hend => exact .done ((hstop _).trans hend)
  | @again k s t hgoes _ ih =>
    refine .again ((hstop s).trans hgoes) ?_
    rw [hadvance s hgoes]
    exact ih

/-- A loop ends if another one does that goes in step with it. -/
theorem exists_of_map (hstop : ∀ s, stop' (f s) = stop s)
    (hadvance : ∀ s, stop s = false → advance' (f s) = f (advance s)) {v : τ}
    (h : Loop stop' advance' n (f s) v) : ∃ t, Loop stop advance n s t ∧ f t = v := by
  -- by the number of rounds, since the states of this loop are images only as they come up
  induction n generalizing s with
  | zero =>
    cases h with
    | done hend => exact ⟨s, .done ((hstop s).symm.trans hend), rfl⟩
  | succ n ih =>
    cases h with
    | again hgoes rest =>
      have hgoes' : stop s = false := (hstop s).symm.trans hgoes
      rw [hadvance s hgoes'] at rest
      obtain ⟨t, hloop, rfl⟩ := ih rest
      exact ⟨t, .again hgoes' hloop, rfl⟩

end Map

/-- A loop ends if another one does that goes through related states. -/
theorem exists_of_related {stop' : τ → Bool} {advance' : τ → τ} {related : σ → τ → Prop}
    (hstop : ∀ s s', related s s' → stop s = stop' s')
    (hadvance : ∀ s s', related s s' → stop s = false → related (advance s) (advance' s'))
    (h : Loop stop advance n s t) {s' : τ} (hrelated : related s s') :
    ∃ t', Loop stop' advance' n s' t' ∧ related t t' := by
  induction h generalizing s' with
  | done hend => exact ⟨s', .done ((hstop _ _ hrelated).symm.trans hend), hrelated⟩
  | again hgoes _ ih =>
    obtain ⟨t', hloop, hlast⟩ := ih (hadvance _ _ hrelated hgoes)
    exact ⟨t', .again ((hstop _ _ hrelated).symm.trans hgoes) hloop, hlast⟩

end Loop

namespace Run

variable {β : Type} {tables : Tables} {bus : Bus β} {stop : Run β → Bool}

/-- A limited run that ends where its condition holds was not cut short by its limit. -/
theorem exists_loop_of_untilStop {limit : Nat} {run : Run β}
    (h : stop (run.untilStop tables bus stop limit)) :
    ∃ n ≤ limit, Loop stop (step tables bus) n run (run.untilStop tables bus stop limit) := by
  induction limit generalizing run with
  | zero => exact ⟨0, Nat.le_refl 0, .done h⟩
  | succ limit ih =>
    unfold untilStop at h ⊢
    split
    · next hstop => exact ⟨0, Nat.zero_le _, .done hstop⟩
    · next hgoes =>
      rw [if_neg hgoes] at h
      obtain ⟨n, hle, hloop⟩ := ih h
      exact ⟨n + 1, Nat.succ_le_succ hle, .again (by simpa using hgoes) hloop⟩

end Run

end M68k
