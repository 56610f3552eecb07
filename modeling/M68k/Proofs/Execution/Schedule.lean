import M68k.Proofs.Execution.Boundary
import M68k.Proofs.Execution.Loop

/-!
# Scheduling

Where a bus program has ended the processor looks for the next one, one pass at a time: a pass goes
on along the chain or, behind the chain, starts what comes at the boundary. Both this search and the
firing of micro-operations without bus activity are loops without a limit. From every processor
whatever they come to an end, within a number of passes that the tables bound.

## Main definitions

* `Processor.proceed`: enter the next micro-operation of the chain
* `Processor.schedule`: one pass, with what was started so far

## Main results

* `Processor.loop_settle`: the search for the next bus step ends, and starts one thing at most
* `Processor.loop_fireBusFree`: so does the firing of micro-operations without bus activity
-/

namespace M68k

open Encoding

namespace Processor

variable (tables : Tables)

/-- Go on to the next micro-operation of the chain. -/
def proceed (p : Processor) : Processor := { p with microOp := p.microOp + 1 }.enterMicroOp tables

/-- The chain of the instruction goes on behind the current micro-operation. -/
def hasNext (p : Processor) : Bool :=
  p.phase == .instruction && !(tables.microOp p.microOp).isTerminal

/-- One pass of the search for the next bus step, with all that was started on the way: the chain
goes on, or what comes at the boundary is started. -/
def schedule (s : Processor × List Start) : Processor × List Start :=
  let (p, starts) := s
  if p.hasNext tables then (p.proceed tables, starts)
  else (p.begin tables (p.start tables), starts ++ [p.start tables])

/-- The micro-operation has no bus activity, or ends the chain. -/
def hasNoActivity (op : MicroOp) : Bool :=
  match op.program with
  | none => true
  | some program => (tables.step program).isTerminal

/-- A bus program has ended, and the next micro-operation of the chain has no bus activity. -/
def isBusFree (p : Processor) : Bool :=
  p.hasNext tables && p.programEnded tables && hasNoActivity tables (tables.microOp (p.microOp + 1))

theorem hasNext_iff (p : Processor) :
    p.hasNext tables ↔
      p.phase = .instruction ∧ (tables.microOp p.microOp).isTerminal = false := by
  simp [hasNext]

theorem isBusFree_iff (p : Processor) :
    p.isBusFree tables ↔
      p.phase = .instruction ∧ p.programEnded tables ∧ ¬ (tables.microOp p.microOp).isTerminal ∧
        hasNoActivity tables (tables.microOp (p.microOp + 1)) := by
  simp only [isBusFree, hasNext, Bool.and_eq_true, beq_iff_eq, Bool.not_eq_true', Bool.not_eq_true,
    and_assoc]
  exact and_congr_right fun _ => and_left_comm

/-- The chain goes on inside the table of micro-operations. -/
theorem microOp_lt_of_hasNext {p : Processor} (h : p.hasNext tables) :
    p.microOp < tables.microOps.size := by
  by_contra houtside
  have hterminal := ((p.hasNext_iff tables).1 h).2
  simp [Tables.microOp, Array.getD, houtside, MicroOp.terminal, MicroOp.isTerminal] at hterminal

@[simp] theorem microOp_proceed (p : Processor) : (p.proceed tables).microOp = p.microOp + 1 := by
  rw [proceed, microOp_enterMicroOp]

/-- There is a boundary where a bus program has ended and the chain does not go on. -/
theorem atBoundary_iff (p : Processor) :
    p.atBoundary tables ↔ p.programEnded tables ∧ p.hasNext tables = false := by
  unfold atBoundary hasNext
  cases p.phase <;> simp

/-! ## Along the chain -/

/-- Where a search goes on behind the chain, it may go along the chain first. -/
theorem exists_loop_of_follow (p : Processor) (starts : List Start) {m : Nat}
    {final : Processor × List Start}
    (h : Loop (fun s => !s.1.programEnded tables) (schedule tables) m
      (p.follow tables fun _ => true, starts) final) :
    ∃ n ≤ tables.microOps.size,
      Loop (fun s => !s.1.programEnded tables) (schedule tables) (n + m) (p, starts) final := by
  suffices ∃ n ≤ tables.microOps.size - p.microOp,
      Loop (fun s => !s.1.programEnded tables) (schedule tables) (n + m) (p, starts) final by
    obtain ⟨n, hle, hloop⟩ := this
    exact ⟨n, hle.trans (Nat.sub_le _ _), hloop⟩
  fun_induction follow tables (fun _ => true) p with
  | case1 p hfollow ih =>
    obtain ⟨hphase, hended, hterminal, -⟩ := hfollow
    have hnext : p.hasNext tables := (p.hasNext_iff tables).2 ⟨hphase, by simpa using hterminal⟩
    obtain ⟨n, hle, hloop⟩ := ih h
    have hinside := microOp_lt_of_hasNext tables hnext
    refine ⟨n + 1, ?_, ?_⟩
    · rw [microOp_enterMicroOp] at hle
      simp only [] at hle
      omega
    · rw [Nat.add_right_comm]
      refine .again (by simp [hended]) ?_
      simp only [schedule, hnext, if_true]
      exact hloop
  | case2 p => exact ⟨0, Nat.zero_le _, by rwa [Nat.zero_add]⟩

/-- **Firing micro-operations without bus activity ends**, after no more rounds than there are
micro-operations. -/
theorem loop_fireBusFree (p : Processor) :
    ∃ n ≤ tables.microOps.size,
      Loop (fun p => !p.isBusFree tables) (proceed tables) n p (p.fireBusFree tables) := by
  suffices ∃ n ≤ tables.microOps.size - p.microOp,
      Loop (fun p => !p.isBusFree tables) (proceed tables) n p (p.fireBusFree tables) by
    obtain ⟨n, hle, hloop⟩ := this
    exact ⟨n, hle.trans (Nat.sub_le _ _), hloop⟩
  change ∃ n ≤ tables.microOps.size - p.microOp,
    Loop (fun p => !p.isBusFree tables) (proceed tables) n p
      (p.follow tables (hasNoActivity tables))
  fun_induction follow tables (hasNoActivity tables) p with
  | case1 p hfollow ih =>
    have hfree : p.isBusFree tables := (p.isBusFree_iff tables).2 hfollow
    have hinside := microOp_lt_of_hasNext tables
      ((p.hasNext_iff tables).2 ⟨hfollow.1, by simpa using hfollow.2.2.1⟩)
    obtain ⟨n, hle, hloop⟩ := ih
    refine ⟨n + 1, ?_, .again (by simp [hfree]) hloop⟩
    rw [microOp_enterMicroOp] at hle
    simp only [] at hle
    omega
  | case2 p hfollow =>
    have hbusy : p.isBusFree tables = false := by
      by_contra hfree
      exact hfollow ((p.isBusFree_iff tables).1 (by simpa using hfree))
    exact ⟨0, Nat.zero_le _, .done (by simp [hbusy])⟩

/-! ## To the next bus step -/

variable {tables}

/-- **The search for the next bus step ends**, from every processor whatever, after a number of
passes that the tables bound. It starts at most one thing, and just that if it comes by a
boundary. -/
theorem loop_settle (hrealizes : tables.Realizes forms) (p : Processor) :
    ∃ n ≤ 2 * tables.microOps.size + 1,
      Loop (fun s => !s.1.programEnded tables) (schedule tables) n (p, [])
        ((p.settle tables).1, (p.settle tables).2.toList) := by
  set behind := p.follow tables fun _ => true with hbehind
  cases hboundary : behind.atBoundary tables with
  | true =>
    obtain ⟨hended, hnext⟩ := (behind.atBoundary_iff tables).1 hboundary
    have hsettle : p.settle tables =
        ((behind.begin tables (behind.start tables)).follow tables fun _ => true,
          some (behind.start tables)) := by
      simp only [settle, ← hbehind, hboundary, if_true]
    have hbegun := programEnded_begin hrealizes behind
    obtain ⟨n₂, hle₂, hloop₂⟩ := exists_loop_of_follow tables
      (behind.begin tables (behind.start tables)) [behind.start tables]
      (.done (by simp [hbegun]))
    have hpass : Loop (fun s => !s.1.programEnded tables) (schedule tables) (n₂ + 0 + 1)
        (behind, []) ((p.settle tables).1, (p.settle tables).2.toList) := by
      refine .again (by simp [hended]) ?_
      rw [hsettle]
      simpa [schedule, hnext] using hloop₂
    obtain ⟨n₁, hle₁, hloop₁⟩ := exists_loop_of_follow tables p [] hpass
    exact ⟨_, by omega, hloop₁⟩
  | false =>
    have hended : behind.programEnded tables = false := by
      by_contra hended
      have hreached := atBoundary_follow (by simpa using hended : behind.programEnded tables)
      simp [← hbehind, hboundary] at hreached
    have hsettle : p.settle tables = (behind, none) := by
      simp [settle, ← hbehind, hboundary]
    obtain ⟨n, hle, hloop⟩ :=
      exists_loop_of_follow tables p [] (.done (by simpa using hended))
    refine ⟨n + 0, by omega, ?_⟩
    rw [hsettle]
    exact hloop

end Processor

end M68k
