import M68k.Proofs.Exception.Banks
import M68k.Proofs.Latches.Bits

/-!
# Agreement

Two processors agree when a programmer sees the same in both of them and all that is live is the
same. The bank of the mode in force may be stale, and is not looked at. On a data latch they agree
bit by bit.

## Main definitions

* `Registers.Alike`: the same registers, for a programmer
* `Processor.Agree`: agreement on all that is live
* `Live.Within`: less is live

## Main results

* `Registers.alike_iff`: what a programmer sees of the registers
* `Processor.Agree.mono`: agreement on more is agreement on less
* `Processor.Agree.setData`, `Processor.Agree.setEffectiveAddress`: what is filled need not agree
-/

namespace M68k

/-! ## Registers -/

namespace Registers

/-- The stack pointer of the mode that is not in force. -/
def banked (r : Registers) : Long := if r.isSupervisor then r.userBank else r.supervisorBank

/-- The same registers, except perhaps for the bank of the mode in force. -/
structure Alike (r s : Registers) : Prop where
  d : r.d = s.d
  a : r.a = s.a
  pc : r.pc = s.pc
  sr : r.sr = s.sr
  banked : r.banked = s.banked

variable {r s : Registers}

theorem usp_eq_banked (r : Registers) : r.usp = if r.isSupervisor then r.banked else r.sp := by
  rw [usp, banked]
  split <;> rfl

theorem ssp_eq_banked (r : Registers) : r.ssp = if r.isSupervisor then r.sp else r.banked := by
  rw [ssp, banked]
  split <;> rfl

namespace Alike

@[refl] theorem refl (r : Registers) : Alike r r := ⟨rfl, rfl, rfl, rfl, rfl⟩

theorem data (h : Alike r s) (n : RegisterIndex) : r.data n = s.data n := by
  rw [Registers.data, Registers.data, h.d]

theorem address (h : Alike r s) (n : RegisterIndex) : r.address n = s.address n := by
  rw [Registers.address, Registers.address, h.a]

theorem sp (h : Alike r s) : r.sp = s.sp := h.address stackPointer

theorem listed (h : Alike r s) (n : ListedRegister) : r.listed n = s.listed n := by
  unfold Registers.listed
  split
  · exact h.data _
  · exact h.address _

theorem isSupervisor (h : Alike r s) : r.isSupervisor = s.isSupervisor := by
  rw [Registers.isSupervisor, Registers.isSupervisor, h.sr]

theorem usp (h : Alike r s) : r.usp = s.usp := by
  rw [usp_eq_banked, usp_eq_banked, h.isSupervisor, h.banked, h.sp]

theorem ssp (h : Alike r s) : r.ssp = s.ssp := by
  rw [ssp_eq_banked, ssp_eq_banked, h.isSupervisor, h.banked, h.sp]

/-! ## Changes -/

theorem setData (h : Alike r s) (n : RegisterIndex) (value : Long) :
    Alike (r.setData n value) (s.setData n value) :=
  { h with d := congrArg (·.set n value) h.d }

theorem setAddress (h : Alike r s) (n : RegisterIndex) (value : Long) :
    Alike (r.setAddress n value) (s.setAddress n value) :=
  { h with a := congrArg (·.set n value) h.a }

theorem setSp (h : Alike r s) (value : Long) : Alike (r.setSp value) (s.setSp value) :=
  h.setAddress stackPointer value

theorem setPc (h : Alike r s) (pc : Long) : Alike { r with pc := pc } { s with pc := pc } :=
  { h with pc := rfl }

theorem setListed (h : Alike r s) (n : ListedRegister) (value : Long) :
    Alike (r.setListed n value) (s.setListed n value) := by
  unfold Registers.setListed
  split
  · exact h.setData _ value
  · exact h.setAddress _ value

/-- Another status of the same mode. -/
theorem setSr (h : Alike r s) {sr : Status}
    (hmode : Status.has sr Status.supervisor = r.isSupervisor) :
    Alike { r with sr := sr } { s with sr := sr } where
  d := h.d
  a := h.a
  pc := h.pc
  sr := rfl
  banked := by
    have hbanked (x : Registers) (hx : Status.has sr Status.supervisor = x.isSupervisor) :
        Registers.banked { x with sr := sr } = x.banked := by
      have hkept : Registers.isSupervisor { x with sr := sr } = x.isSupervisor := hx
      rw [Registers.banked, Registers.banked, hkept]
    rw [hbanked r hmode, hbanked s (hmode.trans h.isSupervisor), h.banked]

/-- A mode switch brings the stale bank up to date. -/
theorem setSupervisor (h : Alike r s) (mode : Bool) :
    Alike (r.setSupervisor mode) (s.setSupervisor mode) := by
  by_cases hkept : mode = r.isSupervisor
  · rwa [Registers.setSupervisor, Registers.setSupervisor, if_pos hkept,
      if_pos (hkept.trans h.isSupervisor)]
  · have hswitched : r.setSupervisor mode = s.setSupervisor mode := by
      have hmode := h.isSupervisor
      have hbanked := h.banked
      obtain ⟨d, a, pc, userBank, supervisorBank, sr⟩ := r
      obtain ⟨d', a', pc', userBank', supervisorBank', sr'⟩ := s
      obtain ⟨rfl, rfl, rfl, rfl, -⟩ := h
      simp only [Registers.setSupervisor, ← hmode, if_neg hkept, Registers.writeBack]
      simp only [Registers.banked, ← hmode] at hbanked
      split <;> rename_i hold
      · rw [if_pos hold, if_pos hold] at hbanked
        rw [hbanked]
        rfl
      · rw [if_neg hold, if_neg hold] at hbanked
        rw [hbanked]
        rfl
    rw [hswitched]

theorem setStatus (h : Alike r s) (value : Status) :
    Alike (r.setStatus value) (s.setStatus value) := by
  have hswitched := h.setSupervisor (Status.has (value &&& Status.implemented) Status.supervisor)
  exact hswitched.setSr (isSupervisor_setSupervisor _).symm

theorem setCcr (h : Alike r s) (value : Byte) : Alike (r.setCcr value) (s.setCcr value) := by
  have hmode := (sameSystem_setCcr (r := r) value).isSupervisor
  rw [Registers.setCcr, Registers.setCcr, ← h.sr]
  exact h.setSr hmode

theorem setMask (h : Alike r s) (level : Level) : Alike (r.setMask level) (s.setMask level) := by
  have hmode := isSupervisor_setMask (r := r) level
  rw [Registers.setMask, Registers.setMask, ← h.sr]
  exact h.setSr hmode

theorem setUsp (h : Alike r s) (value : Long) : Alike (r.setUsp value) (s.setUsp value) := by
  rw [Registers.setUsp, Registers.setUsp, ← h.isSupervisor]
  split
  · rename_i hmode
    have hother : s.isSupervisor := h.isSupervisor ▸ hmode
    have hbanked (x : Registers) (hx : x.isSupervisor) :
        Registers.banked { x with userBank := value } = value := if_pos hx
    exact { h with banked := (hbanked r hmode).trans (hbanked s hother).symm }
  · exact h.setSp value

end Alike

/-- **What a programmer sees of the registers** is what has to be alike. -/
theorem alike_iff :
    Alike r s ↔
      r.d = s.d ∧ r.a = s.a ∧ r.pc = s.pc ∧ r.sr = s.sr ∧ r.usp = s.usp ∧ r.ssp = s.ssp := by
  constructor
  · intro h
    exact ⟨h.d, h.a, h.pc, h.sr, h.usp, h.ssp⟩
  · rintro ⟨hd, ha, hpc, hsr, husp, hssp⟩
    refine ⟨hd, ha, hpc, hsr, ?_⟩
    have hmode : s.isSupervisor = r.isSupervisor := by rw [isSupervisor, isSupervisor, hsr]
    simp only [usp_eq_banked, ssp_eq_banked, hmode] at husp hssp
    cases hsupervisor : r.isSupervisor with
    | true => simpa [hsupervisor] using husp
    | false => simpa [hsupervisor] using hssp

end Registers

/-! ## What is live -/

namespace Latches

variable (latches : Latches)

theorem get_set_eq (side other : Side) (value : Long) :
    (latches.set side value).get other = if other = side then value else latches.get other := by
  cases side <;> cases other <;> rfl

end Latches

/-- Whatever is live in the one is live in the other. -/
structure Live.Within (live wider : Live) : Prop where
  data : ∀ side, live.data.get side &&& wider.data.get side = live.data.get side
  address : ∀ side, live.address.has side → wider.address.has side
  frame : live.frame → wider.frame
  expiredTarget : live.expiredTarget → wider.expiredTarget
  transfer : live.transfer → wider.transfer
  acknowledge : live.acknowledge → wider.acknowledge

namespace Live

variable (live : Live)

theorem within_refl : live.Within live where
  data _ := BitVec.and_self
  address _ := id
  frame := id
  expiredTarget := id
  transfer := id
  acknowledge := id

/-- Nothing is less than whatever is live. -/
theorem nothing_within : nothing.Within live where
  data side := by cases side <;> exact BitVec.zero_and
  address side h := by cases side <;> cases h
  frame := nofun
  expiredTarget := nofun
  transfer := nofun
  acknowledge := nofun

theorem within_useData (side : Side) (bits : Long) : live.Within (live.useData side bits) :=
  { live.within_refl with
    data := fun other => by
      rw [useData, Latches.get_set_eq]
      split
      · rename_i hsame
        subst hsame
        ext i hi
        simp only [BitVec.getElem_and, BitVec.getElem_or]
        grind
      · exact BitVec.and_self }

theorem within_useAddress (side : Side) : live.Within (live.useAddress side) :=
  { live.within_refl with
    address := fun other h => by
      by_cases hsame : other = side
      · rw [useAddress, hsame, Target.has_put_self]
      · rwa [useAddress, Target.has_put_of_ne _ _ hsame] }

theorem fillData_within (side : Side) (bits : Long) : (live.fillData side bits).Within live :=
  { live.within_refl with
    data := fun other => by
      rw [fillData, Latches.get_set_eq]
      split
      · rename_i hsame
        subst hsame
        ext i hi
        simp only [BitVec.getElem_and, BitVec.getElem_not]
        grind
      · exact BitVec.and_self }

theorem within_use (operand : Operand) (bits : Long) : live.Within (live.use operand bits) := by
  cases operand with
  | sourceLatch | destinationLatch => exact live.within_useData _ bits
  | effectiveAddress side => exact live.within_useAddress side
  | none | dataRegister | addressRegister | prefetch | quick => exact live.within_refl

theorem fill_within (operand : Operand) : (live.fill operand).Within live := by
  cases operand with
  | sourceLatch | destinationLatch => exact live.fillData_within _ _
  | none | dataRegister | addressRegister | prefetch | effectiveAddress | quick =>
    exact live.within_refl

theorem within_beforeAddress (source : AddressSource) :
    live.Within (live.beforeAddress source) := by
  cases source with
  | effectiveAddress number => exact live.within_useAddress _
  | frame => exact { live.within_refl with frame := fun _ => rfl }
  | expiredTarget => exact { live.within_refl with expiredTarget := fun _ => rfl }
  | listTransfer => exact { live.within_refl with transfer := fun _ => rfl }
  | acknowledge => exact { live.within_refl with acknowledge := fun _ => rfl }
  | none | programCounter | addressRegister => exact live.within_refl

theorem within_beforeLoad (slot : DataSlot) (bits : Word) :
    live.Within (live.beforeLoad slot bits) := by
  cases slot with
  | latch side half => exact live.within_useData side _
  | listWord => exact { live.within_refl with transfer := fun _ => rfl }
  | interruptVector => exact { live.within_refl with acknowledge := fun _ => rfl }
  | none | prefetch | stackPointer | programCounter => exact live.within_refl

end Live

/-! ## Processors -/

namespace Processor

/-- The processors agree on all that is live and on all that a programmer sees. -/
structure Agree (live : Live) (p q : Processor) : Prop where
  registers : p.registers.Alike q.registers
  prefetch : p.prefetch = q.prefetch
  interruptLevel : p.interruptLevel = q.interruptLevel
  levelSevenRose : p.levelSevenRose = q.levelSevenRose
  flexibleLength : p.flexibleLength = q.flexibleLength
  data : ∀ side, SameOn (live.data.get side) (p.data.get side) (q.data.get side)
  address : ∀ side, live.address.has side →
    p.effectiveAddress.get side = q.effectiveAddress.get side
  frame : live.frame → p.frame = q.frame
  expiredTarget : live.expiredTarget → p.expiredTarget = q.expiredTarget
  transfer : live.transfer → p.transfer = q.transfer
  acknowledge : live.acknowledge →
    p.acknowledgedLevel = q.acknowledgedLevel ∧ p.interruptVector = q.interruptVector

namespace Agree

variable {live wider : Live} {p q : Processor} {side : Side}

/-- **Agreement on more is agreement on less.** -/
theorem mono (h : Agree wider p q) (hwithin : live.Within wider) : Agree live p q :=
  { h with
    data := fun side => (h.data side).mono (hwithin.data side)
    address := fun side hside => h.address side (hwithin.address side hside)
    frame := fun hlive => h.frame (hwithin.frame hlive)
    expiredTarget := fun hlive => h.expiredTarget (hwithin.expiredTarget hlive)
    transfer := fun hlive => h.transfer (hwithin.transfer hlive)
    acknowledge := fun hlive => h.acknowledge (hwithin.acknowledge hlive) }

/-- What a programmer sees is looked at in any case. -/
theorem withRegisters (h : Agree live p q) {r s : Registers} (hr : r.Alike s) :
    Agree live { p with registers := r } { q with registers := s } :=
  { h with registers := hr }

/-- A data latch is filled with words that agree on its live bits. -/
theorem withData {x y : Long} (hlatch : SameOn (live.data.get side) x y)
    (h : ∀ other ≠ side, SameOn (live.data.get other) (p.data.get other) (q.data.get other))
    (other : Side) :
    SameOn (live.data.get other) ((p.data.set side x).get other)
      ((q.data.set side y).get other) := by
  rw [Latches.get_set_eq, Latches.get_set_eq]
  split
  · rename_i hsame
    rwa [hsame]
  · rename_i hother
    exact h other hother

theorem data_of_fillData {bits : Long} (h : Agree (live.fillData side bits) p q) (other : Side)
    (hother : other ≠ side) :
    SameOn (live.data.get other) (p.data.get other) (q.data.get other) := by
  have hdata := h.data other
  rwa [Live.fillData, Latches.get_set_eq, if_neg hother] at hdata

theorem setData {bits x y : Long} (h : Agree (live.fillData side bits) p q)
    (hlatch : SameOn (live.data.get side) x y) :
    Agree live { p with data := p.data.set side x } { q with data := q.data.set side y } :=
  { h with data := withData hlatch h.data_of_fillData }

/-- An effective-address latch is filled. -/
theorem setEffectiveAddress (h : Agree (live.fillAddress side) p q) (address : Long) :
    Agree live { p with effectiveAddress := p.effectiveAddress.set side address }
      { q with effectiveAddress := q.effectiveAddress.set side address } :=
  { h with
    address := fun other hlive => by
      dsimp only
      rw [Latches.get_set_eq, Latches.get_set_eq]
      split
      · rfl
      · rename_i hother
        refine h.address other ?_
        rwa [Live.fillAddress, Target.has_put_of_ne _ _ hother] }

/-- An effective-address latch that is used is the same. -/
theorem address_of_use (h : Agree (live.useAddress side) p q) :
    p.effectiveAddress.get side = q.effectiveAddress.get side :=
  h.address side (Target.has_put_self _ _ _)

/-- The bits of a data latch that are used are the same. -/
theorem data_of_use {bits : Long} (h : Agree (live.useData side bits) p q) :
    SameOn bits (p.data.get side) (q.data.get side) := by
  have hdata := h.data side
  rw [Live.useData, Latches.get_set_self] at hdata
  exact hdata.right

end Agree

end Processor

end M68k
