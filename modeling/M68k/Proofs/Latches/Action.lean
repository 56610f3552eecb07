import M68k.Proofs.Latches.Operation
import M68k.Proofs.Latches.Steps
import M68k.Proofs.Prefetch.Length

/-!
# Agreement through actions

The actions before and behind the operation fill latches from registers and from the prefetch queue,
in which two processors that agree are the same. An operation that redirects takes both of them to
one program, and the entry into an exception fills all that its sequence uses.

## Main definitions

* `Live.entered`: what the entry into an exception fills

## Main results

* `Processor.Agree.prepare`: actions other than the operation
* `Processor.Agree.redirect`: operations that choose a bus program
* `Processor.Agree.enterException`: the entry into an exception
-/

namespace M68k

namespace Processor.Agree

variable {live : Live} {p q : Processor}

/-! ## Addresses -/

theorem sideRegister (h : Agree live p q) (hinstruction : p.instruction = q.instruction)
    (side : Side) : p.sideRegister side = q.sideRegister side := by
  rw [Processor.sideRegister, Processor.sideRegister, hinstruction, h.registers.address]

theorem indexOffset (h : Agree live p q) : p.indexOffset = q.indexOffset := by
  have hregisters := h.registers
  simp only [Processor.indexOffset, h.prefetch, hregisters.address, hregisters.data]

theorem formAddress (h : Agree live p q) (form : AddressForm) (base : Long) :
    p.formAddress form base = q.formAddress form base := by
  have hpc := h.registers.pc
  cases form <;> simp only [Processor.formAddress, h.indexOffset, h.prefetch, hpc]

/-! ## Preparing actions -/

/-- What holds of one side holds of all that are selected. -/
theorem onSides {target : Target} {f g : Processor → Side → Processor}
    (before : Live → Side → Live)
    (hkept : ∀ (r : Processor) (side : Side),
      (f r side).instruction = r.instruction ∧ (g r side).instruction = r.instruction)
    (hside : ∀ {live : Live} {p q : Processor} (side : Side), p.instruction = q.instruction →
      Agree (before live side) p q → Agree live (f p side) (g q side))
    (hinstruction : p.instruction = q.instruction)
    (h : Agree (target.sides.foldr (fun side live => before live side) live) p q) :
    Agree live (p.onSides target f) (q.onSides target g) := by
  unfold Processor.onSides
  generalize target.sides = sides at h ⊢
  induction sides generalizing p q with
  | nil => exact h
  | cons side sides ih =>
    refine ih ?_ (hside side hinstruction h)
    rw [(hkept p side).1, (hkept q side).2, hinstruction]

theorem setLatches {target : Target} (hinstruction : p.instruction = q.instruction)
    (h : Agree (target.sides.foldr (fun side live => live.fillData side (.allOnes 32)) live) p q)
    {x y : Long} (hvalue : x = y) : Agree live (p.setData target x) (q.setData target y) := by
  subst hvalue
  refine onSides (fun live side => live.fillData side (.allOnes 32)) ?_ ?_ hinstruction h
  · exact fun _ _ => ⟨rfl, rfl⟩
  · exact fun side _ h => h.setData (.refl _ x)

theorem setAddresses {target : Target} (hinstruction : p.instruction = q.instruction)
    (h : Agree (target.sides.foldr (fun side live => live.fillAddress side) live) p q)
    {f g : Long → Long} (haddress : ∀ base, f base = g base) :
    Agree live (p.setEffectiveAddress target f) (q.setEffectiveAddress target g) := by
  refine onSides (fun live side => live.fillAddress side) ?_ ?_ hinstruction h
  · exact fun _ _ => ⟨rfl, rfl⟩
  · intro live p q side hinstruction h
    rw [haddress, h.sideRegister hinstruction]
    exact h.setEffectiveAddress _

theorem stepRegisters (h : Agree live p q) (hinstruction : p.instruction = q.instruction)
    (target : Target) (distance : Long) :
    Agree live (p.stepRegisters target distance) (q.stepRegisters target distance) := by
  refine onSides (fun live _ => live) ?_ ?_ hinstruction ?_
  · exact fun _ _ => ⟨rfl, rfl⟩
  · intro live p q side hinstruction h
    refine h.withRegisters ?_
    rw [h.sideRegister hinstruction, hinstruction]
    exact h.registers.setAddress _ _
  · have hkept (sides : List Side) : sides.foldr (fun _ live => live) live = live := by
      induction sides with
      | nil => rfl
      | cons side sides ih => exact ih
    rwa [hkept]

theorem pushReturnAddress
    (h : Agree ((live.fillData .destination (.allOnes 32)).fillAddress .destination) p q)
    {x y : Long} (haddress : x = y) :
    Agree live (p.pushReturnAddress x) (q.pushReturnAddress y) := by
  have hfilled := (h.setEffectiveAddress (q.registers.sp - 4)).setData
    (SameOn.of_eq haddress)
  unfold Processor.pushReturnAddress
  rw [h.registers.sp]
  exact hfilled.withRegisters (h.registers.setSp _)

theorem finishList (h : Agree { live with transfer := true } p q) (hopcode : p.opcode = q.opcode)
    (hinstruction : p.instruction = q.instruction) (direction : ListDirection) :
    Agree live (p.finishList direction) (q.finishList direction) := by
  have hkept : Agree live p q :=
    h.mono { live.within_refl with transfer := fun _ => rfl }
  have hmode : p.modeField = q.modeField := by rw [modeField, modeField, hopcode]
  have hstepped :
      (p.registers.setAddress p.instruction.destinationRegister.index
        p.transfer.finalAddress).Alike
      (q.registers.setAddress q.instruction.destinationRegister.index
        q.transfer.finalAddress) := by
    rw [hinstruction, h.transfer rfl]
    exact h.registers.setAddress _ _
  unfold Processor.finishList
  rw [hmode]
  cases direction <;> dsimp only [] <;> split
  · exact hkept.withRegisters hstepped
  · exact hkept
  · exact hkept.withRegisters hstepped
  · exact hkept

theorem popReturn (h : Agree (live.fillAddress .source) p q) (target : Target) :
    Agree live (p.prepare .popReturn target) (q.prepare .popReturn target) := by
  have hfilled := h.setEffectiveAddress q.registers.sp
  simp only [Processor.prepare]
  rw [h.registers.sp]
  exact hfilled.withRegisters (h.registers.setSp _)

theorem locateFrame (h : Agree { live with frame := false } p q) (target : Target) :
    Agree live (p.prepare .locateFrame target) (q.prepare .locateFrame target) := by
  simp only [Processor.prepare]
  rw [h.registers.sp]
  exact { h with frame := fun _ => rfl, registers := h.registers.setSp _ }

/-- **Actions other than the operation** fill what they fill in the same way. -/
theorem prepare {action : Action} {target : Target}
    (h : Agree (live.beforePrepare action target) p q) (hopcode : p.opcode = q.opcode)
    (hinstruction : p.instruction = q.instruction) :
    Agree live (p.prepare action target) (q.prepare action target) := by
  have hpc := h.registers.pc
  cases action with
  | none | operate => exact h
  | address form => exact setAddresses hinstruction h (h.formAddress form)
  | immediate | latchList => exact setLatches hinstruction h (by rw [h.prefetch])
  | longImmediate => exact setLatches hinstruction h h.prefetch
  | increment stride | decrement stride => exact h.stepRegisters hinstruction target _
  | pushJumpReturn =>
    refine h.pushReturnAddress ?_
    have hmode : p.modeField = q.modeField := by rw [modeField, modeField, hopcode]
    rw [hmode, hpc]
  | pushBranchReturn =>
    refine h.pushReturnAddress ?_
    have hword : p.hasWordDisplacement = q.hasWordDisplacement := by
      rw [hasWordDisplacement, hasWordDisplacement, hopcode]
    rw [hword, hpc]
  | popReturn => exact h.popReturn target
  | locateFrame => exact h.locateFrame target
  | finishList direction => exact h.finishList hopcode hinstruction direction

/-! ## Operations that redirect -/

theorem wordBranchTarget (h : Agree live p q) : p.wordBranchTarget = q.wordBranchTarget := by
  rw [Processor.wordBranchTarget, Processor.wordBranchTarget, h.registers.pc, h.prefetch]

theorem branchTarget (h : Agree live p q) (hopcode : p.opcode = q.opcode) :
    p.branchTarget = q.branchTarget := by
  have hword : p.hasWordDisplacement = q.hasWordDisplacement := by
    rw [hasWordDisplacement, hasWordDisplacement, hopcode]
  rw [Processor.branchTarget, Processor.branchTarget, h.wordBranchTarget, hword, hopcode,
    h.registers.pc]

theorem conditionHolds (h : Agree live p q) (hopcode : p.opcode = q.opcode) :
    p.conditionHolds = q.conditionHolds := by
  rw [Processor.conditionHolds, Processor.conditionHolds, hopcode, h.registers.sr]

/-! ## Programs that are chosen -/

end Processor.Agree

/-- The stray read of a loop that has run out goes to the target that was left in its latch. -/
theorem Activity.liveBefore_expiredLoop (live : Live) :
    (liveBefore (.idle 4 ++ FixedPrograms.expiredLoopRead ++ .fetch ++ .fetch) live).Within
      { live with expiredTarget := true } := by
  have hfill := live.fillData_within .source (Half.low.set 0 0xFFFF)
  have hbefore : liveBefore (.idle 4 ++ FixedPrograms.expiredLoopRead ++ .fetch ++ .fetch) live =
      { ((live.fillData .source (Half.low.set 0 0xFFFF)).useData .source 0).useData .source 0 with
        expiredTarget := true } := rfl
  rw [hbefore, Live.useData_zero, Live.useData_zero]
  exact { hfill with expiredTarget := fun _ => rfl }

/-- Where a word of a register list goes is settled by the transfer, and nothing else. -/
theorem Activity.liveBefore_listTransfer (read : Bool) (live : Live) :
    (transfer read false .word .listTransfer .listWord .advanceList).liveBefore live =
      { live with transfer := true } := by
  cases read <;> rfl

/-- The transfers of a register list go where the transfer says. -/
theorem Activity.liveBefore_listTransfers (read : Bool) (count : Nat) (live : Live) :
    (liveBefore (FixedPrograms.listTransfers read count) live).Within
      { live with transfer := true } := by
  unfold FixedPrograms.listTransfers
  dsimp only []
  induction count with
  | zero => exact { live.within_refl with transfer := fun _ => rfl }
  | succ count ih =>
    rw [List.replicate_succ, List.flatten_cons, liveBefore_append, liveBefore_listTransfer]
    exact { ih with transfer := fun _ => rfl }

namespace Processor.Agree

variable {live : Live} {p q : Processor} {tables : Tables}

variable (hrealizes : tables.Realizes forms)
include hrealizes

theorem branch (h : Agree live p q) (hopcode : p.opcode = q.opcode) :
    ∃ offset, (p.branch tables.programs).2 = offset ∧ (q.branch tables.programs).2 = offset ∧
      Agree ((tables.activityAt offset).liveBefore live) (p.branch tables.programs).1
        (q.branch tables.programs).1 := by
  have hword : p.hasWordDisplacement = q.hasWordDisplacement := by
    rw [hasWordDisplacement, hasWordDisplacement, hopcode]
  unfold Processor.branch
  rw [h.conditionHolds hopcode, h.branchTarget hopcode, hword]
  split
  · refine ⟨_, rfl, rfl, ?_⟩
    rw [hrealizes.branchTaken]
    exact h.setPc _
  · split
    · refine ⟨_, rfl, rfl, ?_⟩
      rw [hrealizes.branchWordNotTaken]
      exact h
    · refine ⟨_, rfl, rfl, ?_⟩
      rw [hrealizes.branchByteNotTaken]
      exact h

theorem decrementAndBranch (h : Agree live p q) (hopcode : p.opcode = q.opcode)
    (hinstruction : p.instruction = q.instruction) :
    ∃ offset, (p.decrementAndBranch tables.programs).2 = offset ∧
      (q.decrementAndBranch tables.programs).2 = offset ∧
      Agree ((tables.activityAt offset).liveBefore live) (p.decrementAndBranch tables.programs).1
        (q.decrementAndBranch tables.programs).1 := by
  have hregister := congrArg Instruction.destinationRegister hinstruction
  have hcounter := h.registers.data q.instruction.destinationRegister.index
  have hcounted (value : Long) :=
    h.withRegisters (h.registers.setData q.instruction.destinationRegister.index value)
  unfold Processor.decrementAndBranch
  rw [h.conditionHolds hopcode]
  split
  · refine ⟨_, rfl, rfl, ?_⟩
    rw [hrealizes.loopLeft]
    exact h
  · dsimp only []
    rw [hregister, hcounter]
    split
    · refine ⟨_, rfl, rfl, ?_⟩
      rw [hrealizes.loopExpired]
      refine mono ?_ (Activity.liveBefore_expiredLoop live)
      exact { hcounted _ with expiredTarget := fun _ => (hcounted _).wordBranchTarget }
    · refine ⟨_, rfl, rfl, ?_⟩
      rw [hrealizes.loopTaken, (hcounted _).wordBranchTarget]
      exact (hcounted _).setPc _

/-- The transfer of a register list is settled when it begins. -/
theorem beginListTransfer
    (h : Agree (({ live with transfer := false }.useData .source 0xFFFF).useAddress .destination)
      p q)
    (hopcode : p.opcode = q.opcode) (hinstruction : p.instruction = q.instruction)
    (direction : ListDirection) :
    ∃ offset, (p.beginListTransfer tables.programs direction).2 = offset ∧
      (q.beginListTransfer tables.programs direction).2 = offset ∧
      Agree ((tables.activityAt offset).liveBefore live)
        (p.beginListTransfer tables.programs direction).1
        (q.beginListTransfer tables.programs direction).1 := by
  have haddress : p.effectiveAddress.destination = q.effectiveAddress.destination :=
    h.address_of_use
  have hlatch := h.mono (Live.within_useAddress _ _)
  have hlist : Half.low.get p.data.source = Half.low.get q.data.source := hlatch.data_of_use.low
  have hkept := hlatch.mono (Live.within_useData _ _ _)
  have hmode : p.modeField = q.modeField := by rw [modeField, modeField, hopcode]
  have hsize := congrArg Instruction.size hinstruction
  obtain ⟨read, count, hactivity⟩ : ∃ read count,
      tables.activityAt (q.beginListTransfer tables.programs direction).2 =
        FixedPrograms.listTransfers read count := by
    have hwords := ListTransfer.length_words_begin_le (Half.low.get q.data.source)
      q.effectiveAddress.destination (q.instruction.size == .long) (q.modeField == 4)
    cases direction with
    | toMemory => exact ⟨_, _, hrealizes.listWrite_entry hwords⟩
    | toRegisters => exact ⟨_, _, hrealizes.listRead_entry hwords⟩
  refine ⟨_, ?_, rfl, ?_⟩
  · simp only [Processor.beginListTransfer, hlist, haddress, hmode, hsize]
  · rw [hactivity]
    refine mono ?_ (Activity.liveBefore_listTransfers read count live)
    simp only [Processor.beginListTransfer, hlist, haddress, hmode, hsize]
    exact { hkept with transfer := fun _ => rfl }

/-- **Operations that choose a bus program** choose the same one. -/
theorem redirect (h : Agree (live.beforeOperate p.instruction) p q)
    (hopcode : p.opcode = q.opcode) (hinstruction : p.instruction = q.instruction)
    (hredirects : p.instruction.operation.redirects) (htrap : p.instruction.operation ≠ .trap)
    (target : Target) :
    ∃ offset, (p.act tables .operate target).2 = some offset ∧
      (q.act tables .operate target).2 = some offset ∧
      Agree ((tables.activityAt offset).liveBefore live) (p.act tables .operate target).1
        (q.act tables .operate target).1 := by
  have hother : q.instruction.operation = p.instruction.operation := by rw [hinstruction]
  unfold Live.beforeOperate at h
  simp only [act, operate, hother]
  cases hoperation : p.instruction.operation with
  | bcc =>
    rw [hoperation] at h
    obtain ⟨offset, hfirst, hsecond, hagree⟩ := branch hrealizes h hopcode
    exact ⟨offset, congrArg some hfirst, congrArg some hsecond, hagree⟩
  | dbcc =>
    rw [hoperation] at h
    obtain ⟨offset, hfirst, hsecond, hagree⟩ :=
      decrementAndBranch hrealizes h hopcode hinstruction
    exact ⟨offset, congrArg some hfirst, congrArg some hsecond, hagree⟩
  | movem direction =>
    rw [hoperation] at h
    obtain ⟨offset, hfirst, hsecond, hagree⟩ :=
      beginListTransfer hrealizes h hopcode hinstruction direction
    exact ⟨offset, congrArg some hfirst, congrArg some hsecond, hagree⟩
  | bsr =>
    rw [hoperation] at h
    refine ⟨_, rfl, rfl, ?_⟩
    rw [hrealizes.subroutine, h.branchTarget hopcode]
    exact h.setPc _
  | trap => exact absurd hoperation htrap
  | _ => simp [hoperation, Operation.redirects] at hredirects

end Processor.Agree

/-! ## Exceptions -/

/-- What the entry into an exception fills, and its sequence uses. -/
def Live.entered : Live :=
  { nothing with data := ⟨0, 0xFFFF⟩, frame := true }

namespace Processor.Agree

variable {live : Live} {p q : Processor}

theorem enterException (h : Agree .nothing p q) {returnAddress returnAddress' : Long}
    (haddress : returnAddress = returnAddress') :
    Agree .entered (p.enterException returnAddress) (q.enterException returnAddress') := by
  have hsr := h.registers.sr
  have hentered := h.registers.setSupervisor true
  have huntraced := hentered.setStatus
    ((q.registers.setSupervisor true).sr &&& ~~~Status.trace)
  have hnone : Live.nothing =
      Live.fillData { Live.nothing with data := ⟨0, 0xFFFF⟩ } .destination (.allOnes 32) := by
    decide
  have hfilled : Agree { Live.nothing with data := ⟨0, 0xFFFF⟩ }
      { p with data := p.data.set .destination (q.registers.sr.setWidth 32) }
      { q with data := q.data.set .destination (q.registers.sr.setWidth 32) } :=
    setData (hnone ▸ h) (.refl _ _)
  subst haddress
  simp only [Processor.enterException, hsr, hentered.sr, huntraced.sp]
  exact
    { hfilled with
      registers := (huntraced.setPc _).setSp _
      frame := fun _ => rfl }

/-- The entry into an exception with some vector. -/
theorem beginException (tables : Tables) (h : Agree .nothing p q) {vector vector' : Byte}
    {returnAddress returnAddress' : Long} (hvector : vector = vector')
    (haddress : returnAddress = returnAddress') :
    Agree (FixedPrograms.exceptionActivity.liveBefore .nothing)
      (p.beginException tables vector returnAddress)
      (q.beginException tables vector' returnAddress') := by
  have hbefore : FixedPrograms.exceptionActivity.liveBefore .nothing =
      { Live.entered with address := .src } := by decide
  subst hvector
  rw [hbefore]
  have hfilled : Live.entered = Live.fillAddress { Live.entered with address := .src } .source := by
    decide
  have hentered := h.enterException haddress
  rw [hfilled] at hentered
  exact { hentered.setEffectiveAddress (vector.setWidth 32 <<< 2) with }

end Processor.Agree

end M68k
