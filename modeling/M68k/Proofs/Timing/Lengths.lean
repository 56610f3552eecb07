import M68k.Proofs.Encoding.Extension
import M68k.Proofs.Operand.Source
import M68k.Proofs.Timing.Elapsed
import M68k.Proofs.Timing.Reference

/-!
# Instructions that set a length

Shifts of data registers, multiplications, changes of bits of data registers and conditional sets of
them set the length of a flexible step, which comes right behind the operation. So each of them
takes the time of its other steps and the length that it has set itself.

## Main results

* `Processor.spent_shift`, `Processor.spent_multiply`, `Processor.spent_changeBit`,
  `Processor.spent_set`: the time that each of them takes
-/

namespace M68k

open Encoding Reference

variable {β : Type} {bus : Bus β} {tables : Tables}

/-! ## Shifts -/

/-- The instruction that shifts a data register. -/
def Encoding.shifting (kind : ShiftKind) (size : Size) (opcode : Word) : Instruction :=
  let counted := opcode.getLsbD 5
  { (Instruction.bare (.shift kind) size).withDestination .dataRegister (lowerRegister opcode) with
    source := if counted then .dataRegister (upperRegister opcode) else .quick
    sourceRegister := if counted then upperRegister opcode else .ofField 0 }

theorem Encoding.shiftRegister_eq_some (kind : ShiftKind) {size : Size} {opcode : Word}
    (h : sizeField? opcode = some size) :
    shiftRegister kind opcode = some ⟨shifting kind size opcode,
      [.bus (.fetch ++ .idle (if size = .long then 8 else 4))] ++ [.perform .flexible]⟩ := by
  simp only [shiftRegister, h, Option.bind_eq_bind, Option.bind_some, beq_iff_eq, shifting]
  cases opcode.getLsbD 5 <;> rfl

theorem decode?_shiftRegister {kind : ShiftKind} {opcode : Word} {recipe : Recipe}
    (hpattern : opcode &&& 0xF118 = kind.pattern)
    (hrecipe : shiftRegister kind opcode = some recipe) :
    decode? forms opcode = some recipe := by
  cases kind <;> exact decode?_of_first hpattern rfl hpattern hrecipe

namespace Processor

theorem toNat_quick (p : Processor) :
    (p.readOperand .quick).toNat =
      if p.opcode.toNat / 512 % 8 = 0 then 8 else p.opcode.toNat / 512 % 8 := by
  simp only [readOperand]
  split
  · rename_i hzero
    rw [if_pos hzero]
    rfl
  · rename_i n hn
    have hlt : p.opcode.toNat / 512 % 8 < 8 := Nat.mod_lt _ (by decide)
    rw [if_neg hn, BitVec.toNat_ofNat, Nat.mod_eq_of_lt (hlt.trans (by decide))]

theorem shiftCount_shifting {q : Processor} {kind : ShiftKind} {size : Size}
    (h : q.instruction = shifting kind size q.opcode) :
    q.shiftCount = Reference.shiftCount q.opcode q.registers := by
  simp only [shiftCount, Reference.shiftCount, source, h, shifting]
  split
  · simp only [Operand.isDataRegister, if_true, readOperand, upperRegister,
      RegisterNumber.index_ofField]
  · rw [← toNat_quick]
    rfl

end Processor

section

variable (hbus : bus.Waitless) (hrealizes : tables.Realizes forms) {p : Processor}
  (hboundary : p.atBoundary tables) (hinterrupt : p.pendingInterrupt? = none)
include hbus hrealizes hboundary hinterrupt

namespace Processor

theorem spent_shift {kind : ShiftKind} {size : Size}
    (hpattern : Half.high.get p.prefetch &&& 0xF118 = kind.pattern)
    (hsize : sizeField? (Half.high.get p.prefetch) = some size) (b : β) :
    (p.runInstruction tables bus b).spent =
      shiftTime size (Reference.shiftCount (Half.high.get p.prefetch) p.registers) := by
  set opcode := Half.high.get p.prefetch with hopcode
  have hdecode := decode?_shiftRegister hpattern (shiftRegister_eq_some kind hsize)
  have hspent := spent_runInstruction_compute hbus hrealizes hboundary hinterrupt hdecode
    rfl rfl (by cases size <;> decide) nofun b
  set q := ((p.dispatchedRun (shifting kind size opcode) b).execute bus tables
    [.bus (.fetch ++ .idle (if size = .long then 8 else 4))]).processor
  have hcompute : q.compute = q.shift := rfl
  have hcount : q.shiftCount = Reference.shiftCount opcode p.registers :=
    shiftCount_shifting (q := q) rfl
  rw [hspent, hcompute, flexibleLength_shift rfl, hcount, Activity.elapsed_flexible, shiftTime,
    Nat.mul_comm 4]
  cases size <;> rfl

end Processor

end

/-! ## Multiplications -/

namespace Multiply

/-- Neighbouring pairs of unequal bits are the set bits of a word of their differences. -/
theorem signedCycles_eq (source : Word) : signedCycles source = 38 + 2 * changes source := by
  have hbits : (List.range 16).countP
      (((source ++ (0 : BitVec 1)) ^^^ (source ++ (0 : BitVec 1)) >>> 1).setWidth 16).getLsbD =
        changes source := by
    refine List.countP_congr fun i hi => ?_
    have hlt : i < 16 := List.mem_range.1 hi
    simp only [BitVec.getLsbD_setWidth, hlt, decide_true, Bool.true_and, BitVec.getLsbD_xor,
      BitVec.getLsbD_ushiftRight, Nat.add_comm 1 i]
    rw [Bool.xor_comm]
  rw [signedCycles, setBits, hbits]

end Multiply

namespace Encoding

/-- The operation of a multiplication. -/
def multiplication (signed : Bool) : Operation := if signed then .muls else .mulu

/-- The instruction that multiplies a data register by a word. -/
def multiplying (signed : Bool) (mode : AddressMode) (opcode : Word) : Instruction :=
  ((Instruction.bare (multiplication signed) .word).withSource mode
    (lowerRegister opcode)).withDestination .dataRegister (upperRegister opcode)

theorem multiply_eq_some (signed : Bool) {opcode : Word} {mode : AddressMode}
    (hmode : AddressMode.ofField? opcode = some mode) (hallowed : mode ≠ .addressRegister) :
    multiply (multiplication signed) opcode = some ⟨multiplying signed mode opcode,
      (fetchSource mode (lowerRegister opcode) .word ++ [.bus .fetch]) ++
        .perform .flexible :: stepPast mode (lowerRegister opcode) .word .src⟩ := by
  have hother : (mode == .addressRegister) = false := by simpa using hallowed
  simp only [multiply, hmode, Option.bind_eq_bind, Option.bind_some, hother, Bool.false_eq_true,
    if_false, List.append_assoc, multiplying]
  rfl

theorem isRigid_fetchSource (mode : AddressMode) (n : RegisterNumber) :
    ∀ stage ∈ fetchSource mode n .word ++ [.bus .fetch], stage.IsRigid := by
  cases mode <;> exact of_decide_eq_true rfl

theorem times_fetchSource (mode : AddressMode) (n : RegisterNumber) :
    Stage.times (fetchSource mode n .word ++ [.bus .fetch]) = operandTime mode + 8 := by
  cases mode <;> rfl

theorem isRigid_stepPast (mode : AddressMode) (n : RegisterNumber) :
    ∀ stage ∈ stepPast mode n .word .src, stage.IsRigid := by
  cases mode <;> exact of_decide_eq_true rfl

theorem times_stepPast (mode : AddressMode) (n : RegisterNumber) :
    Stage.times (stepPast mode n .word .src) = 0 := by
  cases mode <;> rfl

/-- An operand in memory is read at the end of the stages that bring it in. -/
theorem exists_read {mode : AddressMode} (hmode : mode.isMemory) (n : RegisterNumber) :
    ∃ (front : List Stage) (action : Action) (target : Target) (delay : Activity)
      (address : AddressSource),
      fetchSource mode n .word =
        front ++ [⟨action, target, delay ++ .read .source .low none .word address⟩] ∧
      (∀ stage ∈ front, stage.action ≠ .operate ∧ stage.activity.Blind) ∧ action ≠ .operate ∧
      delay.Blind := by
  cases mode with
  | dataRegister | addressRegister | immediate => cases hmode
  | indirect | postIncrement =>
    exact ⟨[], .none, .nowhere, [], .addressRegister n, rfl, by decide, by decide, by decide⟩
  | preDecrement =>
    exact ⟨[], .decrement .two, .src, .idle 4, .addressRegister n, rfl, by decide, by decide,
      by decide⟩
  | absoluteLong =>
    exact ⟨[.bus .fetch], .address .long, .src, .fetch, sourceAddress, rfl, by decide, by decide,
      by decide⟩
  | _ =>
    exact ⟨[], AddressMode.action _, .src, indexDelay _ ++ .fetch, sourceAddress, rfl, by decide,
      by decide, by decide⟩

end Encoding

namespace Run

theorem words_read (bus : Bus β) (address : AddressSource) (run : Run β) :
    (run.perform bus (.read .source .low none .word address)).words =
      run.words ++ [Half.low.get
        (run.perform bus (.read .source .low none .word address)).processor.data.source] := by
  have hlatched (latched : Long) (value : Word) :
      [value] = [Half.low.get (Half.low.set latched value)] :=
    congrArg (fun w => [w]) (Half.get_set_self .low latched value).symm
  simp only [Activity.read, Activity.transfer, perform_cons, perform_nil]
  set strobed := run.transact bus none _
  have hstrobed : strobed.words = run.words :=
    words_perform_of_blind bus (List.forall_mem_singleton.2 rfl) run
  rw [← hstrobed, words, words, transact, List.filter_cons_of_pos (by rfl), List.reverse_cons,
    List.map_append]
  exact congrArg (strobed.words ++ ·) (hlatched _ _)

/-- **The word that is read is the source operand.** -/
theorem words_fetchSource (bus : Bus β) {mode : AddressMode} (hmode : mode.isMemory)
    (n : RegisterNumber) {run : Run β} (hphase : run.processor.phase = .instruction) :
    (run.execute bus tables (fetchSource mode n .word)).words =
      run.words ++ [Half.low.get
        (run.execute bus tables (fetchSource mode n .word)).processor.data.source] := by
  obtain ⟨front, action, target, delay, address, hstages, hfront, haction, hdelay⟩ :=
    exists_read hmode n
  have hplain : run.Plain front :=
    ⟨hphase, fun stage hstage hoperate => absurd hoperate (hfront stage hstage).1⟩
  have hphase' : (run.execute bus tables front).processor.phase = .instruction :=
    (congrArg Control.phase (control_execute bus tables hplain)).trans hphase
  have hwords : (run.execute bus tables front).words = run.words :=
    words_execute_of_blind bus tables hplain fun stage hstage => (hfront stage hstage).2
  rw [hstages, execute_append bus tables hplain, execute_prepare bus tables target _ _ haction
    hphase', execute_nil, perform_append, words_read, words_perform_of_blind bus hdelay, ← hwords]
  rfl

/-- Nothing else is read for a multiplication, and what has been read stays the source operand. -/
theorem words_multiply (bus : Bus β) {mode : AddressMode} (hmode : mode.isMemory)
    (n : RegisterNumber) {run : Run β} (hphase : run.processor.phase = .instruction)
    (hplain : run.processor.instruction.operation.redirects = false) :
    (run.execute bus tables ((fetchSource mode n .word ++ [.bus .fetch]) ++
        .perform .flexible :: stepPast mode n .word .src)).words =
      run.words ++ [Half.low.get (run.execute bus tables
        (fetchSource mode n .word ++ [.bus .fetch])).processor.data.source] := by
  have hall (stages : List Stage) : run.Plain stages := ⟨hphase, fun _ _ _ => hplain⟩
  have hcontrol := control_execute bus tables (hall (fetchSource mode n .word))
  have hread : (run.execute bus tables (fetchSource mode n .word)).words = _ :=
    words_fetchSource bus hmode n hphase
  rw [List.append_assoc, execute_append bus tables (hall _), execute_append bus tables (hall _)]
  set fetched := run.execute bus tables (fetchSource mode n .word)
  have hblind : ∀ stage ∈ [Stage.bus .fetch] ++ .perform .flexible :: stepPast mode n .word .src,
      stage.activity.Blind := by
    cases mode <;> exact of_decide_eq_true rfl
  have hfetch : (fetched.execute bus tables [.bus .fetch]).processor.data =
      fetched.processor.data := by
    have haction : Action.none ≠ .operate := nofun
    rw [Stage.bus, execute_prepare bus tables .nowhere _ _ haction
      ((congrArg Control.phase hcontrol).trans hphase)]
    rfl
  rw [words_execute_of_blind bus tables ((hall _).of_control hcontrol fun _ hmem => hmem) hblind,
    hread, hfetch]

end Run

/-- The patterns of the multiplications are within that of a bitwise operation, which has no use for
this size field. -/
theorem decode?_multiply {signed : Bool} {opcode : Word} {recipe : Recipe}
    (hpattern : opcode &&& 0xF1C0 = multiplyPattern signed)
    (hrecipe : multiply (multiplication signed) opcode = some recipe) :
    decode? forms opcode = some recipe := by
  have hsize : sizeField? opcode = none :=
    sizeField?_eq_none ((field_eq hpattern rfl).trans (by cases signed <;> rfl))
  have hrefused : logical .and opcode = none := by
    simp only [logical, hsize, Option.bind_eq_bind, Option.bind_none]
  cases signed <;> exact decode?_of_second hpattern rfl hrefused hpattern hrecipe

namespace Processor

/-- The length of a multiplication grows with the bits that count in the source. -/
theorem flexibleLength_multiply {q : Processor} {signed : Bool}
    (h : q.instruction.operation = multiplication signed) :
    q.compute.flexibleLength =
      68 + 4 * if signed then changes (Half.low.get q.source)
        else Multiply.setBits (Half.low.get q.source) := by
  have hcycles (n : Nat) : HalfCycles.ofCycles (38 + 2 * n - 4) = 68 + 4 * n := by
    unfold HalfCycles.ofCycles HalfCycles
    omega
  cases signed with
  | false =>
    have hlength : q.compute.flexibleLength =
        HalfCycles.ofCycles (Multiply.unsignedCycles (Half.low.get q.source) - 4) := by
      simp only [compute, h]
      rfl
    exact hlength.trans (hcycles _)
  | true =>
    have hlength : q.compute.flexibleLength =
        HalfCycles.ofCycles (Multiply.signedCycles (Half.low.get q.source) - 4) := by
      simp only [compute, h]
      rfl
    rw [hlength, Multiply.signedCycles_eq]
    exact hcycles _

/-- While the source is brought in, the instruction stays what it is. -/
theorem instruction_fetchSource (bus : Bus β) (tables : Tables) (p : Processor) (signed : Bool)
    (mode : AddressMode) (opcode : Word) (b : β) :
    ((p.dispatchedRun (multiplying signed mode opcode) b).execute bus tables
      (fetchSource mode (lowerRegister opcode) .word ++ [.bus .fetch])).processor.instruction =
        multiplying signed mode opcode :=
  congrArg Control.instruction (Run.control_execute bus tables
    (Run.plain_of_rigid (isRigid_fetchSource mode (lowerRegister opcode)) rfl))

section

variable (hrealizes : tables.Realizes forms) {p : Processor} (hboundary : p.atBoundary tables)
  (hinterrupt : p.pendingInterrupt? = none)
include hrealizes hboundary hinterrupt

/-- What a multiplication has in its source when it begins is what it should multiply by. -/
theorem multipliesBy_source (bus : Bus β) {signed : Bool} {mode : AddressMode}
    (hpattern : Half.high.get p.prefetch &&& 0xF1C0 = multiplyPattern signed)
    (hmode : AddressMode.ofField? (Half.high.get p.prefetch) = some mode)
    (hallowed : mode ≠ .addressRegister) (b : β) :
    let opcode := Half.high.get p.prefetch
    let q := ((p.dispatchedRun (multiplying signed mode opcode) b).execute bus tables
      (fetchSource mode (lowerRegister opcode) .word ++ [.bus .fetch])).processor
    MultipliesBy opcode (Half.low.get p.prefetch) p.registers (p.runInstruction tables bus b)
      (Half.low.get q.source) mode := by
  intro opcode q
  by_cases hmemory : mode.isMemory
  · -- in memory the multiplier is the one word read besides the fetches
    have hsource : q.source = q.data.source := by
      rw [source, instruction_fetchSource]
      exact congrArg q.readOperand (Snapshot.ofMode_of_isMemory hmemory _ .sourceLatch)
    have hunprivileged : (multiplying signed mode opcode).requiresSupervisor = false := rfl
    have hfinal := unplaced_runInstruction bus hrealizes hboundary hinterrupt
      (decode?_multiply hpattern (multiply_eq_some signed hmode hallowed))
      (absurd · (Bool.eq_false_iff.1 hunprivileged)) b
    have hplain : (multiplying signed mode opcode).operation.redirects = false := by
      cases signed <;> rfl
    have hwords : (p.runInstruction tables bus b).words = [Half.low.get q.data.source] := by
      rw [Run.words_of_unplaced hfinal]
      have hphase : (p.dispatchedRun (multiplying signed mode opcode) b).processor.phase =
          .instruction := rfl
      exact Run.words_multiply bus hmemory _ hphase hplain
    cases mode <;> first | exact hsource ▸ hwords | cases hmemory
  · -- without an operand in memory the source is there from the beginning
    cases mode with
    | dataRegister =>
      change Half.low.get (p.registers.data (lowerRegister opcode).index) = _
      rw [lowerRegister, RegisterNumber.index_ofField]
    | immediate =>
      change Half.low.get ((Half.low.get p.prefetch).setWidth 32) = _
      rw [← setWidth_eq_low]
      exact BitVec.setWidth_setWidth_of_le _ (by decide)
    | addressRegister => exact absurd rfl hallowed
    | _ => exact absurd rfl hmemory

end

section

variable (hbus : bus.Waitless) (hrealizes : tables.Realizes forms) {p : Processor}
  (hboundary : p.atBoundary tables) (hinterrupt : p.pendingInterrupt? = none)
include hbus hrealizes hboundary hinterrupt

theorem spent_multiply {signed : Bool} {mode : AddressMode}
    (hpattern : Half.high.get p.prefetch &&& 0xF1C0 = multiplyPattern signed)
    (hmode : AddressMode.ofField? (Half.high.get p.prefetch) = some mode)
    (hallowed : mode ≠ .addressRegister) (b : β) :
    ∃ source,
      MultipliesBy (Half.high.get p.prefetch) (Half.low.get p.prefetch) p.registers
        (p.runInstruction tables bus b) source mode ∧
      (p.runInstruction tables bus b).spent = multiplyTime signed mode source := by
  refine ⟨_, multipliesBy_source hrealizes hboundary hinterrupt bus hpattern hmode hallowed b, ?_⟩
  set opcode := Half.high.get p.prefetch with hopcode
  have hunprivileged : (multiplying signed mode opcode).requiresSupervisor = false := rfl
  have hplain : (multiplying signed mode opcode).operation.redirects = false := by
    cases signed <;> rfl
  have hspent := spent_runInstruction_compute hbus hrealizes hboundary hinterrupt
    (decode?_multiply hpattern (multiply_eq_some signed hmode hallowed)) hunprivileged hplain
    (isRigid_fetchSource mode _) (isRigid_stepPast mode _) b
  set q := ((p.dispatchedRun (multiplying signed mode opcode) b).execute bus tables
    (fetchSource mode (lowerRegister opcode) .word ++ [.bus .fetch])).processor
  have hoperation : q.instruction.operation = multiplication signed :=
    congrArg Instruction.operation (instruction_fetchSource bus tables p signed mode opcode b)
  rw [hspent, times_fetchSource, times_stepPast, flexibleLength_multiply hoperation,
    Activity.elapsed_flexible, multiplyTime]
  unfold HalfCycles
  omega

end

end Processor

/-! ## Single bits and conditions -/

/-- The instruction that changes a bit of a data register. -/
def Encoding.bitChanging (static : Bool) (kind : BitKind) (opcode : Word) : Instruction :=
  { (Instruction.bare (.bit kind) .long).withDestination .dataRegister (lowerRegister opcode) with
    source := if static then .sourceLatch else .dataRegister (upperRegister opcode)
    sourceRegister := if static then .ofField 0 else upperRegister opcode }

theorem Encoding.bit_eq_some (static : Bool) {kind : BitKind} (hkind : kind ≠ .test)
    {opcode : Word} (hmode : AddressMode.ofField? opcode = some .dataRegister) :
    bit static kind opcode = some ⟨bitChanging static kind opcode,
      ((if static then fetchImmediate .word else []) ++ [.bus .fetch]) ++
        [.perform .flexible]⟩ := by
  have htest : (kind == .test) = false := by simpa using hkind
  simp only [bit, hmode, Option.bind_eq_bind, Option.bind_some, htest]
  cases static <;> rfl

theorem decode?_bit {static : Bool} {kind : BitKind} {opcode : Word} {recipe : Recipe}
    (hpattern : opcode &&& BitKind.mask static = kind.pattern static)
    (hrecipe : bit static kind opcode = some recipe) : decode? forms opcode = some recipe := by
  cases static with
  | false =>
    have hvalue : opcode &&& 0xF1C0 = kind.pattern false &&& 0xF1C0 := field_eq hpattern rfl
    cases kind <;> exact decode?_of_first hpattern rfl hvalue hrecipe
  | true =>
    have hvalue : opcode &&& 0xFFC0 = kind.pattern true &&& 0xFFC0 := field_eq hpattern rfl
    cases kind <;> exact decode?_of_first hpattern rfl hvalue hrecipe

/-- The mode field of a conditional set names a data register. -/
theorem Encoding.setOrLoop_of_set {opcode : Word} (h : opcode &&& 0xF0F8 = 0x50C0) :
    setOrLoop opcode = some
      ⟨(Instruction.bare .scc .byte).withDestination .dataRegister (lowerRegister opcode),
        [] ++ [.perform (.fetch ++ .flexible)]⟩ := by
  have hnamed : AddressMode.ofField? opcode = some .dataRegister :=
    ofField?_of_dataRegister (field_eq h rfl)
  simp only [setOrLoop, hnamed, Option.bind_eq_bind, Option.bind_some, List.nil_append]
  rfl

theorem decode?_set {opcode : Word} {recipe : Recipe} (h : opcode &&& 0xF0F8 = 0x50C0)
    (hrecipe : setOrLoop opcode = some recipe) : decode? forms opcode = some recipe :=
  decode?_of_first h rfl (field_eq h rfl : opcode &&& 0xF0C0 = 0x50C0) hrecipe

section

variable (hbus : bus.Waitless) (hrealizes : tables.Realizes forms) {p : Processor}
  (hboundary : p.atBoundary tables) (hinterrupt : p.pendingInterrupt? = none)
include hbus hrealizes hboundary hinterrupt

namespace Processor

theorem spent_changeBit {static : Bool} {kind : BitKind} (hkind : kind ≠ .test)
    (hpattern : Half.high.get p.prefetch &&& BitKind.mask static = kind.pattern static) (b : β) :
    (p.runInstruction tables bus b).spent =
      bitTime static kind (Reference.bitNumber static (Half.high.get p.prefetch)
        (Half.low.get p.prefetch) p.registers) := by
  set opcode := Half.high.get p.prefetch with hopcode
  have hmode : AddressMode.ofField? opcode = some .dataRegister := by
    refine ofField?_of_dataRegister ((field_eq hpattern ?_).trans ?_)
    · cases static <;> rfl
    · cases static <;> cases kind <;> rfl
  have hdecode := decode?_bit hpattern (bit_eq_some static hkind hmode)
  have hspent := spent_runInstruction_compute hbus hrealizes hboundary hinterrupt hdecode
    rfl rfl (by cases static <;> decide) nofun b
  set q := ((p.dispatchedRun (bitChanging static kind opcode) b).execute bus tables
    ((if static then fetchImmediate .word else []) ++ [.bus .fetch])).processor with hq
  have hinstruction : q.instruction = bitChanging static kind opcode := by cases static <;> rfl
  have hnumber : q.bitNumber =
      Reference.bitNumber static opcode (Half.low.get p.prefetch) p.registers := by
    cases static with
    | false =>
      change (p.registers.data (upperRegister opcode).index).toNat % 32 = _
      rw [upperRegister, RegisterNumber.index_ofField]
      rfl
    | true =>
      change ((Half.low.get p.prefetch).setWidth 32).toNat % 32 = _
      rw [BitVec.toNat_setWidth_of_le (by decide)]
      rfl
  have hcompute : q.compute = q.operateOnBit kind := by
    simp only [compute, hinstruction]
    rfl
  rw [hspent, hcompute, flexibleLength_changeBit hkind (by rw [hinstruction]; rfl), hnumber,
    Activity.elapsed_flexible, bitTime]
  have htimes : Stage.times ((if static then fetchImmediate .word else []) ++ [.bus .fetch]) =
      8 + if static then 8 else 0 := by cases static <;> rfl
  rw [htimes, show Stage.times [] = 0 from rfl]
  split_ifs <;> rfl

/-- A conditional set uses up what is left of a length, and there is nothing left. -/
theorem spent_set (hlength : p.flexibleLength = 0)
    (hpattern : Half.high.get p.prefetch &&& 0xF0F8 = 0x50C0) (b : β) :
    (p.runInstruction tables bus b).spent =
      setTime (Reference.conditionHolds (Half.high.get p.prefetch) p.registers) := by
  set opcode := Half.high.get p.prefetch with hopcode
  have hspent := spent_runInstruction_compute hbus hrealizes hboundary hinterrupt
    (decode?_set hpattern (setOrLoop_of_set hpattern)) rfl rfl nofun nofun b
  set q := ((p.dispatchedRun ((Instruction.bare .scc .byte).withDestination .dataRegister
    (lowerRegister opcode)) b).execute bus tables []).processor
  have hcompute : q.compute = q.setOnCondition := rfl
  have hholds : q.conditionHolds = Reference.conditionHolds opcode p.registers := rfl
  have hleft : q.flexibleLength = 0 := hlength
  rw [hspent, hcompute, flexibleLength_setOnCondition, hholds, hleft, setTime]
  cases Reference.conditionHolds opcode p.registers <;> rfl

end Processor

end

end M68k
