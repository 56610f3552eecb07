import M68k.Proofs.Combine.Reference
import M68k.Proofs.Encoding.Cases

/-!
# Encodings of operations on registers

The encodings whose result goes to a register differ in where their fields name the source and the
register. All of them fetch the source first, and most let the source register step when the
operation is done. A load of the status register may change the stack pointer, and comes last.

## Main definitions

* `Encoding.combining`: the encodings, with the operations that their opcodes mean
* `Encoding.Chained`: the stages of such an operation
* `Recipe.Combines`: what the recipes have in common

## Main results

* `Encoding.combines_of_mem`: the recipes of these encodings
-/

namespace M68k

open Reference

namespace Encoding

/-! ## What opcodes mean -/

/-- The register that the lower field names. -/
def lowerIndex (opcode : Word) : RegisterIndex := .ofField opcode.toNat

/-- The register that the upper field names. -/
def upperIndex (opcode : Word) : RegisterIndex := .ofField (opcode.toNat / 512)

/-- The operand of the lower fields. -/
def lowerOperand? (opcode : Word) : Option Supply :=
  (AddressMode.ofField? opcode).map fun mode => .operand mode (lowerIndex opcode)

/-- The operand of the lower fields is combined with the data register of the upper one. -/
def intoData (operation : Operation) (size? : Word → Option Size) (opcode : Word) :
    Option Combination := do
  some ⟨operation, ← size? opcode, ← lowerOperand? opcode, .data (upperIndex opcode)⟩

/-- The operand of the lower fields is combined with the address register of the upper one. -/
def intoAddress (operation : Operation) (opcode : Word) : Option Combination := do
  some ⟨operation, addressSize opcode, ← lowerOperand? opcode, .address (upperIndex opcode)⟩

/-- The operand of the lower fields is loaded into the status register. -/
def intoStatus (operation : Operation) (opcode : Word) : Option Combination := do
  some ⟨operation, .word, ← lowerOperand? opcode, .status⟩

/-- The data register of the upper field is combined with that of the lower one. -/
def betweenData (operation : Operation) (opcode : Word) : Option Combination := do
  some ⟨operation, ← sizeField? opcode, .operand .dataRegister (upperIndex opcode),
    .data (lowerIndex opcode)⟩

/-- The words after the opcode are combined with the data register of the lower field. -/
def immediateData (operation : Operation) (opcode : Word) : Option Combination := do
  some ⟨operation, ← sizeField? opcode, .operand .immediate (.ofField 0), .data (lowerIndex opcode)⟩

/-- A number is combined with a data register, or with the whole of an address register. -/
def quickRegister (operation onAddress : Operation) (opcode : Word) : Option Combination := do
  let size ← sizeField? opcode
  let supply : Supply := .number (quickNumber opcode)
  match ← AddressMode.ofField? opcode with
  | .dataRegister => some ⟨operation, size, supply, .data (lowerIndex opcode)⟩
  | .addressRegister => some ⟨onAddress, .long, supply, .address (lowerIndex opcode)⟩
  | _ => none

/-- The encodings of operations on registers, with what their opcodes mean. -/
def combining : List ((Word → Option Recipe) × (Word → Option Combination)) :=
  [(addSub .add, intoData .add sizeField?), (addSub .sub, intoData .sub sizeField?),
    (logical .and, intoData (.bitwise .and) sizeField?),
    (logical .or, intoData (.bitwise .or) sizeField?),
    (compareRegister, intoData .cmp sizeField?),
    (multiply .mulu, intoData .mulu fun _ => some .word),
    (multiply .muls, intoData .muls fun _ => some .word),
    (logical .eor, betweenData (.bitwise .eor)),
    (immediate .add, immediateData .add), (immediate .sub, immediateData .sub),
    (immediate (.bitwise .and), immediateData (.bitwise .and)),
    (immediate (.bitwise .or), immediateData (.bitwise .or)),
    (immediate (.bitwise .eor), immediateData (.bitwise .eor)),
    (compareImmediate, immediateData .cmp),
    (quickAddSub .add, quickRegister .add .adda), (quickAddSub .sub, quickRegister .sub .suba),
    (addressAddSub .adda, intoAddress .adda), (addressAddSub .suba, intoAddress .suba),
    (compareAddress, intoAddress .cmpa),
    (moveToStatus .moveToSr, intoStatus .moveToSr),
    (moveToStatus .moveToCcr, intoStatus .moveToCcr)]

end Encoding

/-! ## Recipes -/

/-- The activity fetches one word of the program, and otherwise takes time. -/
inductive Activity.Advances : Activity → Prop
  | fetch : Advances .fetch
  | before (cycles : Nat) {activity : Activity} (h : Advances activity) :
    Advances (Activity.idle cycles ++ activity)
  | after {activity : Activity} (h : Advances activity) (cycles : Nat) :
    Advances (activity ++ Activity.idle cycles)

namespace Encoding

/-- The stages that carry out an operation on a register. That of a multiplication takes time that
depends on its operands, and follows the fetch. -/
inductive Operates (operation : Operation) : List Stage → Prop
  | perform {tail : Activity} (htail : tail.Advances) : Operates operation [.perform tail]
  | multiply (hmultiply : operation = .mulu ∨ operation = .muls) :
    Operates operation [.bus .fetch, .perform .flexible]

/-- The stages of an operation on a register. -/
inductive Chained (opcode : Word) (instruction : Instruction) : Supply → List Stage → Prop
  /-- The source register steps behind the operation, -/
  | last {mode : AddressMode} {n : RegisterNumber} (hn : n.toNat < 8)
    (hregister : instruction.sourceRegister = n)
    (hsource : instruction.source = .ofMode mode n .sourceLatch) {operate : List Stage}
    (hoperates : Operates instruction.operation operate)
    (hrecipient : recipientOf instruction.destination ≠ .status) :
    Chained opcode instruction (.operand mode n.index)
      (fetchSource mode n instruction.size ++ operate ++ stepPast mode n instruction.size .src)
  /-- or in front of it. -/
  | first {mode : AddressMode} {n : RegisterNumber} (hn : n.toNat < 8)
    (hregister : instruction.sourceRegister = n)
    (hsource : instruction.source = .ofMode mode n .sourceLatch) {operate : List Stage}
    (hoperates : Operates instruction.operation operate) :
    Chained opcode instruction (.operand mode n.index)
      (fetchSource mode n instruction.size ++ stepPast mode n instruction.size .src ++ operate)
  /-- A number is at hand. -/
  | number (hsource : instruction.source = .quick) {operate : List Stage}
    (hoperates : Operates instruction.operation operate) :
    Chained opcode instruction (.number (quickNumber opcode)) operate

end Encoding

/-- The recipe is that of an operation on a register. -/
structure Recipe.Combines (recipe : Recipe) (opcode : Word) (combination : Combination) :
    Prop where
  operation : recipe.instruction.operation = combination.operation
  size : recipe.instruction.size = combination.size
  recipient : recipientOf recipe.instruction.destination = combination.recipient
  admits : combination.recipient.admits combination.size combination.operation
  chained : Encoding.Chained opcode recipe.instruction combination.supply recipe.stages

namespace Encoding

variable {opcode : Word} {recipe : Recipe} {mode : AddressMode} {size : Size}
  {operation : Operation}

theorem advances_longDelay (size : Size) : (longDelay size).Advances := by
  cases size with
  | long => exact .after .fetch 4
  | _ => exact .fetch

theorem advances_registerTail (mode : AddressMode) (size : Size) :
    (registerTail mode size).Advances := by
  cases size with
  | long => exact .after .fetch _
  | _ => exact .fetch

theorem index_lowerRegister (opcode : Word) : (lowerRegister opcode).index = lowerIndex opcode :=
  RegisterNumber.index_ofField _

theorem index_upperRegister (opcode : Word) : (upperRegister opcode).index = upperIndex opcode :=
  RegisterNumber.index_ofField _

theorem lowerOperand?_eq (hmode : AddressMode.ofField? opcode = some mode) :
    lowerOperand? opcode = some (.operand mode (lowerRegister opcode).index) := by
  rw [lowerOperand?, hmode, index_lowerRegister]
  rfl

/-- A recipe that brings the operand of the lower fields into a register. -/
theorem combines_intoRegister {instruction : Instruction} {recipient : Recipient}
    (hoperation : instruction.operation = operation) (hsize : instruction.size = size)
    (hsource : instruction.source = .ofMode mode (lowerRegister opcode) .sourceLatch)
    (hregister : instruction.sourceRegister = lowerRegister opcode)
    (hrecipient : recipientOf instruction.destination = recipient) (hstatus : recipient ≠ .status)
    (hadmits : recipient.admits size operation) {operate : List Stage}
    (hoperates : Operates operation operate) :
    Recipe.Combines
      ⟨instruction, fetchSource mode (lowerRegister opcode) size ++ operate ++
        stepPast mode (lowerRegister opcode) size .src⟩ opcode
      ⟨operation, size, .operand mode (lowerRegister opcode).index, recipient⟩ := by
  subst hoperation hsize hrecipient
  exact
    { operation := rfl
      size := rfl
      recipient := rfl
      admits := hadmits
      chained := .last (RegisterNumber.toNat_ofField_lt _) hregister hsource hoperates hstatus }

theorem data_upper (opcode : Word) :
    recipientOf (.dataRegister (upperRegister opcode)) = .data (upperIndex opcode) := by
  rw [recipientOf, index_upperRegister]

theorem data_lower (opcode : Word) :
    recipientOf (.dataRegister (lowerRegister opcode)) = .data (lowerIndex opcode) := by
  rw [recipientOf, index_lowerRegister]

/-- Into a data register. -/
theorem combines_intoData {size? : Word → Option Size} (hsize : size? opcode = some size)
    (hmode : AddressMode.ofField? opcode = some mode)
    (hadmits : (Recipient.data (upperIndex opcode)).admits size operation) {operate : List Stage}
    (hoperates : Operates operation operate) :
    ∃ combination, intoData operation size? opcode = some combination ∧
      Recipe.Combines
        ⟨((Instruction.bare operation size).withSource mode
            (lowerRegister opcode)).withDestination .dataRegister (upperRegister opcode),
          fetchSource mode (lowerRegister opcode) size ++ operate ++
            stepPast mode (lowerRegister opcode) size .src⟩ opcode combination := by
  refine ⟨⟨operation, size, .operand mode (lowerRegister opcode).index,
    .data (upperIndex opcode)⟩, ?_, ?_⟩
  · simp [intoData, hsize, lowerOperand?_eq hmode]
  · refine combines_intoRegister ?_ ?_ ?_ ?_ (data_upper opcode) ?_ hadmits hoperates
    all_goals first | rfl | nofun

theorem combines_addSub (hadmits : ∀ size n, (Recipient.data n).admits size operation)
    (h : addSub operation opcode = some recipe)
    (hregister : recipe.instruction.destination ≠ .destinationLatch) :
    ∃ combination, intoData operation sizeField? opcode = some combination ∧
      recipe.Combines opcode combination := by
  obtain ⟨size, mode, hsize, hmode, ⟨hmemory, rfl⟩ | rfl⟩ := addSub_cases h
  · exact absurd (Snapshot.ofMode_of_isMemory hmemory _ _) hregister
  · exact combines_intoData hsize hmode (hadmits _ _) (.perform (advances_registerTail mode size))

/-- Into a register the exclusive or takes its source from a register. It has no other form, and the
other bitwise operations do not have this one. -/
theorem logical_register_cases {kind : BitwiseKind} (h : logical kind opcode = some recipe)
    (hregister : recipe.instruction.destination ≠ .destinationLatch) :
    ∃ size mode, sizeField? opcode = some size ∧ AddressMode.ofField? opcode = some mode ∧
      (kind = .eor ∧
          recipe =
            ⟨((Instruction.bare (.bitwise kind) size).withSource .dataRegister
                (upperRegister opcode)).withDestination .dataRegister (lowerRegister opcode),
              [.perform (registerTail .dataRegister size)]⟩ ∨
        kind ≠ .eor ∧
          recipe =
            ⟨((Instruction.bare (.bitwise kind) size).withSource mode
                (lowerRegister opcode)).withDestination .dataRegister (upperRegister opcode),
              intoRegister mode (lowerRegister opcode) size (registerTail mode size)⟩) := by
  simp only [logical, Option.bind_eq_bind, Option.bind_eq_some_iff] at h
  obtain ⟨size, hsize, mode, hmode, h⟩ := h
  refine ⟨size, mode, hsize, hmode, ?_⟩
  split at h
  · split at h
    · rename_i hexclusive
      obtain ⟨rfl, rfl⟩ : mode = .dataRegister ∧ kind = .eor := by simpa using hexclusive
      exact .inl ⟨rfl, (Option.some.inj h).symm⟩
    · split at h
      · rename_i halterable
        cases h
        exact absurd (Snapshot.ofMode_of_isMemory (AddressMode.isMemory_of_alterable halterable) _ _)
          hregister
      · cases h
  · split at h
    · cases h
    · rename_i hinclusive
      exact .inr ⟨fun hkind => hinclusive (by simp [hkind]), (Option.some.inj h).symm⟩

theorem combines_logical {kind : BitwiseKind} (hkind : kind ≠ .eor)
    (h : logical kind opcode = some recipe)
    (hregister : recipe.instruction.destination ≠ .destinationLatch) :
    ∃ combination, intoData (.bitwise kind) sizeField? opcode = some combination ∧
      recipe.Combines opcode combination := by
  obtain ⟨size, mode, hsize, hmode, ⟨heor, -⟩ | ⟨-, rfl⟩⟩ := logical_register_cases h hregister
  · exact absurd heor hkind
  · exact combines_intoData hsize hmode rfl (.perform (advances_registerTail mode size))

theorem combines_eor (h : logical .eor opcode = some recipe)
    (hregister : recipe.instruction.destination ≠ .destinationLatch) :
    ∃ combination, betweenData (.bitwise .eor) opcode = some combination ∧
      recipe.Combines opcode combination := by
  obtain ⟨size, mode, hsize, -, ⟨-, rfl⟩ | ⟨hkind, -⟩⟩ := logical_register_cases h hregister
  · refine ⟨⟨.bitwise .eor, size, .operand .dataRegister (upperIndex opcode),
      .data (lowerIndex opcode)⟩, by simp [betweenData, hsize], ?_⟩
    rw [← index_upperRegister]
    exact
      { operation := rfl
        size := rfl
        recipient := data_lower opcode
        admits := rfl
        chained := .last (RegisterNumber.toNat_ofField_lt _) rfl rfl
          (.perform (advances_registerTail _ size)) nofun }
  · exact absurd rfl hkind

theorem combines_compareRegister (h : compareRegister opcode = some recipe) :
    ∃ combination, intoData .cmp sizeField? opcode = some combination ∧
      recipe.Combines opcode combination := by
  obtain ⟨size, mode, hsize, hmode, rfl⟩ := compareRegister_cases h
  exact combines_intoData hsize hmode rfl (.perform (advances_longDelay size))

theorem combines_multiply (hmultiply : operation = .mulu ∨ operation = .muls)
    (h : multiply operation opcode = some recipe) :
    ∃ combination, (intoData operation fun _ => some .word) opcode = some combination ∧
      recipe.Combines opcode combination := by
  obtain ⟨mode, hmode, rfl⟩ := multiply_cases h
  refine combines_intoData rfl hmode ?_ (.multiply hmultiply)
  rcases hmultiply with rfl | rfl <;> rfl

/-- An operation that finds its source in the next words of the program. -/
theorem combines_immediateData {lead : List Stage} {instruction : Instruction} {tail : Activity}
    {writeback : Writeback} (hlead : lead = fetchImmediate size)
    (hinstruction : instruction =
      { Instruction.bare operation size with source := .sourceLatch })
    (hplace : InPlace opcode lead instruction tail writeback mode recipe)
    (hregister : recipe.instruction.destination ≠ .destinationLatch)
    (hsize : sizeField? opcode = some size)
    (hadmits : (Recipient.data (lowerIndex opcode)).admits size operation)
    (htail : tail.Advances) :
    ∃ combination, immediateData operation opcode = some combination ∧
      recipe.Combines opcode combination := by
  subst hlead hinstruction
  cases hplace with
  | memory hmode => exact absurd (Snapshot.ofMode_of_isMemory hmode _ _) hregister
  | register =>
    refine ⟨⟨operation, size, .operand .immediate (.ofField 0), .data (lowerIndex opcode)⟩,
      by simp [immediateData, hsize], ?_⟩
    have hchained : Chained opcode
        ({ Instruction.bare operation size with source := .sourceLatch }.withDestination
            .dataRegister (lowerRegister opcode))
        (.operand .immediate (RegisterNumber.ofField 0).index)
        (fetchImmediate size ++ [.perform tail] ++ []) :=
      .last (RegisterNumber.toNat_ofField_lt 0) rfl rfl (.perform htail) nofun
    rw [List.append_nil] at hchained
    exact
      { operation := rfl
        size := rfl
        recipient := data_lower opcode
        admits := hadmits
        chained := hchained }

theorem combines_immediate (hadmits : ∀ size n, (Recipient.data n).admits size operation)
    (h : immediate operation opcode = some recipe)
    (hregister : recipe.instruction.destination ≠ .destinationLatch) :
    ∃ combination, immediateData operation opcode = some combination ∧
      recipe.Combines opcode combination := by
  obtain ⟨size, mode, hsize, -, hplace⟩ := immediate_cases h
  refine combines_immediateData rfl rfl hplace hregister hsize (hadmits _ _) ?_
  split
  · exact .after .fetch 4
  · exact advances_registerTail _ size

theorem combines_compareImmediate (h : compareImmediate opcode = some recipe)
    (hregister : recipe.instruction.destination ≠ .destinationLatch) :
    ∃ combination, immediateData .cmp opcode = some combination ∧
      recipe.Combines opcode combination := by
  obtain ⟨size, mode, hsize, -, hplace⟩ := compareImmediate_cases h
  exact combines_immediateData rfl rfl hplace hregister hsize rfl (advances_longDelay size)

theorem combines_quickAddSub {onAddress : Operation}
    (haddress : onAddress = if operation == .add then .adda else .suba)
    (hadmits : ∀ size n, (Recipient.data n).admits size operation)
    (h : quickAddSub operation opcode = some recipe)
    (hregister : recipe.instruction.destination ≠ .destinationLatch) :
    ∃ combination, quickRegister operation onAddress opcode = some combination ∧
      recipe.Combines opcode combination := by
  obtain ⟨size, mode, hsize, hmode, ⟨rfl, rfl⟩ | hplace⟩ := quickAddSub_cases h
  · refine ⟨⟨onAddress, .long, .number (quickNumber opcode), .address (lowerIndex opcode)⟩,
      by simp [quickRegister, hsize, hmode], ?_⟩
    exact
      { operation := haddress.symm
        size := rfl
        recipient := congrArg Recipient.address (index_lowerRegister opcode)
        admits := by subst haddress; split <;> rfl
        chained := .number rfl (.perform (.after .fetch 8)) }
  · cases hplace with
    | memory hmode => exact absurd (Snapshot.ofMode_of_isMemory hmode _ _) hregister
    | register =>
      refine ⟨⟨operation, size, .number (quickNumber opcode), .data (lowerIndex opcode)⟩,
        by simp [quickRegister, hsize, hmode], ?_⟩
      exact
        { operation := rfl
          size := rfl
          recipient := data_lower opcode
          admits := hadmits _ _
          chained := .number rfl (.perform (advances_registerTail _ size)) }

/-- Into an address register. -/
theorem combines_intoAddress (hmode : AddressMode.ofField? opcode = some mode)
    (hadmits : (Recipient.address (upperIndex opcode)).admits (addressSize opcode) operation)
    {tail : Activity} (htail : tail.Advances) :
    ∃ combination, intoAddress operation opcode = some combination ∧
      Recipe.Combines
        ⟨((Instruction.bare operation (addressSize opcode)).withSource mode
            (lowerRegister opcode)).withDestination .addressRegister (upperRegister opcode),
          intoRegister mode (lowerRegister opcode) (addressSize opcode) tail⟩ opcode
        combination := by
  refine ⟨⟨operation, addressSize opcode, .operand mode (lowerRegister opcode).index,
    .address (upperIndex opcode)⟩, ?_, ?_⟩
  · simp [intoAddress, lowerOperand?_eq hmode]
  · have hrecipient : recipientOf (.addressRegister (upperRegister opcode)) =
        .address (upperIndex opcode) := congrArg _ (index_upperRegister opcode)
    refine combines_intoRegister ?_ ?_ ?_ ?_ hrecipient ?_ hadmits (.perform htail)
    all_goals first | rfl | nofun

theorem combines_addressAddSub (hadmits : ∀ size n, (Recipient.address n).admits size operation)
    (h : addressAddSub operation opcode = some recipe) :
    ∃ combination, intoAddress operation opcode = some combination ∧
      recipe.Combines opcode combination := by
  simp only [addressAddSub, Option.bind_eq_bind, Option.bind_eq_some_iff] at h
  obtain ⟨mode, hmode, h⟩ := h
  cases h
  refine combines_intoAddress hmode (hadmits _ _) ?_
  cases addressSize opcode with
  | long => exact advances_registerTail mode .long
  | _ => exact .after .fetch 8

theorem combines_compareAddress (h : compareAddress opcode = some recipe) :
    ∃ combination, intoAddress .cmpa opcode = some combination ∧
      recipe.Combines opcode combination := by
  simp only [compareAddress, Option.bind_eq_bind, Option.bind_eq_some_iff] at h
  obtain ⟨mode, hmode, h⟩ := h
  cases h
  exact combines_intoAddress hmode rfl (.after .fetch 4)

theorem combines_moveToStatus (hadmits : Recipient.status.admits .word operation)
    (h : moveToStatus operation opcode = some recipe) :
    ∃ combination, intoStatus operation opcode = some combination ∧
      recipe.Combines opcode combination := by
  obtain ⟨mode, hmode, rfl⟩ := moveToStatus_cases h
  refine ⟨⟨operation, .word, .operand mode (lowerRegister opcode).index, .status⟩, ?_, ?_⟩
  · simp [intoStatus, lowerOperand?_eq hmode]
  · exact
      { operation := rfl
        size := rfl
        recipient := rfl
        admits := hadmits
        chained := .first (RegisterNumber.toNat_ofField_lt _) rfl rfl
          (.perform (.before 8 (.before 8 .fetch))) }

/-- **The recipes of these encodings**, when the result goes to a register, are those of the
operations that their opcodes mean. -/
theorem combines_of_mem {encoding : Word → Option Recipe} {meaning : Word → Option Combination}
    (hencoding : (encoding, meaning) ∈ combining) (h : encoding opcode = some recipe)
    (hregister : recipe.instruction.destination ≠ .destinationLatch) :
    ∃ combination, meaning opcode = some combination ∧ recipe.Combines opcode combination := by
  simp only [combining, List.mem_cons, Prod.mk.injEq, List.not_mem_nil, or_false] at hencoding
  rcases hencoding with
    ⟨rfl, rfl⟩ | ⟨rfl, rfl⟩ | ⟨rfl, rfl⟩ | ⟨rfl, rfl⟩ | ⟨rfl, rfl⟩ | ⟨rfl, rfl⟩ | ⟨rfl, rfl⟩ |
    ⟨rfl, rfl⟩ | ⟨rfl, rfl⟩ | ⟨rfl, rfl⟩ | ⟨rfl, rfl⟩ | ⟨rfl, rfl⟩ | ⟨rfl, rfl⟩ | ⟨rfl, rfl⟩ |
    ⟨rfl, rfl⟩ | ⟨rfl, rfl⟩ | ⟨rfl, rfl⟩ | ⟨rfl, rfl⟩ | ⟨rfl, rfl⟩ | ⟨rfl, rfl⟩ | ⟨rfl, rfl⟩
  iterate 2 exact combines_addSub (fun _ _ => rfl) h hregister
  iterate 2 exact combines_logical nofun h hregister
  · exact combines_compareRegister h
  · exact combines_multiply (.inl rfl) h
  · exact combines_multiply (.inr rfl) h
  · exact combines_eor h hregister
  iterate 5 exact combines_immediate (fun _ _ => rfl) h hregister
  · exact combines_compareImmediate h hregister
  iterate 2 exact combines_quickAddSub rfl (fun _ _ => rfl) h hregister
  iterate 2 exact combines_addressAddSub (fun _ _ => rfl) h
  · exact combines_compareAddress h
  iterate 2 exact combines_moveToStatus rfl h

end Encoding

end M68k
