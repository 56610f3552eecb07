import M68k.Encoding.Forms
import M68k.Proofs.Decoding.DataMovement
import M68k.Proofs.Decoding.Logical
import M68k.Proofs.Decoding.ProgramControl
import M68k.Proofs.Encoding.Extension

/-!
# Patterns

The table that decoders are chosen by. A pattern has fixed bits and names its decoder. Opcodes of
three sizes share a decoder, and their patterns are families in which only the size field differs.
Fixed bits of different patterns can agree, and then it is up to the decoders that only one of them
accepts an opcode.

## Main definitions

* `Decoder`: the decoders by name, with `Decoder.decode` and `Decoder.encoding`
* `Pattern`: fixed bits with a decoder
* `Pattern.families`, `Pattern.all`: the table
* `Decoder.refused`: fields that a decoder rejects
* `Pattern.apart`: fixed bits and refused fields keep two patterns apart
* `Pattern.Accepts`, `Pattern.Excludes`: what the decoder of a pattern comes to

## Main results

* `Decoder.follows`: every decoder follows its encoding
* `Pattern.decode?_all`: the patterns decode what the opcode forms decode
* `Pattern.pairwise_all`: no two patterns accept the same opcode
* `Pattern.decode?_of_perm`: so the order of the patterns makes no difference
-/

namespace M68k

/-! ## Decoders -/

/-- The decoders. -/
inductive Decoder
  | packedDecimal (operation : Operation)
  | logical (kind : BitwiseKind)
  | immediate (operation : Operation)
  | compareImmediate
  | immediateToStatus (operation : Operation)
  | move
  | moveToStatus (operation : Operation)
  | moveFromStatus
  | moveQuick
  | moveUserStack
  | moveRegisters (direction : ListDirection)
  | compareRegister
  | compareAddress
  | compareMemory
  | branch
  | setOrLoop
  | jump
  | jumpToSubroutine
  | returnFromSubroutine
  | returnFromException (operation : Operation)
  | trap
  | noOperation
  | resetDevices
  | loadAddress
  | addSub (operation : Operation)
  | addressAddSub (operation : Operation)
  | quickAddSub (operation : Operation)
  | bit (static : Bool) (kind : BitKind)
  | singleOperand (operation : Operation)
  | test
  | testAndSet
  | shiftRegister (kind : ShiftKind)
  | shiftMemory (kind : ShiftKind)
  | multiply (operation : Operation)
  | exchange
  | extendOrSwap (operation : Operation)
deriving DecidableEq, Repr

namespace Decoder

/-- What a decoder does with an opcode. -/
def decode : Decoder → Word → Decoding Instruction
  | packedDecimal operation => Decoding.packedDecimal operation
  | logical kind => Decoding.logical kind
  | immediate operation => Decoding.immediate operation
  | compareImmediate => Decoding.compareImmediate
  | immediateToStatus operation => Decoding.immediateToStatus operation
  | move => Decoding.move
  | moveToStatus operation => Decoding.moveToStatus operation
  | moveFromStatus => Decoding.moveFromStatus
  | moveQuick => Decoding.moveQuick
  | moveUserStack => Decoding.moveUserStack
  | moveRegisters direction => Decoding.moveRegisters direction
  | compareRegister => Decoding.compareRegister
  | compareAddress => Decoding.compareAddress
  | compareMemory => Decoding.compareMemory
  | branch => Decoding.branch
  | setOrLoop => Decoding.setOrLoop
  | jump => Decoding.jump
  | jumpToSubroutine => Decoding.jumpToSubroutine
  | returnFromSubroutine => Decoding.returnFromSubroutine
  | returnFromException operation => Decoding.returnFromException operation
  | trap => Decoding.trap
  | noOperation => Decoding.noOperation
  | resetDevices => Decoding.resetDevices
  | loadAddress => Decoding.loadAddress
  | addSub operation => Decoding.addSub operation
  | addressAddSub operation => Decoding.addressAddSub operation
  | quickAddSub operation => Decoding.quickAddSub operation
  | bit static kind => Decoding.bit static kind
  | singleOperand operation => Decoding.singleOperand operation
  | test => Decoding.test
  | testAndSet => Decoding.testAndSet
  | shiftRegister kind => Decoding.shiftRegister kind
  | shiftMemory kind => Decoding.shiftMemory kind
  | multiply operation => Decoding.multiply operation
  | exchange => Decoding.exchange
  | extendOrSwap operation => Decoding.extendOrSwap operation

/-- The encoding that a decoder follows. -/
def encoding : Decoder → Word → Option Recipe
  | packedDecimal operation => Encoding.packedDecimal operation
  | logical kind => Encoding.logical kind
  | immediate operation => Encoding.immediate operation
  | compareImmediate => Encoding.compareImmediate
  | immediateToStatus operation => Encoding.immediateToStatus operation
  | move => Encoding.move
  | moveToStatus operation => Encoding.moveToStatus operation
  | moveFromStatus => Encoding.moveFromStatus
  | moveQuick => Encoding.moveQuick
  | moveUserStack => Encoding.moveUserStack
  | moveRegisters direction => Encoding.moveRegisters direction
  | compareRegister => Encoding.compareRegister
  | compareAddress => Encoding.compareAddress
  | compareMemory => Encoding.compareMemory
  | branch => Encoding.branch
  | setOrLoop => Encoding.setOrLoop
  | jump => Encoding.jump
  | jumpToSubroutine => Encoding.jumpToSubroutine
  | returnFromSubroutine => Encoding.returnFromSubroutine
  | returnFromException operation => Encoding.returnFromException operation
  | trap => Encoding.trap
  | noOperation => Encoding.noOperation
  | resetDevices => Encoding.resetDevices
  | loadAddress => Encoding.loadAddress
  | addSub operation => Encoding.addSub operation
  | addressAddSub operation => Encoding.addressAddSub operation
  | quickAddSub operation => Encoding.quickAddSub operation
  | bit static kind => Encoding.bit static kind
  | singleOperand operation => Encoding.singleOperand operation
  | test => Encoding.test
  | testAndSet => Encoding.testAndSet
  | shiftRegister kind => Encoding.shiftRegister kind
  | shiftMemory kind => Encoding.shiftMemory kind
  | multiply operation => Encoding.multiply operation
  | exchange => Encoding.exchange
  | extendOrSwap operation => Encoding.extendOrSwap operation

open Decoding in
/-- **Every decoder follows its encoding**: it rejects an opcode before it has written anything, or
it writes down the recipe. -/
theorem follows (decoder : Decoder) (opcode : Word) :
    (decoder.decode opcode).Follows (decoder.encoding opcode) := by
  cases decoder with
  | packedDecimal operation => exact follows_packedDecimal operation opcode
  | logical kind => exact follows_logical kind opcode
  | immediate operation => exact follows_immediate operation opcode
  | compareImmediate => exact follows_compareImmediate opcode
  | immediateToStatus operation => exact follows_immediateToStatus operation opcode
  | move => exact follows_move opcode
  | moveToStatus operation => exact follows_moveToStatus operation opcode
  | moveFromStatus => exact follows_moveFromStatus opcode
  | moveQuick => exact follows_moveQuick opcode
  | moveUserStack => exact follows_moveUserStack opcode
  | moveRegisters direction => exact follows_moveRegisters direction opcode
  | compareRegister => exact follows_compareRegister opcode
  | compareAddress => exact follows_compareAddress opcode
  | compareMemory => exact follows_compareMemory opcode
  | branch => exact follows_branch opcode
  | setOrLoop => exact follows_setOrLoop opcode
  | jump => exact follows_jump opcode
  | jumpToSubroutine => exact follows_jumpToSubroutine opcode
  | returnFromSubroutine => exact follows_returnFromSubroutine opcode
  | returnFromException operation => exact follows_returnFromException operation opcode
  | trap => exact follows_trap opcode
  | noOperation => exact follows_noOperation opcode
  | resetDevices => exact follows_resetDevices opcode
  | loadAddress => exact follows_loadAddress opcode
  | addSub operation => exact follows_addSub operation opcode
  | addressAddSub operation => exact follows_addressAddSub operation opcode
  | quickAddSub operation => exact follows_quickAddSub operation opcode
  | bit static kind => exact follows_bit static kind opcode
  | singleOperand operation => exact follows_singleOperand operation opcode
  | test => exact follows_test opcode
  | testAndSet => exact follows_testAndSet opcode
  | shiftRegister kind => exact follows_shiftRegister kind opcode
  | shiftMemory kind => exact follows_shiftMemory kind opcode
  | multiply operation => exact follows_multiply operation opcode
  | exchange => exact follows_exchange opcode
  | extendOrSwap operation => exact follows_extendOrSwap operation opcode

end Decoder

/-! ## Refused fields -/

namespace Encoding

variable {opcode : Word} {kind : BitwiseKind}

/-- Into memory means not into a register. -/
theorem logical_of_register (hkind : kind ≠ .eor) (h : opcode &&& 0x0130 = 0x0100) :
    logical kind opcode = none := by
  have hbit : opcode.getLsbD 8 = true := bit_eq h rfl
  have hregister : opcode &&& 0x0030 = 0 := field_eq h rfl
  have hother : (kind == .eor) = false := by simpa using hkind
  rcases ofField?_of_register hregister with hmode | hmode <;>
    simp only [logical, hmode, hbit, hother] <;> cases sizeField? opcode <;> rfl

theorem logical_of_addressRegister (h : opcode &&& 0x0138 = 0x0108) :
    logical kind opcode = none := by
  have hbit : opcode.getLsbD 8 = true := bit_eq h rfl
  have hfield : opcode &&& 0x0038 = 0x0008 := field_eq h rfl
  have hnumber : opcode.toNat / 8 % 8 = 1 := by rw [modeField_eq, hfield]; rfl
  simp only [logical, AddressMode.ofField?, AddressMode.decode?, hnumber, hbit]
  cases sizeField? opcode <;> rfl

/-- The exclusive or has no form into the register. -/
theorem logical_eor_of_source (h : opcode &&& 0x0100 = 0) : logical .eor opcode = none := by
  have hbit : opcode.getLsbD 8 = false := bit_eq h rfl
  simp only [logical, hbit]
  cases sizeField? opcode <;> cases AddressMode.ofField? opcode <;> rfl

theorem immediate_of_immediate {operation : Operation} (h : opcode &&& 0x003F = 0x003C) :
    immediate operation opcode = none := by
  simp only [immediate, ofField?_of_immediate h]
  cases sizeField? opcode <;> rfl

theorem moveRegisters_of_dataRegister {direction : ListDirection} (h : opcode &&& 0x0038 = 0) :
    moveRegisters direction opcode = none := by
  simp only [moveRegisters, ofField?_of_dataRegister h]
  rfl

end Encoding

namespace Decoder

/-- Fields of an opcode, with values of theirs that a decoder rejects. -/
def refused : Decoder → List (Word × Word)
  | logical .eor => [(0x00C0, 0x00C0), (0x0100, 0x0000), (0x0138, 0x0108)]
  | logical _ => [(0x00C0, 0x00C0), (0x0130, 0x0100)]
  | immediate _ => [(0x00C0, 0x00C0), (0x003F, 0x003C)]
  | moveRegisters _ => [(0x0038, 0x0000)]
  | addSub _ | quickAddSub _ | compareRegister | compareImmediate | compareMemory | singleOperand _
  | test | shiftRegister _ => [(0x00C0, 0x00C0)]
  | _ => []

variable {decoder : Decoder} {opcode field value : Word}

/-- What is refused is rejected. -/
theorem encoding_eq_none (hrefused : (field, value) ∈ decoder.refused)
    (hopcode : opcode &&& field = value) : decoder.encoding opcode = none := by
  have hsize (h : (field, value) = (0x00C0, 0x00C0)) : Encoding.sizeField? opcode = none := by
    cases h
    exact sizeField?_eq_none hopcode
  cases decoder with
  | logical kind =>
    have hlogical (h : (field, value) = (0x00C0, 0x00C0)) :
        Encoding.logical kind opcode = none := by
      simp only [Encoding.logical, hsize h]
      rfl
    rcases eq_or_ne kind .eor with rfl | hkind
    · rcases List.mem_cons.1 hrefused with h | h
      · exact hlogical h
      · rcases List.mem_pair.1 h with h | h <;> cases h
        · exact Encoding.logical_eor_of_source hopcode
        · exact Encoding.logical_of_addressRegister hopcode
    · have hfields : (logical kind).refused = [(0x00C0, 0x00C0), (0x0130, 0x0100)] := by
        cases kind <;> first | rfl | exact absurd rfl hkind
      rcases List.mem_pair.1 (hfields ▸ hrefused) with h | h
      · exact hlogical h
      · cases h
        exact Encoding.logical_of_register hkind hopcode
  | immediate operation =>
    rcases List.mem_pair.1 hrefused with h | h
    · simp only [encoding, Encoding.immediate, hsize h]
      rfl
    · cases h
      exact Encoding.immediate_of_immediate hopcode
  | moveRegisters direction =>
    cases List.mem_singleton.1 hrefused
    exact Encoding.moveRegisters_of_dataRegister hopcode
  | addSub | quickAddSub | compareRegister | compareImmediate | compareMemory | singleOperand | test
  | shiftRegister =>
    have h := hsize (List.mem_singleton.1 hrefused)
    simp only [encoding, Encoding.addSub, Encoding.quickAddSub, Encoding.compareRegister,
      Encoding.compareImmediate, Encoding.compareMemory, Encoding.singleOperand, Encoding.test,
      Encoding.shiftRegister, h]
    rfl
  | _ => cases hrefused

end Decoder

/-! ## The table -/

/-- Fixed bits, with the decoder of the opcodes that have them. -/
structure Pattern where
  mask : Word
  value : Word
  decoder : Decoder
deriving DecidableEq, Repr

namespace Pattern

/-- The opcode has the fixed bits. -/
def Matches (pattern : Pattern) (opcode : Word) : Prop := opcode &&& pattern.mask = pattern.value

instance (pattern : Pattern) (opcode : Word) : Decidable (pattern.Matches opcode) :=
  inferInstanceAs (Decidable (_ = _))

/-- The form that a pattern stands for. -/
def form (pattern : Pattern) : Form := ⟨pattern.mask, pattern.value, pattern.decoder.encoding⟩

/-- A pattern, or three that differ in the size field. -/
inductive Family
  | single (pattern : Pattern)
  | sized (pattern : Pattern)
deriving DecidableEq, Repr

namespace Family

/-- A pattern on its own. -/
def one (mask value : Word) (decoder : Decoder) : Family := .single ⟨mask, value, decoder⟩

/-- A pattern for each size. Mask and value leave the size field out. -/
def bySize (mask value : Word) (decoder : Decoder) : Family := .sized ⟨mask, value, decoder⟩

/-- The fixed bits that the patterns of a family share, with their decoder. -/
def shared : Family → Pattern
  | .single pattern | .sized pattern => pattern

/-- The patterns of a family: byte, word and long word. -/
def patterns : Family → List Pattern
  | .single pattern => [pattern]
  | .sized ⟨mask, value, decoder⟩ =>
    [0x0000, 0x0040, 0x0080].map fun size => ⟨mask ||| 0x00C0, value ||| size, decoder⟩

end Family

open Family in
/-- The families of patterns, in the order in which they are tried. -/
def families : List Family :=
  [ one 0xF1F0 0xC100 (.packedDecimal .abcd),
    one 0xF1F0 0x8100 (.packedDecimal .sbcd),
    bySize 0xF000 0xC000 (.logical .and),
    bySize 0xF000 0x8000 (.logical .or),
    bySize 0xF000 0xB000 (.logical .eor),
    bySize 0xFF00 0x0600 (.immediate .add),
    bySize 0xFF00 0x0200 (.immediate (.bitwise .and)),
    bySize 0xFF00 0x0000 (.immediate (.bitwise .or)),
    bySize 0xFF00 0x0A00 (.immediate (.bitwise .eor)),
    bySize 0xFF00 0x0400 (.immediate .sub),
    bySize 0xFF00 0x0C00 .compareImmediate,
    one 0xFFFF 0x027C (.immediateToStatus (.bitwiseToSr .and)),
    one 0xFFFF 0x023C (.immediateToStatus (.bitwiseToCcr .and)),
    one 0xFFFF 0x0A7C (.immediateToStatus (.bitwiseToSr .eor)),
    one 0xFFFF 0x0A3C (.immediateToStatus (.bitwiseToCcr .eor)),
    one 0xFFFF 0x007C (.immediateToStatus (.bitwiseToSr .or)),
    one 0xFFFF 0x003C (.immediateToStatus (.bitwiseToCcr .or)),
    one 0xF000 0x1000 .move,
    one 0xF000 0x3000 .move,
    one 0xF000 0x2000 .move,
    one 0xFFC0 0x46C0 (.moveToStatus .moveToSr),
    one 0xFFC0 0x44C0 (.moveToStatus .moveToCcr),
    one 0xFFC0 0x40C0 .moveFromStatus,
    one 0xF100 0x7000 .moveQuick,
    one 0xFFF0 0x4E60 .moveUserStack,
    one 0xFF80 0x4880 (.moveRegisters .toMemory),
    one 0xFF80 0x4C80 (.moveRegisters .toRegisters),
    bySize 0xF100 0xB000 .compareRegister,
    one 0xF0C0 0xB0C0 .compareAddress,
    one 0xF138 0xB108 .compareMemory,
    one 0xF000 0x6000 .branch,
    one 0xF0C0 0x50C0 .setOrLoop,
    one 0xFFC0 0x4EC0 .jump,
    one 0xFFC0 0x4E80 .jumpToSubroutine,
    one 0xFFFF 0x4E75 .returnFromSubroutine,
    one 0xFFFF 0x4E73 (.returnFromException .rte),
    one 0xFFFF 0x4E77 (.returnFromException .rtr),
    one 0xFFF0 0x4E40 .trap,
    one 0xFFFF 0x4E71 .noOperation,
    one 0xFFFF 0x4E70 .resetDevices,
    one 0xF1C0 0x41C0 .loadAddress,
    bySize 0xF000 0x9000 (.addSub .sub),
    bySize 0xF000 0xD000 (.addSub .add),
    one 0xF0C0 0xD0C0 (.addressAddSub .adda),
    one 0xF0C0 0x90C0 (.addressAddSub .suba),
    bySize 0xF100 0x5000 (.quickAddSub .add),
    bySize 0xF100 0x5100 (.quickAddSub .sub),
    one 0xF1C0 0x0100 (.bit false .test),
    one 0xFFC0 0x0800 (.bit true .test),
    one 0xF1C0 0x0180 (.bit false .clear),
    one 0xFFC0 0x0880 (.bit true .clear),
    one 0xF1C0 0x0140 (.bit false .change),
    one 0xFFC0 0x0840 (.bit true .change),
    one 0xF1C0 0x01C0 (.bit false .set),
    one 0xFFC0 0x08C0 (.bit true .set),
    one 0xFF00 0x4200 (.singleOperand .clr),
    one 0xFF00 0x4400 (.singleOperand .neg),
    one 0xFF00 0x4000 (.singleOperand .negx),
    one 0xFF00 0x4600 (.singleOperand .not),
    one 0xFF00 0x4A00 .test,
    one 0xFFC0 0x4AC0 .testAndSet,
    one 0xF118 0xE100 (.shiftRegister .asl),
    one 0xF118 0xE000 (.shiftRegister .asr),
    one 0xF118 0xE108 (.shiftRegister .lsl),
    one 0xF118 0xE008 (.shiftRegister .lsr),
    one 0xF118 0xE118 (.shiftRegister .rol),
    one 0xF118 0xE018 (.shiftRegister .ror),
    one 0xF118 0xE110 (.shiftRegister .roxl),
    one 0xF118 0xE010 (.shiftRegister .roxr),
    one 0xFFC0 0xE1C0 (.shiftMemory .asl),
    one 0xFFC0 0xE0C0 (.shiftMemory .asr),
    one 0xFFC0 0xE3C0 (.shiftMemory .lsl),
    one 0xFFC0 0xE2C0 (.shiftMemory .lsr),
    one 0xFFC0 0xE7C0 (.shiftMemory .rol),
    one 0xFFC0 0xE6C0 (.shiftMemory .ror),
    one 0xFFC0 0xE5C0 (.shiftMemory .roxl),
    one 0xFFC0 0xE4C0 (.shiftMemory .roxr),
    one 0xF1C0 0xC0C0 (.multiply .mulu),
    one 0xF1C0 0xC1C0 (.multiply .muls),
    one 0xF1F8 0xC140 .exchange,
    one 0xF1F8 0xC148 .exchange,
    one 0xF1F8 0xC188 .exchange,
    one 0xFFF8 0x4840 (.extendOrSwap .swap),
    one 0xFFB8 0x4880 (.extendOrSwap .ext) ]

/-- All patterns, in the order in which they are tried. -/
def all : List Pattern := families.flatMap Family.patterns

example : all.length = 112 := rfl

/-! ### The opcode forms -/

/-- The size field is one of four. -/
theorem sizeBits_cases (opcode : Word) :
    opcode &&& 0x00C0 = 0 ∨ opcode &&& 0x00C0 = 0x0040 ∨ opcode &&& 0x00C0 = 0x0080 ∨
      opcode &&& 0x00C0 = 0x00C0 := by
  have hbits : opcode &&& 0x00C0 =
      (if opcode.getLsbD 7 then 0x0080 else 0) ||| (if opcode.getLsbD 6 then 0x0040 else 0) := by
    have hfield : (0x00C0 : Word) = BitVec.twoPow 16 7 ||| BitVec.twoPow 16 6 := rfl
    rw [hfield, BitVec.and_or_distrib_left, BitVec.and_twoPow, BitVec.and_twoPow]
    rfl
  rw [hbits]
  cases opcode.getLsbD 7 <;> cases opcode.getLsbD 6 <;> decide

/-- Fixed bits with a size field are fixed bits and a size field. -/
theorem and_or_eq_iff {opcode mask value field size : Word} (hmask : mask &&& field = 0)
    (hvalue : value &&& field = 0) (hsize : size &&& field = size) :
    opcode &&& (mask ||| field) = value ||| size ↔
      opcode &&& mask = value ∧ opcode &&& field = size := by
  constructor
  · intro h
    have hbit (i : Nat) : (opcode &&& mask).getLsbD i = value.getLsbD i ∧
        (opcode &&& field).getLsbD i = size.getLsbD i := by
      have hmask' := congrArg (·.getLsbD i) hmask
      have hvalue' := congrArg (·.getLsbD i) hvalue
      have hsize' := congrArg (·.getLsbD i) hsize
      have h' := congrArg (·.getLsbD i) h
      simp only [BitVec.getLsbD_and, BitVec.getLsbD_or, BitVec.ofNat_eq_ofNat, BitVec.getLsbD_zero]
        at hmask' hvalue' hsize' h' ⊢
      grind
    exact ⟨BitVec.eq_of_getLsbD_eq fun i _ => (hbit i).1,
      BitVec.eq_of_getLsbD_eq fun i _ => (hbit i).2⟩
  · rintro ⟨rfl, rfl⟩
    exact BitVec.and_or_distrib_left

/-- The forms of the three sizes accept what the form without a size field accepts, since no size
has the number 3. -/
theorem findSome?_sizes {mask value : Word} (hmask : mask &&& 0x00C0 = 0)
    (hvalue : value &&& 0x00C0 = 0) {encoding : Word → Option Recipe} {opcode : Word}
    (hnone : opcode &&& 0x00C0 = 0x00C0 → encoding opcode = none) :
    [(0x0000 : Word), 0x0040, 0x0080].findSome? (fun size =>
      Form.decode? ⟨mask ||| 0x00C0, value ||| size, encoding⟩ opcode) =
      Form.decode? ⟨mask, value, encoding⟩ opcode := by
  have hdecode (size : Word) (hsize : size &&& 0x00C0 = size) :
      Form.decode? ⟨mask ||| 0x00C0, value ||| size, encoding⟩ opcode =
        if opcode &&& mask = value ∧ opcode &&& 0x00C0 = size then encoding opcode else none := by
    simp only [Form.decode?, and_or_eq_iff hmask hvalue hsize]
  simp only [List.findSome?_cons, List.findSome?_nil, hdecode 0x0000 rfl, hdecode 0x0040 rfl,
    hdecode 0x0080 rfl]
  rw [Form.decode?]
  by_cases hfixed : opcode &&& mask = value
  · rcases sizeBits_cases opcode with h | h | h | h
    · simp only [hfixed, h, true_and]
      cases encoding opcode <;> rfl
    · simp only [hfixed, h, true_and]
      cases encoding opcode <;> rfl
    · simp only [hfixed, h, true_and]
      cases encoding opcode <;> rfl
    · simp only [hnone h, ite_self]
  · simp only [hfixed, false_and, if_false]

/-- The families with a size field leave it out of what they share. -/
def Family.leavesSize : Family → Bool
  | .single _ => true
  | .sized ⟨mask, value, decoder⟩ =>
    decoder.refused.contains (0x00C0, 0x00C0) && mask &&& 0x00C0 == 0 && value &&& 0x00C0 == 0

theorem Family.findSome?_patterns {family : Family} (h : family.leavesSize = true)
    (opcode : Word) :
    family.patterns.findSome? (·.form.decode? opcode) = family.shared.form.decode? opcode := by
  cases family with
  | single pattern =>
    simp only [patterns, shared, List.findSome?_cons, List.findSome?_nil]
    cases pattern.form.decode? opcode <;> rfl
  | sized pattern =>
    obtain ⟨mask, value, decoder⟩ := pattern
    simp only [leavesSize, Bool.and_eq_true, List.contains_iff_mem, beq_iff_eq] at h
    obtain ⟨⟨hrefused, hmask⟩, hvalue⟩ := h
    have hnone : opcode &&& 0x00C0 = 0x00C0 → decoder.encoding opcode = none :=
      Decoder.encoding_eq_none hrefused
    rw [patterns, List.findSome?_map]
    exact findSome?_sizes hmask hvalue hnone

theorem decode?_immediateToSr (kind : BitwiseKind) {value : Word} (hbit : value.getLsbD 6 = true) :
    Form.decode? ⟨0xFFFF, value, Encoding.immediateToStatus (.bitwiseToSr kind)⟩ =
      Form.decode? ⟨0xFFFF, value, Encoding.immediateToSr kind⟩ := by
  funext opcode
  unfold Form.decode?
  split
  · next h =>
    have hfixed : opcode &&& 0xFFFF = value := h
    have hbit' : opcode.getLsbD 6 = true := (bit_eq hfixed rfl).trans hbit
    simp only [Encoding.immediateToStatus, Encoding.immediateToSr, hbit']
  · rfl

theorem decode?_immediateToCcr (kind : BitwiseKind) {value : Word}
    (hbit : value.getLsbD 6 = false) :
    Form.decode? ⟨0xFFFF, value, Encoding.immediateToStatus (.bitwiseToCcr kind)⟩ =
      Form.decode? ⟨0xFFFF, value, Encoding.immediateToCcr kind⟩ := by
  funext opcode
  unfold Form.decode?
  split
  · next h =>
    have hfixed : opcode &&& 0xFFFF = value := h
    have hbit' : opcode.getLsbD 6 = false := (bit_eq hfixed rfl).trans hbit
    simp only [Encoding.immediateToStatus, Encoding.immediateToCcr, hbit']
    rfl
  · rfl

theorem extendOrSwap_ext : Encoding.extendOrSwap .ext = Encoding.extendSign := by
  funext opcode
  unfold Encoding.extendOrSwap Encoding.extendSign
  cases opcode.getLsbD 6 <;> rfl

theorem extendOrSwap_swap : Encoding.extendOrSwap .swap = Encoding.swapHalves := rfl

/-- The families are the opcode forms. -/
theorem map_decode?_families : families.map (·.shared.form.decode?) = forms.map (·.decode?) := by
  simp (disch := decide) only [families, forms, Family.one, Family.bySize, Family.shared, form,
    Decoder.encoding, List.map_cons, List.map_nil, decode?_immediateToSr, decode?_immediateToCcr,
    extendOrSwap_ext, extendOrSwap_swap, Encoding.bitInRegister, Encoding.bitInWord]

theorem map_decode?_apply (opcode : Word) :
    (families.map Family.shared).map (·.form.decode? opcode) = forms.map (·.decode? opcode) := by
  simpa only [List.map_map, Function.comp_def] using
    congrArg (List.map (· opcode)) map_decode?_families

theorem findSome?_flatMap {families : List Family} (h : families.all Family.leavesSize = true)
    (opcode : Word) :
    (families.flatMap Family.patterns).findSome? (·.form.decode? opcode) =
      families.findSome? (·.shared.form.decode? opcode) := by
  induction families with
  | nil => rfl
  | cons family families ih =>
    simp only [List.all_cons, Bool.and_eq_true] at h
    rw [List.flatMap_cons, List.findSome?_append, Family.findSome?_patterns h.1, ih h.2,
      List.findSome?_cons]
    cases family.shared.form.decode? opcode <;> rfl

/-- **The patterns decode what the opcode forms decode.** -/
theorem decode?_all (opcode : Word) :
    decode? (all.map form) opcode = decode? forms opcode := by
  calc decode? (all.map form) opcode
      = all.findSome? (·.form.decode? opcode) := List.findSome?_map
    _ = families.findSome? (·.shared.form.decode? opcode) := findSome?_flatMap (by decide) opcode
    _ = ((families.map Family.shared).map (·.form.decode? opcode)).findSome? id := by
      rw [List.findSome?_map, List.findSome?_map]
      rfl
    _ = (forms.map (·.decode? opcode)).findSome? id := by rw [map_decode?_apply]
    _ = decode? forms opcode := by
      rw [List.findSome?_map]
      rfl

/-! ### No overlaps -/

/-- Two patterns are apart: they differ in a bit that both fix, or one of them refuses a field that
they fix together. -/
def apart (first second : Pattern) : Bool :=
  first.value &&& second.mask != second.value &&& first.mask ||
    (first.decoder.refused ++ second.decoder.refused).any fun (field, value) =>
      (first.mask ||| second.mask) &&& field == field &&
        (first.value ||| second.value) &&& field == value

theorem decode?_of_apart {first second : Pattern} (h : first.apart second = true) (opcode : Word) :
    first.form.decode? opcode = none ∨ second.form.decode? opcode = none := by
  by_cases hfirst : opcode &&& first.mask = first.value
  · by_cases hsecond : opcode &&& second.mask = second.value
    · rw [apart, Bool.or_eq_true, List.any_eq_true] at h
      rcases h with h | ⟨⟨field, value⟩, hrefused, h⟩
      · -- an opcode with the fixed bits of both would have both values in the bits they share
        refine absurd ?_ (bne_iff_ne.1 h)
        rw [← hfirst, ← hsecond, BitVec.and_assoc, BitVec.and_assoc,
          BitVec.and_comm first.mask second.mask]
      · simp only [Bool.and_eq_true, beq_iff_eq] at h
        have hboth : opcode &&& (first.mask ||| second.mask) = first.value ||| second.value := by
          rw [BitVec.and_or_distrib_left, hfirst, hsecond]
        have hfield : opcode &&& field = value := (field_eq hboth h.1).trans h.2
        refine (List.mem_append.1 hrefused).imp (fun hmem => ?_) fun hmem => ?_
        · exact (if_pos hfirst).trans (Decoder.encoding_eq_none hmem hfield)
        · exact (if_pos hsecond).trans (Decoder.encoding_eq_none hmem hfield)
    · exact .inr (if_neg hsecond)
  · exact .inl (if_neg hfirst)

theorem pairwise_apart : all.Pairwise fun first second => first.apart second = true := by
  decide +kernel

theorem pairwise_families :
    (families.map Family.shared).Pairwise fun first second => first.apart second = true := by
  decide +kernel

/-- The decoder of the pattern comes to an instruction. -/
def Accepts (pattern : Pattern) (opcode : Word) : Prop :=
  pattern.Matches opcode ∧ ∃ programs draft instruction later,
    pattern.decoder.decode opcode programs draft = (.ok (some instruction), later)

theorem accepts_iff {pattern : Pattern} {opcode : Word} :
    pattern.Accepts opcode ↔ pattern.form.decode? opcode ≠ none := by
  constructor
  · rintro ⟨hmatches, programs, draft, instruction, later, hdecode⟩ hnone
    have hencoding : pattern.decoder.encoding opcode = none := (if_pos hmatches).symm.trans hnone
    cases hdecode.symm.trans ((pattern.decoder.follows opcode).untouched hencoding programs draft)
  · intro h
    obtain ⟨recipe, hrecipe⟩ := Option.ne_none_iff_exists'.1 h
    obtain ⟨hmatches, hencoding⟩ := Option.ite_none_right_eq_some.1 hrecipe
    obtain ⟨later, hdecode, -⟩ := (pattern.decoder.follows opcode).grown hencoding
      (FixedPrograms.place ProgramStore.place .empty).1 ⟨.empty, #[], #[]⟩
    exact ⟨hmatches, _, _, _, later, hdecode⟩

/-- No opcode is accepted by both. -/
def Excludes (first second : Pattern) : Prop :=
  ∀ opcode, ¬(first.Accepts opcode ∧ second.Accepts opcode)

theorem excludes_iff {first second : Pattern} :
    first.Excludes second ↔
      ∀ opcode, first.form.decode? opcode = none ∨ second.form.decode? opcode = none := by
  simp only [Excludes, accepts_iff, ne_eq, ← not_or, not_not]

theorem Excludes.symm {first second : Pattern} (h : first.Excludes second) :
    second.Excludes first := fun opcode haccepts => h opcode haccepts.symm

/-- **No two patterns accept the same opcode.** -/
theorem pairwise_all : all.Pairwise Excludes :=
  pairwise_apart.imp fun h => excludes_iff.2 (decode?_of_apart h)

theorem filterMap_forms (opcode : Word) :
    forms.filterMap (·.decode? opcode) =
      (families.map Family.shared).filterMap (·.form.decode? opcode) := by
  calc forms.filterMap (·.decode? opcode)
      = (forms.map (·.decode? opcode)).filterMap id := by
        rw [List.filterMap_map]
        rfl
    _ = ((families.map Family.shared).map (·.form.decode? opcode)).filterMap id := by
      rw [map_decode?_apply]
    _ = (families.map Family.shared).filterMap (·.form.decode? opcode) := by
      rw [List.filterMap_map]
      rfl

/-- **No two opcode forms accept the same opcode.** -/
theorem overlap?_forms : overlap? forms = none := by
  rw [overlap?, List.findSome?_eq_none_iff]
  intro n _
  have hlone : (forms.filterMap (·.decode? (BitVec.ofNat 16 n))).Pairwise fun _ _ => False := by
    rw [filterMap_forms]
    refine pairwise_families.filterMap _ fun first second happart recipe hrecipe other hother => ?_
    rcases decode?_of_apart happart (BitVec.ofNat 16 n) with hnone | hnone
    · cases hrecipe.symm.trans hnone
    · cases hother.symm.trans hnone
  rw [Overlap.at?]
  split
  · next first second rest heq =>
    rw [heq] at hlone
    exact (List.rel_of_pairwise_cons hlone List.mem_cons_self).elim
  · rfl

variable {patterns order : List Pattern} {opcode : Word} {recipe : Recipe}

/-- Of patterns that exclude each other, any one decodes its opcodes. -/
theorem decode?_eq_some_iff (h : patterns.Pairwise Excludes) :
    decode? (patterns.map form) opcode = some recipe ↔
      ∃ pattern ∈ patterns, pattern.form.decode? opcode = some recipe := by
  induction patterns with
  | nil => simp [decode?]
  | cons pattern patterns ih =>
    obtain ⟨hfirst, hrest⟩ := List.pairwise_cons.1 h
    have hcons : decode? ((pattern :: patterns).map form) opcode =
        (pattern.form.decode? opcode).or (decode? (patterns.map form) opcode) := by
      rw [decode?, List.map_cons, List.findSome?_cons]
      cases pattern.form.decode? opcode <;> rfl
    rw [hcons, List.exists_mem_cons_iff, ← ih hrest]
    cases hdecoded : pattern.form.decode? opcode with
    | none => simp
    | some accepted =>
      have hnone : ¬decode? (patterns.map form) opcode = some recipe := by
        rw [ih hrest]
        rintro ⟨other, hmem, hother⟩
        rcases excludes_iff.1 (hfirst other hmem) opcode with hnone | hnone
        · cases hdecoded.symm.trans hnone
        · cases hother.symm.trans hnone
      simp [hnone]

/-- The order of patterns that exclude each other makes no difference. -/
theorem decode?_of_perm (hperm : order.Perm patterns) (h : patterns.Pairwise Excludes) :
    decode? (order.map form) opcode = decode? (patterns.map form) opcode := by
  have horder : order.Pairwise Excludes := (hperm.pairwise_iff Excludes.symm).2 h
  refine Option.ext fun recipe => ?_
  simp only [decode?_eq_some_iff horder, decode?_eq_some_iff h, hperm.mem_iff]

end Pattern

end M68k
