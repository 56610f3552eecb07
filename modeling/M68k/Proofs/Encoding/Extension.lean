import M68k.Proofs.Encoding.Operands

/-!
# Extension words

How many words follow an opcode is told by its fields: the first four bits select a line, and within
the line a few more bits tell whether there is an immediate, a register list or an operand that
takes up words of its own.

## Main definitions

* `operandWords`: the words of the operand in the low six bits
* `extensionWords`: all words behind an opcode

## Main results

* `line_eq`, `field_eq`, `field_ne`: the fields of the opcodes that belong to a form
-/

namespace M68k

/-- The extension words of the operand in the low six bits of an opcode. -/
def operandWords (opcode : Word) (size : Size) : Nat :=
  match AddressMode.ofField? opcode with
  | some mode => mode.extensionWords size
  | none => 0

/-- The extension words of the operand of a move that is named in bits 6 to 11. -/
def moveDestinationWords (opcode : Word) (size : Size) : Nat :=
  match AddressMode.decode? (opcode.toNat / 64) (opcode.toNat / 512) with
  | some mode => mode.extensionWords size
  | none => 0

/-- The size in bits 6 and 7, where 3 stands for an operation on a whole register: it takes a word
or, in the lines of additions, subtractions and comparisons, what bit 8 selects. -/
def operandSize (opcode : Word) : Size :=
  match Encoding.sizeField? opcode with
  | some size => size
  | none =>
    if opcode &&& 0x0100 = 0 ∨ opcode &&& 0xF000 = 0x8000 ∨ opcode &&& 0xF000 = 0xC000 then .word
    else .long

/-- The words that follow the opcode of an instruction. -/
def extensionWords (opcode : Word) : Nat :=
  match opcode.toNat / 4096 with
  -- single bits, with their number in a register or in a word, and immediates
  | 0x0 =>
    if opcode &&& 0x0100 ≠ 0 then operandWords opcode .byte
    else if opcode &&& 0x0F00 = 0x0800 then 1 + operandWords opcode .byte
    else if opcode &&& 0x003F = 0x003C then 1
    else (operandSize opcode).immediateWords + operandWords opcode (operandSize opcode)
  | 0x1 | 0x2 | 0x3 =>
    operandWords opcode (Encoding.moveSize opcode) +
      moveDestinationWords opcode (Encoding.moveSize opcode)
  -- a register list comes before the words of its operand
  | 0x4 =>
    if opcode &&& 0x0F80 = 0x0E00 then 0
    else if opcode &&& 0x0B80 = 0x0880 ∧ opcode &&& 0x0038 ≠ 0 then 1 + operandWords opcode .word
    else operandWords opcode .word
  | 0x5 => operandWords opcode .word
  | 0x8 | 0x9 | 0xB | 0xC | 0xD => operandWords opcode (operandSize opcode)
  -- shifts of memory
  | 0xE => if opcode &&& 0x00C0 = 0x00C0 then operandWords opcode .word else 0
  | _ => 0

/-! ## The fields of a form -/

/-- The bits within a mask are known. -/
theorem field_eq {opcode mask value : Word} (h : opcode &&& mask = value) {field : Word}
    (hfield : mask &&& field = field) : opcode &&& field = value &&& field := by
  rw [← h, BitVec.and_assoc, hfield]

/-- A bit that is fixed in a form is fixed in its opcodes. -/
theorem bit_eq {opcode mask value : Word} (h : opcode &&& mask = value) {i : Nat}
    (hbit : mask.getLsbD i = true) : opcode.getLsbD i = value.getLsbD i := by
  rw [← h, BitVec.getLsbD_and, hbit, Bool.and_true]

/-- Bits that differ from those of the form are not those of an opcode. -/
theorem field_ne {opcode mask value : Word} (h : opcode &&& mask = value) {field other : Word}
    (hne : value &&& field ≠ other &&& mask) : opcode &&& field ≠ other := by
  rintro rfl
  refine hne ?_
  rw [← h, BitVec.and_assoc, BitVec.and_assoc, BitVec.and_comm mask]

/-- The line of an opcode is that of its form. -/
theorem line_eq {opcode mask value : Word} (h : opcode &&& mask = value)
    (hline : mask &&& 0xF000 = 0xF000) : opcode.toNat / 4096 = value.toNat / 4096 := by
  have hshift (x : Word) : x.toNat / 4096 = ((x &&& 0xF000) >>> 12).toNat := by
    have hlt : x.toNat / 4096 < 2 ^ 4 := by omega
    rw [BitVec.ushiftRight_and_distrib, BitVec.toNat_and, BitVec.toNat_ushiftRight,
      Nat.shiftRight_eq_div_pow]
    exact (Nat.and_two_pow_sub_one_of_lt_two_pow hlt).symm
  rw [hshift, hshift value, field_eq h hline]

variable {opcode mask value : Word}

theorem operandWords_eq {mode : AddressMode} (h : AddressMode.ofField? opcode = some mode)
    (size : Size) : operandWords opcode size = mode.extensionWords size := by
  simp only [operandWords, h]

theorem operandSize_eq {size : Size} (h : Encoding.sizeField? opcode = some size) :
    operandSize opcode = size := by
  simp only [operandSize, h]

/-- The low six bits name an immediate operand. -/
theorem ofField?_of_immediate (h : opcode &&& 0x003F = 0x003C) :
    AddressMode.ofField? opcode = some .immediate := by
  have hmod : opcode.toNat % 64 = 60 := by
    have := congrArg BitVec.toNat h
    rwa [BitVec.toNat_and, show (0x003F : Word).toNat = 2 ^ 6 - 1 from rfl,
      Nat.and_two_pow_sub_one_eq_mod] at this
  have hmode : opcode.toNat / 8 % 8 = 7 := by omega
  have hregister : opcode.toNat % 8 = 4 := by omega
  simp only [AddressMode.ofField?, AddressMode.decode?, hmode, hregister]

/-- The mode field of an opcode. -/
theorem modeField_eq (opcode : Word) :
    opcode.toNat / 8 % 8 = ((opcode &&& 0x0038) >>> 3).toNat := by
  rw [BitVec.ushiftRight_and_distrib, BitVec.toNat_and, BitVec.toNat_ushiftRight,
    Nat.shiftRight_eq_div_pow]
  exact (Nat.and_two_pow_sub_one_eq_mod _ 3).symm

/-- A mode field of 0 names a data register. -/
theorem ofField?_of_dataRegister (h : opcode &&& 0x0038 = 0) :
    AddressMode.ofField? opcode = some .dataRegister := by
  have hmode : opcode.toNat / 8 % 8 = 0 := by rw [modeField_eq, h]; rfl
  simp only [AddressMode.ofField?, AddressMode.decode?, hmode]

/-- Mode fields of 0 and 1 name registers. -/
theorem ofField?_of_register (h : opcode &&& 0x0030 = 0) :
    AddressMode.ofField? opcode = some .dataRegister ∨
      AddressMode.ofField? opcode = some .addressRegister := by
  have hmode : opcode.toNat / 8 % 8 < 2 := by
    have hhalf : opcode.toNat / 8 % 8 / 2 = ((opcode &&& 0x0030) >>> 4).toNat := by
      rw [BitVec.ushiftRight_and_distrib, BitVec.toNat_and, BitVec.toNat_ushiftRight,
        Nat.shiftRight_eq_div_pow]
      refine Eq.trans ?_ (Nat.and_two_pow_sub_one_eq_mod _ 2).symm
      omega
    rw [h] at hhalf
    have : opcode.toNat / 8 % 8 / 2 = 0 := hhalf
    omega
  have hcases : opcode.toNat / 8 % 8 = 0 ∨ opcode.toNat / 8 % 8 = 1 := by omega
  rcases hcases with hcase | hcase
  · left
    simp only [AddressMode.ofField?, AddressMode.decode?, hcase]
  · right
    simp only [AddressMode.ofField?, AddressMode.decode?, hcase]

/-- Registers take up no words. -/
theorem operandWords_of_register (h : opcode &&& 0x0030 = 0) (size : Size) :
    operandWords opcode size = 0 := by
  rcases ofField?_of_register h with hmode | hmode <;> rw [operandWords_eq hmode] <;> rfl

/-- A size field of 3 is no size. -/
theorem sizeField?_eq_none (h : opcode &&& 0x00C0 = 0x00C0) :
    Encoding.sizeField? opcode = none := by
  have hfield : opcode >>> 6 &&& 3 = 3 := by
    have := congrArg (fun bits : Word => bits >>> 6) h
    rwa [BitVec.ushiftRight_and_distrib] at this
  simp only [Encoding.sizeField?, Size.ofField?, hfield]
  rfl

/-- What bit 8 selects for operations on whole registers. -/
theorem operandSize_of_address (hsize : opcode &&& 0x00C0 = 0x00C0)
    (hor : opcode &&& 0xF000 ≠ 0x8000) (hand : opcode &&& 0xF000 ≠ 0xC000) :
    operandSize opcode = Encoding.addressSize opcode := by
  have hbit : opcode &&& 0x0100 = 0 ↔ opcode.getLsbD 8 = false := by
    constructor
    · intro h
      have := congrArg (·.getLsbD 8) h
      simpa using this
    · intro h
      ext i hi
      by_cases hi8 : i = 8
      · subst hi8
        simpa using h
      · have : (0x0100 : Word).getLsbD i = false := by
          rw [show (0x0100 : Word) = BitVec.twoPow 16 8 from rfl, BitVec.getLsbD_twoPow]
          simp [Ne.symm hi8]
        rw [BitVec.getElem_and, ← BitVec.getLsbD_eq_getElem (x := 0x0100), this]
        simp
  unfold operandSize Encoding.addressSize
  simp only [sizeField?_eq_none hsize, hbit, hor, hand, or_false]
  cases opcode.getLsbD 8 <;> rfl

/-- Multiplications take a word. -/
theorem operandSize_of_multiply (hsize : opcode &&& 0x00C0 = 0x00C0)
    (hand : opcode &&& 0xF000 = 0xC000) : operandSize opcode = .word := by
  unfold operandSize
  simp only [sizeField?_eq_none hsize, hand, or_true, if_true]

/-! ## The extension words of a form -/

section

variable (h : opcode &&& mask = value) (hmask : mask &&& 0xF000 = 0xF000)

include h hmask

/-- In the lines of arithmetic only an operand takes up words. -/
theorem extensionWords_arithmetic (hline : value.toNat / 4096 ∈ [0x8, 0x9, 0xB, 0xC, 0xD]) :
    extensionWords opcode = operandWords opcode (operandSize opcode) := by
  have hopcode := line_eq h hmask
  simp only [List.mem_cons, List.not_mem_nil, or_false] at hline
  rcases hline with hline | hline | hline | hline | hline <;>
    simp only [extensionWords, hopcode, hline]

/-- Bits with their number in a register. -/
theorem extensionWords_bitInRegister (hline : value.toNat / 4096 = 0)
    (hbit : value &&& 0x0100 ≠ 0 &&& mask) :
    extensionWords opcode = operandWords opcode .byte := by
  simp only [extensionWords, line_eq h hmask, hline, if_pos (field_ne h hbit)]

/-- Bits with their number in a word. -/
theorem extensionWords_bitInWord (hline : value.toNat / 4096 = 0)
    (hfield : mask &&& 0x0F00 = 0x0F00) (hbit : value &&& 0x0F00 = 0x0800) :
    extensionWords opcode = 1 + operandWords opcode .byte := by
  have hstatic : opcode &&& 0x0F00 = 0x0800 := (field_eq h hfield).trans hbit
  have hclear : opcode &&& 0x0100 = 0 := field_eq hstatic rfl
  simp only [extensionWords, line_eq h hmask, hline, hclear, hstatic, ne_eq, not_true_eq_false,
    if_false, if_true]

/-- Immediates, combined with an operand that is no immediate. -/
theorem extensionWords_immediate (hline : value.toNat / 4096 = 0)
    (hfield : mask &&& 0x0F00 = 0x0F00) (hclear : value &&& 0x0100 = 0)
    (hbit : value &&& 0x0F00 ≠ 0x0800) {mode : AddressMode}
    (hmode : AddressMode.ofField? opcode = some mode) (hne : mode ≠ .immediate) :
    extensionWords opcode =
      (operandSize opcode).immediateWords + operandWords opcode (operandSize opcode) := by
  have hstatic : opcode &&& 0x0F00 = value &&& 0x0F00 := field_eq h hfield
  have hregister : opcode &&& 0x0100 = 0 := by
    have := field_eq hstatic (show (0x0F00 : Word) &&& 0x0100 = 0x0100 from rfl)
    rwa [BitVec.and_assoc, show (0x0F00 : Word) &&& 0x0100 = 0x0100 from rfl, hclear] at this
  have hoperand : opcode &&& 0x003F ≠ 0x003C := by
    intro himmediate
    rw [ofField?_of_immediate himmediate, Option.some.injEq] at hmode
    exact hne hmode.symm
  simp only [extensionWords, line_eq h hmask, hline, hregister, hstatic, hbit, hoperand, ne_eq,
    not_true_eq_false, if_false]

/-- Immediates combined with the status register. -/
theorem extensionWords_status (hline : value.toNat / 4096 = 0)
    (hfield : mask &&& 0x0F3F = 0x0F3F) (hclear : value &&& 0x0100 = 0)
    (hbit : value &&& 0x0F00 ≠ 0x0800) (himmediate : value &&& 0x003F = 0x003C) :
    extensionWords opcode = 1 := by
  have hknown : opcode &&& 0x0F3F = value &&& 0x0F3F := field_eq h hfield
  have hpart {field : Word} (hsub : (0x0F3F : Word) &&& field = field) :
      opcode &&& field = value &&& field := by
    rw [field_eq hknown hsub, BitVec.and_assoc, hsub]
  have hstatic : opcode &&& 0x0F00 ≠ 0x0800 := by rwa [hpart rfl]
  have hregister : opcode &&& 0x0100 = 0 := by rwa [hpart rfl]
  have hoperand : opcode &&& 0x003F = 0x003C := by rwa [hpart rfl]
  simp only [extensionWords, line_eq h hmask, hline, hregister, hstatic, hoperand, ne_eq,
    not_true_eq_false, if_false, if_true]

/-- The line of single operands. -/
theorem extensionWords_single (hline : value.toNat / 4096 = 4)
    (hother : value &&& 0x0F80 ≠ 0x0E00 &&& mask) (hlist : value &&& 0x0B80 ≠ 0x0880 &&& mask) :
    extensionWords opcode = operandWords opcode .word := by
  simp only [extensionWords, line_eq h hmask, hline, field_ne h hother, field_ne h hlist, if_false,
    false_and]

/-- Instructions without operands, in the same line. -/
theorem extensionWords_bare (hline : value.toNat / 4096 = 4)
    (hfield : mask &&& 0x0F80 = 0x0F80) (hother : value &&& 0x0F80 = 0x0E00) :
    extensionWords opcode = 0 := by
  simp only [extensionWords, line_eq h hmask, hline, (field_eq h hfield).trans hother, if_true]

/-- Moves have two operands. -/
theorem extensionWords_move (hline : value.toNat / 4096 ∈ [1, 2, 3]) :
    extensionWords opcode =
      operandWords opcode (Encoding.moveSize opcode) +
        moveDestinationWords opcode (Encoding.moveSize opcode) := by
  have hopcode := line_eq h hmask
  simp only [List.mem_cons, List.not_mem_nil, or_false] at hline
  rcases hline with hline | hline | hline <;> simp only [extensionWords, hopcode, hline]

/-- Register lists. -/
theorem extensionWords_list (hline : value.toNat / 4096 = 4)
    (hfield : mask &&& 0x0B80 = 0x0B80) (hlist : value &&& 0x0B80 = 0x0880)
    (hother : value &&& 0x0F80 ≠ 0x0E00 &&& mask) (hmode : opcode &&& 0x0038 ≠ 0) :
    extensionWords opcode = 1 + operandWords opcode .word := by
  simp only [extensionWords, line_eq h hmask, hline, field_ne h hother,
    (field_eq h hfield).trans hlist, hmode, ne_eq, not_false_eq_true, and_self, if_true, if_false]

/-- Sign extensions share the fixed bits of register lists, but have no operand in memory. -/
theorem extensionWords_extend (hline : value.toNat / 4096 = 4)
    (hother : value &&& 0x0F80 ≠ 0x0E00 &&& mask) (hfield : mask &&& 0x0038 = 0x0038)
    (hmode : value &&& 0x0038 = 0) : extensionWords opcode = operandWords opcode .word := by
  simp only [extensionWords, line_eq h hmask, hline, field_ne h hother,
    (field_eq h hfield).trans hmode, ne_eq, not_true_eq_false, and_false, if_false]

/-- Shifts of a memory word. -/
theorem extensionWords_shiftMemory (hline : value.toNat / 4096 = 0xE)
    (hfield : mask &&& 0x00C0 = 0x00C0) (hsize : value &&& 0x00C0 = 0x00C0) :
    extensionWords opcode = operandWords opcode .word := by
  simp only [extensionWords, line_eq h hmask, hline, (field_eq h hfield).trans hsize, if_true]

/-- Shifts of a data register. -/
theorem extensionWords_shiftRegister (hline : value.toNat / 4096 = 0xE)
    (hsize : opcode &&& 0x00C0 ≠ 0x00C0) : extensionWords opcode = 0 := by
  simp only [extensionWords, line_eq h hmask, hline, hsize, if_false]

/-- Quick moves. -/
theorem extensionWords_moveQuick (hline : value.toNat / 4096 = 7) : extensionWords opcode = 0 := by
  simp only [extensionWords, line_eq h hmask, hline]

/-- Quick operations and bytes set on a condition. -/
theorem extensionWords_quick (hline : value.toNat / 4096 = 5) :
    extensionWords opcode = operandWords opcode .word := by
  simp only [extensionWords, line_eq h hmask, hline]

end

end M68k
