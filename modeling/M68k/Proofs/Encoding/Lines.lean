import M68k.Encoding.Forms
import Mathlib.Tactic.IntervalCases

/-!
# Opcode lines

The top digit of an opcode is its line, and most encodings fix more bits than that. Wherever some
bits of an opcode are known, only the forms that agree with them matter.

## Main results

* `decode?_of_bits`: forms that do not agree with the known bits do not matter
* `decode?_move`: the lines 1 to 3 belong to the moves
* `decode?_of_first`: of the others, the first one decides if it accepts the opcode
* `decode?_moveRegisters` and its neighbours: patterns that belong to one encoding
-/

namespace M68k

open Encoding

/-- Forms that do not agree with the known bits of an opcode do not matter. -/
theorem decode?_of_bits (forms : List Form) {opcode mask bits : Word}
    (hbits : opcode &&& mask = bits) :
    decode? forms opcode =
      decode? (forms.filter fun form => form.value &&& mask == bits &&& form.mask) opcode := by
  induction forms with
  | nil => rfl
  | cons form forms ih =>
    rw [List.filter_cons]
    split
    · simp only [decode?, List.findSome?_cons] at ih ⊢
      rw [ih]
    · rename_i hother
      have hrefused : form.decode? opcode = none := by
        refine if_neg fun hvalue => hother ?_
        rw [beq_iff_eq, ← hvalue, ← hbits, BitVec.and_assoc, BitVec.and_assoc,
          BitVec.and_comm form.mask]
      simp only [decode?, List.findSome?_cons, hrefused] at ih ⊢
      exact ih

theorem toNat_line (opcode : Word) :
    (opcode &&& 0xF000).toNat = opcode.toNat / 4096 * 4096 := by
  have hshift : opcode &&& (0xF000 : Word) = (opcode >>> 12) <<< 12 := by
    ext i hi
    interval_cases i <;> simp
  rw [hshift]
  simp only [BitVec.toNat_shiftLeft, BitVec.toNat_ushiftRight, Nat.shiftLeft_eq,
    Nat.shiftRight_eq_div_pow]
  omega

/-- The lines 1 to 3 belong to the moves. -/
theorem decode?_move {opcode : Word}
    (h : 1 ≤ opcode.toNat / 4096 ∧ opcode.toNat / 4096 ≤ 3) :
    decode? forms opcode = move opcode := by
  have hmoves {line : Word} (hline : opcode &&& 0xF000 = line)
      (hforms : (forms.filter fun form => form.value &&& 0xF000 == line &&& form.mask) =
        [⟨0xF000, line, move⟩]) :
      decode? forms opcode = move opcode := by
    rw [decode?_of_bits forms hline, hforms]
    simp only [decode?, List.findSome?_cons, List.findSome?_nil, Form.decode?, hline, if_true]
    split <;> simp_all
  have hcases : opcode &&& 0xF000 = 0x1000 ∨ opcode &&& 0xF000 = 0x2000 ∨
      opcode &&& 0xF000 = 0x3000 := by
    obtain hone | htwo | hthree : opcode.toNat / 4096 = 1 ∨ opcode.toNat / 4096 = 2 ∨
        opcode.toNat / 4096 = 3 := by omega
    · exact .inl (BitVec.eq_of_toNat_eq (by rw [toNat_line, hone]; rfl))
    · exact .inr (.inl (BitVec.eq_of_toNat_eq (by rw [toNat_line, htwo]; rfl)))
    · exact .inr (.inr (BitVec.eq_of_toNat_eq (by rw [toNat_line, hthree]; rfl)))
  obtain hline | hline | hline := hcases <;> exact hmoves hline rfl

/-- The bits that an encoding of a move of a register list fixes. -/
def ListDirection.pattern : ListDirection → Word
  | toMemory => 0x4880
  | toRegisters => 0x4C80

/-- Of the forms that agree with the known bits, the first one decides if it accepts the opcode. -/
theorem decode?_of_first {opcode mask bits : Word} {recipe : Recipe} (hbits : opcode &&& mask = bits)
    {form : Form} {others : List Form}
    (hforms : (forms.filter fun form => form.value &&& mask == bits &&& form.mask) = form :: others)
    (hvalue : opcode &&& form.mask = form.value) (hrecipe : form.encoding opcode = some recipe) :
    decode? forms opcode = some recipe := by
  rw [decode?_of_bits forms hbits, hforms]
  simp only [decode?, List.findSome?_cons, Form.decode?, hvalue, if_true, hrecipe]

/-- If the first one refuses the opcode, the second one decides. -/
theorem decode?_of_second {opcode mask bits : Word} {recipe : Recipe}
    (hbits : opcode &&& mask = bits) {refusing form : Form} {others : List Form}
    (hforms : (forms.filter fun form => form.value &&& mask == bits &&& form.mask) =
      refusing :: form :: others)
    (hrefused : refusing.encoding opcode = none) (hvalue : opcode &&& form.mask = form.value)
    (hrecipe : form.encoding opcode = some recipe) : decode? forms opcode = some recipe := by
  rw [decode?_of_bits forms hbits, hforms]
  simp only [decode?, List.findSome?_cons, Form.decode?, hrefused, ite_self, hvalue, if_true,
    hrecipe]

/-- Two patterns of line 4 belong to moves of register lists. Where they accept nothing, the first
of them leaves room for sign extensions. -/
theorem decode?_moveRegisters {direction : ListDirection} {opcode : Word} {recipe : Recipe}
    (hpattern : opcode &&& 0xFF80 = direction.pattern)
    (hrecipe : moveRegisters direction opcode = some recipe) :
    decode? forms opcode = some recipe := by
  cases direction <;> exact decode?_of_first hpattern rfl hpattern hrecipe

/-- Line 6 belongs to the branches. -/
theorem decode?_branch {opcode : Word} {recipe : Recipe} (h : opcode.toNat / 4096 = 6)
    (hrecipe : branch opcode = some recipe) : decode? forms opcode = some recipe := by
  have hline : opcode &&& 0xF000 = 0x6000 := BitVec.eq_of_toNat_eq (by rw [toNat_line, h]; rfl)
  exact decode?_of_first hline rfl hline hrecipe

/-- One mode of a pattern of line 5 belongs to the loops. -/
theorem decode?_loop {opcode : Word} {recipe : Recipe} (h : opcode &&& 0xF0F8 = 0x50C8)
    (hrecipe : setOrLoop opcode = some recipe) : decode? forms opcode = some recipe := by
  have hpattern : opcode &&& 0xF0C0 = 0x50C0 := by
    have hmask : (0xF0C0 : Word) = 0xF0F8 &&& 0xF0C0 := rfl
    rw [hmask, ← BitVec.and_assoc, h]
    rfl
  exact decode?_of_first h rfl hpattern hrecipe

/-- Two patterns of line 4 belong to the jumps. -/
theorem decode?_jump {opcode : Word} {recipe : Recipe} (h : opcode &&& 0xFFC0 = 0x4EC0)
    (hrecipe : jump opcode = some recipe) : decode? forms opcode = some recipe :=
  decode?_of_first h rfl h hrecipe

theorem decode?_jumpToSubroutine {opcode : Word} {recipe : Recipe} (h : opcode &&& 0xFFC0 = 0x4E80)
    (hrecipe : jumpToSubroutine opcode = some recipe) : decode? forms opcode = some recipe :=
  decode?_of_first h rfl h hrecipe

end M68k
