import M68k.Arithmetic.Shift
import Mathlib.Logic.Function.Iterate

/-!
# Shifting and rotating one bit at a time

A shift or rotate moves a word by one bit as often as its count says. Each time one bit leaves the
word on one side and one enters it on the other. The kinds differ in the direction, in the bit that
enters, and in whether the extend bit takes the one that leaves.

## Main definitions

* `Moved`: a word between two moves
* `ShiftKind.moveOne`: one move

## Main results

* `ShiftKind.word_iterate_shiftLeft` and its neighbours: many moves as one shift or rotation
* `rotateRight_rotateLeft`: a rotation to the right takes back one to the left
-/

namespace M68k

/-- A word in the midst of a shift: with the extend bit, and the bit that left it last. -/
structure Moved (w : Nat) where
  word : BitVec w
  extend : Bool
  out : Bool
deriving DecidableEq, Repr

/-- The word with the extend bit on top. -/
def Moved.extended {w : Nat} (moved : Moved w) : BitVec (w + 1) :=
  BitVec.cons moved.extend moved.word

theorem Moved.setWidth_extended {w : Nat} (moved : Moved w) :
    moved.extended.setWidth w = moved.word := BitVec.setWidth_cons

theorem Moved.msb_extended {w : Nat} (moved : Moved w) : moved.extended.msb = moved.extend :=
  BitVec.msb_cons

/-- Move a word to the right by one bit, and let `bit` enter on its left. -/
def shiftIn {w : Nat} (bit : Bool) (word : BitVec w) : BitVec w :=
  (BitVec.cons bit word >>> 1).setWidth w

namespace ShiftKind

/-- The bits move to the left. -/
def isLeft : ShiftKind → Bool
  | asl | lsl | rol | roxl => true
  | asr | lsr | ror | roxr => false

variable {w : Nat}

/-- The bit that leaves a word. -/
def leaving (kind : ShiftKind) (word : BitVec w) : Bool :=
  if kind.isLeft then word.msb else word.getLsbD 0

/-- The bit that enters the word: zero or the sign in a shift, the one that leaves it in a
rotation, or the extend bit. -/
def entering (kind : ShiftKind) (moved : Moved w) : Bool :=
  match kind with
  | asl | lsl | lsr => false
  | asr => moved.word.msb
  | rol | ror => kind.leaving moved.word
  | roxl | roxr => moved.extend

/-- Move by one bit. The extend bit takes the bit that leaves, except in plain rotations. -/
def moveOne (kind : ShiftKind) (moved : Moved w) : Moved w where
  word :=
    if kind.isLeft then moved.word.shiftConcat (kind.entering moved)
    else shiftIn (kind.entering moved) moved.word
  extend := if kind.keepsExtend then moved.extend else kind.leaving moved.word
  out := kind.leaving moved.word

end ShiftKind

/-! ## One move as a shift or rotation -/

section

variable {w : Nat} (word : BitVec w)

theorem getLsbD_shiftIn (bit : Bool) (i : Nat) :
    (shiftIn bit word).getLsbD i =
      (decide (i < w) && if i + 1 = w then bit else word.getLsbD (i + 1)) := by
  rw [shiftIn, BitVec.getLsbD_setWidth, BitVec.getLsbD_ushiftRight, BitVec.getLsbD_cons,
    Nat.add_comm 1 i]

theorem shiftConcat_false : word.shiftConcat false = word <<< 1 := by
  apply BitVec.eq_of_getLsbD_eq
  intro i hi
  rw [BitVec.getLsbD_shiftConcat, BitVec.getLsbD_shiftLeft]
  cases i <;> simp

theorem shiftIn_false : shiftIn false word = word >>> 1 := by
  apply BitVec.eq_of_getLsbD_eq
  intro i hi
  rw [getLsbD_shiftIn, BitVec.getLsbD_ushiftRight, Nat.add_comm 1 i]
  by_cases htop : i + 1 = w
  · simp [htop]
  · simp [hi, htop]

theorem shiftIn_msb : shiftIn word.msb word = word.sshiftRight 1 := by
  apply BitVec.eq_of_getLsbD_eq
  intro i hi
  rw [getLsbD_shiftIn, BitVec.getLsbD_sshiftRight, Nat.add_comm 1 i]
  by_cases htop : i + 1 = w
  · simp [htop, hi]
  · have hlt : i + 1 < w := by omega
    simp [hi, htop, hlt]

theorem getLsbD_rotateLeft_one {i : Nat} (hi : i < w) :
    (word.rotateLeft 1).getLsbD i = if i = 0 then word.msb else word.getLsbD (i - 1) := by
  rw [BitVec.getLsbD_rotateLeft, BitVec.msb_eq_getLsbD_last]
  by_cases hone : w = 1
  · subst hone
    obtain rfl : i = 0 := by omega
    rfl
  · rw [Nat.mod_eq_of_lt (by omega : 1 < w)]
    by_cases hzero : i = 0
    · simp [hzero]
    · simp [hzero, hi]

theorem shiftConcat_msb : word.shiftConcat word.msb = word.rotateLeft 1 := by
  apply BitVec.eq_of_getLsbD_eq
  intro i hi
  rw [BitVec.getLsbD_shiftConcat, getLsbD_rotateLeft_one word hi, decide_eq_true hi, Bool.true_and]

/-- A rotation to the right reads its bits from further left, round the end. -/
theorem getLsbD_rotateRight_mod (count : Nat) {i : Nat} (hi : i < w) :
    (word.rotateRight count).getLsbD i = word.getLsbD ((i + count) % w) := by
  have hturn := Nat.mod_lt count (by omega : w > 0)
  rw [BitVec.getLsbD_rotateRight, ← Nat.add_mod_mod]
  generalize count % w = turn at *
  by_cases hinside : i + turn < w
  · have hbefore : i < w - turn := by omega
    rw [Nat.mod_eq_of_lt hinside, decide_eq_true hbefore, Nat.add_comm]
    rfl
  · have hround : (i + turn) % w = i - (w - turn) := by
      rw [Nat.mod_eq_sub_mod (by omega), Nat.mod_eq_of_lt (by omega)]
      omega
    have hbehind : ¬ i < w - turn := by omega
    simp [hround, hbehind, hi]

theorem shiftIn_low : shiftIn (word.getLsbD 0) word = word.rotateRight 1 := by
  apply BitVec.eq_of_getLsbD_eq
  intro i hi
  rw [getLsbD_shiftIn, getLsbD_rotateRight_mod word 1 hi, decide_eq_true hi, Bool.true_and]
  by_cases htop : i + 1 = w
  · rw [if_pos htop, htop, Nat.mod_self]
  · rw [if_neg htop, Nat.mod_eq_of_lt (by omega)]

/-! ### Through the extend bit

A rotation through the extend bit rotates the word that has this bit on top. -/

theorem cons_shiftConcat (hw : 0 < w) (bit : Bool) :
    BitVec.cons word.msb (word.shiftConcat bit) = (BitVec.cons bit word).rotateLeft 1 := by
  apply BitVec.eq_of_getLsbD_eq
  intro i hi
  rw [getLsbD_rotateLeft_one _ hi, BitVec.msb_cons, BitVec.getLsbD_cons, BitVec.getLsbD_cons,
    BitVec.getLsbD_shiftConcat, BitVec.msb_eq_getLsbD_last]
  by_cases hzero : i = 0
  · simp [hzero, hw]
    omega
  · have hbelow : ¬ i - 1 = w := by omega
    by_cases htop : i = w
    · rw [if_pos htop, if_neg hzero, if_neg hbelow, htop]
    · have hlt : i < w := by omega
      simp [hzero, htop, hbelow, hlt]

theorem cons_shiftIn (hw : 0 < w) (bit : Bool) :
    BitVec.cons (word.getLsbD 0) (shiftIn bit word) = (BitVec.cons bit word).rotateRight 1 := by
  apply BitVec.eq_of_getLsbD_eq
  intro i hi
  rw [getLsbD_rotateRight_mod _ 1 hi, BitVec.getLsbD_cons, BitVec.getLsbD_cons, getLsbD_shiftIn]
  by_cases htop : i = w
  · have hbottom : ¬ 0 = w := by omega
    rw [if_pos htop, htop, Nat.mod_self, if_neg hbottom]
  · have hlt : i < w := by omega
    rw [if_neg htop, Nat.mod_eq_of_lt (by omega), decide_eq_true hlt, Bool.true_and]

end

/-! ## Many moves -/

section

variable {w : Nat} (word : BitVec w)

theorem rotateLeft_zero : word.rotateLeft 0 = word := by
  apply BitVec.eq_of_getLsbD_eq
  intro i hi
  simp [hi]

theorem rotateRight_zero : word.rotateRight 0 = word := by
  simp [BitVec.rotateRight_def]

theorem rotateLeft_rotateLeft (first second : Nat) :
    (word.rotateLeft first).rotateLeft second = word.rotateLeft (first + second) := by
  apply BitVec.eq_of_getMsbD_eq
  intro i hi
  have hw : 0 < w := by omega
  simp only [BitVec.getMsbD_rotateLeft, Nat.mod_lt _ hw, decide_true, Bool.true_and,
    Nat.add_mod_mod, Nat.add_assoc]

theorem rotateRight_rotateRight (first second : Nat) :
    (word.rotateRight first).rotateRight second = word.rotateRight (first + second) := by
  apply BitVec.eq_of_getLsbD_eq
  intro i hi
  have hw : 0 < w := by omega
  rw [getLsbD_rotateRight_mod _ _ hi, getLsbD_rotateRight_mod _ _ (Nat.mod_lt _ hw),
    getLsbD_rotateRight_mod _ _ hi, Nat.mod_add_mod, Nat.add_assoc, Nat.add_comm second first]

theorem rotateRight_rotateLeft_one : (word.rotateLeft 1).rotateRight 1 = word := by
  apply BitVec.eq_of_getLsbD_eq
  intro i hi
  rw [getLsbD_rotateRight_mod _ 1 hi, getLsbD_rotateLeft_one _ (Nat.mod_lt _ (by omega))]
  by_cases htop : i + 1 = w
  · have hlast : w - 1 = i := by omega
    rw [htop, Nat.mod_self, if_pos rfl, BitVec.msb_eq_getLsbD_last, hlast]
  · rw [Nat.mod_eq_of_lt (by omega), if_neg (by omega), Nat.add_sub_cancel]

/-- **A rotation to the right takes back one to the left.** -/
theorem rotateRight_rotateLeft (count : Nat) : (word.rotateLeft count).rotateRight count = word := by
  induction count with
  | zero => rw [rotateLeft_zero, rotateRight_zero]
  | succ count ih =>
    rw [← rotateLeft_rotateLeft, Nat.add_comm, ← rotateRight_rotateRight,
      rotateRight_rotateLeft_one, ih]

end

namespace ShiftKind

variable {w : Nat} (moved : Moved w) (count : Nat)

/-- After some moves, one more. -/
theorem iterate_succ (kind : ShiftKind) :
    kind.moveOne^[count + 1] moved = kind.moveOne (kind.moveOne^[count] moved) :=
  Function.iterate_succ_apply' _ _ _

theorem word_iterate_shiftLeft {kind : ShiftKind} (hkind : kind = asl ∨ kind = lsl) :
    (kind.moveOne^[count] moved).word = moved.word <<< count := by
  induction count with
  | zero => exact (BitVec.shiftLeft_zero _).symm
  | succ count ih =>
    rw [iterate_succ, BitVec.shiftLeft_add, ← ih, ← shiftConcat_false]
    rcases hkind with rfl | rfl <;> rfl

theorem word_iterate_lsr : (lsr.moveOne^[count] moved).word = moved.word >>> count := by
  induction count with
  | zero => exact (BitVec.ushiftRight_zero _).symm
  | succ count ih =>
    rw [iterate_succ, BitVec.shiftRight_add, ← ih, ← shiftIn_false]
    rfl

theorem word_iterate_asr : (asr.moveOne^[count] moved).word = moved.word.sshiftRight count := by
  induction count with
  | zero => exact BitVec.sshiftRight_zero.symm
  | succ count ih =>
    rw [iterate_succ, BitVec.sshiftRight_add, ← ih, ← shiftIn_msb]
    rfl

theorem word_iterate_rol : (rol.moveOne^[count] moved).word = moved.word.rotateLeft count := by
  induction count with
  | zero => exact (rotateLeft_zero _).symm
  | succ count ih =>
    rw [iterate_succ, ← rotateLeft_rotateLeft, ← ih, ← shiftConcat_msb]
    rfl

theorem word_iterate_ror : (ror.moveOne^[count] moved).word = moved.word.rotateRight count := by
  induction count with
  | zero => exact (rotateRight_zero _).symm
  | succ count ih =>
    rw [iterate_succ, ← rotateRight_rotateRight, ← ih, ← shiftIn_low]
    rfl

/-- The extend bit follows the last bit out, except in plain rotations, which leave it alone. -/
theorem extend_iterate_succ (kind : ShiftKind) :
    (kind.moveOne^[count + 1] moved).extend =
      if kind.keepsExtend then moved.extend else (kind.moveOne^[count + 1] moved).out := by
  have hkeeps (hkind : kind = rol ∨ kind = ror) (many : Nat) :
      (kind.moveOne^[many] moved).extend = moved.extend := by
    induction many with
    | zero => rfl
    | succ many ih =>
      rw [iterate_succ, ← ih]
      rcases hkind with rfl | rfl <;> rfl
  cases kind with
  | rol => exact hkeeps (.inl rfl) _
  | ror => exact hkeeps (.inr rfl) _
  | asl | asr | lsl | lsr | roxl | roxr =>
    rw [iterate_succ]
    rfl

theorem extended_iterate_roxl (hw : 0 < w) :
    (roxl.moveOne^[count] moved).extended = moved.extended.rotateLeft count := by
  induction count with
  | zero => exact (rotateLeft_zero _).symm
  | succ count ih =>
    rw [iterate_succ, ← rotateLeft_rotateLeft, ← ih]
    exact cons_shiftConcat _ hw _

theorem extended_iterate_roxr (hw : 0 < w) :
    (roxr.moveOne^[count] moved).extended = moved.extended.rotateRight count := by
  induction count with
  | zero => exact (rotateRight_zero _).symm
  | succ count ih =>
    rw [iterate_succ, ← rotateRight_rotateRight, ← ih]
    exact cons_shiftIn _ hw _

end ShiftKind

end M68k
