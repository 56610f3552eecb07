import M68k.Proofs.Latches.Live
import M68k.Proofs.Move.Reference

/-!
# Agreement on bits

Bytes and words fill a part of a latch and leave the rest as it was, and an operation looks at the
bits within its size. So two long words are compared on the bits of a mask.

## Main definitions

* `SameOn`: agreement on the bits of a mask
* `mergeRead`: the word that a read puts in place of an old one

## Main results

* `SameOn.bitwise`, `SameOn.not`, `SameOn.bit`: what works bit by bit keeps the agreement
* `SameOn.replace`: a read need only find agreement on the bits that it does not fill
-/

namespace M68k

/-- Two long words agree on the bits of a mask. -/
def SameOn (mask x y : Long) : Prop := x &&& mask = y &&& mask

theorem sameOn_iff {mask x y : Long} :
    SameOn mask x y ↔ ∀ i, mask.getLsbD i → x.getLsbD i = y.getLsbD i := by
  constructor
  · intro h i hi
    have hbit := congrArg (·.getLsbD i) h
    simpa [hi] using hbit
  · intro h
    refine BitVec.eq_of_getLsbD_eq fun i _ => ?_
    rw [BitVec.getLsbD_and, BitVec.getLsbD_and]
    cases hi : mask.getLsbD i with
    | true => rw [h i hi]
    | false => rw [Bool.and_false, Bool.and_false]

namespace SameOn

variable {mask wider x y x' y' : Long}

@[refl] theorem refl (mask x : Long) : SameOn mask x x := rfl

theorem of_eq (h : x = y) : SameOn mask x y := by rw [h]

theorem eq (h : SameOn (.allOnes 32) x y) : x = y := by
  rwa [SameOn, BitVec.and_allOnes, BitVec.and_allOnes] at h

theorem mono (h : SameOn wider x y) (hsub : mask &&& wider = mask) : SameOn mask x y := by
  have hcut (z : Long) : z &&& mask = z &&& wider &&& mask := by
    rw [BitVec.and_assoc, BitVec.and_comm wider, hsub]
  rw [SameOn, hcut x, hcut y, h]

theorem left (h : SameOn (mask ||| wider) x y) : SameOn mask x y :=
  h.mono (by ext i; simp; grind)

theorem right (h : SameOn (mask ||| wider) x y) : SameOn wider x y :=
  h.mono (by ext i; simp; grind)

theorem bitwise (h : SameOn mask x y) (h' : SameOn mask x' y') (kind : BitwiseKind) :
    SameOn mask (kind.apply x x') (kind.apply y y') := by
  rw [sameOn_iff] at *
  intro i hi
  cases kind <;> simp [BitwiseKind.apply, h i hi, h' i hi]

theorem not (h : SameOn mask x y) : SameOn mask (~~~x) (~~~y) := by
  rw [sameOn_iff] at *
  intro i hi
  simp [h i hi]

theorem bit (h : SameOn mask x y) (kind : BitKind) (bits : Long) :
    SameOn mask (kind.apply x bits) (kind.apply y bits) := by
  rw [sameOn_iff] at *
  intro i hi
  cases kind <;> simp [BitKind.apply, h i hi]

theorem low (h : SameOn 0xFFFF x y) : Half.low.get x = Half.low.get y := by
  have hword : Size.word.truncate x = Size.word.truncate y := h
  rw [← Size.low_truncate_word, hword, Size.low_truncate_word]

theorem byte (h : SameOn 0xFFFF x y) : x.setWidth 8 = y.setWidth 8 := by
  have hbyte : Size.byte.truncate x = Size.byte.truncate y := h.mono (by decide)
  rw [← Size.setWidth_truncate_byte, hbyte, Size.setWidth_truncate_byte]

end SameOn

namespace Half

variable (half : Half)

theorem get_and (x y : Long) : half.get (x &&& y) = half.get x &&& half.get y := by
  cases half <;> exact BitVec.extractLsb'_and

theorem get_not (x : Long) : half.get (~~~x) = ~~~half.get x := by
  cases half <;> ext i hi <;> simp [get] <;> omega

theorem get_set_of_ne {other : Half} (h : other ≠ half) (x : Long) (w : Word) :
    other.get (half.set x w) = other.get x := by
  cases half <;> cases other <;> simp_all

theorem ext_halves {x y : Long} (h : ∀ half : Half, half.get x = half.get y) : x = y := by
  rw [← high_append_low x, ← high_append_low y, h, h]

end Half

/-- Agreement is that of both halves. -/
theorem sameOn_iff_halves {mask x y : Long} :
    SameOn mask x y ↔
      ∀ half : Half, half.get x &&& half.get mask = half.get y &&& half.get mask := by
  constructor
  · intro h half
    rw [← Half.get_and, h, Half.get_and]
  · intro h
    refine Half.ext_halves fun half => ?_
    rw [Half.get_and, Half.get_and, h]

theorem SameOn.half {x y : Long} {half : Half} {bits : Word}
    (h : SameOn (half.set 0 bits) x y) : half.get x &&& bits = half.get y &&& bits := by
  have hhalf := sameOn_iff_halves.1 h half
  rwa [Half.get_set_self] at hhalf

/-- The word that a read puts in place of an old one. -/
def mergeRead (byte : Bool) (value old : Word) : Word :=
  if byte then old.extractLsb' 8 8 ++ value.extractLsb' 0 8 else value

theorem mergeRead_and {mask old old' : Word} (byte : Bool) (value : Word)
    (h : old &&& (mask &&& ~~~Live.readBits byte) = old' &&& (mask &&& ~~~Live.readBits byte)) :
    mergeRead byte value old &&& mask = mergeRead byte value old' &&& mask := by
  cases byte with
  | false => rfl
  | true =>
    ext i hi
    have hbit := congrArg (·.getLsbD i) h
    simp only [mergeRead, if_true, BitVec.getElem_and]
    interval_cases i <;> simp [Live.readBits] at hbit ⊢ <;> grind

theorem SameOn.replace {mask x y : Long} {half : Half} {byte : Bool}
    (h : SameOn (mask &&& ~~~half.set 0 (Live.readBits byte)) x y) (value : Word) :
    SameOn mask (half.set x (mergeRead byte value (half.get x)))
      (half.set y (mergeRead byte value (half.get y))) := by
  rw [sameOn_iff_halves] at h ⊢
  intro other
  have hother := h other
  rw [Half.get_and, Half.get_not] at hother
  by_cases hsame : other = half
  · subst hsame
    rw [Half.get_set_self] at hother
    rw [Half.get_set_self, Half.get_set_self]
    exact mergeRead_and byte value hother
  · rw [Half.get_set_of_ne half hsame] at hother
    rw [Half.get_set_of_ne half hsame, Half.get_set_of_ne half hsame]
    have hnone : other.get mask &&& ~~~other.get 0 = other.get mask := by
      cases other <;> exact BitVec.and_allOnes
    rwa [hnone] at hother

end M68k
