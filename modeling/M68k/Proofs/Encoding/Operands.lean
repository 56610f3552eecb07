import M68k.Proofs.Encoding.Shape

/-!
# The shape of operand stages

The stages that bring an operand in, or write it back, are steady, and fetch one word for each word
that the addressing mode takes up behind the opcode.

## Main definitions

* `AddressMode.extensionWords`: the words that an operand takes up behind the opcode

## Main results

* `Encoding.words_fetchSource`, `Encoding.words_readModifyWrite`, `Encoding.words_storeMoved`
-/

namespace M68k

/-- The words of an immediate operand. -/
def Size.immediateWords : Size → Nat
  | byte | word => 1
  | long => 2

/-- The words that an operand takes up behind the opcode. -/
def AddressMode.extensionWords (size : Size) : AddressMode → Nat
  | dataRegister | addressRegister | indirect | postIncrement | preDecrement => 0
  | displacement | index | absoluteShort | pcDisplacement | pcIndex => 1
  | absoluteLong => 2
  | immediate => size.immediateWords

/-- A mode with an operand in memory. -/
def AddressMode.isMemory : AddressMode → Bool
  | dataRegister | addressRegister | immediate => false
  | _ => true

namespace AddressMode

theorem isMemory_of_alterable {mode : AddressMode} (h : mode.isMemoryAlterable) :
    mode.isMemory := by
  cases mode <;> first | rfl | exact absurd h (by decide)

/-- The size of an operand in memory does not matter for its extension words. -/
theorem extensionWords_of_isMemory {mode : AddressMode} (h : mode.isMemory) (size other : Size) :
    mode.extensionWords size = mode.extensionWords other := by
  cases mode <;> first | rfl | exact absurd h (by decide)

end AddressMode

namespace Encoding

open Stage Activity

theorem steady_readOperand (side : Side) (size : Size) (address : AddressSource) :
    (readOperand side size address).Steady := by
  cases size with
  | byte | word => exact .read ..
  | long => exact (Steady.read ..).append (.read ..)

@[simp] theorem fetches_readOperand (side : Side) (size : Size) (address : AddressSource) :
    (readOperand side size address).fetches = 0 := by
  cases size <;> simp [readOperand]

theorem steady_indexDelay (mode : AddressMode) : (indexDelay mode).Steady := by
  unfold indexDelay
  split
  · exact .idle 4
  · exact .nil

@[simp] theorem fetches_indexDelay (mode : AddressMode) : (indexDelay mode).fetches = 0 := by
  unfold indexDelay
  split <;> rfl

theorem steady_registerTail (mode : AddressMode) (size : Size) :
    (registerTail mode size).Steady := by
  cases size with
  | byte | word => exact .fetch
  | long => exact Steady.fetch.append (.idle _)

@[simp] theorem fetches_registerTail (mode : AddressMode) (size : Size) :
    (registerTail mode size).fetches = 1 := by
  cases size <;> simp [registerTail]

/-! ## Sources -/

theorem steady_fetchImmediate (size : Size) : AllSteady (fetchImmediate size) := by
  cases size with
  | byte | word => exact .one .fetch
  | long => exact .cons .fetch (.one .fetch)

@[simp] theorem words_fetchImmediate (size : Size) :
    words (fetchImmediate size) = size.immediateWords := by
  cases size <;> rfl

theorem steady_readMemory (side : Side) (target : Target) (mode : AddressMode)
    (register : RegisterNumber) (size : Size) :
    AllSteady (readMemory side target mode register size) := by
  have hread (address : AddressSource) := steady_readOperand side size address
  cases mode with
  | indirect | postIncrement => cases size <;> exact .one (hread _)
  | preDecrement =>
    cases size with
    | byte | word => exact .one ((Steady.idle 4).append (hread _))
    | long => exact .cons .nil (.one ((Steady.idle 4).append (hread _)))
  | absoluteLong => exact .cons .fetch (.one (Steady.fetch.append (hread _)))
  | _ => exact .one (((steady_indexDelay _).append .fetch).append (hread _))

theorem words_readMemory (side : Side) (target : Target) {mode : AddressMode}
    (register : RegisterNumber) (size : Size) (h : mode.isMemory) :
    words (readMemory side target mode register size) = mode.extensionWords size := by
  cases mode <;> first
    | exact absurd h (by decide)
    | cases size <;> simp [readMemory, bus, act, AddressMode.extensionWords]

theorem fetchSource_of_isMemory {mode : AddressMode} (h : mode.isMemory)
    (register : RegisterNumber) (size : Size) :
    fetchSource mode register size = readMemory .source .src mode register size := by
  cases mode <;> first | rfl | exact absurd h (by decide)

theorem steady_fetchSource (mode : AddressMode) (register : RegisterNumber) (size : Size) :
    AllSteady (fetchSource mode register size) := by
  cases mode with
  | dataRegister | addressRegister => exact .nil
  | immediate => exact steady_fetchImmediate size
  | _ =>
    rw [fetchSource_of_isMemory (by rfl)]
    exact steady_readMemory _ _ _ _ _

@[simp] theorem words_fetchSource (mode : AddressMode) (register : RegisterNumber) (size : Size) :
    words (fetchSource mode register size) = mode.extensionWords size := by
  cases mode with
  | dataRegister | addressRegister => rfl
  | immediate => exact words_fetchImmediate size
  | _ =>
    rw [fetchSource_of_isMemory (by rfl)]
    exact words_readMemory _ _ _ _ (by rfl)

@[simp] theorem operations_fetchSource (mode : AddressMode) (register : RegisterNumber)
    (size : Size) : operations (fetchSource mode register size) = 0 := by
  cases mode <;> cases size <;> rfl

theorem steady_stepPast (mode : AddressMode) (register : RegisterNumber) (size : Size)
    (target : Target) : AllSteady (stepPast mode register size target) := by
  cases mode with
  | postIncrement => exact .one .nil
  | _ => exact .nil

@[simp] theorem words_stepPast (mode : AddressMode) (register : RegisterNumber) (size : Size)
    (target : Target) : words (stepPast mode register size target) = 0 := by
  cases mode <;> rfl

@[simp] theorem operations_stepPast (mode : AddressMode) (register : RegisterNumber) (size : Size)
    (target : Target) : operations (stepPast mode register size target) = 0 := by
  cases mode <;> rfl

/-! ## Destinations -/

theorem steady_operateAndWrite (mode : AddressMode) (register : RegisterNumber) (size : Size)
    (writeback : Writeback) : (operateAndWrite mode register size writeback).activity.Steady := by
  cases writeback with
  | store =>
    cases size with
    | byte | word => exact Steady.fetch.append (.write ..)
    | long => exact (Steady.fetch.append (.write ..)).append (.write ..)
  | discard => exact .fetch
  | testAndSet => exact (Steady.testAndSet _).append .fetch

@[simp] theorem fetches_operateAndWrite (mode : AddressMode) (register : RegisterNumber)
    (size : Size) (writeback : Writeback) :
    (operateAndWrite mode register size writeback).activity.fetches = 1 := by
  cases writeback <;> cases size <;> simp [operateAndWrite, perform]

theorem steady_readModifyWrite (mode : AddressMode) (register : RegisterNumber) (size : Size)
    (writeback : Writeback) : AllSteady (readModifyWrite mode register size writeback) :=
  ((steady_readMemory _ _ _ _ _).append (.one (steady_operateAndWrite ..))).append
    (steady_stepPast _ _ _ _)

theorem words_readModifyWrite {mode : AddressMode} (register : RegisterNumber) (size : Size)
    (writeback : Writeback) (h : mode.isMemory) :
    words (readModifyWrite mode register size writeback) = 1 + mode.extensionWords size := by
  simp [readModifyWrite, words_readMemory _ _ _ _ h, Nat.add_comm]

theorem steady_storeMoved (mode : AddressMode) (register : RegisterNumber) (size : Size)
    (increment : Target) : AllSteady (storeMoved mode register size increment) := by
  have hfetch := Steady.fetch
  have hwrite (half : Half) (adjustment : Option Adjustment) (width : Width)
      (address : AddressSource) := Steady.write half adjustment width address
  cases mode with
  | indirect | postIncrement =>
    cases size with
    | byte | word => exact .append (.one ((hwrite ..).append hfetch)) (steady_stepPast _ _ _ _)
    | long =>
      exact .append (.one (((hwrite ..).append (hwrite ..)).append hfetch)) (steady_stepPast _ _ _ _)
  | preDecrement =>
    cases size with
    | byte | word => exact .one (hfetch.append (hwrite ..))
    | long => exact .cons hfetch (.cons ((hwrite ..).append (hwrite ..)) (.one .nil))
  | absoluteLong =>
    cases size with
    | byte | word => exact .cons hfetch (.one ((hfetch.append (hwrite ..)).append hfetch))
    | long =>
      exact .cons hfetch
        (.one ((hfetch.append ((hwrite ..).append (hwrite ..))).append hfetch))
  | _ =>
    cases size with
    | byte | word =>
      exact .one ((((steady_indexDelay _).append hfetch).append (hwrite ..)).append hfetch)
    | long =>
      exact .one ((((steady_indexDelay _).append hfetch).append
        ((hwrite ..).append (hwrite ..))).append hfetch)

theorem words_storeMoved {mode : AddressMode} (register : RegisterNumber) (size : Size)
    (increment : Target) (h : mode.isMemory) :
    words (storeMoved mode register size increment) = 1 + mode.extensionWords size := by
  cases mode <;> first
    | exact absurd h (by decide)
    | cases size <;> simp [storeMoved, bus, act, AddressMode.extensionWords]

end Encoding

end M68k
