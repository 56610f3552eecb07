import M68k.Bus.Signals
import Std.Data.HashMap

/-!
# Memory

Sixteen megabytes of bytes, as a processor with 24 address lines sees them. A word lies at an even
address, high byte first; a word access disregards the lowest address bit. Memory that nothing was
written to shows a background.

## Main definitions

* `Memory`, `Memory.byte`: memory, and its content
* `Memory.store`, `Memory.storeWord`, `Memory.word`: bytes and words
* `Memory.access`: memory as one side of a bus
* `TestBench`: memory with waits, a vector source and a stuck upper byte lane
-/

namespace M68k

/-- What 24 address lines can tell apart. -/
abbrev Address := BitVec 24

/-- The content of memory that nothing was written to. -/
inductive Background
  | constant (value : Byte)
  /-- A byte that looks random: the top byte of a multiple of the address plus `seed`. -/
  | noise (seed : Long)
deriving DecidableEq, Repr

/-- The byte of a background at an address. -/
def Background.byte : Background → Address → Byte
  | constant value, _ => value
  | noise seed, address => ((address.setWidth 32 + seed) * 0x9E3779B1).extractLsb' 24 8

/-- A memory. -/
structure Memory where
  background : Background
  written : Std.HashMap Address Byte

namespace Memory

/-- The memory that nothing was written to. -/
def blank (background : Background) : Memory := ⟨background, ∅⟩

/-- The byte at an address. -/
def byte (memory : Memory) (address : Address) : Byte :=
  memory.written.getD address (memory.background.byte address)

/-- Replace the byte at an address. -/
def store (memory : Memory) (address : Address) (value : Byte) : Memory :=
  { memory with written := memory.written.insert address value }

theorem byte_store (memory : Memory) (address other : Address) (value : Byte) :
    (memory.store address value).byte other =
      if other = address then value else memory.byte other := by
  by_cases h : other = address
  · simp [byte, store, h]
  · have : (address == other) = false := by simpa using fun e => h e.symm
    simp [byte, store, h, Std.HashMap.getD_insert, this]

/-- The even address of the word around an address. -/
def wordAddress (address : Address) : Address := address &&& 0xFFFFFE

/-- The word around an address. -/
def word (memory : Memory) (address : Address) : Word :=
  memory.byte (wordAddress address) ++ memory.byte (wordAddress address + 1)

/-- Replace the word around an address. -/
def storeWord (memory : Memory) (address : Address) (value : Word) : Memory :=
  (memory.store (wordAddress address) (value.extractLsb' 8 8)).store (wordAddress address + 1)
    (value.extractLsb' 0 8)

theorem byte_storeWord (memory : Memory) (address other : Address) (value : Word) :
    (memory.storeWord address value).byte other =
      if other = wordAddress address + 1 then value.extractLsb' 0 8
      else if other = wordAddress address then value.extractLsb' 8 8
      else memory.byte other := by
  simp only [storeWord, byte_store]

/-- Replace consecutive bytes, from an address on. -/
def storeBytes (memory : Memory) (address : Address) : List Byte → Memory
  | [] => memory
  | value :: values => (memory.store address value).storeBytes (address + 1) values

/-- Consecutive bytes, from an address on. -/
def bytes (memory : Memory) (address : Address) (count : Nat) : List Byte :=
  (List.range count).map fun i => memory.byte (address + BitVec.ofNat 24 i)

/-- Answer a request that selects data and acknowledges no interrupt: the word on the bus
afterwards, and the memory. -/
def transfer (memory : Memory) (request : Request) : Word × Memory :=
  let address : Address := request.address.setWidth 24
  match request.signals.read, request.signals.selectByte with
  | true, true => ((memory.byte address).setWidth 16, memory)
  | true, false => (memory.word address, memory)
  | false, true => (request.value, memory.store address (request.value.setWidth 8))
  | false, false => (request.value, memory.storeWord address request.value)

/-- Memory as one side of a bus: it answers transfers at once, leaves other steps alone, and
supplies no vectors. -/
def access : Bus Memory := fun memory request =>
  if request.signals.transfersData && !request.signals.interruptAcknowledge then
    let (value, memory) := memory.transfer request
    (⟨value, 0⟩, memory)
  else (⟨request.value, 0⟩, memory)

end Memory

/-- A memory with waits, a source of interrupt vectors, and an upper byte lane that disturbs byte
reads. -/
structure TestBench where
  memory : Memory
  /-- The wait of steps that select data. -/
  wait : HalfCycles
  /-- The wait of all other steps. -/
  idleWait : HalfCycles
  /-- The answer to an interrupt acknowledge. Without one the processor keeps its own. -/
  vector : Option Word
  /-- Bits 8 to 15 show up in every byte read. -/
  highByte : Word

namespace TestBench

/-- The bench as one side of a bus. -/
def access : Bus TestBench := fun bench request =>
  let signals := request.signals
  if !signals.transfersData then (⟨request.value, bench.idleWait⟩, bench)
  else if signals.interruptAcknowledge then
    (⟨bench.vector.getD request.value, bench.wait⟩, bench)
  else
    let (value, memory) := bench.memory.transfer request
    let disturbed :=
      if signals.read && signals.selectByte then value ||| (bench.highByte &&& 0xFF00) else value
    (⟨disturbed, bench.wait⟩, { bench with memory := memory })

end TestBench

end M68k
