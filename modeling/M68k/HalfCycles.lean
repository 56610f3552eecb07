/-!
# Half-cycles

Durations are counted in half-cycles of the processor clock. Bus steps last an odd number of them,
so whole cycles are too coarse.

## Main definitions

* `HalfCycles`: a duration; subtraction stops at zero
* `HalfCycles.cycles`, `HalfCycles.ofCycles`: whole clock cycles
-/

namespace M68k

/-- A duration in half-cycles of the processor clock. -/
abbrev HalfCycles := Nat

namespace HalfCycles

/-- Whole clock cycles, rounded down. -/
def cycles (duration : HalfCycles) : Nat := duration / 2

/-- The duration of whole clock cycles. -/
def ofCycles (cycles : Nat) : HalfCycles := cycles * 2

@[simp] theorem cycles_ofCycles (n : Nat) : cycles (ofCycles n) = n := by
  simp [cycles, ofCycles]

end HalfCycles

end M68k
