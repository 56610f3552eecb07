import M68k.Inspected
import M68k.Processor.Basic

/-!
# Properties of a processor

The named properties under which a debugger sees the state of a processor.

## Main definitions

* `Processor.queryPaths`: the names, in the order in which they are listed
* `Processor.query?`: the value of a property
-/

namespace M68k.Processor

/-- The name of a register of a bank: its letter and its number. -/
def registerPath (letter : String) (n : RegisterIndex) : String := letter ++ toString n.val

/-- Every property name. -/
def queryPaths : List String :=
  (List.finRange 8).map (registerPath "d") ++ (List.finRange 8).map (registerPath "a") ++
    ["usp", "ssp",
      "pc",
      "sr", "ccr",
      "flags.x", "flags.n", "flags.z", "flags.v", "flags.c",
      "flags.s", "flags.t",
      "int_mask",
      "state", "opcode", "cycles",
      "prefetch", "micro_op", "bus_step"]

/-- The register of a bank that is called `path`. -/
def registerAt? (letter path : String) : Option RegisterIndex :=
  (List.finRange 8).find? fun n => registerPath letter n == path

/-- The value of the property called `path`, unless it is a data or address register. -/
def queryState? (p : Processor) (path : String) : Option Inspected :=
  let r := p.registers
  let flag (mask : Status) : Option Inspected := some (.bool (Status.has r.sr mask))
  match path with
  | "usp" => some (.long r.usp)
  | "ssp" => some (.long r.ssp)
  | "pc" => some (.long r.pc)
  | "sr" => some (.word r.sr)
  | "ccr" => some (.byte r.ccr)
  | "flags.x" => flag Status.extend
  | "flags.n" => flag Status.negative
  | "flags.z" => flag Status.zero
  | "flags.v" => flag Status.overflow
  | "flags.c" => flag Status.carry
  | "flags.s" => flag Status.supervisor
  | "flags.t" => flag Status.trace
  | "int_mask" => some (.byte (r.mask.setWidth 8))
  | "state" => some (.symbol p.phase.name)
  | "opcode" => some (.word p.opcode)
  | "cycles" => some (.counter (BitVec.ofNat 64 p.clock))
  | "prefetch" => some (.long p.prefetch)
  | "micro_op" => some (.counter (BitVec.ofNat 64 p.microOp))
  | "bus_step" => some (.counter (BitVec.ofNat 64 p.busStep))
  | _ => none

/-- The value of the property called `path`, if there is one. -/
def query? (p : Processor) (path : String) : Option Inspected :=
  match registerAt? "d" path, registerAt? "a" path with
  | some n, _ => some (.long (p.registers.data n))
  | none, some n => some (.long (p.registers.address n))
  | none, none => p.queryState? path

end M68k.Processor
