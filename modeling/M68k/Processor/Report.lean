import M68k.Processor.Run

/-!
# Reports

The lines that a processor writes to a log: when tables have been made, on reset, when the interrupt
level changes, when an interrupt or an exception is entered and, if asked for, for each transfer.

## Main definitions

* `Tables.report`, `Processor.resetReport`, `Processor.levelReport`
* `StepRecord.reports`: the lines of a step
-/

namespace M68k

/-- The line about finished tables. -/
def Tables.report (tables : Tables) : String :=
  "DEBUG 68000 tables: " ++ toString tables.mapped ++ " opcodes mapped, " ++
    toString tables.microOps.size ++ " micro-ops, " ++ toString tables.steps.size ++ " bus steps"

/-- The line about a reset. -/
def Processor.resetReport : String := "DEBUG 68000 reset"

/-- The line about a change of the interrupt level, if it is one. -/
def Processor.levelReport (p : Processor) (level : Level) : List String :=
  if level = p.interruptLevel then []
  else ["DEBUG 68000 interrupt level " ++ toString level.toNat]

/-- The line about the entry into an exception. -/
def exceptionReport (vector : Nat) (address : Long) (opcode : Word) : String :=
  "DEBUG 68000 exception vector " ++ toString vector ++ " at " ++ hexDigits 6 address.toNat ++
    " (opcode " ++ hexDigits 4 opcode.toNat ++ ")"

/-- The line about what was started. Of instructions only traps are reported, as the exceptions that
they enter, with the address behind them. -/
def Start.reports (start : Start) : List String :=
  match start.entry with
  | .interrupt level =>
    ["DEBUG 68000 interrupt level " ++ toString level.toNat ++ " at " ++
      hexDigits 6 start.address.toNat]
  | .exception vector => [exceptionReport vector.toNat start.address start.opcode]
  | .instruction entry =>
    if entry.instruction.operation = .trap then
      [exceptionReport (32 + start.opcode.toNat % 16) (start.address + 2) start.opcode]
    else []

/-- The line about a transfer. -/
def StepRecord.transferReport (record : StepRecord) : String :=
  let signals := record.request.signals
  "TRACE 68000 " ++ (if signals.isRead then "read " else "write ") ++
    hexDigits 6 record.request.address.toNat ++ " " ++ hexDigits 4 record.value.toNat ++ " (" ++
    signals.text ++ ")"

/-- The lines of a step. -/
def StepRecord.reports (config : Config) (record : StepRecord) : List String :=
  let reported := config.reportTransfers && record.request.signals.transfersData
  (record.start.map Start.reports).getD [] ++ if reported then [record.transferReport] else []

end M68k
