import M68k.AddressMode
import M68k.Arithmetic.Binary
import M68k.Arithmetic.Multiply
import M68k.Arithmetic.PackedDecimal
import M68k.Arithmetic.Shift
import M68k.Blank
import M68k.Bus.Activity
import M68k.Bus.Pattern
import M68k.Bus.Signals
import M68k.Bus.Step
import M68k.Bus.Store
import M68k.Condition
import M68k.Encoding.DataMovement
import M68k.Encoding.Forms
import M68k.Encoding.IntegerArithmetic
import M68k.Encoding.Logical
import M68k.Encoding.Operands
import M68k.Encoding.ProgramControl
import M68k.Encoding.Recipe
import M68k.HalfCycles
import M68k.Inspected
import M68k.Instruction
import M68k.Memory
import M68k.MicroOp
import M68k.Operation
import M68k.Processor.Action
import M68k.Processor.Basic
import M68k.Processor.Exception
import M68k.Processor.Operation
import M68k.Processor.Query
import M68k.Processor.RegisterList
import M68k.Processor.Report
import M68k.Processor.Run
import M68k.Processor.Step
import M68k.Proofs.Arithmetic.LongDecimal
import M68k.Proofs.Arithmetic.LongSubtraction
import M68k.Proofs.Arithmetic.SignChange
import M68k.Proofs.Combine.OwnRegister
import M68k.Proofs.Decoding.Install
import M68k.Proofs.Exception.Return
import M68k.Proofs.Flow.Call
import M68k.Proofs.Flow.Countdown
import M68k.Proofs.Flow.Parity
import M68k.Proofs.Interrupt.Nesting
import M68k.Proofs.Lanes.Tandem
import M68k.Proofs.Latches.Boundary
import M68k.Proofs.Modify.Execute
import M68k.Proofs.MoveList.Execute
import M68k.Proofs.Pattern.Parsing
import M68k.Proofs.Prefetch.Stream
import M68k.Proofs.Privilege.Isolation
import M68k.Proofs.Privilege.StackPointers
import M68k.Proofs.Protocol.Transcript
import M68k.Proofs.Session.Lazy
import M68k.Proofs.Session.Reset
import M68k.Proofs.Session.Storage
import M68k.Proofs.Tables.Sharing
import M68k.Proofs.Timing.Durations
import M68k.Registers
import M68k.Side
import M68k.Size
import M68k.Status
import M68k.Tables.Basic
import M68k.Tables.Fixed
import M68k.Word
