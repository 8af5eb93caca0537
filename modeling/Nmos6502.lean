import Nmos6502.Address
import Nmos6502.Bus
import Nmos6502.Clock
import Nmos6502.CommandLine
import Nmos6502.Cpu
import Nmos6502.Cpu.Run
import Nmos6502.Emulator
import Nmos6502.Event
import Nmos6502.Execute
import Nmos6502.Fault
import Nmos6502.GuardedRam
import Nmos6502.HexText
import Nmos6502.Instruction
import Nmos6502.Instruction.Text
import Nmos6502.Listing
import Nmos6502.Listing.Text
import Nmos6502.Main
import Nmos6502.Microcode
import Nmos6502.Mnemonic
import Nmos6502.Mode
import Nmos6502.Opcode
import Nmos6502.Operand
import Nmos6502.Proofs.Arithmetic
import Nmos6502.Proofs.Budget
import Nmos6502.Proofs.Comparison
import Nmos6502.Proofs.Control
import Nmos6502.Proofs.Counts
import Nmos6502.Proofs.Cycles
import Nmos6502.Proofs.DataOperations
import Nmos6502.Proofs.Demands
import Nmos6502.Proofs.DormantFlags
import Nmos6502.Proofs.Effect
import Nmos6502.Proofs.EffectiveAddress
import Nmos6502.Proofs.Enlargement
import Nmos6502.Proofs.FailedStep
import Nmos6502.Proofs.Family
import Nmos6502.Proofs.Footprint
import Nmos6502.Proofs.FullMemory
import Nmos6502.Proofs.HexDump
import Nmos6502.Proofs.HexReading
import Nmos6502.Proofs.Iteration
import Nmos6502.Proofs.Leap
import Nmos6502.Proofs.Loading
import Nmos6502.Proofs.Location
import Nmos6502.Proofs.LongArithmetic
import Nmos6502.Proofs.Lossless
import Nmos6502.Proofs.MemoryListing
import Nmos6502.Proofs.OperandForm
import Nmos6502.Proofs.Outcome
import Nmos6502.Proofs.Peek
import Nmos6502.Proofs.Perform
import Nmos6502.Proofs.Placement
import Nmos6502.Proofs.PlainMemory
import Nmos6502.Proofs.PrintedTarget
import Nmos6502.Proofs.ReadSet
import Nmos6502.Proofs.Resumption
import Nmos6502.Proofs.Rotation
import Nmos6502.Proofs.Run
import Nmos6502.Proofs.ShadowStack
import Nmos6502.Proofs.StatusBits
import Nmos6502.Proofs.Step
import Nmos6502.Proofs.Tiling
import Nmos6502.Proofs.Tracing
import Nmos6502.Proofs.Transition
import Nmos6502.Ram
import Nmos6502.Ram.Changes
import Nmos6502.Ram.Dump
import Nmos6502.Ram.Segment
import Nmos6502.Registers
import Nmos6502.Session
import Nmos6502.Session.Answer
import Nmos6502.Session.Memory
import Nmos6502.Session.Processor
import Nmos6502.Status
import Nmos6502.Sweep
import Nmos6502.Text.Blank
import Nmos6502.Text.Numeral
import Nmos6502.Text.Quoted
import Nmos6502.Text.Unprintable
import Nmos6502.Proofs.Concatenation
import Nmos6502.Proofs.Relocation
import Nmos6502.Proofs.MissingDigits
import Nmos6502.Proofs.Overrun
import Nmos6502.Proofs.HexGrammar
import Nmos6502.Proofs.AddressGrammar
import Nmos6502.Proofs.FaultPosition
import Nmos6502.Proofs.MemoryDump
import Nmos6502.Proofs.BoundedMap
import Nmos6502.Proofs.FlagsAnywhere
import Nmos6502.Proofs.ListingCommand
import Nmos6502.Proofs.Decoding
import Nmos6502.Proofs.SplitColumns
import Nmos6502.Proofs.SuccessiveCalls
import Nmos6502.Proofs.WriteBuffer
import Nmos6502.Proofs.Fallbacks
