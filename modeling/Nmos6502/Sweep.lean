import Nmos6502.Cpu
import Nmos6502.Ram.Changes

/-!
# Sweeps

A sweep executes the same instruction once for each of a range of values. Before each trial the
value is put into some registers, and into one byte of memory if asked for, cut to their widths.
Each trial starts from a fresh processor over the same memory, and is reported in one line: what was
executed, the registers, the cycles, and the bytes that changed. A fault of the executed instruction
is part of its line; a sweep over a byte that memory does not have reports nothing but the refusal.

## Main definitions

* `RegisterName`, `Config.withRegister` — registers by name
* `Sweep`, `Sweep.values`, `Sweep.trial` — the range and one trial
* `Sweep.report` — a line for each value
-/

namespace Nmos6502

open Text

/-- The registers a value can be put into. -/
inductive RegisterName where
  | a | x | y | sp | status | pc
  deriving DecidableEq

/-- The configuration with a value, cut to its width, in one register. -/
def Config.withRegister (config : Config) (value : Nat) (name : RegisterName) : Config :=
  match name with
  | .a => { config with a := UInt8.ofNat value }
  | .x => { config with x := UInt8.ofNat value }
  | .y => { config with y := UInt8.ofNat value }
  | .sp => { config with sp := UInt8.ofNat value }
  | .status => { config with status := UInt8.ofNat value }
  | .pc => { config with pc := UInt16.ofNat value }

/-- A range of values for one instruction. -/
structure Sweep where
  /-- The memory before each trial. -/
  ram : Ram
  /-- The registers before each trial. -/
  config : Config
  /-- The registers that take the value. -/
  varied : List RegisterName
  /-- The byte of memory that takes the value, if any. -/
  variedAddress : Option UInt16
  /-- The first value. -/
  first : Nat
  /-- A bound that no value exceeds. -/
  last : Nat
  /-- The distance between values. -/
  stride : Nat

namespace Sweep

/-- The values from the first up to the last. -/
def values (sweep : Sweep) : List Nat :=
  if sweep.last < sweep.first then []
  else
    (List.range ((sweep.last - sweep.first) / sweep.stride + 1)).map fun i =>
      sweep.first + sweep.stride * i

/-- The memory before the trial of a value. -/
def startMemory (sweep : Sweep) (value : Nat) : Except OutOfBounds Ram :=
  match sweep.variedAddress with
  | some address => Bus.write sweep.ram address (UInt8.ofNat value)
  | none => .ok sweep.ram

/-- The registers before the trial of a value. -/
def startConfig (sweep : Sweep) (value : Nat) : Config :=
  sweep.varied.foldl (·.withRegister value) sweep.config

/-- One line for a step: the operation or the fault, the registers, the cycles, and the bytes that
changed. -/
def describe (before : Ram) (report : StepReport Ram) : String :=
  let outcome :=
    match report.result with
    | .ok mnemonic => mnemonic.name
    | .error fault => fault.message
  let registers := report.cpu.registers
  let changes := (before.changes report.cpu.memory).map fun (start, bytes) =>
    " " ++ hexWord .lower (UInt16.ofNat start) ++ "=" ++ String.join (bytes.map (hexByte .lower))
  outcome ++ " " ++ hexByte .lower registers.a ++ hexByte .lower registers.x ++
    hexByte .lower registers.y ++ hexByte .lower registers.sp ++
    " " ++ hexWord .lower registers.pc ++ " " ++ hexByte .lower registers.status.bits ++
    " " ++ decimal report.cpu.clock.cycles ++ String.join changes

/-- The line for the trial of a value. -/
def trial (sweep : Sweep) (value : Nat) : Except OutOfBounds String :=
  (sweep.startMemory value).map fun ram =>
    describe ram (Cpu.ofConfig ram (sweep.startConfig value)).step

/-- A line for each value in order, or why the value could not be put into memory. -/
def report (sweep : Sweep) : Except OutOfBounds (List String) := sweep.values.mapM sweep.trial

end Sweep

end Nmos6502
