import Nmos6502.Event
import Nmos6502.Execute

/-!
# The processor

A processor owns its registers, its clock and its memory. A step performs the instruction at the
program counter against the memory as it is, and only when the instruction has ended well are its
writes made, in order, and the registers and the clock replaced. So an instruction that fails
changes nothing. The one exception is a bus whose check accepted a write that it then refuses: the
writes before it have been made by then, and stay.

## Main definitions

* `Config` — the registers to begin with
* `Cpu`, with `Cpu.ofConfig`, `Cpu.configure`, `Cpu.config` and `Cpu.reset`
* `Cpu.peek` — the instruction that comes next
* `Cpu.step` — executes it
-/

namespace Nmos6502

/-- Registers to begin with, and whether to report every step. -/
structure Config where
  /-- The program counter. -/
  pc : UInt16
  /-- The flags as a byte. -/
  status : UInt8
  /-- The accumulator. -/
  a : UInt8
  /-- The index register X. -/
  x : UInt8
  /-- The index register Y. -/
  y : UInt8
  /-- The stack pointer. -/
  sp : UInt8
  /-- Whether every step is reported. -/
  verbose : Bool
  deriving DecidableEq

namespace Config

/-- The registers at power-on. -/
def powerOn : Config where
  pc := 0
  status := Status.powerOn.bits
  a := 0
  x := 0
  y := 0
  sp := 0xFF
  verbose := false

/-- The registers of a configuration. The unused flag is set whatever the byte says. -/
def registers (config : Config) : Registers where
  a := config.a
  x := config.x
  y := config.y
  sp := config.sp
  pc := config.pc
  status := .ofByte config.status

end Config

/-- A processor with its memory. -/
structure Cpu (M : Type) where
  /-- The registers. -/
  registers : Registers
  /-- The cycles since power-on. -/
  clock : Clock
  /-- Whether every step is reported. -/
  verbose : Bool
  /-- The memory. -/
  memory : M

/-- What came of a step. -/
structure StepReport (M : Type) where
  /-- The operation executed, or the fault that prevented it. -/
  result : Except Fault Mnemonic
  /-- The processor afterwards. -/
  cpu : Cpu M
  /-- What was reported. -/
  events : List Event

namespace Cpu

variable {M : Type}

/-- A processor with its clock at zero. -/
def ofConfig (memory : M) (config : Config) : Cpu M :=
  ⟨config.registers, .zero, config.verbose, memory⟩

/-- A processor at power-on. -/
def powerOn (memory : M) : Cpu M := ofConfig memory .powerOn

/-- Replaces the registers; the clock and the memory stay. -/
def configure (cpu : Cpu M) (config : Config) : Cpu M :=
  { cpu with registers := config.registers, verbose := config.verbose }

/-- Changes the registers; all else stays. -/
def mapRegisters (cpu : Cpu M) (change : Registers → Registers) : Cpu M :=
  { cpu with registers := change cpu.registers }

/-- The configuration that gives these registers. -/
def config (cpu : Cpu M) : Config where
  pc := cpu.registers.pc
  status := cpu.registers.status.bits
  a := cpu.registers.a
  x := cpu.registers.x
  y := cpu.registers.y
  sp := cpu.registers.sp
  verbose := cpu.verbose

/-- The registers and the clock in one line. -/
def traceLine (cpu : Cpu M) : String := Nmos6502.traceLine cpu.registers cpu.clock

variable [Bus M]

/-- Where the program counter is taken from on a reset. -/
def resetVector : UInt16 := 0xFFFC

/-- Takes the program counter from the reset vector; all else stays. -/
def reset (cpu : Cpu M) : Except Fault Unit × Cpu M :=
  match Bus.read cpu.memory resetVector, Bus.read cpu.memory (resetVector + 1) with
  | .ok low, .ok high =>
    (.ok (), { cpu with registers := { cpu.registers with pc := word low high } })
  | .error cause, _ | .ok _, .error cause => (.error (.refused cause), cpu)

/-- The instruction at the program counter. -/
def peek (cpu : Cpu M) : Except Fault Instruction :=
  Instruction.decodeAt cpu.memory cpu.registers.pc

/-- Runs the instruction at the program counter against the memory, without changing anything. -/
def rehearse (cpu : Cpu M) : Except Fault Executed × Journal :=
  (cpu.registers.instruction (Bus.size cpu.memory)).perform cpu.memory .empty

/-- Makes the writes of an instruction, and then its registers and cycles count. -/
def commit (cpu : Cpu M) (executed : Executed) (journal : Journal) :
    Except Fault Mnemonic × Cpu M :=
  let ⟨registers, clock, verbose, memory⟩ := cpu
  match Bus.writeAll memory journal.writes with
  | (.error cause, memory) => (.error (.refused cause), ⟨registers, clock, verbose, memory⟩)
  | (.ok (), memory) =>
    (.ok executed.operation.mnemonic,
      ⟨executed.registers, clock.tick (executed.ticks journal), verbose, memory⟩)

/-- What a verbose processor reports before and during an instruction. -/
def openingEvents (cpu : Cpu M) (journal : Journal) : List Event :=
  if cpu.verbose then .executing cpu.peek :: journal.events else []

/-- What a verbose processor reports after an instruction that ended well. -/
def closingEvents (cpu : Cpu M) : List Event :=
  if cpu.verbose then [.executed cpu.registers cpu.clock] else []

/-- Executes the instruction at the program counter. -/
def step (cpu : Cpu M) : StepReport M :=
  match cpu.rehearse with
  | (.error fault, journal) => ⟨.error fault, cpu, cpu.openingEvents journal⟩
  | (.ok executed, journal) =>
    let opening := cpu.openingEvents journal
    match cpu.commit executed journal with
    | (.error fault, cpu) => ⟨.error fault, cpu, opening⟩
    | (.ok mnemonic, cpu) => ⟨.ok mnemonic, cpu, opening ++ cpu.closingEvents⟩

end Cpu

end Nmos6502
