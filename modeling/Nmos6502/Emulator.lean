import Nmos6502.Cpu.Leap
import Nmos6502.Ram.Dump
import Nmos6502.Session.Processor

/-!
# The emulator

A processor with its own plain memory behind a small set of requests. Sizes that no memory has are
brought to the nearest that one has. Counts come back as 32-bit numbers. A program that is loaded is
remembered by its place, and the program counter goes to its start. A reset starts the program over:
the registers are as at power-on, with the program counter at the start of the program, and the
memory and the clock stay.

## Main definitions

* `Emulator`, `Emulator.ofSize`
* `Emulator.loadProgram` — a program is put into memory
* `EmulatorRequest`, `EmulatorRequest.perform`
* `runEmulatorSession` — a list of requests
-/

namespace Nmos6502

/-- A processor with plain memory and the place of its program. -/
structure Emulator where
  /-- The processor. -/
  cpu : Cpu Ram
  /-- Where the program begins. -/
  programStart : UInt16
  /-- The first address after the program. -/
  programStop : Nat

namespace Emulator

/-- An emulator with about `size` bytes of memory and no program. -/
def ofSize (size : Nat) : Emulator where
  cpu := .powerOn (.zeros (max 1 (min size addressSpace)) (by omega) (by
    have : 1 ≤ addressSpace := by decide
    omega))
  programStart := 0
  programStop := 0

/-- Starts the program over. -/
def reset (emulator : Emulator) : Emulator :=
  { emulator with
    cpu := emulator.cpu.configure { Config.powerOn with pc := emulator.programStart } }

/-- A count as a 32-bit number. -/
def count (n : Nat) : Nat := (UInt32.ofNat n).toNat

end Emulator

/-- What can be asked of an emulator. -/
inductive EmulatorRequest where
  /-- Executes one instruction. -/
  | step
  /-- Executes at most so many instructions. -/
  | run (instructions : UInt32)
  /-- Runs for a budget of cycles. -/
  | runForCycles (budget : UInt32)
  /-- Starts the program over. -/
  | reset
  /-- Replaces the program counter. -/
  | setPc (address : UInt16)
  /-- The byte at an address. -/
  | read (address : UInt16)
  /-- A byte is replaced. -/
  | write (address : UInt16) (value : UInt8)
  /-- Bytes are written one by one. -/
  | poke (address : UInt16) (bytes : List UInt8)
  /-- The dump of a range. -/
  | dump (address : UInt16) (length : Nat)
  /-- The place of the program. -/
  | program

namespace Emulator

/-- The emulator with another processor. -/
def withCpu (emulator : Emulator) (cpu : Cpu Ram) : Emulator := { emulator with cpu }

/-- A run, answered with a count from its summary. A budget has room for billions of turns, so the
run leaps. -/
def runReply (emulator : Emulator) (limit : RunLimit) (counted : RunSummary → Nat) :
    Reply Emulator :=
  match emulator.cpu.runLeaping limit with
  | none => ⟨.error .endless, emulator, []⟩
  | some ⟨.ok summary, cpu, events⟩ =>
    ⟨.ok (.number (count (counted summary))), emulator.withCpu cpu, events⟩
  | some ⟨.error fault, cpu, events⟩ => ⟨.error (.fault fault), emulator.withCpu cpu, events⟩

/-- Writes bytes one by one from an address on, around the end of the address space if need be.
When one is refused, those before it stay. -/
def poke (emulator : Emulator) (address : UInt16) (bytes : List UInt8) : Reply Emulator :=
  let ⟨⟨registers, clock, verbose, ram⟩, programStart, programStop⟩ := emulator
  let (outcome, ram) := Bus.store ram address bytes
  let result :=
    match outcome with
    | .ok () => .ok .done
    | .error cause => .error (.memory cause)
  ⟨result, ⟨⟨registers, clock, verbose, ram⟩, programStart, programStop⟩, []⟩

/-- Loads a program from an address on and goes to its start. One that does not fit is not loaded,
and nothing changes. -/
def loadProgram (emulator : Emulator) (start : UInt16) (program : List UInt8) : Reply Emulator :=
  let ⟨⟨registers, clock, verbose, ram⟩, programStart, programStop⟩ := emulator
  match Bus.load ram start program with
  | (.error cause, ram) =>
    ⟨.error (.memory cause), ⟨⟨registers, clock, verbose, ram⟩, programStart, programStop⟩, []⟩
  | (.ok (), ram) =>
    let stop := min (start.toNat + program.length) addressSpace
    ⟨.ok .done, ⟨⟨{ registers with pc := start }, clock, verbose, ram⟩, start, stop⟩, []⟩

end Emulator

/-- Answers a request to an emulator. -/
def EmulatorRequest.perform (request : EmulatorRequest) (emulator : Emulator) :
    Reply Emulator :=
  match request with
  | .step =>
    let reply := CpuRequest.step.perform emulator.cpu
    ⟨reply.result, emulator.withCpu reply.state, reply.events⟩
  | .run limit => emulator.runReply (.instructions limit.toNat) (·.instructions)
  | .runForCycles budget => emulator.runReply (.cycles budget.toNat) (·.cycles)
  | .reset => ⟨.ok .done, emulator.reset, []⟩
  | .setPc address =>
    let cpu := emulator.cpu.mapRegisters fun r => { r with pc := address }
    ⟨.ok .done, emulator.withCpu cpu, []⟩
  | .read address =>
    match emulator.cpu.memory.read address with
    | .ok byte => ⟨.ok (.number byte.toNat), emulator, []⟩
    | .error cause => ⟨.error (.memory cause), emulator, []⟩
  | .write address value => emulator.poke address [value]
  | .poke address bytes => emulator.poke address bytes
  | .dump address length =>
    match emulator.cpu.memory.dump address length with
    | .ok text => ⟨.ok (.text text), emulator, []⟩
    | .error cause => ⟨.error (.memory cause), emulator, []⟩
  | .program =>
    ⟨.ok (.numbers [emulator.programStart.toNat, emulator.programStop]), emulator, []⟩

/-- What a session says about one request. -/
structure EmulatorEntry where
  /-- The answer, or the failure. -/
  result : Except Failure Answer
  /-- The registers afterwards. -/
  registers : Registers
  /-- The clock afterwards. -/
  clock : Clock

/-- What a session says about a reply. -/
def emulatorEntry (reply : Reply Emulator) : EmulatorEntry :=
  ⟨reply.result, reply.state.cpu.registers, reply.state.cpu.clock⟩

/-- Answers requests to an emulator in order, after those in `said` (newest first). -/
def emulatorEntries (said : List EmulatorEntry) :
    List EmulatorRequest → Emulator → List EmulatorEntry
  | [], _ => said.reverse
  | request :: requests, emulator =>
    let reply := request.perform emulator
    emulatorEntries (emulatorEntry reply :: said) requests reply.state

/-- Answers requests to an emulator in order. -/
def runEmulatorSession (requests : List EmulatorRequest) (emulator : Emulator) :
    List EmulatorEntry :=
  emulatorEntries [] requests emulator

end Nmos6502
