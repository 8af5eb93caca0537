import Nmos6502.Session.Answer

/-!
# Requests to a processor

What can be asked of a processor over any bus: to execute, to be configured, to tell and to change
its registers. A change of the status by raw bits is the one request that can clear the unused flag.

## Main definitions

* `StatusRequest` — what can be asked of a status
* `ConfigPatch` — some fields of a configuration
* `CpuRequest`, `CpuRequest.perform`
-/

namespace Nmos6502

/-- What can be asked of a status. -/
inductive StatusRequest where
  /-- Becomes the status at power-on. -/
  | powerOn
  /-- Becomes the status of a byte. -/
  | ofByte (byte : UInt8)
  /-- Becomes the status of a byte from the stack. -/
  | ofPulled (byte : UInt8)
  /-- Becomes the status with just these bits. -/
  | ofBits (byte : UInt8)
  /-- Zero and negative describe a result. -/
  | describe (result : UInt8)
  /-- A flag is set or cleared. -/
  | setFlag (flag : Flag) (on : Bool)
  /-- The byte that would be pushed. -/
  | pushed

/-- The status after a request. -/
def StatusRequest.apply (request : StatusRequest) (status : Status) : Status :=
  match request with
  | .powerOn => .powerOn
  | .ofByte byte => .ofByte byte
  | .ofPulled byte => .ofPulled byte
  | .ofBits byte => .ofBits byte
  | .describe result => status.describe result
  | .setFlag flag on => status.setFlag flag on
  | .pushed => status

/-- The answer to a question about a status. -/
def StatusRequest.answer (request : StatusRequest) (status : Status) : Answer :=
  match request with
  | .pushed => .number status.pushed.toNat
  | _ => .status (request.apply status)

/-- The answers to requests to a status, each of which changes it for the next. -/
def statusAnswers (status : Status) : List StatusRequest → List Answer
  | [] => []
  | request :: requests =>
    request.answer status :: statusAnswers (request.apply status) requests

/-- Parts of a configuration; what is `none` is left open. -/
structure ConfigPatch where
  /-- The program counter. -/
  pc : Option UInt16
  /-- The flags as a byte. -/
  status : Option UInt8
  /-- The accumulator. -/
  a : Option UInt8
  /-- The index register X. -/
  x : Option UInt8
  /-- The index register Y. -/
  y : Option UInt8
  /-- The stack pointer. -/
  sp : Option UInt8
  /-- Whether every step is reported. -/
  verbose : Option Bool

/-- The configuration with the given parts replaced. -/
def ConfigPatch.apply (patch : ConfigPatch) (config : Config) : Config where
  pc := patch.pc.getD config.pc
  status := patch.status.getD config.status
  a := patch.a.getD config.a
  x := patch.x.getD config.x
  y := patch.y.getD config.y
  sp := patch.sp.getD config.sp
  verbose := patch.verbose.getD config.verbose

/-- What can be asked of a processor. -/
inductive CpuRequest where
  /-- Executes one instruction. -/
  | step
  /-- Runs up to a limit. -/
  | run (limit : RunLimit)
  /-- Runs for a budget of cycles. -/
  | runForCycles (budget : Nat)
  /-- Takes the program counter from the reset vector. -/
  | reset
  /-- The instruction that comes next. -/
  | peek
  /-- Replaces the registers; what is left open is as at power-on. -/
  | configure (patch : ConfigPatch)
  /-- Replaces some registers. -/
  | reconfigure (patch : ConfigPatch)
  /-- The configuration. -/
  | config
  /-- The registers and the cycles. -/
  | registers
  /-- Replaces the accumulator. -/
  | setA (value : UInt8)
  /-- Replaces X. -/
  | setX (value : UInt8)
  /-- Replaces Y. -/
  | setY (value : UInt8)
  /-- Replaces the stack pointer. -/
  | setSp (value : UInt8)
  /-- Replaces the program counter. -/
  | setPc (value : UInt16)
  /-- Asks something of the status. -/
  | status (request : StatusRequest)

/-- The answer to a run, made of its report. -/
def Cpu.runReply {M : Type} [Bus M] (cpu : Cpu M) (limit : RunLimit)
    (answer : RunSummary → Answer) : Reply (Cpu M) :=
  match cpu.run limit with
  | none => ⟨.error .endless, cpu, []⟩
  | some ⟨.ok summary, cpu, events⟩ => ⟨.ok (answer summary), cpu, events⟩
  | some ⟨.error fault, cpu, events⟩ => ⟨.error (.fault fault), cpu, events⟩

/-- Answers a request to a processor. -/
def CpuRequest.perform {M : Type} [Bus M] (request : CpuRequest) (cpu : Cpu M) :
    Reply (Cpu M) :=
  match request with
  | .step =>
    match cpu.step with
    | ⟨.ok mnemonic, cpu, events⟩ => ⟨.ok (.mnemonic mnemonic), cpu, events⟩
    | ⟨.error fault, cpu, events⟩ => ⟨.error (.fault fault), cpu, events⟩
  | .run limit => cpu.runReply limit .summary
  | .runForCycles budget => cpu.runReply (.cycles budget) fun summary => .number summary.cycles
  | .reset =>
    match cpu.reset with
    | (.ok (), cpu) => ⟨.ok .done, cpu, []⟩
    | (.error fault, cpu) => ⟨.error (.fault fault), cpu, []⟩
  | .peek =>
    match cpu.peek with
    | .ok instruction => ⟨.ok (.instruction instruction), cpu, []⟩
    | .error fault => ⟨.error (.fault fault), cpu, []⟩
  | .configure patch => ⟨.ok .done, cpu.configure (patch.apply .powerOn), []⟩
  | .reconfigure patch => ⟨.ok .done, cpu.configure (patch.apply cpu.config), []⟩
  | .config => ⟨.ok (.config cpu.config), cpu, []⟩
  | .registers => ⟨.ok (.registers cpu.registers cpu.clock.cycles), cpu, []⟩
  | .setA value => ⟨.ok .done, cpu.mapRegisters fun r => { r with a := value }, []⟩
  | .setX value => ⟨.ok .done, cpu.mapRegisters fun r => { r with x := value }, []⟩
  | .setY value => ⟨.ok .done, cpu.mapRegisters fun r => { r with y := value }, []⟩
  | .setSp value => ⟨.ok .done, cpu.mapRegisters fun r => { r with sp := value }, []⟩
  | .setPc value => ⟨.ok .done, cpu.mapRegisters fun r => { r with pc := value }, []⟩
  | .status request =>
    ⟨.ok (request.answer cpu.registers.status),
      cpu.mapRegisters fun r => { r with status := request.apply r.status }, []⟩

end Nmos6502
