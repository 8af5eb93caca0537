import Nmos6502.Operand

/-!
# The instruction set

Each mnemonic is a small piece of microcode over its operand and the registers. The families differ
only in what they do at the bus: operations that load a byte and change registers, operations that
load a byte and store a result, stores, the stack, transfers of control, and operations on registers
alone.

A whole instruction fetches its opcode at the program counter, looks it up, makes sure that memory
does not end before the instruction does, finds the operand and does the operation. Its cycles are
at least those of the opcode table; a branch that is taken lets one more pass.

## Main definitions

* `Mnemonic.execute` — the operation
* `Registers.instruction` — the whole instruction at the program counter
* `Executed`, `Executed.ticks` — what was executed, and the cycles it took
-/

namespace Nmos6502

namespace Operand

/-- Loads the operand's byte and lets it act on the registers. -/
def apply (operand : Operand) (registers : Registers)
    (action : Registers → UInt8 → Registers) : Microcode Registers := do
  let value ← operand.load registers
  return action registers value

/-- Loads the operand's byte, shifts it through the carry, and stores the result. -/
def shift (operand : Operand) (registers : Registers)
    (action : Bool → UInt8 → UInt8 × Bool) : Microcode Registers := do
  let value ← operand.load registers
  let (result, carry) := action registers.status.carry value
  let status := { registers.status with carry }
  operand.store result { registers with status := status.describe result }

/-- Loads the operand's byte, changes it, and stores the result. -/
def modify (operand : Operand) (registers : Registers) (action : UInt8 → UInt8) :
    Microcode Registers := do
  let value ← operand.load registers
  let result := action value
  operand.store result (registers.describe result)

/-- Goes on at the operand's address. -/
def jump (operand : Operand) (registers : Registers) : Registers :=
  match operand.address? with
  | some target => { registers with pc := target }
  | none => registers

/-- Goes on at the operand's address, one cycle later, if the condition holds. -/
def branch (operand : Operand) (registers : Registers) (condition : Bool) :
    Microcode Registers :=
  match condition, operand.address? with
  | true, some target => .idle (.done { registers with pc := target })
  | _, _ => .done registers

end Operand

/-- The operation of a mnemonic. -/
def Mnemonic.execute (mnemonic : Mnemonic) (operand : Operand) (registers : Registers) :
    Microcode Registers :=
  let status := registers.status
  match mnemonic with
  -- arithmetic, logic and comparison
  | .adc => operand.apply registers .addWithCarry
  | .sbc => operand.apply registers .subtractWithBorrow
  | .and => operand.apply registers fun r value => r.setA (r.a &&& value)
  | .ora => operand.apply registers fun r value => r.setA (r.a ||| value)
  | .eor => operand.apply registers fun r value => r.setA (r.a ^^^ value)
  | .bit => operand.apply registers .testBits
  | .cmp => operand.apply registers fun r value => r.compare r.a value
  | .cpx => operand.apply registers fun r value => r.compare r.x value
  | .cpy => operand.apply registers fun r value => r.compare r.y value
  -- loads and stores
  | .lda => operand.apply registers .setA
  | .ldx => operand.apply registers .setX
  | .ldy => operand.apply registers .setY
  | .sta => operand.store registers.a registers
  | .stx => operand.store registers.x registers
  | .sty => operand.store registers.y registers
  -- shifts and counting
  | .asl => operand.shift registers shiftLeft
  | .lsr => operand.shift registers shiftRight
  | .rol => operand.shift registers rotateLeft
  | .ror => operand.shift registers rotateRight
  | .inc => operand.modify registers (· + 1)
  | .dec => operand.modify registers (· - 1)
  | .inx => return registers.setX (registers.x + 1)
  | .iny => return registers.setY (registers.y + 1)
  | .dex => return registers.setX (registers.x - 1)
  | .dey => return registers.setY (registers.y - 1)
  -- transfers between registers
  | .tax => return registers.setX registers.a
  | .tay => return registers.setY registers.a
  | .txa => return registers.setA registers.x
  | .tya => return registers.setA registers.y
  | .tsx => return registers.setX registers.sp
  | .txs => return { registers with sp := registers.x }
  -- the stack
  | .pha => registers.push registers.a
  | .php => registers.push status.pushed
  | .pla => do
    let (value, registers) ← registers.pull
    return registers.setA value
  | .plp => do
    let (value, registers) ← registers.pull
    return { registers with status := .ofPulled value }
  -- flags
  | .clc => return { registers with status := { status with carry := false } }
  | .sec => return { registers with status := { status with carry := true } }
  | .cli => return { registers with status := { status with interruptDisable := false } }
  | .sei => return { registers with status := { status with interruptDisable := true } }
  | .cld => return { registers with status := { status with decimal := false } }
  | .sed => return { registers with status := { status with decimal := true } }
  | .clv => return { registers with status := { status with overflow := false } }
  -- branches
  | .bcc => operand.branch registers (!status.carry)
  | .bcs => operand.branch registers status.carry
  | .bne => operand.branch registers (!status.zero)
  | .beq => operand.branch registers status.zero
  | .bpl => operand.branch registers (!status.negative)
  | .bmi => operand.branch registers status.negative
  | .bvc => operand.branch registers (!status.overflow)
  | .bvs => operand.branch registers status.overflow
  -- jumps and returns
  | .jmp => return operand.jump registers
  | .jsr => do
    let registers ← registers.pushWord (registers.pc - 1)
    return operand.jump registers
  | .rts => do
    let (address, registers) ← registers.pullWord
    return { registers with pc := address + 1 }
  | .rti => do
    let (value, registers) ← registers.pull
    let (address, registers) ← { registers with status := .ofPulled value : Registers }.pullWord
    return { registers with pc := address }
  | .brk | .nop => return registers

/-- An instruction that has run. -/
structure Executed where
  /-- What its opcode stands for. -/
  operation : Operation
  /-- The registers after it. -/
  registers : Registers

/-- The cycles an instruction took: those that went by, but not less than the opcode's. -/
def Executed.ticks (executed : Executed) (journal : Journal) : Nat :=
  max journal.ticks executed.operation.cycles

/-- The instruction at the program counter, over a memory of `size` bytes. -/
def Registers.instruction (registers : Registers) (size : Nat) : Microcode Executed := do
  let address := registers.pc
  let (opcode, registers) ← registers.fetch
  match operation? opcode with
  | none => .fail (.illegalOpcode opcode address)
  | some operation =>
    let available := size - address.toNat
    if available < operation.size then
      .fail (.incomplete address operation.size available)
    else do
      let (operand, registers) ←
        Operand.resolve operation.mode operation.mnemonic.operandUse registers
      let registers ← operation.mnemonic.execute operand registers
      return ⟨operation, registers⟩

end Nmos6502
