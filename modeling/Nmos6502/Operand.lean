import Nmos6502.Address
import Nmos6502.Microcode
import Nmos6502.Opcode
import Nmos6502.Registers

/-!
# Operands

The addressing mode finds an operand while the instruction runs: operand bytes are fetched at the
program counter, index registers are added, pointers are followed. Only an operation that reads its
operand makes the last access, to the operand itself. So a store does not disturb the place it is
about to write, and a jump does not look at its destination.

An operand may have a value, an address, both, or neither. Loading it prefers the value; storing to
it goes to the accumulator or to the address.

## Main definitions

* `Registers.fetch`, `Registers.push`, `Registers.pull` — bytes at the program counter and on the
  stack
* `Operand`, `Operand.resolve` — what a mode finds
* `Operand.load`, `Operand.store` — the byte an operation works on, and where its result goes
-/

namespace Nmos6502

/-- A byte read from memory. -/
def readByte (address : UInt16) : Microcode UInt8 := .read address .done

/-- A word read from memory, its low byte first. -/
def readWord (lowAddress highAddress : UInt16) : Microcode UInt16 := do
  let low ← readByte lowAddress
  let high ← readByte highAddress
  return word low high

/-- A word read from the zero page, which wraps. -/
def readZeroPageWord (pointer : UInt8) : Microcode UInt16 :=
  readWord pointer.toUInt16 (pointer + 1).toUInt16

namespace Registers

/-- The byte at the program counter, which moves on. -/
def fetch (registers : Registers) : Microcode (UInt8 × Registers) := do
  let byte ← readByte registers.pc
  return (byte, { registers with pc := registers.pc + 1 })

/-- The word at the program counter, which moves on. -/
def fetchWord (registers : Registers) : Microcode (UInt16 × Registers) := do
  let (low, registers) ← registers.fetch
  let (high, registers) ← registers.fetch
  return (word low high, registers)

/-- The address the stack pointer stands for, in page one. -/
def stackAddress (registers : Registers) : UInt16 := 0x0100 + registers.sp.toUInt16

/-- Puts a byte on the stack. -/
def push (registers : Registers) (value : UInt8) : Microcode Registers :=
  .write registers.stackAddress value (.done { registers with sp := registers.sp - 1 })

/-- Puts a word on the stack, its high byte first. -/
def pushWord (registers : Registers) (value : UInt16) : Microcode Registers := do
  let registers ← registers.push (highByte value)
  registers.push (lowByte value)

/-- Takes a byte from the stack. -/
def pull (registers : Registers) : Microcode (UInt8 × Registers) := do
  let registers := { registers with sp := registers.sp + 1 }
  let byte ← readByte registers.stackAddress
  return (byte, registers)

/-- Takes a word from the stack, its low byte first. -/
def pullWord (registers : Registers) : Microcode (UInt16 × Registers) := do
  let (low, registers) ← registers.pull
  let (high, registers) ← registers.pull
  return (word low high, registers)

end Registers

/-- Whether the byte of the operand is read before the operation. -/
def OperandUse.reads : OperandUse → Bool
  | .read | .readModifyWrite => true
  | .unused | .write => false

/-- What an addressing mode has found. -/
structure Operand where
  /-- The mode. -/
  mode : Mode
  /-- The byte to work on, if it is known. -/
  value? : Option UInt8
  /-- The address, if there is one. -/
  address? : Option UInt16
  deriving DecidableEq

namespace Operand

/-- An operand in memory, which is read if the operation reads it. -/
def inMemory (mode : Mode) (use : OperandUse) (address : UInt16) (registers : Registers) :
    Microcode (Operand × Registers) :=
  if use.reads then do
    let value ← readByte address
    return (⟨mode, some value, some address⟩, registers)
  else return (⟨mode, none, some address⟩, registers)

/-- Finds the operand of a mode, the program counter standing after the opcode. -/
def resolve (mode : Mode) (use : OperandUse) (registers : Registers) :
    Microcode (Operand × Registers) :=
  match mode with
  | .implied => return (⟨mode, none, none⟩, registers)
  | .accumulator => return (⟨mode, some registers.a, none⟩, registers)
  | .immediate => do
    let (value, registers) ← registers.fetch
    return (⟨mode, some value, none⟩, registers)
  | .relative => do
    let (offset, registers) ← registers.fetch
    return (⟨mode, none, some (relativeTarget registers.pc offset)⟩, registers)
  | .zeroPage => do
    let (base, registers) ← registers.fetch
    inMemory mode use base.toUInt16 registers
  | .zeroPageX => do
    let (base, registers) ← registers.fetch
    inMemory mode use (zeroPageIndexed base registers.x) registers
  | .zeroPageY => do
    let (base, registers) ← registers.fetch
    inMemory mode use (zeroPageIndexed base registers.y) registers
  | .absolute => do
    let (base, registers) ← registers.fetchWord
    inMemory mode use base registers
  | .absoluteX => do
    let (base, registers) ← registers.fetchWord
    inMemory mode use (absoluteIndexed base registers.x) registers
  | .absoluteY => do
    let (base, registers) ← registers.fetchWord
    inMemory mode use (absoluteIndexed base registers.y) registers
  | .indirect => do
    let (pointer, registers) ← registers.fetchWord
    let address ← readWord pointer (pointerHighAddress pointer)
    inMemory mode use address registers
  | .indexedIndirect => do
    let (base, registers) ← registers.fetch
    let address ← readZeroPageWord (base + registers.x)
    inMemory mode use address registers
  | .indirectIndexed => do
    let (base, registers) ← registers.fetch
    let pointer ← readZeroPageWord base
    inMemory mode use (absoluteIndexed pointer registers.y) registers

/-- The byte an operation works on: the value found, else the byte at the address, else the
accumulator. -/
def load (operand : Operand) (registers : Registers) : Microcode UInt8 :=
  match operand.value?, operand.address? with
  | some value, _ => return value
  | none, some address => readByte address
  | none, none => return registers.a

/-- Sends a result to where the operand came from; an operand that came from nowhere takes
nothing. -/
def store (operand : Operand) (value : UInt8) (registers : Registers) : Microcode Registers :=
  if operand.mode = .accumulator then return { registers with a := value }
  else
    match operand.address? with
    | some address => .write address value (.done registers)
    | none => return registers

end Operand

end Nmos6502
