import Nmos6502.Bus
import Nmos6502.Opcode

/-!
# Instructions

An instruction is decoded from bytes that begin at a known address, or straight from a memory. In
both cases an illegal opcode is reported before a missing operand: a byte that begins nothing has no
length to fall short of.

## Main definitions

* `Instruction` — a decoded instruction
* `Instruction.decode` — from a list of bytes, which may hold more than the instruction
* `Instruction.decodeAt` — from a memory
-/

namespace Nmos6502

/-- A decoded instruction. -/
structure Instruction where
  /-- Where it begins. -/
  address : UInt16
  /-- Its first byte. -/
  opcode : UInt8
  /-- The operation. -/
  mnemonic : Mnemonic
  /-- How its operand is found. -/
  mode : Mode
  /-- All its bytes. -/
  raw : List UInt8
  /-- Its length. -/
  size : Nat
  /-- Its cycles before any penalty. -/
  cycles : Nat
  deriving DecidableEq

namespace Instruction

/-- The bytes after the opcode. -/
def operandBytes (instruction : Instruction) : List UInt8 := instruction.raw.tail

/-- The instruction at `address` whose opcode stands for `operation`. -/
def ofOperation (address : UInt16) (opcode : UInt8) (operation : Operation)
    (raw : List UInt8) : Instruction where
  address := address
  opcode := opcode
  mnemonic := operation.mnemonic
  mode := operation.mode
  raw := raw
  size := operation.size
  cycles := operation.cycles

/-- The instruction at the start of `bytes`, which begin at `address`. -/
def decode (bytes : List UInt8) (address : UInt16) : Except Fault Instruction :=
  match bytes with
  | [] => .error (.incomplete address 1 0)
  | opcode :: _ =>
    match operation? opcode with
    | none => .error (.illegalOpcode opcode address)
    | some operation =>
      let raw := bytes.take operation.size
      if raw.length < operation.size then
        .error (.incomplete address operation.size raw.length)
      else .ok (ofOperation address opcode operation raw)

variable {M : Type} [Bus M]

/-- The instruction that a memory holds at `address`. It has to lie inside the memory, so it never
continues at the other end of the address space. -/
def decodeAt (memory : M) (address : UInt16) : Except Fault Instruction :=
  match Bus.read memory address with
  | .error cause => .error (.refused cause)
  | .ok opcode =>
    match operation? opcode with
    | none => .error (.illegalOpcode opcode address)
    | some operation =>
      let available := Bus.size memory - address.toNat
      if available < operation.size then
        .error (.incomplete address operation.size available)
      else
        match Bus.readRange memory address operation.size with
        | .error cause => .error (.refused cause)
        | .ok raw => .ok (ofOperation address opcode operation raw)

end Instruction

end Nmos6502
