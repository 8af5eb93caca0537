import Nmos6502.Text.Numeral

/-!
# Faults

Two things can go wrong. Memory refuses an access, and then says which address it was asked for and
how large it is. Or an instruction cannot be decoded or executed: its first byte begins nothing, an
access it needs is refused, or memory ends before the instruction does. A fault is always the end
of the step or decoding that met it.

## Main definitions

* `OutOfBounds`, `Fault` — the causes
* `OutOfBounds.message`, `Fault.message` — their wording
-/

namespace Nmos6502

open Text

/-- An access that memory refuses. -/
structure OutOfBounds where
  /-- The address asked for. -/
  address : Nat
  /-- The number of bytes of memory. -/
  size : Nat
  deriving DecidableEq

/-- Why an instruction could not be decoded or executed. -/
inductive Fault where
  /-- The byte at `address` begins no documented instruction. -/
  | illegalOpcode (opcode : UInt8) (address : UInt16)
  /-- Memory refused an access that the instruction needs. -/
  | refused (cause : OutOfBounds)
  /-- The instruction at `address` is `needed` bytes long, and only `available` bytes are left. -/
  | incomplete (address : UInt16) (needed available : Nat)
  deriving DecidableEq

/-- The wording of a refused access to memory. -/
def OutOfBounds.message (cause : OutOfBounds) : String :=
  "address $" ++ hexAtLeast 4 cause.address ++ " is outside memory of " ++ decimal cause.size ++
    " bytes"

/-- The wording of a fault. -/
def Fault.message : Fault → String
  | .illegalOpcode opcode address =>
    "illegal opcode 0x" ++ hexByte .upper opcode ++ " at $" ++ hexWord .upper address
  | .refused cause =>
    "access to $" ++ hexAtLeast 4 cause.address ++ " outside memory of " ++ decimal cause.size ++
      " bytes"
  | .incomplete address needed available =>
    "instruction at $" ++ hexWord .upper address ++ " needs " ++ decimal needed ++
      " bytes, only " ++ decimal available ++ " available"

end Nmos6502
