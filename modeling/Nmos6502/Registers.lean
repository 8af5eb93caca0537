import Nmos6502.Status

/-!
# The register file

Three data registers, the stack pointer, the program counter and the status. The pure part of the
instruction set is here: what an operation makes of the registers once the byte it works on is
known. Which byte that is, and what goes back to memory, is settled elsewhere.

Arithmetic is binary whether or not decimal mode was asked for.

## Main definitions

* `Registers`
* `Registers.addWithCarry`, `Registers.subtractWithBorrow` — arithmetic with carry and overflow
* `Registers.compare`, `Registers.testBits` — flags only
* `shiftLeft`, `shiftRight`, `rotateLeft`, `rotateRight` — results with the bit that falls out
-/

namespace Nmos6502

/-- The registers of the processor. -/
structure Registers where
  /-- The accumulator. -/
  a : UInt8
  /-- The index register X. -/
  x : UInt8
  /-- The index register Y. -/
  y : UInt8
  /-- The stack pointer, an offset into page one. -/
  sp : UInt8
  /-- The program counter. -/
  pc : UInt16
  /-- The flags. -/
  status : Status
  deriving DecidableEq

namespace Registers

/-- Zero and negative describe a result. -/
def describe (registers : Registers) (result : UInt8) : Registers :=
  { registers with status := registers.status.describe result }

/-- A result goes to the accumulator and is described by the flags. -/
def setA (registers : Registers) (result : UInt8) : Registers :=
  { registers with a := result, status := registers.status.describe result }

/-- A result goes to X and is described by the flags. -/
def setX (registers : Registers) (result : UInt8) : Registers :=
  { registers with x := result, status := registers.status.describe result }

/-- A result goes to Y and is described by the flags. -/
def setY (registers : Registers) (result : UInt8) : Registers :=
  { registers with y := result, status := registers.status.describe result }

/-- Adds a byte and the carry to the accumulator. The carry takes the ninth bit of the sum, and
overflow is set when both summands have the sign that the result lacks. -/
def addWithCarry (registers : Registers) (value : UInt8) : Registers :=
  let sum := registers.a.toNat + value.toNat + registers.status.carry.toNat
  let result := UInt8.ofNat sum
  let overflow := isNegative registers.a == isNegative value &&
    isNegative result != isNegative value
  let status := { registers.status with carry := 0xFF < sum, overflow }
  { registers with a := result, status := status.describe result }

/-- Subtracts a byte and the borrow, the complement of the carry, from the accumulator: the
complement of the byte is added. -/
def subtractWithBorrow (registers : Registers) (value : UInt8) : Registers :=
  registers.addWithCarry (~~~value)

/-- Compares a register's contents with a byte: carry if it is not less, zero and negative from
the difference. -/
def compare (registers : Registers) (contents value : UInt8) : Registers :=
  let status := { registers.status with carry := value ≤ contents }
  { registers with status := status.describe (contents - value) }

/-- Tests the bits of a byte against the accumulator; the two top bits of the byte are copied. -/
def testBits (registers : Registers) (value : UInt8) : Registers :=
  let status := { registers.status with
    zero := registers.a &&& value == 0
    negative := isNegative value
    overflow := value &&& 0x40 != 0 }
  { registers with status }

end Registers

/-- The byte shifted left, and the bit that falls out. -/
def shiftLeft (_ : Bool) (value : UInt8) : UInt8 × Bool :=
  (value <<< 1, isNegative value)

/-- The byte shifted right, and the bit that falls out. -/
def shiftRight (_ : Bool) (value : UInt8) : UInt8 × Bool :=
  (value >>> 1, value &&& 0x01 != 0)

/-- The byte shifted left with the carry coming in, and the bit that falls out. -/
def rotateLeft (carry : Bool) (value : UInt8) : UInt8 × Bool :=
  ((value <<< 1) ||| carry.toUInt8, isNegative value)

/-- The byte shifted right with the carry coming in, and the bit that falls out. -/
def rotateRight (carry : Bool) (value : UInt8) : UInt8 × Bool :=
  ((value >>> 1) ||| (carry.toUInt8 <<< 7), value &&& 0x01 != 0)

end Nmos6502
