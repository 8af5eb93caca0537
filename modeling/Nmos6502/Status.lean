import Nmos6502.Address

/-!
# The processor status

Eight flags in one byte, from the top: negative, overflow, an unused bit, break, decimal, interrupt
disable, zero, carry. The unused bit reads as one wherever a status comes from a byte, and the break
bit does not exist in the register: it is set in the byte that is pushed and dropped from the byte
that is pulled.

The flags are kept apart, as eight truth values, and packed only where the byte is seen. Nothing
forces the unused bit in the type, since a status may be given by its raw bits.

## Main definitions

* `Status`, `Status.bits`, `Status.ofBits` — the flags and the byte
* `Status.powerOn`, `Status.ofByte`, `Status.ofPulled`, `Status.pushed` — where the unused and the
  break bit are settled
* `Status.describe` — zero and negative from a result
* `Flag`, `Status.setFlag` — the flags by name
-/

namespace Nmos6502

/-- The flags of the processor. -/
structure Status where
  /-- Bit 0: a carry out of an addition or a shift, no borrow in a subtraction. -/
  carry : Bool
  /-- Bit 1: the last result was zero. -/
  zero : Bool
  /-- Bit 2: maskable interrupts are ignored. -/
  interruptDisable : Bool
  /-- Bit 3: decimal mode was asked for; arithmetic stays binary. -/
  decimal : Bool
  /-- Bit 4: marks a status pushed by an instruction. -/
  breakCommand : Bool
  /-- Bit 5: reads as one. -/
  unused : Bool
  /-- Bit 6: a signed result did not fit. -/
  overflow : Bool
  /-- Bit 7: the top bit of the last result. -/
  negative : Bool
  deriving DecidableEq

/-- The flags that can be set one by one. -/
inductive Flag where
  | carry | zero | interruptDisable | decimal | breakCommand | overflow | negative
  deriving DecidableEq

namespace Status

/-- The status whose flags are the bits of a byte, just as they are. -/
def ofBits (byte : UInt8) : Status where
  carry := byte &&& 0x01 != 0
  zero := byte &&& 0x02 != 0
  interruptDisable := byte &&& 0x04 != 0
  decimal := byte &&& 0x08 != 0
  breakCommand := byte &&& 0x10 != 0
  unused := byte &&& 0x20 != 0
  overflow := byte &&& 0x40 != 0
  negative := byte &&& 0x80 != 0

/-- The flags packed into a byte. -/
def bits (status : Status) : UInt8 :=
  status.carry.toUInt8 ||| (status.zero.toUInt8 <<< 1) |||
    (status.interruptDisable.toUInt8 <<< 2) ||| (status.decimal.toUInt8 <<< 3) |||
    (status.breakCommand.toUInt8 <<< 4) ||| (status.unused.toUInt8 <<< 5) |||
    (status.overflow.toUInt8 <<< 6) ||| (status.negative.toUInt8 <<< 7)

@[simp] theorem ofBits_bits (status : Status) : ofBits status.bits = status := by
  obtain ⟨c, z, i, d, b, u, v, n⟩ := status
  revert c z i d b u v n
  decide

/-- The status at power-on: only the unused bit is set. -/
def powerOn : Status := ofBits 0x20

/-- The status given by a byte; the unused bit is set whatever the byte says. -/
def ofByte (byte : UInt8) : Status := { ofBits byte with unused := true }

/-- The status restored from the stack: the break bit is dropped, the unused bit is set. -/
def ofPulled (byte : UInt8) : Status :=
  { ofBits byte with breakCommand := false, unused := true }

/-- The byte that is pushed: break and unused are both set. -/
def pushed (status : Status) : UInt8 :=
  { status with breakCommand := true, unused := true : Status }.bits

/-- Sets zero and negative to describe a result. -/
def describe (status : Status) (result : UInt8) : Status :=
  { status with zero := result == 0, negative := isNegative result }

/-- The status with one flag set or cleared. -/
def setFlag (status : Status) (flag : Flag) (on : Bool) : Status :=
  match flag with
  | .carry => { status with carry := on }
  | .zero => { status with zero := on }
  | .interruptDisable => { status with interruptDisable := on }
  | .decimal => { status with decimal := on }
  | .breakCommand => { status with breakCommand := on }
  | .overflow => { status with overflow := on }
  | .negative => { status with negative := on }

end Status

end Nmos6502
