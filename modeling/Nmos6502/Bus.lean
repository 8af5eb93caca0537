import Nmos6502.Fault

/-!
# Memory buses

The processor and the disassembler see a memory only through a few operations. Reading leaves it as
it is. A write is first accepted or refused, and only an accepted write changes the memory, so a
refused one leaves it as it was by construction. A check tells in advance whether an address can be
written; unless a bus says otherwise it accepts the addresses below the size. Nothing forces a check
to tell the truth, and a bus whose check accepts what its writes refuse is a bus all the same.

Loading is the same for every bus: the whole range has to fit before the first byte is stored, and
the bytes are then written one by one. A bus may still refuse one of these writes, and then keeps
the ones before it, so loading gives back the memory together with the outcome.

## Main definitions

* `Bus` — the operations
* `Bus.write` — acceptance and change in one
* `Bus.writeAll`, `Bus.store` — writes in order until one is refused
* `Bus.load` — a range of bytes that has to fit
* `Bus.readRange` — a range of bytes, around the end of the address space if need be
-/

namespace Nmos6502

/-- What can be asked of a memory. -/
class Bus (M : Type) where
  /-- The number of addressable bytes. -/
  size : M → Nat
  /-- The byte at an address. -/
  read : M → UInt16 → Except OutOfBounds UInt8
  /-- Why a write would be refused, `none` if it is accepted. -/
  refusal? : M → UInt16 → UInt8 → Option OutOfBounds
  /-- The memory after an accepted write. -/
  put : M → UInt16 → UInt8 → M
  /-- Whether the byte at an address can be replaced. -/
  check : M → UInt16 → Except OutOfBounds Unit := fun memory address =>
    if address.toNat < size memory then .ok () else .error ⟨address.toNat, size memory⟩

namespace Bus

variable {M : Type} [Bus M]

/-- The memory with one byte replaced, if the write is accepted. -/
def write (memory : M) (address : UInt16) (value : UInt8) : Except OutOfBounds M :=
  match refusal? memory address value with
  | some cause => .error cause
  | none => .ok (put memory address value)

/-- Writes in the given order. When one is refused, those before it stay. -/
def writeAll (memory : M) : List (UInt16 × UInt8) → Except OutOfBounds Unit × M
  | [] => (.ok (), memory)
  | (address, value) :: writes =>
    match refusal? memory address value with
    | some cause => (.error cause, memory)
    | none => writeAll (put memory address value) writes

/-- Writes bytes to successive addresses. When one is refused, those before it stay. -/
def store (memory : M) (address : UInt16) : List UInt8 → Except OutOfBounds Unit × M
  | [] => (.ok (), memory)
  | value :: values =>
    match refusal? memory address value with
    | some cause => (.error cause, memory)
    | none => store (put memory address value) (address + 1) values

/-- Stores bytes from `offset` on, if the range fits into memory. -/
def load (memory : M) (offset : UInt16) (bytes : List UInt8) : Except OutOfBounds Unit × M :=
  let stop := offset.toNat + bytes.length
  if size memory < stop then (.error ⟨stop - 1, size memory⟩, memory)
  else store memory offset bytes

/-- The bytes at `count` addresses from `address` on, after those in `found` (newest first). -/
def readRangeFrom (memory : M) (found : List UInt8) :
    (count : Nat) → (address : UInt16) → Except OutOfBounds (List UInt8)
  | 0, _ => .ok found.reverse
  | count + 1, address =>
    match read memory address with
    | .ok byte => readRangeFrom memory (byte :: found) count (address + 1)
    | .error cause => .error cause

/-- The bytes at `count` addresses from `address` on; the address after the last is the first. -/
def readRange (memory : M) (address : UInt16) (count : Nat) :
    Except OutOfBounds (List UInt8) :=
  readRangeFrom memory [] count address

end Bus

end Nmos6502
