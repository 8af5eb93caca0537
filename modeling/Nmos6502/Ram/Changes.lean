import Nmos6502.Ram

/-!
# What changed in memory

Two states of a memory are compared byte by byte, and neighbouring differences are joined, so that
each stretch of changed bytes is reported once, in the order of addresses.

## Main definitions

* `Ram.changes` — the stretches of changed bytes with their new contents
-/

namespace Nmos6502

namespace Ram

/-- Puts a changed byte before the stretches that lie above it. -/
def addChange (address : Nat) (byte : UInt8) :
    List (Nat × List UInt8) → List (Nat × List UInt8)
  | (start, bytes) :: stretches =>
    if start = address + 1 then (address, byte :: bytes) :: stretches
    else (address, [byte]) :: (start, bytes) :: stretches
  | [] => [(address, [byte])]

/-- The stretches among the first `count` bytes, before those already found above. -/
def changesBelow (before after : Ram) :
    (count : Nat) → List (Nat × List UInt8) → List (Nat × List UInt8)
  | 0, found => found
  | address + 1, found =>
    let byte := after.bytes.getD address 0
    changesBelow before after address
      (if before.bytes.getD address 0 = byte then found else addChange address byte found)

/-- The stretches of bytes in which `after` differs from `before`: where each begins, and its new
bytes. -/
def changes (before after : Ram) : List (Nat × List UInt8) :=
  changesBelow before after after.size []

end Ram

end Nmos6502
