import Nmos6502.Ram

/-!
# Memory with a guarded range

Devices and write-protected memory occupy a range of addresses in which accesses have effects of
their own. A guard describes such a range: reads may fail, and writes may fail or be lost. A guard
that announces itself makes the check fail where writes fail; otherwise the check is that of any
memory, and a write it accepted can still be refused.

Outside the range, and where the guard says nothing, the memory is plain.

## Main definitions

* `Guard`, `WriteRule` — the range and what happens in it
* `GuardedRam` — plain memory with at most one guard
-/

namespace Nmos6502

/-- What happens to a write inside a guarded range. -/
inductive WriteRule where
  /-- The byte is stored. -/
  | stored
  /-- The write is refused. -/
  | refused
  /-- The write is accepted and has no effect. -/
  | lost
  deriving DecidableEq

/-- A guarded range of addresses. -/
structure Guard where
  /-- The first address of the range. -/
  first : Nat
  /-- The first address after the range. -/
  stop : Nat
  /-- Whether the bytes of the range can be read. -/
  readable : Bool
  /-- What happens to writes. -/
  writes : WriteRule
  /-- Whether the check fails where writes are refused. -/
  announced : Bool

namespace Guard

/-- Whether an address lies in the range. -/
def covers (guard : Guard) (address : UInt16) : Bool :=
  guard.first ≤ address.toNat && address.toNat < guard.stop

/-- The refusal of an access inside the range, which counts as the end of memory there. -/
def refusal (guard : Guard) (address : UInt16) : OutOfBounds :=
  ⟨address.toNat, guard.first⟩

end Guard

/-- Plain memory in which at most one range is guarded. -/
structure GuardedRam where
  /-- The memory. -/
  ram : Ram
  /-- The guard, if there is one. -/
  guard : Option Guard

namespace GuardedRam

/-- The guard of an address, if it has one. -/
def guardOf? (memory : GuardedRam) (address : UInt16) : Option Guard :=
  memory.guard.filter fun guard => guard.covers address

/-- The byte at an address, unless a guard forbids reading it. -/
def read (memory : GuardedRam) (address : UInt16) : Except OutOfBounds UInt8 :=
  match memory.guardOf? address with
  | some guard =>
    if guard.readable then memory.ram.read address else .error (guard.refusal address)
  | none => memory.ram.read address

/-- A guard's refusal, or that of the memory. A lost write is never refused. -/
def refusal? (memory : GuardedRam) (address : UInt16) (value : UInt8) : Option OutOfBounds :=
  match memory.guardOf? address with
  | some guard =>
    match guard.writes with
    | .stored => memory.ram.refusal? address value
    | .refused => some (guard.refusal address)
    | .lost => none
  | none => memory.ram.refusal? address value

/-- Whether a guard loses the writes to an address. -/
def loses (memory : GuardedRam) (address : UInt16) : Bool :=
  match memory.guardOf? address with
  | some guard => guard.writes = .lost
  | none => false

/-- The memory after an accepted write. -/
def put (memory : GuardedRam) (address : UInt16) (value : UInt8) : GuardedRam :=
  if memory.loses address then memory
  else
    let ⟨ram, guard⟩ := memory
    ⟨ram.put address value, guard⟩

/-- Whether an address can be written, as far as the guard tells. -/
def check (memory : GuardedRam) (address : UInt16) : Except OutOfBounds Unit :=
  match memory.guardOf? address with
  | some guard =>
    if guard.announced ∧ guard.writes = .refused then .error (guard.refusal address)
    else plain
  | none => plain
where
  /-- The check of plain memory. -/
  plain : Except OutOfBounds Unit :=
    if address.toNat < memory.ram.size then .ok ()
    else .error ⟨address.toNat, memory.ram.size⟩

instance : Bus GuardedRam where
  size memory := memory.ram.size
  read := read
  refusal? := refusal?
  put := put
  check := check

end GuardedRam

end Nmos6502
