import Nmos6502.GuardedRam
import Nmos6502.Ram.Changes
import Nmos6502.Ram.Dump
import Nmos6502.Session.Answer

/-!
# Requests to memory

Requests are data, so a statement about all uses of a memory is an induction over a list. Most can
be put to any bus; dumps and slices look at the bytes of plain memory, past a guard if there is one.

## Main definitions

* `MemoryRequest`, `RamRequest`, `StorageRequest` — what can be asked
* `StorageRequest.perform` — the answer
* `runStorageSession` — a list of requests, with what each changed
-/

namespace Nmos6502

/-- What can be asked of any memory. -/
inductive MemoryRequest where
  /-- The byte at an address. -/
  | read (address : UInt16)
  /-- A byte is replaced. -/
  | write (address : UInt16) (value : UInt8)
  /-- Whether a byte can be replaced. -/
  | check (address : UInt16)
  /-- Bytes are stored from an address on. -/
  | load (address : UInt16) (bytes : List UInt8)
  /-- The number of bytes. -/
  | size
  /-- The instruction at an address. -/
  | decodeAt (address : UInt16)
  /-- The listing of a range. -/
  | disassemble (address : UInt16) (count : Nat)

/-- Answers a request to a memory. -/
def MemoryRequest.perform {M : Type} [Bus M] (request : MemoryRequest) (memory : M) : Reply M :=
  match request with
  | .read address =>
    match Bus.read memory address with
    | .ok byte => ⟨.ok (.number byte.toNat), memory, []⟩
    | .error cause => ⟨.error (.memory cause), memory, []⟩
  | .write address value =>
    match Bus.writeAll memory [(address, value)] with
    | (.ok (), memory) => ⟨.ok .done, memory, []⟩
    | (.error cause, memory) => ⟨.error (.memory cause), memory, []⟩
  | .check address =>
    match Bus.check memory address with
    | .ok () => ⟨.ok .done, memory, []⟩
    | .error cause => ⟨.error (.memory cause), memory, []⟩
  | .load address bytes =>
    match Bus.load memory address bytes with
    | (.ok (), memory) => ⟨.ok .done, memory, []⟩
    | (.error cause, memory) => ⟨.error (.memory cause), memory, []⟩
  | .size => ⟨.ok (.number (Bus.size memory)), memory, []⟩
  | .decodeAt address =>
    match Instruction.decodeAt memory address with
    | .ok instruction => ⟨.ok (.instruction instruction), memory, []⟩
    | .error fault => ⟨.error (.fault fault), memory, []⟩
  | .disassemble address count =>
    match disassembleMemory memory address count with
    | .ok lines =>
      ⟨.ok (.lines lines), memory, decodingEvents (lines.flatMap Line.bytes) address⟩
    | .error fault => ⟨.error (.fault fault), memory, []⟩

/-- What can be asked of plain memory besides. -/
inductive RamRequest where
  /-- The dump of a range. -/
  | dump (address : UInt16) (length : Nat)
  /-- The bytes of some ranges. -/
  | slice (ranges : List (Nat × Nat))
  /-- The short form. -/
  | describe

/-- Answers a request to plain memory, which does not change. -/
def RamRequest.answer (request : RamRequest) (ram : Ram) : Except Failure Answer :=
  match request with
  | .dump address length =>
    match ram.dump address length with
    | .ok text => .ok (.text text)
    | .error cause => .error (.memory cause)
  | .slice ranges => .ok (.bytes (ranges.map fun range => ram.slice range.1 range.2))
  | .describe => .ok (.text ram.describe)

/-- What can be asked of memory that may be guarded. -/
inductive StorageRequest where
  /-- As of any memory. -/
  | bus (request : MemoryRequest)
  /-- As of plain memory, whatever the guard says. -/
  | ram (request : RamRequest)

/-- Answers a request to memory that may be guarded. -/
def StorageRequest.perform (request : StorageRequest) (memory : GuardedRam) : Reply GuardedRam :=
  match request with
  | .bus request => request.perform memory
  | .ram request => ⟨request.answer memory.ram, memory, []⟩

/-- What a session says about one request. -/
structure Entry where
  /-- The answer, or the failure. -/
  result : Except Failure Answer
  /-- The bytes of memory that changed: where each stretch begins, and its new bytes. -/
  changes : List (Nat × List UInt8)

/-- Answers requests to a memory in order, after those in `said` (newest first). -/
def storageEntries (said : List Entry) : List StorageRequest → GuardedRam → List Entry
  | [], _ => said.reverse
  | request :: requests, memory =>
    let before := memory.ram
    let reply := request.perform memory
    storageEntries (⟨reply.result, before.changes reply.state.ram⟩ :: said) requests reply.state

/-- Answers requests to a memory in order. -/
def runStorageSession (requests : List StorageRequest) (memory : GuardedRam) : List Entry :=
  storageEntries [] requests memory

end Nmos6502
