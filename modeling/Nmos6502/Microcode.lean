import Nmos6502.Bus

/-!
# Microcode

What an instruction does at the bus is a finite tree: it reads, and goes on in a way that depends on
the byte; it writes; it lets a cycle pass; it ends with a result or with a fault. The tree mentions
no memory. Everything an instruction can do to memory, and everything memory can do to an
instruction, goes through `Microcode.perform`.

Performing keeps a journal. Writes are only noted in it, after the bus has been asked whether it
would take them, and reads see the writes that are noted. So memory is untouched until the
instruction has ended well, and the journal then says what to write, how many cycles went by, and
in which order memory was used.

## Main definitions

* `Microcode` — the tree, a monad
* `Access`, `Journal` — what has been done so far
* `Journal.pending?`, `Journal.writes`, `Journal.ticks` — what follows from a journal
* `Microcode.perform` — run against a memory
-/

namespace Nmos6502

/-- The bus activity of an instruction, ending in a result. -/
inductive Microcode (α : Type) where
  /-- The end, with a result. -/
  | done (result : α)
  /-- The end, with a fault. -/
  | fail (fault : Fault)
  /-- A byte is read. -/
  | read (address : UInt16) (next : UInt8 → Microcode α)
  /-- A byte is written. -/
  | write (address : UInt16) (value : UInt8) (next : Microcode α)
  /-- A cycle passes without an access. -/
  | idle (next : Microcode α)

namespace Microcode

variable {α β : Type}

/-- Goes on after the end with what the result asks for. -/
def bind : Microcode α → (α → Microcode β) → Microcode β
  | .done result, f => f result
  | .fail fault, _ => .fail fault
  | .read address next, f => .read address fun byte => (next byte).bind f
  | .write address value next, f => .write address value (next.bind f)
  | .idle next, f => .idle (next.bind f)

instance : Monad Microcode where
  pure := done
  bind := bind

@[simp] theorem pure_eq_done (result : α) : (pure result : Microcode α) = done result := rfl

@[simp] theorem done_bind (result : α) (f : α → Microcode β) : done result >>= f = f result := rfl

@[simp] theorem fail_bind (fault : Fault) (f : α → Microcode β) :
    fail fault >>= f = fail fault := rfl

@[simp] theorem read_bind (address : UInt16) (next : UInt8 → Microcode α) (f : α → Microcode β) :
    read address next >>= f = read address fun byte => next byte >>= f := rfl

@[simp] theorem write_bind (address : UInt16) (value : UInt8) (next : Microcode α)
    (f : α → Microcode β) : write address value next >>= f = write address value (next >>= f) := rfl

@[simp] theorem idle_bind (next : Microcode α) (f : α → Microcode β) :
    idle next >>= f = idle (next >>= f) := rfl

theorem bind_done (code : Microcode α) : code.bind done = code := by
  induction code with
  | done _ | fail _ => rfl
  | read address next ih => exact congrArg (read address) (funext ih)
  | write address value next ih => exact congrArg (write address value) ih
  | idle next ih => exact congrArg idle ih

theorem bind_bind {γ : Type} (code : Microcode α) (f : α → Microcode β) (g : β → Microcode γ) :
    (code.bind f).bind g = code.bind fun result => (f result).bind g := by
  induction code with
  | done _ | fail _ => rfl
  | read address next ih => exact congrArg (read address) (funext ih)
  | write address value next ih => exact congrArg (write address value) ih
  | idle next ih => exact congrArg idle ih

instance : LawfulMonad Microcode :=
  .mk' Microcode (fun code => bind_done code) (fun _ _ => rfl) (fun code f g => bind_bind code f g)

end Microcode

/-- One use of the bus. -/
inductive Access where
  /-- A byte was read. -/
  | read (address : UInt16) (value : UInt8)
  /-- A byte was written. -/
  | write (address : UInt16) (value : UInt8)
  deriving DecidableEq

/-- The write an access makes, if it makes one. -/
def Access.write? : Access → Option (UInt16 × UInt8)
  | .read _ _ => none
  | .write address value => some (address, value)

/-- What an instruction has done so far. -/
structure Journal where
  /-- The accesses, the latest first. -/
  accesses : List Access
  /-- The number of cycles without an access. -/
  idles : Nat

namespace Journal

/-- Nothing has been done. -/
def empty : Journal := ⟨[], 0⟩

/-- Notes an access. -/
def note (journal : Journal) (access : Access) : Journal :=
  { journal with accesses := access :: journal.accesses }

/-- Notes a cycle without an access. -/
def noteIdle (journal : Journal) : Journal :=
  { journal with idles := journal.idles + 1 }

/-- The cycles that went by: one for each access, and the idle ones. -/
def ticks (journal : Journal) : Nat := journal.accesses.length + journal.idles

/-- The writes in the order they were made. -/
def writes (journal : Journal) : List (UInt16 × UInt8) :=
  journal.accesses.reverse.filterMap Access.write?

/-- The byte last written to an address. -/
def pending? (journal : Journal) (address : UInt16) : Option UInt8 :=
  (journal.accesses.filterMap Access.write?).lookup address

@[simp] theorem pending?_empty (address : UInt16) : empty.pending? address = none := rfl

@[simp] theorem pending?_note_read (journal : Journal) (source address : UInt16)
    (value : UInt8) :
    (journal.note (.read source value)).pending? address = journal.pending? address := rfl

theorem pending?_note_write (journal : Journal) (target address : UInt16) (value : UInt8) :
    (journal.note (.write target value)).pending? address =
      if address = target then some value else journal.pending? address := by
  by_cases h : address = target
  · simp [pending?, note, Access.write?, h]
  · have hn : (address == target) = false := by simpa using h
    simp [pending?, note, Access.write?, List.lookup_cons, h, hn]

@[simp] theorem writes_empty : empty.writes = [] := rfl

@[simp] theorem writes_note_read (journal : Journal) (source : UInt16) (value : UInt8) :
    (journal.note (.read source value)).writes = journal.writes := by
  simp [writes, note, Access.write?]

@[simp] theorem writes_note_write (journal : Journal) (target : UInt16) (value : UInt8) :
    (journal.note (.write target value)).writes = journal.writes ++ [(target, value)] := by
  simp [writes, note, Access.write?]

@[simp] theorem ticks_empty : empty.ticks = 0 := rfl

@[simp] theorem ticks_note (journal : Journal) (access : Access) :
    (journal.note access).ticks = journal.ticks + 1 := by
  simp only [ticks, note, List.length_cons]
  omega

@[simp] theorem ticks_noteIdle (journal : Journal) :
    journal.noteIdle.ticks = journal.ticks + 1 := by
  simp only [ticks, noteIdle]
  omega

/-- The byte at an address as the instruction sees it: a noted write comes before memory. -/
def read {M : Type} [Bus M] (journal : Journal) (memory : M) (address : UInt16) :
    Except OutOfBounds UInt8 :=
  match journal.pending? address with
  | some value => .ok value
  | none => Bus.read memory address

end Journal

namespace Microcode

variable {α M : Type} [Bus M]

/-- Runs against a memory, which stays as it is. The journal is kept also when the run ends with a
fault, and then holds what was done before. -/
def perform (memory : M) : Microcode α → Journal → Except Fault α × Journal
  | .done result, journal => (.ok result, journal)
  | .fail fault, journal => (.error fault, journal)
  | .read address next, journal =>
    match journal.read memory address with
    | .ok value => (next value).perform memory (journal.note (.read address value))
    | .error cause => (.error (.refused cause), journal)
  | .write address value next, journal =>
    match Bus.check memory address with
    | .ok () => next.perform memory (journal.note (.write address value))
    | .error cause => (.error (.refused cause), journal)
  | .idle next, journal => next.perform memory journal.noteIdle

end Microcode

end Nmos6502
