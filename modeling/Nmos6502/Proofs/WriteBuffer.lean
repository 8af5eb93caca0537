import Mathlib.Tactic.Common
import Nmos6502.Proofs.PlainMemory
import Nmos6502.Proofs.ReadSet

/-!
# Writes that wait

An instruction does not write to memory while it runs. Its writes wait in the journal, reads see the
last of those that wait for the address, and in the end they are made from the first to the last.

On plain memory this cannot be told from writing at once. The invariant is that the journal reflects
a second memory, the one that the writes would have led to: making the writes that wait leads to it,
and what is read through the journal is what stands in it. Noting an access keeps that, whatever was
noted before. So it holds along any microcode, also along one that is stopped by a fault, and both
ways are stopped by the same fault.

## Main definitions

* `Microcode.direct` — microcode that writes at once
* `Journal.Reflects` — the invariant
* `BusCall`, `BusCall.microcode`, `BusCall.all` — reading, writing, pushing and pulling, in any
  order
* `BusCall.apply`, `BusCall.applyAll` — the same accesses, made of memory

## Main results

* `Microcode.perform_eq_direct` — any microcode has the same result both ways
* `Cpu.direct_of_step` — so a whole step does
* `BusCall.buffer_transparent` — any accesses of an instruction are those of memory
-/

namespace Nmos6502

/-! ## Writing at once -/

namespace Microcode

variable {α β M : Type} [Bus M]

/-- Runs on a memory, and writes at once. -/
def direct (memory : M) : Microcode α → Except Fault α × M
  | .done result => (.ok result, memory)
  | .fail fault => (.error fault, memory)
  | .read address next =>
    match Bus.read memory address with
    | .ok value => (next value).direct memory
    | .error cause => (.error (.refused cause), memory)
  | .write address value next =>
    match Bus.write memory address value with
    | .ok after => next.direct after
    | .error cause => (.error (.refused cause), memory)
  | .idle next => next.direct memory

theorem direct_bind (memory : M) (code : Microcode α) (f : α → Microcode β) :
    (code >>= f).direct memory =
      match code.direct memory with
      | (.ok result, after) => (f result).direct after
      | (.error fault, after) => (.error fault, after) := by
  induction code generalizing memory with
  | done result => rfl
  | fail fault => rfl
  | read address next ih =>
    simp only [read_bind, direct]
    cases Bus.read memory address with
    | ok value => exact ih value _
    | error cause => rfl
  | write address value next ih =>
    simp only [write_bind, direct]
    cases Bus.write memory address value with
    | ok after => exact ih _
    | error cause => rfl
  | idle next ih => exact ih _

theorem exists_of_direct_bind {memory after : M} {code : Microcode α} {f : α → Microcode β}
    {result : β} (h : (code >>= f).direct memory = (.ok result, after)) :
    ∃ first between, code.direct memory = (.ok first, between) ∧
      (f first).direct between = (.ok result, after) := by
  rw [direct_bind] at h
  rcases hfirst : code.direct memory with ⟨fault | first, between⟩
  · rw [hfirst] at h
    cases h
  · rw [hfirst] at h
    exact ⟨first, between, rfl, h⟩

end Microcode

/-! ## The journal and the second memory -/

/-- A write that is noted answers the reads of its address, and no others. -/
theorem Journal.read_note_write {M : Type} [Bus M] (journal : Journal) (memory : M)
    (target address : UInt16) (value : UInt8) :
    (journal.note (.write target value)).read memory address =
      if address = target then .ok value else journal.read memory address := by
  rw [Journal.read, pending?_note_write]
  by_cases h : address = target
  · rw [if_pos h, if_pos h]
  · rw [if_neg h, if_neg h]
    rfl

/-- A journal over the memory `before` reflects the memory `now`, in which its writes are made. -/
structure Journal.Reflects (journal : Journal) (before now : Ram) : Prop where
  /-- The size does not change. -/
  size : now.size = before.size
  /-- Making the writes that wait leads there, and none is refused. -/
  replay : Bus.writeAll before journal.writes = (.ok (), now)
  /-- What is read through the journal is what stands there. -/
  read (address : UInt16) : journal.read before address = Bus.read now address

namespace Journal.Reflects

variable {journal : Journal} {before now : Ram}

theorem empty (ram : Ram) : Journal.empty.Reflects ram ram := ⟨rfl, rfl, fun _ => rfl⟩

theorem note_read (h : journal.Reflects before now) (source : UInt16) (value : UInt8) :
    (journal.note (.read source value)).Reflects before now where
  size := h.size
  replay := by rw [writes_note_read]; exact h.replay
  read := h.read

/-- A write that is noted comes last when the writes are made, and first when a byte is looked
for. -/
theorem note_write (h : journal.Reflects before now) {target : UInt16}
    (htarget : target.toNat < now.size) (value : UInt8) :
    (journal.note (.write target value)).Reflects before (now.put target value) := by
  have haccepted : Bus.refusal? now target value = none := Ram.refusal?_eq_none_iff.mpr htarget
  refine ⟨(Ram.size_put ..).trans h.size, ?_, fun address => ?_⟩
  · rw [writes_note_write, Bus.writeAll_append h.replay, Bus.writeAll_cons_ok]
    exact ⟨haccepted, rfl⟩
  · rw [read_note_write, h.read]
    exact (Ram.read_put_of_accepted haccepted address).symm

theorem noteIdle (h : journal.Reflects before now) : journal.noteIdle.Reflects before now :=
  ⟨h.size, h.replay, h.read⟩

end Journal.Reflects

/-- **Any microcode** has the same result with writes that wait and with writes at once, a fault
included, and what waits in the end leads to the same memory. -/
theorem Microcode.perform_eq_direct {α : Type} (code : Microcode α) {journal : Journal}
    {before now : Ram} (h : journal.Reflects before now) :
    (code.perform before journal).1 = (code.direct now).1 ∧
      (code.perform before journal).2.Reflects before (code.direct now).2 := by
  induction code generalizing journal now with
  | done result => exact ⟨rfl, h⟩
  | fail fault => exact ⟨rfl, h⟩
  | read address next ih =>
    rw [perform, direct, h.read]
    cases Bus.read now address with
    | ok value => exact ih value (h.note_read address value)
    | error cause => exact ⟨rfl, h⟩
  | write address value next ih =>
    rw [perform, direct, Ram.check_eq, Ram.write_eq, h.size]
    by_cases hbeyond : before.size ≤ address.toNat
    · rw [if_pos hbeyond, if_pos hbeyond]
      exact ⟨rfl, h⟩
    · rw [if_neg hbeyond, if_neg hbeyond]
      exact ih (h.note_write (h.size ▸ Nat.not_le.mp hbeyond) value)
  | idle next ih => exact ih h.noteIdle

/-- **A whole step** on plain memory is its instruction with writes at once. -/
theorem Cpu.direct_of_step {cpu : Cpu Ram} {mnemonic : Mnemonic}
    (h : cpu.step.result = .ok mnemonic) :
    ∃ executed, (cpu.registers.instruction (Bus.size cpu.memory)).direct cpu.memory =
        (.ok executed, cpu.step.cpu.memory) ∧
      executed.operation.mnemonic = mnemonic ∧ executed.registers = cpu.step.cpu.registers := by
  obtain ⟨hresult, hreflects⟩ :=
    (cpu.registers.instruction (Bus.size cpu.memory)).perform_eq_direct (.empty cpu.memory)
  rcases hr : cpu.rehearse with ⟨fault | executed, journal⟩
  · rw [step_of_rehearse_error hr] at h
    cases h
  · rw [rehearse] at hr
    rw [hr] at hresult hreflects
    have hstep := step_of_writeAll_ok hr hreflects.replay
    rw [hstep] at h ⊢
    exact ⟨executed, Prod.ext hresult.symm rfl, Except.ok.inj h, rfl⟩

/-! ## Any accesses -/

namespace Microcode

variable {α M : Type} [Bus M]

/-- A read that ends well is noted. -/
theorem exists_note_of_read {memory : M} {address : UInt16} {f : UInt8 → α} {result : α}
    {journal later : Journal}
    (h : (read address fun value => done (f value)).perform memory journal = (.ok result, later)) :
    ∃ access, later = journal.note access := by
  rw [perform] at h
  cases hr : journal.read memory address with
  | ok value =>
    rw [hr] at h
    cases h
    exact ⟨_, rfl⟩
  | error cause =>
    rw [hr] at h
    cases h

/-- A write that ends well is noted. -/
theorem exists_note_of_write {memory : M} {address : UInt16} {value : UInt8} {result last : α}
    {journal later : Journal}
    (h : (write address value (done result)).perform memory journal = (.ok last, later)) :
    ∃ access, later = journal.note access := by
  rw [perform] at h
  cases hc : Bus.check memory address with
  | ok accepted =>
    rw [hc] at h
    cases h
    exact ⟨_, rfl⟩
  | error cause =>
    rw [hc] at h
    cases h

end Microcode

/-- An access of an instruction. -/
inductive BusCall where
  /-- The byte at an address is read. -/
  | read (address : UInt16)
  /-- A byte is written to an address. -/
  | write (address : UInt16) (value : UInt8)
  /-- A byte is put on the stack. -/
  | push (value : UInt8)
  /-- A byte is taken from the stack. -/
  | pull

namespace BusCall

/-- What an instruction does to make the access, with the byte that comes back if one does. -/
def microcode (call : BusCall) (registers : Registers) : Microcode (Option UInt8 × Registers) :=
  match call with
  | .read address => do
    let value ← readByte address
    return (some value, registers)
  | .write address value => .write address value (.done (none, registers))
  | .push value => do
    let registers ← registers.push value
    return (none, registers)
  | .pull => do
    let (value, registers) ← registers.pull
    return (some value, registers)

/-- What an instruction does to make some accesses, one after the other. -/
def all (calls : List BusCall) (registers : Registers) :
    Microcode (List (Option UInt8) × Registers) :=
  match calls with
  | [] => return ([], registers)
  | call :: calls => do
    let (value, registers) ← call.microcode registers
    let (values, registers) ← all calls registers
    return (value :: values, registers)

variable {M : Type} [Bus M]

/-- The access made of memory: the byte that comes back, the stack pointer and the memory. -/
def apply (memory : M) (sp : UInt8) : BusCall → Except OutOfBounds (Option UInt8 × UInt8 × M)
  | .read address => (Bus.read memory address).map fun value => (some value, sp, memory)
  | .write address value => (Bus.write memory address value).map fun after => (none, sp, after)
  | .push value =>
    (Bus.write memory (stackSlot sp) value).map fun after => (none, sp - 1, after)
  | .pull =>
    (Bus.read memory (stackSlot (sp + 1))).map fun value => (some value, sp + 1, memory)

/-- Some accesses made of memory, one after the other. -/
def applyAll (memory : M) (sp : UInt8) :
    List BusCall → Except OutOfBounds (List (Option UInt8) × UInt8 × M)
  | [] => .ok ([], sp, memory)
  | call :: calls =>
    match call.apply memory sp with
    | .error cause => .error cause
    | .ok (value, sp, memory) =>
      (applyAll memory sp calls).map fun (values, sp, memory) => (value :: values, sp, memory)

variable {memory after : M} {registers later : Registers} {call : BusCall} {calls : List BusCall}

/-- With writes at once, an access is one of memory. The stack pointer moves, and no other
register. -/
theorem direct_microcode (memory : M) (registers : Registers) (call : BusCall) :
    (call.microcode registers).direct memory =
      match call.apply memory registers.sp with
      | .ok (value, sp, after) => (.ok (value, { registers with sp }), after)
      | .error cause => (.error (.refused cause), memory) := by
  cases call with
  | read address =>
    simp only [microcode, readByte, Microcode.read_bind, Microcode.done_bind,
      Microcode.pure_eq_done, Microcode.direct, apply]
    cases Bus.read memory address <;> rfl
  | write address value =>
    simp only [microcode, Microcode.direct, apply]
    cases Bus.write memory address value <;> rfl
  | push value =>
    simp only [microcode, Registers.push, stackAddress_eq, Microcode.write_bind,
      Microcode.done_bind, Microcode.pure_eq_done, Microcode.direct, apply]
    cases Bus.write memory (stackSlot registers.sp) value <;> rfl
  | pull =>
    simp only [microcode, Registers.pull, readByte, stackAddress_eq, Microcode.read_bind,
      Microcode.done_bind, Microcode.pure_eq_done, Microcode.direct, apply]
    cases Bus.read memory (stackSlot (registers.sp + 1)) <;> rfl

theorem apply_of_direct {value : Option UInt8}
    (h : (call.microcode registers).direct memory = (.ok (value, later), after)) :
    call.apply memory registers.sp = .ok (value, later.sp, after) ∧
      later = { registers with sp := later.sp } := by
  rw [direct_microcode] at h
  rcases happly : call.apply memory registers.sp with cause | ⟨found, sp, reached⟩
  · rw [happly] at h
    cases h
  · rw [happly] at h
    cases h
    exact ⟨rfl, rfl⟩

/-- With writes at once, some accesses are those of memory. -/
theorem applyAll_of_direct {values : List (Option UInt8)}
    (h : (all calls registers).direct memory = (.ok (values, later), after)) :
    applyAll memory registers.sp calls = .ok (values, later.sp, after) ∧
      later = { registers with sp := later.sp } := by
  induction calls generalizing memory registers values with
  | nil =>
    cases h
    exact ⟨rfl, rfl⟩
  | cons call calls ih =>
    obtain ⟨⟨value, moved⟩, between, hcall, h⟩ := Microcode.exists_of_direct_bind h
    obtain ⟨⟨rest, last⟩, final, hrest, hdone⟩ := Microcode.exists_of_direct_bind h
    cases hdone
    obtain ⟨happly, hmoved⟩ := apply_of_direct hcall
    obtain ⟨happlyAll, hlater⟩ := ih hrest
    rw [hmoved] at hlater
    refine ⟨?_, hlater⟩
    simp only [applyAll, happly, happlyAll]
    rfl

/-- An access is noted once. -/
theorem perform_microcode {value : Option UInt8} {journal noted : Journal}
    (h : (call.microcode registers).perform memory journal = (.ok (value, later), noted)) :
    ∃ access, noted = journal.note access := by
  cases call with
  | read address => exact Microcode.exists_note_of_read h
  | write address value => exact Microcode.exists_note_of_write h
  | push value => exact Microcode.exists_note_of_write h
  | pull => exact Microcode.exists_note_of_read h

/-- Each of some accesses is noted once, and there is no cycle without an access. -/
theorem perform_all {values : List (Option UInt8)} {journal noted : Journal}
    (h : (all calls registers).perform memory journal = (.ok (values, later), noted)) :
    noted.accesses.length = journal.accesses.length + calls.length ∧
      noted.idles = journal.idles := by
  induction calls generalizing registers values journal with
  | nil =>
    cases h
    exact ⟨rfl, rfl⟩
  | cons call calls ih =>
    obtain ⟨⟨value, moved⟩, first, hcall, h⟩ := Microcode.exists_of_perform_bind h
    obtain ⟨⟨rest, last⟩, final, hrest, hdone⟩ := Microcode.exists_of_perform_bind h
    cases hdone
    obtain ⟨access, rfl⟩ := perform_microcode hcall
    obtain ⟨haccesses, hidles⟩ := ih hrest
    refine ⟨?_, hidles⟩
    rw [haccesses, Journal.note, List.length_cons, List.length_cons]
    omega

/-- **The buffer is transparent.** Accesses of an instruction on plain memory that all succeed, in
any order and however often to one address, are those of the memory itself: the same bytes come
back, and the stack pointer ends where it does there. Each takes one cycle. The writes that wait are
all accepted when they are made in order, and lead from the untouched memory to the one that
writing at once leads to. -/
theorem buffer_transparent {ram : Ram} {registers later : Registers} {calls : List BusCall}
    {values : List (Option UInt8)} {journal : Journal}
    (h : (all calls registers).perform ram .empty = (.ok (values, later), journal)) :
    ∃ after, applyAll ram registers.sp calls = .ok (values, later.sp, after) ∧
      later = { registers with sp := later.sp } ∧
      journal.accesses.length = calls.length ∧ journal.ticks = calls.length ∧
      Bus.writeAll ram journal.writes = (.ok (), after) := by
  obtain ⟨hresult, hreflects⟩ := (all calls registers).perform_eq_direct (.empty ram)
  rw [h] at hresult hreflects
  obtain ⟨happly, hlater⟩ := applyAll_of_direct (Prod.ext hresult.symm rfl)
  obtain ⟨haccesses, hidles⟩ := perform_all h
  have hlength : journal.accesses.length = calls.length :=
    haccesses.trans (Nat.zero_add _)
  refine ⟨_, happly, hlater, hlength, ?_, hreflects.replay⟩
  rw [Journal.ticks, hlength, hidles]
  rfl

/-- A byte that is pushed, overwritten, read and pulled. Two writes wait for one address, and both
reads see the later one, although memory still has a zero there. -/
theorem buffer_transparent_stack :
    let ram := Ram.zeros 0x0102 (by decide) (by decide)
    let registers : Registers := ⟨0, 0, 0, 0x01, 0, .powerOn⟩
    let calls : List BusCall := [.push 0x11, .write 0x0101 0x22, .read 0x0101, .pull]
    ∃ journal after,
      (all calls registers).perform ram .empty =
        (.ok ([none, none, some 0x22, some 0x22], registers), journal) ∧
      applyAll ram 0x01 calls = .ok ([none, none, some 0x22, some 0x22], 0x01, after) ∧
      journal.ticks = 4 ∧ journal.writes = [(0x0101, 0x11), (0x0101, 0x22)] ∧
      Bus.writeAll ram journal.writes = (.ok (), after) := by
  intro ram registers calls
  have hresult : ((all calls registers).perform ram .empty).1 =
      .ok ([none, none, some 0x22, some 0x22], registers) := by
    decide +kernel
  have hwrites : ((all calls registers).perform ram .empty).2.writes =
      [(0x0101, 0x11), (0x0101, 0x22)] := by
    decide +kernel
  rcases hperform : (all calls registers).perform ram .empty with ⟨result, journal⟩
  rw [hperform] at hresult hwrites
  obtain rfl : result = _ := hresult
  obtain ⟨after, happly, -, -, hticks, hcommit⟩ := buffer_transparent hperform
  exact ⟨journal, after, rfl, happly, hticks, hwrites, hcommit⟩

end BusCall

end Nmos6502
