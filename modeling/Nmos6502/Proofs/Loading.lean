import Mathlib.Tactic.Common
import Nmos6502.GuardedRam
import Nmos6502.Proofs.PlainMemory

/-!
# Loading bytes into memory

A load compares the end of its range with the size of memory, and then writes one byte after the
other. Nothing else is looked at in advance, and in particular the check is not asked. So a range
that is too long leaves memory as it was, but a range that fits can still meet an address that
cannot be written, with a check that would have told so. The bytes before that address have been
stored by then, and they stay.

What a refused load leaves behind is exactly what a load of the bytes before the refused one leaves,
so both are described by what a load that ends well does: its range holds the bytes and all else is
as before. That needs a memory that keeps what it accepts. A memory may also accept a write and
drop it, and then a load that ends well has dropped the byte too.

Agreement of check and writes and the keeping of bytes are asked for in every state that accepted
writes lead to, since a memory may change what it accepts.

## Main definitions

* `Bus.Follows` — what memory is after some accepted writes
* `Bus.Consistent` — the check and the writes agree
* `Bus.Storing` — accepted bytes are kept, and nothing else changes
* `GuardedRam.Protected` — a guard refuses writes, and the check says so

## Main results

* `Bus.store_error_iff` — where storing bytes is cut off
* `Bus.load_outcome` — everything a load does
* `Bus.load_halfway` — a load over a consistent memory that is cut off halfway
-/

namespace Nmos6502

namespace Bus

variable {M : Type} [Bus M]

/-! ## What follows a memory -/

/-- Memory as it is after some accepted writes. -/
def Follows (memory after : M) : Prop :=
  ∃ writes, writeAll memory writes = (.ok (), after)

/-- The check and the writes agree, now and after any accepted writes: an address passes the check
if and only if bytes can be written there. -/
def Consistent (memory : M) : Prop :=
  ∀ after, Follows memory after → ∀ address value,
    check after address = .ok () ↔ refusal? after address value = none

/-- A byte that is accepted is kept and leaves all others as they are, now and after any accepted
writes. -/
def Storing (memory : M) : Prop :=
  ∀ after, Follows memory after → ∀ target value, refusal? after target value = none →
    ∀ address, read (put after target value) address =
      if address = target then .ok value else read after address

variable {memory between after : M} {address : UInt16} {value : UInt8} {bytes : List UInt8}

theorem Follows.refl (memory : M) : Follows memory memory := ⟨[], rfl⟩

/-- What follows after one more write followed before it. -/
theorem Follows.of_put (hr : refusal? memory address value = none)
    (h : Follows (put memory address value) after) : Follows memory after := by
  obtain ⟨writes, hwrites⟩ := h
  exact ⟨(address, value) :: writes, writeAll_cons_ok.mpr ⟨hr, hwrites⟩⟩

theorem Storing.put (h : Storing memory) (hr : refusal? memory address value = none) :
    Storing (put memory address value) :=
  fun after hafter => h after (hafter.of_put hr)

/-! ## Storing bytes -/

theorem store_cons_ok :
    store memory address (value :: bytes) = (.ok (), after) ↔
      refusal? memory address value = none ∧
        store (put memory address value) (address + 1) bytes = (.ok (), after) := by
  rw [store]
  cases refusal? memory address value <;> simp

theorem follows_of_store (h : store memory address bytes = (.ok (), after)) :
    Follows memory after := by
  induction bytes generalizing memory address with
  | nil => cases h; exact .refl _
  | cons value bytes ih =>
    obtain ⟨hr, hlater⟩ := store_cons_ok.mp h
    exact (ih hlater).of_put hr

theorem add_ofNat_succ (address : UInt16) (n : Nat) :
    address + UInt16.ofNat (n + 1) = address + 1 + UInt16.ofNat n := by
  rw [Nat.add_comm n 1, UInt16.ofNat_add, ← UInt16.add_assoc]
  rfl

/-- Bytes that are stored one part after the other. -/
theorem store_append {stored : List UInt8}
    (h : store memory address stored = (.ok (), between)) (left : List UInt8) :
    store memory address (stored ++ left) =
      store between (address + UInt16.ofNat stored.length) left := by
  induction stored generalizing memory address with
  | nil => cases h; simp
  | cons value stored ih =>
    obtain ⟨hr, hlater⟩ := store_cons_ok.mp h
    rw [List.cons_append, store, hr, List.length_cons, add_ofNat_succ]
    exact ih hlater

/-- **Storing is cut off** by the first byte that is refused, when the bytes before it are
stored. -/
theorem store_error_iff {cause : OutOfBounds} :
    store memory address bytes = (.error cause, after) ↔
      ∃ stored value left, bytes = stored ++ value :: left ∧
        store memory address stored = (.ok (), after) ∧
        refusal? after (address + UInt16.ofNat stored.length) value = some cause := by
  constructor
  · intro h
    induction bytes generalizing memory address with
    | nil => cases h
    | cons value bytes ih =>
      rw [store] at h
      cases hr : refusal? memory address value with
      | some refusal =>
        rw [hr] at h
        cases h
        exact ⟨[], value, bytes, rfl, rfl, by simpa using hr⟩
      | none =>
        rw [hr] at h
        obtain ⟨stored, refused, left, rfl, hstored, hrefused⟩ := ih h
        refine ⟨value :: stored, refused, left, rfl, store_cons_ok.mpr ⟨hr, hstored⟩, ?_⟩
        rwa [List.length_cons, add_ofNat_succ]
  · rintro ⟨stored, value, left, rfl, hstored, hrefused⟩
    rw [store_append hstored, store, hrefused]

/-! ## Reading what was stored -/

/-- An address does not come again among those that follow it. -/
theorem not_mem_successive {count : Nat} (h : count < addressSpace) (address : UInt16) :
    address ∉ successive (address + 1) count := by
  rw [successive_eq_map, List.mem_map]
  rintro ⟨i, hi, hsame⟩
  have hi := List.mem_range.mp hi
  have hlt := address.toNat_lt
  have hnumbers := congrArg UInt16.toNat hsame
  simp only [addressSpace] at h
  simp only [UInt16.toNat_add, UInt16.toNat_ofNat', UInt16.reduceToNat] at hnumbers
  omega

/-- Outside the range nothing changes. -/
theorem Storing.read_store (hs : Storing memory)
    (h : store memory address bytes = (.ok (), after)) {other : UInt16}
    (ho : other ∉ successive address bytes.length) : read after other = read memory other := by
  induction bytes generalizing memory address with
  | nil => cases h; rfl
  | cons value bytes ih =>
    obtain ⟨hr, hlater⟩ := store_cons_ok.mp h
    rw [List.length_cons, successive, List.mem_cons, not_or] at ho
    rw [ih (hs.put hr) hlater ho.2, hs memory (.refl memory) address value hr, if_neg ho.1]

/-- The range holds the bytes, if it is not so long that it overlaps itself. -/
theorem Storing.map_read_store (hs : Storing memory) (hlength : bytes.length ≤ addressSpace)
    (h : store memory address bytes = (.ok (), after)) :
    (successive address bytes.length).map (read after) = bytes.map .ok := by
  induction bytes generalizing memory address with
  | nil => rfl
  | cons value bytes ih =>
    obtain ⟨hr, hlater⟩ := store_cons_ok.mp h
    rw [List.length_cons] at hlength
    have hfirst : read after address = .ok value := by
      rw [(hs.put hr).read_store hlater (not_mem_successive hlength address),
        hs memory (.refl memory) address value hr, if_pos rfl]
    rw [List.length_cons, successive, List.map_cons, List.map_cons, hfirst,
      ih (hs.put hr) (Nat.le_of_succ_le hlength) hlater]

theorem readRangeFrom_of_map_read (found : List UInt8)
    (h : (successive address bytes.length).map (read memory) = bytes.map .ok) :
    readRangeFrom memory found bytes.length address = .ok (found.reverse ++ bytes) := by
  induction bytes generalizing found address with
  | nil => simp [readRangeFrom]
  | cons value bytes ih =>
    rw [List.length_cons, successive, List.map_cons, List.map_cons] at h
    obtain ⟨hfirst, hlater⟩ := List.cons.inj h
    rw [List.length_cons, readRangeFrom, hfirst]
    simp only [ih (value :: found) hlater, List.reverse_cons, List.append_assoc]
    rfl

/-! ## Loads -/

variable {offset : UInt16}

theorem load_of_lt (h : size memory < offset.toNat + bytes.length) :
    load memory offset bytes =
      (.error ⟨offset.toNat + bytes.length - 1, size memory⟩, memory) := by
  rw [load, if_pos h]

theorem load_of_le (h : offset.toNat + bytes.length ≤ size memory) :
    load memory offset bytes = store memory offset bytes := by
  rw [load, if_neg (Nat.not_lt.mpr h)]

theorem load_ok_iff :
    load memory offset bytes = (.ok (), after) ↔
      offset.toNat + bytes.length ≤ size memory ∧
        store memory offset bytes = (.ok (), after) := by
  by_cases h : size memory < offset.toNat + bytes.length
  · rw [load_of_lt h]
    refine ⟨nofun, fun hfits => absurd hfits.1 (Nat.not_le.mpr h)⟩
  · rw [load_of_le (Nat.not_lt.mp h)]
    exact ⟨fun hstore => ⟨Nat.not_lt.mp h, hstore⟩, fun hboth => hboth.2⟩

/-- A write that is refused. -/
theorem write_error_iff {cause : OutOfBounds} :
    write memory address value = .error cause ↔ refusal? memory address value = some cause := by
  rw [write]
  cases refusal? memory address value <;> simp

/-- **Everything a load does.** A range that is too long changes nothing. A range that fits is
refused if and only if one of its addresses does not pass the check when the bytes before it are
stored, and these bytes stay. A load that ends well fits, and if memory keeps what it accepts, then
the range holds the bytes and everything else is as before. -/
theorem load_outcome (hc : Consistent memory) (offset : UInt16) (bytes : List UInt8) :
    (size memory < offset.toNat + bytes.length →
      load memory offset bytes =
        (.error ⟨offset.toNat + bytes.length - 1, size memory⟩, memory)) ∧
    (offset.toNat + bytes.length ≤ size memory → ∀ cause after,
      (load memory offset bytes = (.error cause, after) ↔
        ∃ stored value left, bytes = stored ++ value :: left ∧
          load memory offset stored = (.ok (), after) ∧
          check after (offset + UInt16.ofNat stored.length) ≠ .ok () ∧
          write after (offset + UInt16.ofNat stored.length) value = .error cause)) ∧
    ∀ after, load memory offset bytes = (.ok (), after) →
      offset.toNat + bytes.length ≤ size memory ∧
      (Storing memory → bytes.length ≤ addressSpace →
        readRange after offset bytes.length = .ok bytes ∧
        ∀ address, address ∉ successive offset bytes.length →
          read after address = read memory address) := by
  refine ⟨load_of_lt, fun hfits cause after => ?_, fun after h => ?_⟩
  · rw [load_of_le hfits, store_error_iff]
    refine exists_congr fun stored => exists_congr fun value => exists_congr fun left =>
      and_congr_right fun hbytes => ?_
    have hshorter : offset.toNat + stored.length ≤ size memory := by
      rw [hbytes, List.length_append] at hfits
      omega
    rw [load_of_le hshorter, write_error_iff]
    refine and_congr_right fun hstored => ⟨fun hrefused => ⟨fun hcheck => ?_, hrefused⟩,
      fun hboth => hboth.2⟩
    rw [(hc after (follows_of_store hstored) _ value).mp hcheck] at hrefused
    cases hrefused
  · obtain ⟨hfits, hstore⟩ := load_ok_iff.mp h
    refine ⟨hfits, fun hs hlength => ⟨?_, fun address ha => hs.read_store hstore ha⟩⟩
    exact readRangeFrom_of_map_read [] (hs.map_read_store hlength hstore)

end Bus

/-! ## Write-protected memory -/

namespace GuardedRam

variable {memory after : GuardedRam}

/-- What is guarded is protected from writes, and the check says so. -/
def Protected (memory : GuardedRam) : Prop :=
  ∀ guard ∈ memory.guard, guard.writes = .refused ∧ guard.announced = true

theorem guard_put (memory : GuardedRam) (address : UInt16) (value : UInt8) :
    (memory.put address value).guard = memory.guard := by
  unfold put
  split <;> rfl

theorem Protected.follows (h : memory.Protected) (hf : Bus.Follows memory after) :
    after.Protected := by
  obtain ⟨writes, hwrites⟩ := hf
  induction writes generalizing memory with
  | nil => cases hwrites; exact h
  | cons write writes ih =>
    refine ih (fun guard hg => h guard ?_) (Bus.writeAll_cons_ok.mp hwrites).2
    rwa [← memory.guard_put write.1 write.2]

/-- Under a guard the check fails and writes are refused. Elsewhere memory is plain. -/
theorem Protected.consistent (h : memory.Protected) : Bus.Consistent memory := by
  intro after hf address value
  have hplain : check.plain after address = .ok () ↔ after.ram.refusal? address value = none := by
    unfold check.plain Ram.refusal?
    split <;> simp
  show after.check address = .ok () ↔ after.refusal? address value = none
  unfold check refusal?
  cases hg : after.guardOf? address with
  | none => exact hplain
  | some guard =>
    obtain ⟨hrefused, hannounced⟩ := h.follows hf guard (Option.eq_some_of_filter_eq_some hg)
    simp [hrefused, hannounced]

/-- What is accepted is not under a guard, so it is kept as in plain memory. -/
theorem Protected.storing (h : memory.Protected) : Bus.Storing memory := by
  intro after hf target value hr address
  change after.refusal? target value = none at hr
  unfold refusal? at hr
  cases hg : after.guardOf? target with
  | some guard =>
    obtain ⟨hrefused, -⟩ := h.follows hf guard (Option.eq_some_of_filter_eq_some hg)
    simp [hg, hrefused] at hr
  | none =>
    simp only [hg] at hr
    have hput : after.put target value = ⟨after.ram.put target value, after.guard⟩ := by
      simp [put, loses, hg]
    have hguard : (⟨after.ram.put target value, after.guard⟩ : GuardedRam).guardOf? address =
        after.guardOf? address := rfl
    show (after.put target value).read address = if _ then _ else after.read address
    rw [hput, read, read, hguard]
    by_cases ha : address = target
    · rw [ha, hg, if_pos rfl]
      exact (Ram.read_put_of_accepted hr target).trans (if_pos rfl)
    · simp only [Ram.read_put_of_accepted hr, if_neg ha]

end GuardedRam

namespace Bus

/-- Four bytes of which the third is protected. -/
def protectedByte : GuardedRam :=
  ⟨Ram.zeros 4 (by decide) (by decide), some ⟨2, 3, true, .refused, true⟩⟩

theorem protected_protectedByte : protectedByte.Protected := by
  rintro guard hg
  cases hg
  exact ⟨rfl, rfl⟩

/-- Before the protected byte there is room for two bytes, and behind it for one. -/
theorem load_outcome_protected :
    (∃ after, load protectedByte 0 [0xA9, 0x05] = (.ok (), after) ∧
      readRange after 0 2 = .ok [0xA9, 0x05] ∧ read after 3 = read protectedByte 3) ∧
    load protectedByte 3 [0xA9, 0x05] = (.error ⟨4, 4⟩, protectedByte) := by
  have hc := protected_protectedByte.consistent
  constructor
  · obtain ⟨-, -, hends⟩ := load_outcome hc 0 [0xA9, 0x05]
    have hok : (load protectedByte 0 [0xA9, 0x05]).1 = .ok () := by decide
    obtain ⟨-, hholds⟩ := hends _ (Prod.ext hok rfl)
    obtain ⟨hrange, hothers⟩ := hholds protected_protectedByte.storing (by decide)
    exact ⟨_, Prod.ext hok rfl, hrange, hothers 3 (by decide)⟩
  · obtain ⟨hlong, -, -⟩ := load_outcome hc 3 [0xA9, 0x05]
    exact hlong (by decide)

/-- **A load that is cut off halfway.** The check of this memory tells what can be written, now and
later, and memory keeps what it accepts. A load over the protected byte is refused, but the byte
before it has been stored. -/
theorem load_halfway :
    Consistent protectedByte ∧ Storing protectedByte ∧
      (load protectedByte 1 [0xAA, 0xBB]).1 = .error ⟨2, 2⟩ ∧
      read protectedByte 1 = .ok 0x00 ∧
      read (load protectedByte 1 [0xAA, 0xBB]).2 1 = .ok 0xAA :=
  ⟨protected_protectedByte.consistent, protected_protectedByte.storing, by decide, by decide,
    by decide⟩

end Bus

end Nmos6502
