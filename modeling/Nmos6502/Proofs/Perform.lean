import Mathlib.Logic.Function.Basic
import Nmos6502.Address
import Nmos6502.Microcode

/-!
# Performing microcode

Laws of `Microcode.perform` that hold for every tree and every memory. No instruction is mentioned
here: what an instruction does at the bus follows from its tree and from these laws.

## Images

An image holds a byte at every address. As a memory it refuses nothing, so performing against it
always takes the tree to its end, and what happens can be written down as an equation without
hypotheses. Every memory has an image, and a performance that ends well against a memory is the
performance against its image. A statement about instructions that end well is therefore proved
for images only.

## Main definitions

* `Image`, `Bus.image` — a memory that refuses nothing, and the one that looks like a given memory
* `Bus.Includes` — a memory gives and takes all that another does
* `Journal.noteReads`, `Journal.noteWrites` — several accesses noted in order

## Main results

* `Microcode.perform_bind` — one piece of microcode after another
* `Microcode.check_of_mem_writes` — every noted write was accepted by the check
* `Microcode.perform_of_includes` — a good end stays one against a memory that includes the first
* `Microcode.perform_image` — so a good end is the same against the image
-/

namespace Nmos6502

/-! ## Images -/

/-- A byte at every address. -/
structure Image where
  /-- The byte at an address. -/
  byte : UInt16 → UInt8

instance : Bus Image where
  size _ := addressSpace
  read image address := .ok (image.byte address)
  refusal? _ _ _ := none
  put image address value := ⟨Function.update image.byte address value⟩
  check _ _ := .ok ()

namespace Bus

variable {M : Type} [Bus M]

/-- What a memory looks like; zero stands where it refuses to be read. -/
def image (memory : M) : Image where
  byte address := (read memory address).toOption.getD 0

theorem byte_image_of_read {memory : M} {address : UInt16} {byte : UInt8}
    (h : read memory address = .ok byte) : (image memory).byte address = byte := by
  simp [image, h, Except.toOption]

/-- What a memory gives and what it would take, another memory gives and would take as well. -/
structure Includes {N : Type} [Bus N] (memory : M) (larger : N) : Prop where
  /-- Bytes that can be read are the same. -/
  read {address : UInt16} {byte : UInt8} :
    Bus.read memory address = .ok byte → Bus.read larger address = .ok byte
  /-- Writes that would be accepted would be accepted. -/
  check {address : UInt16} :
    Bus.check memory address = .ok () → Bus.check larger address = .ok ()

/-- An image gives all that the memory gives, and it takes everything. -/
theorem includes_image (memory : M) : Includes memory (image memory) where
  read h := congrArg Except.ok (byte_image_of_read h)
  check _ := rfl

end Bus

/-! ## Several accesses -/

namespace Journal

/-- Notes that some bytes of an image were read. -/
def noteReads (journal : Journal) (image : Image) : List UInt16 → Journal
  | [] => journal
  | address :: addresses =>
    (journal.note (.read address (image.byte address))).noteReads image addresses

/-- Notes some writes. -/
def noteWrites (journal : Journal) : List (UInt16 × UInt8) → Journal
  | [] => journal
  | (address, value) :: writes => (journal.note (.write address value)).noteWrites writes

/-- Notes some cycles without an access. -/
def noteIdles (journal : Journal) (count : Nat) : Journal :=
  { journal with idles := journal.idles + count }

theorem noteReads_append (journal : Journal) (image : Image) (first second : List UInt16) :
    journal.noteReads image (first ++ second) =
      (journal.noteReads image first).noteReads image second := by
  induction first generalizing journal with
  | nil => rfl
  | cons address first ih => exact ih _

@[simp] theorem pending?_noteReads (journal : Journal) (image : Image)
    (addresses : List UInt16) (address : UInt16) :
    (journal.noteReads image addresses).pending? address = journal.pending? address := by
  induction addresses generalizing journal with
  | nil => rfl
  | cons source addresses ih => rw [noteReads, ih, pending?_note_read]

@[simp] theorem writes_noteReads (journal : Journal) (image : Image)
    (addresses : List UInt16) : (journal.noteReads image addresses).writes = journal.writes := by
  induction addresses generalizing journal with
  | nil => rfl
  | cons source addresses ih => rw [noteReads, ih, writes_note_read]

@[simp] theorem writes_noteWrites (journal : Journal) (writes : List (UInt16 × UInt8)) :
    (journal.noteWrites writes).writes = journal.writes ++ writes := by
  induction writes generalizing journal with
  | nil => simp [noteWrites]
  | cons write writes ih => rw [noteWrites, ih, writes_note_write, List.append_assoc]; rfl

@[simp] theorem writes_noteIdles (journal : Journal) (count : Nat) :
    (journal.noteIdles count).writes = journal.writes := rfl

@[simp] theorem accesses_noteIdles (journal : Journal) (count : Nat) :
    (journal.noteIdles count).accesses = journal.accesses := rfl

@[simp] theorem length_accesses_noteReads (journal : Journal) (image : Image)
    (addresses : List UInt16) :
    (journal.noteReads image addresses).accesses.length =
      journal.accesses.length + addresses.length := by
  induction addresses generalizing journal with
  | nil => rfl
  | cons source addresses ih => rw [noteReads, ih, List.length_cons]; simp [note]; omega

@[simp] theorem length_accesses_noteWrites (journal : Journal)
    (writes : List (UInt16 × UInt8)) :
    (journal.noteWrites writes).accesses.length = journal.accesses.length + writes.length := by
  induction writes generalizing journal with
  | nil => rfl
  | cons write writes ih => rw [noteWrites, ih, List.length_cons]; simp [note]; omega

@[simp] theorem idles_noteReads (journal : Journal) (image : Image) (addresses : List UInt16) :
    (journal.noteReads image addresses).idles = journal.idles := by
  induction addresses generalizing journal with
  | nil => rfl
  | cons source addresses ih => rw [noteReads, ih]; rfl

@[simp] theorem idles_noteWrites (journal : Journal) (writes : List (UInt16 × UInt8)) :
    (journal.noteWrites writes).idles = journal.idles := by
  induction writes generalizing journal with
  | nil => rfl
  | cons write writes ih => rw [noteWrites, ih]; rfl

@[simp] theorem idles_noteIdles (journal : Journal) (count : Nat) :
    (journal.noteIdles count).idles = journal.idles + count := rfl

/-- An image is read as it is as long as nothing has been written. -/
theorem read_image {journal : Journal} (hj : ∀ a, journal.pending? a = none) (image : Image)
    (address : UInt16) : journal.read image address = .ok (image.byte address) := by
  rw [Journal.read, hj]
  rfl

end Journal

/-! ## Performing -/

namespace Microcode

variable {α β M : Type} [Bus M]

/-- **One after the other.** A fault of the first part is the fault of the whole. -/
theorem perform_bind (memory : M) (code : Microcode α) (f : α → Microcode β)
    (journal : Journal) :
    (code >>= f).perform memory journal =
      match code.perform memory journal with
      | (.ok result, later) => (f result).perform memory later
      | (.error fault, later) => (.error fault, later) := by
  induction code generalizing journal with
  | done result => rfl
  | fail fault => rfl
  | read address next ih =>
    simp only [read_bind, perform]
    cases journal.read memory address with
    | ok value => exact ih value _
    | error cause => rfl
  | write address value next ih =>
    simp only [write_bind, perform]
    cases Bus.check memory address with
    | ok accepted => exact ih _
    | error cause => rfl
  | idle next ih => exact ih _

theorem perform_bind_of_ok {memory : M} {code : Microcode α} {journal later : Journal}
    {result : α} (h : code.perform memory journal = (.ok result, later))
    (f : α → Microcode β) :
    (code >>= f).perform memory journal = (f result).perform memory later := by
  rw [perform_bind, h]

/-- A good end of two parts is one of the first, and then one of the second. -/
theorem exists_of_perform_bind {memory : M} {code : Microcode α} {f : α → Microcode β}
    {journal later : Journal} {result : β}
    (h : (code >>= f).perform memory journal = (.ok result, later)) :
    ∃ first noted, code.perform memory journal = (.ok first, noted) ∧
      (f first).perform memory noted = (.ok result, later) := by
  rw [perform_bind] at h
  rcases hfirst : code.perform memory journal with ⟨fault | first, noted⟩
  · rw [hfirst] at h
    cases h
  · rw [hfirst] at h
    exact ⟨first, noted, rfl, h⟩

/-- Every write that is noted was accepted by the check of the memory performed against. -/
theorem check_of_mem_writes {memory : M} (code : Microcode α) {journal : Journal}
    (hj : ∀ write ∈ journal.writes, Bus.check memory write.1 = .ok ()) :
    ∀ write ∈ (code.perform memory journal).2.writes, Bus.check memory write.1 = .ok () := by
  induction code generalizing journal with
  | done result => exact hj
  | fail fault => exact hj
  | read address next ih =>
    simp only [perform]
    cases journal.read memory address with
    | ok value => exact ih value (by simpa using hj)
    | error cause => exact hj
  | write address value next ih =>
    simp only [perform]
    cases hc : Bus.check memory address with
    | ok accepted =>
      refine ih fun write hw => ?_
      rw [Journal.writes_note_write, List.mem_append, List.mem_singleton] at hw
      rcases hw with hw | rfl
      · exact hj write hw
      · exact hc
    | error cause => exact hj
  | idle next ih => exact ih hj

/-- **A good end stays one** against a memory that gives and takes all that the first did. -/
theorem perform_of_includes {N : Type} [Bus N] {memory : M} {larger : N}
    (hincludes : Bus.Includes memory larger) {code : Microcode α} {journal later : Journal}
    {result : α} (h : code.perform memory journal = (.ok result, later)) :
    code.perform larger journal = (.ok result, later) := by
  induction code generalizing journal with
  | done result => exact h
  | fail fault => cases h
  | read address next ih =>
    simp only [perform, Journal.read] at h ⊢
    cases hp : journal.pending? address with
    | some value => simp only [hp] at h ⊢; exact ih value h
    | none =>
      simp only [hp] at h ⊢
      cases hr : Bus.read memory address with
      | error cause => rw [hr] at h; cases h
      | ok value =>
        rw [hr] at h
        rw [hincludes.read hr]
        exact ih value h
  | write address value next ih =>
    simp only [perform] at h ⊢
    cases hc : Bus.check memory address with
    | error cause => rw [hc] at h; cases h
    | ok accepted =>
      rw [hc] at h
      rw [hincludes.check hc]
      exact ih h
  | idle next ih => exact ih h

/-- **A good end is the same against the image.** -/
theorem perform_image {memory : M} {code : Microcode α} {journal later : Journal} {result : α}
    (h : code.perform memory journal = (.ok result, later)) :
    code.perform (Bus.image memory) journal = (.ok result, later) :=
  perform_of_includes (Bus.includes_image memory) h

end Microcode

end Nmos6502
