import Nmos6502.Address
import Nmos6502.Bus

/-!
# Random access memory

Plain memory: between one byte and the whole address space, all zero at first, every byte readable
and writable.

## Main definitions

* `Ram` — the bytes, with the bounds on their number
* `Ram.zeros`, `Ram.ofSize` — fresh memory
* `Ram.slice` — a range of bytes
-/

namespace Nmos6502

open Text

/-- Memory of one byte up to the whole address space. -/
structure Ram where
  /-- The bytes by address. -/
  bytes : Array UInt8
  /-- There is at least one byte. -/
  size_pos : 0 < bytes.size
  /-- There are no more bytes than addresses. -/
  size_le : bytes.size ≤ addressSpace
  deriving DecidableEq

namespace Ram

/-- The number of bytes. -/
def size (ram : Ram) : Nat := ram.bytes.size

/-- Memory of `size` zero bytes. -/
def zeros (size : Nat) (size_pos : 0 < size) (size_le : size ≤ addressSpace) : Ram where
  bytes := Array.replicate size 0
  size_pos := by simpa using size_pos
  size_le := by simpa using size_le

/-- A number of bytes that no memory has. -/
structure SizeFault where
  /-- The number asked for. -/
  size : Nat
  deriving DecidableEq

/-- The wording of a size that no memory has. -/
def SizeFault.message (fault : SizeFault) : String :=
  "memory size must be between 1 and " ++ decimal addressSpace ++ " bytes, got " ++
    decimal fault.size

/-- Fresh memory of a given size, if there can be such a memory. -/
def ofSize (size : Nat) : Except SizeFault Ram :=
  if h : 0 < size ∧ size ≤ addressSpace then .ok (zeros size h.1 h.2) else .error ⟨size⟩

/-- Fresh memory that fills the address space. -/
def full : Ram := zeros addressSpace (by decide) (Nat.le_refl _)

/-- The byte at an address. -/
def read (ram : Ram) (address : UInt16) : Except OutOfBounds UInt8 :=
  if h : address.toNat < ram.bytes.size then .ok ram.bytes[address.toNat]
  else .error ⟨address.toNat, ram.size⟩

/-- The memory with a byte replaced, and unchanged where there is no byte. -/
def put (ram : Ram) (address : UInt16) (value : UInt8) : Ram where
  bytes := ram.bytes.setIfInBounds address.toNat value
  size_pos := by simpa using ram.size_pos
  size_le := by simpa using ram.size_le

/-- A write is refused beyond the last byte. -/
def refusal? (ram : Ram) (address : UInt16) (_ : UInt8) : Option OutOfBounds :=
  if address.toNat < ram.size then none else some ⟨address.toNat, ram.size⟩

instance : Bus Ram where
  size := size
  read := read
  refusal? := refusal?
  put := put

/-- The bytes from `start` on, `length` of them or as many as there are. -/
def slice (ram : Ram) (start length : Nat) : List UInt8 :=
  (ram.bytes.extract start (start + length)).toList

theorem slice_eq_take (ram : Ram) (start length : Nat) :
    ram.slice start length = (ram.bytes.toList.drop start).take length := by
  rw [slice, Array.toList_extract, List.extract_eq_take_drop, Nat.add_sub_cancel_left]

@[simp] theorem size_put (ram : Ram) (address : UInt16) (value : UInt8) :
    (ram.put address value).size = ram.size := by
  simp [size, put]

theorem read_put (ram : Ram) (target address : UInt16) (value : UInt8) :
    (ram.put target value).read address =
      if address = target then (ram.read address).map fun _ => value else ram.read address := by
  by_cases h : address = target
  · subst h
    by_cases hr : address.toNat < ram.bytes.size <;> simp [read, put, Except.map, size, hr]
  · have hn : target.toNat ≠ address.toNat := fun e => h (UInt16.toNat_inj.1 e.symm)
    by_cases hr : address.toNat < ram.bytes.size <;>
      simp [read, put, size, h, hr, hn]

/-- A write is accepted where there is a byte. -/
theorem refusal?_eq_none_iff {ram : Ram} {address : UInt16} {value : UInt8} :
    Bus.refusal? ram address value = none ↔ address.toNat < ram.size := by
  show (if address.toNat < ram.size then none else some _) = none ↔ _
  simp

/-- The check passes where there is a byte. -/
theorem check_eq_ok_iff {ram : Ram} {address : UInt16} :
    Bus.check ram address = .ok () ↔ address.toNat < ram.size := by
  show (if address.toNat < ram.size then _ else _) = Except.ok () ↔ _
  split <;> simp [*]

theorem lt_size_of_read_ok {ram : Ram} {address : UInt16} {byte : UInt8}
    (h : Bus.read ram address = .ok byte) : address.toNat < ram.size := by
  change ram.read address = _ at h
  unfold read at h
  split at h
  · assumption
  · cases h

/-- What is accepted is kept. -/
theorem read_put_of_accepted {ram : Ram} {target : UInt16} {value : UInt8}
    (h : Bus.refusal? ram target value = none) (address : UInt16) :
    (ram.put target value).read address =
      if address = target then .ok value else ram.read address := by
  have hlt : target.toNat < ram.bytes.size := refusal?_eq_none_iff.mp h
  rw [read_put]
  split
  next ha =>
    rw [ha, read, dif_pos hlt]
    rfl
  next => rfl

/-- The short form of a memory in diagnostics. -/
def describe (ram : Ram) : String :=
  "FlatMemory \x7b size: " ++ decimal ram.size ++ " \x7d"

end Ram

end Nmos6502
