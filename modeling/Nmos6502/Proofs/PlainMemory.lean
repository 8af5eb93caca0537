import Mathlib.Tactic.Common
import Nmos6502.Proofs.Peek

/-!
# Plain memory

Plain memory treats all addresses alike. What is below its size can be read and written, and what
is not is refused, with the address and the size. So of several demands the first that lies beyond
the end is the one that is refused, whatever is demanded there.

A range of addresses goes around the end of the address space, but memory that is smaller than the
address space has an end before that. Only memory that fills the address space can be read beyond
its last byte, and the byte found there is its first.

## Main definitions

* `Ram.firstBeyond?` — the first of some addresses that lies beyond the end
* `Ram.around` — a range of bytes that goes on with the first byte after the last

## Main results

* `Ram.firstRefusal?_eq` — which of several demands is refused
* `Ram.readRange_of_le`, `Ram.readRange_of_lt`, `Ram.readRange_of_full` — what comes of reading a
  range
-/

namespace Nmos6502

/-- Where a demand is directed. -/
def Demand.address : Demand → UInt16
  | .read address | .write address => address

namespace Ram

variable (ram : Ram)

/-! ## Refusals -/

/-- A byte is there, or it is not. -/
theorem read_eq (address : UInt16) :
    Bus.read ram address =
      if ram.size ≤ address.toNat then .error ⟨address.toNat, ram.size⟩
      else .ok (ram.bytes.getD address.toNat 0) := by
  show ram.read address = _
  rw [read, size]
  by_cases h : address.toNat < ram.bytes.size
  · rw [dif_pos h, if_neg (Nat.not_le.mpr h)]
    simp [h]
  · rw [dif_neg h, if_pos (Nat.not_lt.mp h)]

theorem check_eq (address : UInt16) :
    Bus.check ram address =
      if ram.size ≤ address.toNat then .error ⟨address.toNat, ram.size⟩ else .ok () := by
  show (if address.toNat < ram.size then _ else _) = _
  by_cases h : ram.size ≤ address.toNat
  · rw [if_neg (Nat.not_lt.mpr h), if_pos h]
  · rw [if_pos (Nat.not_le.mp h), if_neg h]

theorem write_eq (address : UInt16) (value : UInt8) :
    Bus.write ram address value =
      if ram.size ≤ address.toNat then .error ⟨address.toNat, ram.size⟩
      else .ok (ram.put address value) := by
  by_cases h : ram.size ≤ address.toNat
  · have hrefused : Bus.refusal? ram address value = some ⟨address.toNat, ram.size⟩ :=
      if_neg (Nat.not_lt.mpr h)
    rw [Bus.write, hrefused, if_pos h]
  · rw [Bus.write, refusal?_eq_none_iff.mpr (Nat.not_le.mp h), if_neg h]
    rfl

/-- What is refused depends on nothing but the address. -/
theorem refusalOf?_eq (demand : Demand) :
    Bus.refusalOf? ram demand =
      if ram.size ≤ demand.address.toNat then some ⟨demand.address.toNat, ram.size⟩ else none := by
  cases demand with
  | read address =>
    rw [Bus.refusalOf?, read_eq, Demand.address]
    by_cases h : ram.size ≤ address.toNat <;> simp only [h, if_true, if_false]
  | write address =>
    rw [Bus.refusalOf?, check_eq, Demand.address]
    by_cases h : ram.size ≤ address.toNat <;> simp only [h, if_true, if_false]

/-- The first of some addresses that lies beyond the end of memory. -/
def firstBeyond? (addresses : List UInt16) : Option UInt16 :=
  addresses.find? fun address => decide (ram.size ≤ address.toNat)

/-- **The first demand beyond the end** is the one that is refused. -/
theorem firstRefusal?_eq (demands : List Demand) :
    Bus.firstRefusal? ram demands =
      (ram.firstBeyond? (demands.map Demand.address)).map fun address =>
        ⟨address.toNat, ram.size⟩ := by
  induction demands with
  | nil => rfl
  | cons demand demands ih =>
    rw [Bus.firstRefusal?_cons, ih, refusalOf?_eq, List.map_cons, firstBeyond?, firstBeyond?]
    by_cases h : ram.size ≤ demand.address.toNat <;> simp [h]

theorem firstBeyond?_append (addresses more : List UInt16) :
    ram.firstBeyond? (addresses ++ more) =
      (ram.firstBeyond? addresses).or (ram.firstBeyond? more) :=
  List.find?_append

theorem firstBeyond?_eq_none {addresses : List UInt16}
    (h : ∀ address ∈ addresses, address.toNat < ram.size) : ram.firstBeyond? addresses = none := by
  refine List.find?_eq_none.mpr fun address ha => ?_
  simpa using h address ha

end Ram

/-! ## Ranges -/

namespace Bus

theorem successive_eq_map (address : UInt16) (count : Nat) :
    successive address count = (List.range count).map fun i => address + UInt16.ofNat i := by
  induction count generalizing address with
  | zero => rfl
  | succ count ih =>
    rw [successive, ih, List.range_succ_eq_map, List.map_cons, List.map_map]
    refine congrArg₂ List.cons (by simp) (List.map_congr_left fun i _ => ?_)
    simp only [Function.comp_apply, Nat.succ_eq_add_one, Nat.add_comm i 1, UInt16.ofNat_add,
      ← UInt16.add_assoc]
    rfl

/-- The addresses of a range as numbers. -/
theorem map_toNat_successive (address : UInt16) (count : Nat) :
    (successive address count).map UInt16.toNat =
      (List.range count).map fun i => (address.toNat + i) % addressSpace := by
  rw [successive_eq_map, List.map_map]
  refine List.map_congr_left fun i _ => ?_
  simp [addressSpace, UInt16.toNat_add]

/-- A range that does not go around the end has successive numbers. -/
theorem map_toNat_successive_of_le {address : UInt16} {count : Nat}
    (h : address.toNat + count ≤ addressSpace) :
    (successive address count).map UInt16.toNat = List.range' address.toNat count := by
  rw [map_toNat_successive, List.range'_eq_map_range]
  refine List.map_congr_left fun i hi => Nat.mod_eq_of_lt ?_
  have := List.mem_range.mp hi
  omega

end Bus

namespace Ram

variable (ram : Ram)

/-- The bytes at `length` addresses from `start` on, where the first byte of the address space comes
after the last. -/
def around (start length : Nat) : List UInt8 :=
  (List.range length).map fun i => ram.bytes.getD ((start + i) % addressSpace) 0

theorem byte_image (address : UInt16) :
    (Bus.image ram).byte address = ram.bytes.getD address.toNat 0 := by
  show (Bus.read ram address).toOption.getD 0 = _
  rw [read_eq]
  by_cases h : ram.size ≤ address.toNat
  · have hbeyond : ¬ address.toNat < ram.bytes.size := Nat.not_lt.mpr h
    simp [h, hbeyond, Except.toOption]
  · simp [h, Except.toOption]

theorem map_byte_successive (address : UInt16) (count : Nat) :
    (Bus.successive address count).map (Bus.image ram).byte = ram.around address.toNat count := by
  have hbytes : (Bus.image ram).byte = (fun n => ram.bytes.getD n 0) ∘ UInt16.toNat :=
    funext ram.byte_image
  rw [hbytes, ← List.map_map, Bus.map_toNat_successive, List.map_map]
  rfl

theorem around_eq_slice {start length : Nat} (h : start + length ≤ ram.size) :
    ram.around start length = ram.slice start length := by
  have hsize : ram.size ≤ addressSpace := ram.size_le
  rw [size] at h
  refine List.ext_getElem ?_ fun i hi hi' => ?_
  · simp [around, slice]
    omega
  · have hlt : i < length := by simpa [around] using hi
    have hplace : (start + i) % addressSpace = start + i :=
      Nat.mod_eq_of_lt (by rw [size] at hsize; omega)
    simp only [around, slice, List.getElem_map, List.getElem_range, hplace]
    simp [Array.getD, show start + i < ram.bytes.size by omega]

/-- The first address of a range that lies beyond the end of a memory that is smaller than the
address space. -/
theorem firstBeyond?_successive (hsize : ram.size < addressSpace) (address : UInt16)
    (count : Nat) :
    (ram.firstBeyond? (Bus.successive address count)).map UInt16.toNat =
      if address.toNat + count ≤ ram.size ∨ count = 0 then none
      else some (max address.toNat ram.size) := by
  induction count generalizing address with
  | zero => simp [Bus.successive, firstBeyond?]
  | succ count ih =>
    rw [Bus.successive, firstBeyond?, List.find?_cons]
    by_cases h : ram.size ≤ address.toNat
    · simp only [h, decide_true, Option.map_some, Nat.max_eq_left]
      rw [if_neg (by omega)]
    · have hnext : (address + 1).toNat = address.toNat + 1 := by
        rw [UInt16.toNat_add]
        exact Nat.mod_eq_of_lt (by simp only [addressSpace] at hsize; simp; omega)
      simp only [h, decide_false]
      rw [← firstBeyond?, ih, hnext]
      rcases Nat.eq_zero_or_pos count with rfl | hpos
      · rw [if_pos (.inr rfl), if_pos (.inl (by omega))]
      · by_cases hle : address.toNat + 1 + count ≤ ram.size
        · rw [if_pos (.inl hle), if_pos (.inl (by omega))]
        · rw [if_neg (by omega), if_neg (by omega)]
          congr 1
          omega

/-- A range is refused with its first address that lies beyond the end. -/
theorem readRange_eq (address : UInt16) (count : Nat) :
    Bus.readRange ram address count =
      match ram.firstBeyond? (Bus.successive address count) with
      | some beyond => .error ⟨beyond.toNat, ram.size⟩
      | none => .ok (ram.around address.toNat count) := by
  rw [Bus.readRange_eq, firstRefusal?_eq, List.map_map,
    show Demand.address ∘ Demand.read = id from rfl, List.map_id, map_byte_successive]
  cases ram.firstBeyond? (Bus.successive address count) <;> rfl

/-- No address of a range that ends inside memory lies beyond the end. -/
theorem firstBeyond?_successive_of_le {address : UInt16} {count : Nat}
    (h : address.toNat + count ≤ ram.size) :
    ram.firstBeyond? (Bus.successive address count) = none := by
  refine ram.firstBeyond?_eq_none fun a ha => ?_
  have hmem := List.mem_map_of_mem (f := UInt16.toNat) ha
  rw [Bus.map_toNat_successive_of_le (Nat.le_trans h ram.size_le)] at hmem
  have := List.mem_range'_1.mp hmem
  omega

/-- A range that ends inside memory. -/
theorem readRange_of_le {address : UInt16} {count : Nat} (h : address.toNat + count ≤ ram.size) :
    Bus.readRange ram address count = .ok (ram.slice address.toNat count) := by
  rw [readRange_eq, ram.firstBeyond?_successive_of_le h, ram.around_eq_slice h]

/-- A range that ends beyond the end of memory that is smaller than the address space. -/
theorem readRange_of_lt (hsize : ram.size < addressSpace) {address : UInt16} {count : Nat}
    (hpos : 0 < count) (h : ram.size < address.toNat + count) :
    Bus.readRange ram address count = .error ⟨max address.toNat ram.size, ram.size⟩ := by
  have hfirst := ram.firstBeyond?_successive hsize address count
  rw [if_neg (by omega)] at hfirst
  obtain ⟨beyond, hbeyond, hplace⟩ := Option.map_eq_some_iff.mp hfirst
  rw [readRange_eq, hbeyond, ← hplace]

/-- Memory that fills the address space has no end. -/
theorem readRange_of_full (hsize : ram.size = addressSpace) (address : UInt16) (count : Nat) :
    Bus.readRange ram address count = .ok (ram.around address.toNat count) := by
  have hinside : ram.firstBeyond? (Bus.successive address count) = none :=
    ram.firstBeyond?_eq_none fun a _ => hsize ▸ a.toNat_lt
  rw [readRange_eq, hinside]

end Ram

end Nmos6502
