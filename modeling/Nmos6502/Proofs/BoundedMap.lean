import Mathlib.Tactic.Common
import Nmos6502.Proofs.Loading
import Nmos6502.Session.Memory

/-!
# Plain memory is a bounded map

Whatever is asked of plain memory, its size stays. The size is all that decides whether an access is
granted: a byte is where its address is below the size, and a range is loaded if it ends there. What
is not granted changes nothing. So what a byte is can be told from the requests alone. It is what
the last of them that was granted has stored there, and zero if there is none.

A load writes its bytes one by one. The address it goes on with is computed around the end of the
address space, but a range that fits never gets there: it may end with the last address, and then no
byte is left to be written. To say so, the same writes are made at numbers, which do not wrap.

What one request does is said once for all of them, in `Ram.perform_cases`. A run of requests is an
induction over it.

## Main definitions

* `Bus.writeEach?` — bytes written one by one, at numbers
* `MemoryRequest.stores?` — the byte that a request stores at an address
* `MemoryRequest.performAll`, `MemoryRequest.granted` — memory after some requests, and those of
  them that were granted
* `MemoryRequest.lastStored?` — the byte that some requests have stored last at an address

## Main results

* `Ram.store_of_le` — a range that fits is written without a wrap and without a refusal
* `Ram.getD_performAll` — what memory holds after some requests
* `Ram.bounded_map` — everything that requests to fresh memory can bring about
-/

namespace Nmos6502

/-- The byte at `other`, if the range of `bytes` from `place` on has one there. -/
def byteInRange? (place : Nat) (bytes : List UInt8) (other : Nat) : Option UInt8 :=
  if place ≤ other then bytes[other - place]? else none

theorem byteInRange?_nil (place other : Nat) : byteInRange? place [] other = none := by
  simp [byteInRange?]

theorem byteInRange?_cons (place : Nat) (value : UInt8) (values : List UInt8) (other : Nat) :
    byteInRange? place (value :: values) other =
      if other = place then some value else byteInRange? (place + 1) values other := by
  unfold byteInRange?
  by_cases hplace : other = place
  · simp [hplace]
  · by_cases hle : place + 1 ≤ other
    · have hindex : other - place = other - (place + 1) + 1 := by omega
      rw [if_pos (by omega), if_neg hplace, if_pos hle, hindex, List.getElem?_cons_succ]
    · rw [if_neg (by omega), if_neg hplace, if_neg hle]

/-- A range has no byte before its first. -/
theorem byteInRange?_of_lt {place other : Nat} (h : other < place) (bytes : List UInt8) :
    byteInRange? place bytes other = none :=
  if_neg (Nat.not_le.mpr h)

namespace Bus

variable {M : Type} [Bus M]

/-- Bytes written one by one, at `place` and the numbers after it. There is no outcome if a number
is no address, or if a write is refused. -/
def writeEach? (memory : M) (place : Nat) : List UInt8 → Option M
  | [] => some memory
  | value :: values =>
    if place < addressSpace then
      match write memory (UInt16.ofNat place) value with
      | .ok after => writeEach? after (place + 1) values
      | .error _ => none
    else none

end Bus

/-! ## Requests -/

namespace MemoryRequest

/-- The byte that a request stores at an address, if it is granted. -/
def stores? (request : MemoryRequest) (place : Nat) : Option UInt8 :=
  match request with
  | .write address value => if place = address.toNat then some value else none
  | .load offset bytes => byteInRange? offset.toNat bytes place
  | _ => none

/-- The byte that some requests have stored last at an address. -/
def lastStored? (requests : List MemoryRequest) (place : Nat) : Option UInt8 :=
  requests.reverse.findSome? fun request => request.stores? place

theorem lastStored?_cons (request : MemoryRequest) (requests : List MemoryRequest) (place : Nat) :
    lastStored? (request :: requests) place =
      (lastStored? requests place).or (request.stores? place) := by
  rw [lastStored?, List.reverse_cons, List.findSome?_append]
  simp [lastStored?]

variable {M : Type} [Bus M]

/-- Memory after some requests, one after the other. -/
def performAll (memory : M) : List MemoryRequest → M
  | [] => memory
  | request :: requests => performAll (request.perform memory).state requests

/-- Those of some requests that are granted. -/
def granted (memory : M) : List MemoryRequest → List MemoryRequest
  | [] => []
  | request :: requests =>
    let reply := request.perform memory
    match reply.result with
    | .ok _ => request :: granted reply.state requests
    | .error _ => granted reply.state requests

end MemoryRequest

/-! ## One access -/

namespace Ram

variable {ram : Ram} {address : UInt16} {place : Nat}

theorem read_eq_ok_iff {byte : UInt8} :
    Bus.read ram address = .ok byte ↔
      address.toNat < ram.size ∧ byte = ram.bytes.getD address.toNat 0 := by
  rw [read_eq]
  by_cases h : ram.size ≤ address.toNat
  · simp [h, Nat.not_lt.mpr h]
  · simp [h, Nat.not_le.mp h, eq_comm]

theorem write_of_lt (h : address.toNat < ram.size) (value : UInt8) :
    Bus.write ram address value = .ok (ram.put address value) := by
  rw [write_eq, if_neg (Nat.not_le.mpr h)]

theorem write_eq_ok_iff {value : UInt8} {after : Ram} :
    Bus.write ram address value = .ok after ↔
      address.toNat < ram.size ∧ after = ram.put address value := by
  rw [write_eq]
  by_cases h : ram.size ≤ address.toNat
  · simp [h, Nat.not_lt.mpr h]
  · simp [h, Nat.not_le.mp h, eq_comm]

theorem getD_put (h : address.toNat < ram.size) (value : UInt8) (place : Nat) :
    (ram.put address value).bytes.getD place 0 =
      if place = address.toNat then value else ram.bytes.getD place 0 := by
  rw [size] at h
  rw [put, Array.getD_eq_getD_getElem?, Array.getElem?_setIfInBounds, Array.getD_eq_getD_getElem?]
  by_cases hplace : place = address.toNat
  · simp [hplace, h]
  · simp [hplace, Ne.symm hplace]

/-- **A range that fits** is written without a wrap and without a refusal. It holds the bytes then,
and all else is as before. -/
theorem store_of_le {bytes : List UInt8} (h : place + bytes.length ≤ ram.size) :
    ∃ after, Bus.store ram (UInt16.ofNat place) bytes = (.ok (), after) ∧
      Bus.writeEach? ram place bytes = some after ∧ after.size = ram.size ∧
      ∀ other, after.bytes.getD other 0 =
        (byteInRange? place bytes other).getD (ram.bytes.getD other 0) := by
  induction bytes generalizing ram place with
  | nil => exact ⟨ram, rfl, rfl, rfl, fun other => by rw [byteInRange?_nil]; rfl⟩
  | cons value values ih =>
    rw [List.length_cons] at h
    have hspace : place < addressSpace := by
      have := ram.size_le
      rw [size] at h
      omega
    have haddress : (UInt16.ofNat place).toNat = place := UInt16.toNat_ofNat_of_lt' hspace
    have hlt : (UInt16.ofNat place).toNat < ram.size := by omega
    have hfits : place + 1 + values.length ≤ (ram.put (UInt16.ofNat place) value).size := by
      rw [size_put]
      omega
    obtain ⟨after, hstore, heach, hsize, hbytes⟩ := ih hfits
    refine ⟨after, ?_, ?_, hsize.trans (size_put ..), fun other => ?_⟩
    · rw [Bus.store_cons_ok]
      refine ⟨refusal?_eq_none_iff.mpr hlt, ?_⟩
      -- A load goes on at `UInt16.ofNat place + 1`, which may wrap if nothing is left to write.
      rwa [UInt16.ofNat_add] at hstore
    · rw [Bus.writeEach?, if_pos hspace, write_of_lt hlt]
      exact heach
    · rw [hbytes, getD_put hlt, haddress, byteInRange?_cons]
      by_cases hother : other = place
      · rw [if_pos hother, if_pos hother, byteInRange?_of_lt (by omega)]
        rfl
      · rw [if_neg hother, if_neg hother]

theorem load_cases (ram : Ram) (offset : UInt16) (bytes : List UInt8) :
    (ram.size < offset.toNat + bytes.length ∧
      ∃ cause, Bus.load ram offset bytes = (.error cause, ram)) ∨
    offset.toNat + bytes.length ≤ ram.size ∧
      ∃ after, Bus.load ram offset bytes = (.ok (), after) ∧
        Bus.writeEach? ram offset.toNat bytes = some after ∧ after.size = ram.size ∧
        ∀ other, after.bytes.getD other 0 =
          (byteInRange? offset.toNat bytes other).getD (ram.bytes.getD other 0) := by
  rcases Nat.lt_or_ge ram.size (offset.toNat + bytes.length) with hlong | hfits
  · exact .inl ⟨hlong, _, Bus.load_of_lt hlong⟩
  · obtain ⟨after, hstore, hrest⟩ := store_of_le hfits
    rw [UInt16.ofNat_toNat] at hstore
    exact .inr ⟨hfits, after, (Bus.load_of_le hfits).trans hstore, hrest⟩

theorem load_eq_ok_iff {offset : UInt16} {bytes : List UInt8} :
    (∃ after, Bus.load ram offset bytes = (.ok (), after)) ↔
      offset.toNat + bytes.length ≤ ram.size := by
  rcases ram.load_cases offset bytes with ⟨hlong, cause, hload⟩ | ⟨hfits, after, hload, -⟩
  · simp [hload, hlong]
  · exact ⟨fun _ => hfits, fun _ => ⟨after, hload⟩⟩

/-! ## Any requests -/

/-- **What a request does.** It fails and changes nothing, or it is granted, and then memory holds
what it stores and is as before in all other places. -/
theorem perform_cases (ram : Ram) (request : MemoryRequest) :
    (∃ failure, (request.perform ram).result = .error failure ∧
      (request.perform ram).state = ram) ∨
    ∃ answer, (request.perform ram).result = .ok answer ∧
      (request.perform ram).state.size = ram.size ∧
      ∀ place, (request.perform ram).state.bytes.getD place 0 =
        (request.stores? place).getD (ram.bytes.getD place 0) := by
  cases request with
  | read address =>
    rw [MemoryRequest.perform]
    cases Bus.read ram address with
    | error cause => exact .inl ⟨_, rfl, rfl⟩
    | ok byte => exact .inr ⟨_, rfl, rfl, fun _ => rfl⟩
  | write address value =>
    rw [MemoryRequest.perform, Bus.writeAll]
    cases hr : Bus.refusal? ram address value with
    | some cause => exact .inl ⟨_, rfl, rfl⟩
    | none =>
      refine .inr ⟨_, rfl, size_put .., fun place => ?_⟩
      refine (getD_put (refusal?_eq_none_iff.mp hr) value place).trans ?_
      rw [MemoryRequest.stores?]
      split <;> rfl
  | check address =>
    rw [MemoryRequest.perform]
    cases Bus.check ram address with
    | error cause => exact .inl ⟨_, rfl, rfl⟩
    | ok => exact .inr ⟨_, rfl, rfl, fun _ => rfl⟩
  | load offset bytes =>
    rw [MemoryRequest.perform]
    rcases ram.load_cases offset bytes with
      ⟨-, cause, hload⟩ | ⟨-, after, hload, -, hsize, hbytes⟩
    · rw [hload]
      exact .inl ⟨_, rfl, rfl⟩
    · rw [hload]
      exact .inr ⟨_, rfl, hsize, hbytes⟩
  | size => exact .inr ⟨_, rfl, rfl, fun _ => rfl⟩
  | decodeAt address =>
    rw [MemoryRequest.perform]
    cases Instruction.decodeAt ram address with
    | error fault => exact .inl ⟨_, rfl, rfl⟩
    | ok instruction => exact .inr ⟨_, rfl, rfl, fun _ => rfl⟩
  | disassemble address count =>
    rw [MemoryRequest.perform]
    cases disassembleMemory ram address count with
    | error fault => exact .inl ⟨_, rfl, rfl⟩
    | ok lines => exact .inr ⟨_, rfl, rfl, fun _ => rfl⟩

open MemoryRequest

theorem size_performAll (ram : Ram) (requests : List MemoryRequest) :
    (performAll ram requests).size = ram.size := by
  induction requests generalizing ram with
  | nil => rfl
  | cons request requests ih =>
    rw [performAll, ih]
    rcases ram.perform_cases request with ⟨failure, -, hstate⟩ | ⟨answer, -, hsize, -⟩
    · rw [hstate]
    · exact hsize

/-- **What memory holds** after some requests is what those that were granted have stored. -/
theorem getD_performAll (ram : Ram) (requests : List MemoryRequest) (place : Nat) :
    (performAll ram requests).bytes.getD place 0 =
      (lastStored? (granted ram requests) place).getD (ram.bytes.getD place 0) := by
  induction requests generalizing ram with
  | nil => rfl
  | cons request requests ih =>
    rw [performAll, ih, granted]
    rcases ram.perform_cases request with
      ⟨failure, hresult, hstate⟩ | ⟨answer, hresult, -, hbytes⟩
    · simp only [hresult, hstate]
    · simp only [hresult, hbytes, lastStored?_cons]
      cases lastStored? (granted (request.perform ram).state requests) place <;> rfl

theorem getD_zeros {n : Nat} (hpos : 0 < n) (hle : n ≤ addressSpace) (place : Nat) :
    (zeros n hpos hle).bytes.getD place 0 = 0 := by
  rw [zeros, Array.getD_eq_getD_getElem?, Array.getElem?_replicate]
  split <;> rfl

/-- **Plain memory is a bounded map.** After any requests to fresh memory its size is what it was.
The addresses below the size, and no others, can be read and written and pass the check. A range is
loaded if and only if it ends below the size or at it, and then the load does what writing the bytes
one by one does, at numbers that all are addresses. A request that fails changes nothing. The byte
at an address is what was last stored there, and zero if nothing was. -/
theorem bounded_map {n : Nat} (hpos : 0 < n) (hle : n ≤ addressSpace)
    (requests : List MemoryRequest) :
    let ram := performAll (zeros n hpos hle) requests
    Bus.size ram = n ∧
      (∀ address, ((∃ byte, Bus.read ram address = .ok byte) ↔ address.toNat < n) ∧
        (∀ value, (∃ after, Bus.write ram address value = .ok after) ↔ address.toNat < n) ∧
        (Bus.check ram address = .ok () ↔ address.toNat < n)) ∧
      (∀ offset bytes,
        ((∃ after, Bus.load ram offset bytes = (.ok (), after)) ↔
          offset.toNat + bytes.length ≤ n) ∧
        ∀ after, Bus.load ram offset bytes = (.ok (), after) →
          Bus.writeEach? ram offset.toNat bytes = some after) ∧
      (∀ (request : MemoryRequest) failure, (request.perform ram).result = .error failure →
        (request.perform ram).state = ram) ∧
      ∀ address byte, Bus.read ram address = .ok byte ↔ address.toNat < n ∧
        byte = (lastStored? (granted (zeros n hpos hle) requests) address.toNat).getD 0 := by
  intro ram
  have hsize : ram.size = n := (size_performAll ..).trans Array.size_replicate
  refine ⟨hsize, fun address => ⟨?_, fun value => ?_, ?_⟩, fun offset bytes => ⟨?_, ?_⟩,
    fun request failure hfails => ?_, fun address byte => ?_⟩
  · simp [read_eq_ok_iff, hsize]
  · simp [write_eq_ok_iff, hsize]
  · rw [check_eq_ok_iff, hsize]
  · rw [load_eq_ok_iff, hsize]
  · intro after hload
    rcases ram.load_cases offset bytes with ⟨-, cause, hrefused⟩ | ⟨-, loaded, hloaded, heach, -⟩
    · rw [hrefused] at hload
      cases hload
    · rw [hloaded] at hload
      cases hload
      exact heach
  · rcases ram.perform_cases request with ⟨-, -, hstate⟩ | ⟨answer, hgranted, -⟩
    · exact hstate
    · rw [hgranted] at hfails
      cases hfails
  · rw [read_eq_ok_iff, hsize, getD_performAll, getD_zeros]

/-- Five bytes of memory: a write, two loads of which one is too long, and two writes of which one
goes beyond the end. -/
theorem bounded_map_overlapping :
    let requests : List MemoryRequest := [.write 0x0001 0xA9, .load 0x0000 [0x01, 0x02, 0x03],
      .load 0x0003 [0x04, 0x05, 0x06], .write 0x0005 0x07, .write 0x0002 0x08]
    0 < 5 ∧ 5 ≤ addressSpace ∧
      let ram := performAll (zeros 5 (by decide) (by decide)) requests
      Bus.read ram 0x0001 = .ok 0x02 ∧ Bus.read ram 0x0002 = .ok 0x08 ∧
        Bus.read ram 0x0003 = .ok 0x00 ∧ (¬ ∃ byte, Bus.read ram 0x0005 = .ok byte) ∧
        ∃ after, Bus.load ram 0x0002 [0x0A, 0x0B, 0x0C] = (.ok (), after) ∧
          Bus.writeEach? ram 2 [0x0A, 0x0B, 0x0C] = some after := by
  intro requests
  refine ⟨by decide, by decide, ?_⟩
  intro ram
  obtain ⟨-, haccess, hload, -, hread⟩ := bounded_map (n := 5) (by decide) (by decide) requests
  obtain ⟨hloads, heach⟩ := hload 0x0002 [0x0A, 0x0B, 0x0C]
  obtain ⟨after, hafter⟩ := hloads.mpr (by decide)
  refine ⟨(hread _ _).mpr (by decide +kernel), (hread _ _).mpr (by decide +kernel),
    (hread _ _).mpr (by decide +kernel), fun hbeyond => ?_, after, hafter, heach after hafter⟩
  exact absurd ((haccess _).1.mp hbeyond) (by decide)

end Ram

end Nmos6502
