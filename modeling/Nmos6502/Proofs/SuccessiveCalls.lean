import Mathlib.Data.List.Count
import Mathlib.Tactic.Common
import Nmos6502.Event
import Nmos6502.Proofs.ListingCommand

/-!
# Decoding call by call

Whoever decodes bytes one item at a time calls the cursor again and again, also after it has come to
the end. A call gives an item and moves the cursor past it, or it gives nothing and the cursor stays
where it is.

What a cursor holds are the bytes that are left, how many lie before them, and an address. These
three belong together: the bytes left are those behind the offset, which is at most the length, and
the address is as far from the start as the offset says. Every call keeps that. It carries the
rest. The step past an item is cut to what is left, so it cannot go beyond the end; and as it is at
least one byte, only so many calls give an item as there are bytes.

## Main definitions

* `Cursor.call`, `Cursor.afterCalls` — one call, and where the cursor is after some
* `Cursor.Within` — what belongs together in a cursor over some bytes
* `Cursor.Exhausted`, `Cursor.Yields` — the two things that a call can do

## Main results

* `Cursor.Within.call_cases` — a call does one of the two
* `Cursor.within_afterCalls` — what every call keeps
* `Cursor.call_afterCalls` — which item a call gives
* `Cursor.calls_spec` — everything about a call that comes after any number of others
-/

namespace Nmos6502

/-! ## Items of the three kinds -/

namespace Line

variable {line : Line}

theorem item_eq_ok_iff {instruction : Instruction} :
    line.item = .ok instruction ↔ line = .decoded instruction := by
  cases line <;> simp [item]

theorem item_eq_illegalOpcode_iff {opcode : UInt8} {address : UInt16} :
    line.item = .error (.illegalOpcode opcode address) ↔ line = .illegal address opcode := by
  cases line <;> simp [item, and_comm]

theorem exists_item_eq_incomplete_iff :
    (∃ address needed present, line.item = .error (.incomplete address needed present)) ↔
      ∃ address bytes, line = .truncated address bytes := by
  cases line <;> simp [item]

end Line

namespace Cursor

variable {bytes : List UInt8} {start : UInt16} {cursor following : Cursor}
  {item : Except Fault Instruction}

/-- What a call gives, and the cursor after it. -/
def call (cursor : Cursor) : Option (Except Fault Instruction) × Cursor :=
  match cursor.next? with
  | none => (none, cursor)
  | some (item, following) => (some item, following)

/-- The cursor after some calls. -/
def afterCalls (cursor : Cursor) : (calls : Nat) → Cursor
  | 0 => cursor
  | calls + 1 => (cursor.afterCalls calls).call.2

/-! ## One call -/

/-- The parts of a cursor belong together, over bytes that begin at `start`. -/
structure Within (cursor : Cursor) (bytes : List UInt8) (start : UInt16) : Prop where
  /-- The offset is not beyond the end. -/
  offset_le : cursor.offset ≤ bytes.length
  /-- What is left lies behind the offset. -/
  rest_eq : cursor.rest = bytes.drop cursor.offset
  /-- The address is as far on as the offset. -/
  address_eq : cursor.address = start + UInt16.ofNat cursor.offset

/-- A call at the end: it gives and reports nothing, and the cursor stays. -/
structure Exhausted (cursor : Cursor) (bytes : List UInt8) : Prop where
  /-- All bytes lie before the cursor. -/
  offset_eq : cursor.offset = bytes.length
  /-- There is no item, and the cursor stays. -/
  call_eq : cursor.call = (none, cursor)
  /-- Nothing is reported. -/
  event?_eq : cursor.event? = none

/-- A call before the end: it gives an item, reports the byte it has found at the old offset, and
moves the cursor on, by the size of the item but not beyond the end. -/
structure Yields (cursor : Cursor) (bytes : List UInt8) (item : Except Fault Instruction)
    (following : Cursor) : Prop where
  /-- There is a byte at the offset. -/
  offset_lt : cursor.offset < bytes.length
  /-- There is an item, and the cursor moves on. -/
  call_eq : cursor.call = (some item, following)
  /-- The byte is reported with its address and the size that the item claims. -/
  event?_eq : cursor.event? =
    some (.decoded bytes[cursor.offset] cursor.address (decodedSize item))
  /-- The size is cut to what is left. -/
  offset_following : following.offset =
    cursor.offset + min (decodedSize item) (bytes.length - cursor.offset)
  /-- The cursor moves by one byte at least. -/
  lt_offset_following : cursor.offset < following.offset
  /-- The cursor moves by three bytes at most. -/
  offset_following_le : following.offset ≤ cursor.offset + 3

theorem call_of_next?_eq_none (h : cursor.next? = none) : cursor.call = (none, cursor) := by
  rw [call, h]

theorem call_of_next?_eq_some (h : cursor.next? = some (item, following)) :
    cursor.call = (some item, following) := by
  rw [call, h]

/-- A call gives the first of the items, and leaves over those after it. -/
theorem call_eq_items (cursor : Cursor) :
    cursor.call.1 = cursor.items.head? ∧ cursor.call.2.items = cursor.items.tail := by
  cases h : cursor.next? with
  | none =>
    rw [call_of_next?_eq_none h, items_of_next?_eq_none h]
    exact ⟨rfl, rfl⟩
  | some result =>
    rw [call_of_next?_eq_some h, items_of_next?_eq_some h]
    exact ⟨rfl, rfl⟩

namespace Within

theorem length_rest (h : cursor.Within bytes start) :
    cursor.rest.length = bytes.length - cursor.offset := by
  rw [h.rest_eq, List.length_drop]

/-- Where nothing is left, the cursor is at the end. -/
theorem exhausted (h : cursor.Within bytes start) (hrest : cursor.rest = []) :
    cursor.Exhausted bytes where
  offset_eq := by
    have hlength := h.length_rest
    rw [hrest, List.length_nil] at hlength
    have hle := h.offset_le
    omega
  call_eq := call_of_next?_eq_none (by rw [next?, hrest]; rfl)
  event?_eq := by rw [event?, hrest]; rfl

/-- A cursor that moves past some of what is left is again one over the same bytes. -/
theorem advance (h : cursor.Within bytes start) (count : Nat) :
    (cursor.advance count).Within bytes start := by
  have hpassed : (cursor.rest.take count).length = min count (bytes.length - cursor.offset) := by
    rw [List.length_take, h.length_rest]
  have hle := h.offset_le
  refine ⟨?_, ?_, ?_⟩
  · simp only [Cursor.advance, hpassed]
    omega
  · rw [Cursor.advance, hpassed, h.rest_eq, List.drop_drop]
    dsimp only
    -- beyond the end, both leave nothing
    rcases Nat.le_total count (bytes.length - cursor.offset) with hcount | hcount
    · rw [Nat.min_eq_left hcount]
    · rw [Nat.min_eq_right hcount, List.drop_of_length_le (by omega),
        List.drop_of_length_le (by omega)]
  · simp only [Cursor.advance, h.address_eq, UInt16.ofNat_add, UInt16.add_assoc]

/-- Where something is left, a call gives what stands there. -/
theorem yields (h : cursor.Within bytes start) (hrest : cursor.rest ≠ []) :
    cursor.Yields bytes cursor.item cursor.following := by
  have hlt : cursor.offset < bytes.length := by
    have hpos := List.length_pos_iff.mpr hrest
    rw [h.length_rest] at hpos
    omega
  have hopcode : cursor.rest.head? = some bytes[cursor.offset] := by
    rw [h.rest_eq, List.head?_drop, List.getElem?_eq_getElem hlt]
  -- the line that stands here covers one to three bytes, and that is how far the cursor moves
  obtain ⟨line, rest, hbytes, opens⟩ := exists_opens hrest cursor.address
  have hmoved : cursor.following.offset = cursor.offset + line.bytes.length := by
    have hstep := (step_of_opens opens cursor.offset).2
    rw [← hbytes] at hstep
    exact congrArg offset hstep
  have hpos := List.length_pos_iff.mpr opens.bytes_ne_nil
  have hle := opens.length_bytes_le
  refine ⟨hlt, call_of_next?_eq_some (next?_eq_some_iff.mpr ⟨hrest, rfl, rfl⟩), ?_, ?_, ?_, ?_⟩
  · rw [event?, hopcode]
    rfl
  · rw [following, Cursor.advance, List.length_take, h.length_rest]
  · omega
  · omega

/-- **A call does one of two things.** At the end it does nothing. Before the end it gives an item
and moves the cursor, which stays one over the same bytes. -/
theorem call_cases (h : cursor.Within bytes start) :
    cursor.Exhausted bytes ∨
      ∃ item following, cursor.Yields bytes item following ∧ following.Within bytes start := by
  by_cases hrest : cursor.rest = []
  · exact .inl (h.exhausted hrest)
  · exact .inr ⟨_, _, h.yields hrest, h.advance _⟩

/-- A call that gives nothing is one at the end. -/
theorem exhausted_of_call (h : cursor.Within bytes start) (hnone : cursor.call.1 = none) :
    cursor.Exhausted bytes := by
  obtain exhausted | ⟨item, following, yields, -⟩ := h.call_cases
  · exact exhausted
  · rw [yields.call_eq] at hnone
    cases hnone

/-- A call that gives an item is one before the end. -/
theorem yields_of_call (h : cursor.Within bytes start) (hitem : cursor.call.1 = some item) :
    cursor.Yields bytes item cursor.call.2 := by
  obtain exhausted | ⟨given, following, yields, -⟩ := h.call_cases
  · rw [exhausted.call_eq] at hitem
    cases hitem
  · rw [yields.call_eq] at hitem ⊢
    cases hitem
    exact yields

theorem call_eq_none_iff (h : cursor.Within bytes start) :
    cursor.call.1 = none ↔ cursor.offset = bytes.length := by
  constructor
  · intro hnone
    exact (h.exhausted_of_call hnone).offset_eq
  · intro hend
    obtain exhausted | ⟨item, following, yields, -⟩ := h.call_cases
    · exact congrArg Prod.fst exhausted.call_eq
    · exact absurd hend (Nat.ne_of_lt yields.offset_lt)

theorem call (h : cursor.Within bytes start) : cursor.call.2.Within bytes start := by
  obtain exhausted | ⟨item, following, yields, hfollowing⟩ := h.call_cases
  · rw [exhausted.call_eq]
    exact h
  · rw [yields.call_eq]
    exact hfollowing

end Within

/-! ## Any number of calls -/

theorem within_start (bytes : List UInt8) (start : UInt16) :
    (Cursor.start bytes start).Within bytes start where
  offset_le := Nat.zero_le _
  rest_eq := rfl
  address_eq := (UInt16.add_zero start).symm

/-- **Every call keeps the parts of the cursor together.** -/
theorem within_afterCalls (bytes : List UInt8) (start : UInt16) (calls : Nat) :
    ((Cursor.start bytes start).afterCalls calls).Within bytes start := by
  induction calls with
  | zero => exact within_start bytes start
  | succ calls ih => exact ih.call

/-- The items that are left after some calls. -/
theorem items_afterCalls (cursor : Cursor) (calls : Nat) :
    (cursor.afterCalls calls).items = cursor.items.drop calls := by
  induction calls with
  | zero => rfl
  | succ calls ih => rw [afterCalls, (call_eq_items _).2, ih, List.tail_drop]

/-- **Which item a call gives**: after some calls it is the one with their number, if there is
one. -/
theorem call_afterCalls (cursor : Cursor) (calls : Nat) :
    (cursor.afterCalls calls).call.1 = cursor.items[calls]? := by
  rw [(call_eq_items _).1, items_afterCalls, List.head?_drop]

/-- How many of the first calls give an item. -/
def yieldCount (cursor : Cursor) (calls : Nat) : Nat :=
  (List.range calls).countP fun earlier => (cursor.afterCalls earlier).call.1.isSome

/-- Each call that gives an item has moved the cursor by a byte at least. -/
theorem yieldCount_le_offset (bytes : List UInt8) (start : UInt16) (calls : Nat) :
    (Cursor.start bytes start).yieldCount calls ≤
      ((Cursor.start bytes start).afterCalls calls).offset := by
  induction calls with
  | zero => exact Nat.zero_le _
  | succ calls ih =>
    rw [yieldCount, List.range_succ, List.countP_append, List.countP_singleton, afterCalls]
    rw [yieldCount] at ih
    obtain exhausted | ⟨item, following, yields, -⟩ :=
      (within_afterCalls bytes start calls).call_cases
    · rw [exhausted.call_eq]
      exact ih
    · have hlt := yields.lt_offset_following
      rw [yields.call_eq, Option.isSome_some, if_pos rfl]
      dsimp only
      omega

/-- The item a call gives is what was decoded where the line with its number stands. -/
theorem call_afterCalls_start (bytes : List UInt8) (start : UInt16) (calls : Nat) :
    ((Cursor.start bytes start).afterCalls calls).call.1 =
      (disassemble bytes start)[calls]?.map Line.item := by
  rw [call_afterCalls, items_start, List.getElem?_map]

/-- **A call that comes after any number of others.** The offset is within the bytes, so there is
something to subtract it from, and the address is as far from the start. The call gives nothing
exactly at the end, and then it reports nothing and changes nothing. If it gives an item, then it
moves the cursor by one to three bytes and reports, once, the byte at the old offset with its
address. No more calls give an item than there are bytes. What kind of item it is, the line of the
listing with the number of the call tells. -/
theorem calls_spec (bytes : List UInt8) (start : UInt16) (calls : Nat) :
    let cursor := (Cursor.start bytes start).afterCalls calls
    let line? := (disassemble bytes start)[calls]?
    cursor.offset ≤ bytes.length ∧
    cursor.rest = bytes.drop cursor.offset ∧
    cursor.address = start + UInt16.ofNat cursor.offset ∧
    (cursor.call.1 = none ↔ cursor.offset = bytes.length) ∧
    (cursor.call.1 = none → cursor.call.2 = cursor ∧ cursor.event? = none) ∧
    (∀ item, cursor.call.1 = some item →
      cursor.offset + 1 ≤ cursor.call.2.offset ∧ cursor.call.2.offset ≤ cursor.offset + 3 ∧
      cursor.call.2.offset =
        cursor.offset + min (decodedSize item) (bytes.length - cursor.offset) ∧
      ∃ opcode, bytes[cursor.offset]? = some opcode ∧
        cursor.event? = some (.decoded opcode cursor.address (decodedSize item))) ∧
    (Cursor.start bytes start).yieldCount calls ≤ bytes.length ∧
    (∀ instruction,
      cursor.call.1 = some (.ok instruction) ↔ line? = some (.decoded instruction)) ∧
    (∀ opcode address, cursor.call.1 = some (.error (.illegalOpcode opcode address)) ↔
      line? = some (.illegal address opcode)) ∧
    ((∃ address needed present,
        cursor.call.1 = some (.error (.incomplete address needed present))) ↔
      ∃ address rest, line? = some (.truncated address rest)) := by
  intro cursor line?
  have hwithin : cursor.Within bytes start := within_afterCalls bytes start calls
  have hcount : (Cursor.start bytes start).yieldCount calls ≤ cursor.offset :=
    yieldCount_le_offset bytes start calls
  have hcall : cursor.call.1 = line?.map Line.item := call_afterCalls_start bytes start calls
  refine ⟨hwithin.offset_le, hwithin.rest_eq, hwithin.address_eq, hwithin.call_eq_none_iff,
    fun hnone => ?nothing, fun item hitem => ?something, Nat.le_trans hcount hwithin.offset_le,
    fun instruction => ?whole, fun opcode address => ?illegal, ?truncated⟩
  case nothing =>
    have exhausted := hwithin.exhausted_of_call hnone
    exact ⟨congrArg Prod.snd exhausted.call_eq, exhausted.event?_eq⟩
  case something =>
    have yields := hwithin.yields_of_call hitem
    exact ⟨yields.lt_offset_following, yields.offset_following_le, yields.offset_following,
      _, List.getElem?_eq_getElem yields.offset_lt, yields.event?_eq⟩
  case whole =>
    simp only [hcall, Option.map_eq_some_iff, Line.item_eq_ok_iff, exists_eq_right]
  case illegal =>
    simp only [hcall, Option.map_eq_some_iff, Line.item_eq_illegalOpcode_iff, exists_eq_right]
  case truncated =>
    rw [hcall]
    cases line? with
    | none => simp
    | some line => simpa using line.exists_item_eq_incomplete_iff

/-- The third call finds an instruction that is cut off, at an address that has wrapped, and its
step is cut to the two bytes that are left. The fourth gives nothing, and the cursor stays. -/
theorem calls_spec_cut :
    let third := (Cursor.start [0xA9, 0x05, 0x02, 0x8D, 0x00] 0xFFFE).afterCalls 2
    third.address = 0x0001 ∧ third.event? = some (.decoded 0x8D 0x0001 3) ∧
      third.call.2.offset = third.offset + 2 ∧ third.call.2.call.1 = none ∧
      third.call.2.call.2 = third.call.2 := by
  intro third
  have hoffset : third.offset = 3 := by decide +kernel
  have hitem : third.call.1 = some (.error (.incomplete 0x0001 3 2)) := by decide +kernel
  have hnone : third.call.2.call.1 = none := by decide +kernel
  obtain ⟨-, -, haddress, -, -, something, -⟩ :=
    calls_spec [0xA9, 0x05, 0x02, 0x8D, 0x00] 0xFFFE 2
  obtain ⟨-, -, hcut, opcode, hopcode, hevent⟩ := something _ hitem
  obtain ⟨-, -, -, -, nothing, -⟩ := calls_spec [0xA9, 0x05, 0x02, 0x8D, 0x00] 0xFFFE 3
  rw [hoffset] at hopcode hcut haddress
  rw [haddress] at hevent
  cases hopcode
  rw [hoffset]
  exact ⟨haddress, hevent, hcut, hnone, (nothing hnone).1⟩

end Cursor

end Nmos6502
