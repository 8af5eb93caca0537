import Mathlib.Tactic.Common
import Nmos6502.Listing

/-!
# A listing, line by line

The cursor gathers the places it comes to and counts the bytes behind it, and a listing is what
stands at these places. Neither the gathering nor the counting shows in a line, so what a listing
is can be said without them. It is empty where there are no bytes. Otherwise it has a line that
stands for the bytes in front, and is followed by the listing of the others, as many addresses
further on as the line has bytes.

There are three kinds of lines to begin with: a whole instruction, a byte that begins nothing, and
the bytes of an instruction that is cut off, after which nothing is left. A proof about listings
treats these three cases once, for the first line, and goes on by induction.

## Main definitions

* `Line.Opens` — a line begins a listing, with some bytes left after it
* `Tiles` — lines that begin one after the other until no byte is left

## Main results

* `Cursor.step_of_opens` — a cursor shows the line it stands at and moves past its bytes
* `disassemble_eq_iff` — a listing is what covers the bytes without a gap
* `Tiles.flatMap_bytes` — so the bytes of its lines, one after the other, are all the bytes
-/

namespace Nmos6502

/-! ## The first line -/

/-- A line begins a listing at `start`, and the bytes of `rest` are left after it. -/
inductive Line.Opens : Line → (start : UInt16) → (rest : List UInt8) → Prop
  /-- All bytes of an instruction are there. -/
  | decoded {opcode : UInt8} {operation : Operation} (legal : operation? opcode = some operation)
    {operand : List UInt8} (whole : operand.length = operation.mode.operandLength)
    (start : UInt16) (rest : List UInt8) :
    Opens (.decoded (.ofOperation start opcode operation (opcode :: operand))) start rest
  /-- A byte begins no instruction. -/
  | illegal {opcode : UInt8} (unknown : operation? opcode = none) (start : UInt16)
    (rest : List UInt8) : Opens (.illegal start opcode) start rest
  /-- The bytes end inside an instruction. -/
  | truncated {opcode : UInt8} {operation : Operation} (legal : operation? opcode = some operation)
    {operand : List UInt8} (short : operand.length < operation.mode.operandLength)
    (start : UInt16) : Opens (.truncated start (opcode :: operand)) start []

namespace Line.Opens

variable {line : Line} {start : UInt16} {rest : List UInt8}

theorem address_eq (h : line.Opens start rest) : line.address = start := by
  cases h <;> rfl

theorem bytes_ne_nil (h : line.Opens start rest) : line.bytes ≠ [] := by
  cases h <;> exact List.cons_ne_nil _ _

/-- A line covers at most three bytes. -/
theorem length_bytes_le (h : line.Opens start rest) : line.bytes.length ≤ 3 := by
  cases h with
  | @decoded _ operation _ operand whole =>
    have hsize := operation.mode.size_le_three
    simp only [Line.bytes, Instruction.ofOperation, List.length_cons, whole]
    simp only [Mode.size] at hsize
    omega
  | illegal => exact Nat.le_add_left 1 2
  | @truncated _ operation _ operand short =>
    have hsize := operation.mode.size_le_three
    simp only [Line.bytes, List.length_cons]
    simp only [Mode.size] at hsize
    omega

end Line.Opens

/-- Some line stands for the first of some bytes. -/
theorem exists_opens {bytes : List UInt8} (h : bytes ≠ []) (start : UInt16) :
    ∃ (line : Line) (rest : List UInt8), bytes = line.bytes ++ rest ∧ line.Opens start rest := by
  obtain ⟨opcode, later, rfl⟩ := List.exists_cons_of_ne_nil h
  cases ho : operation? opcode with
  | none => exact ⟨_, later, rfl, .illegal ho start later⟩
  | some operation =>
    by_cases hlen : later.length < operation.mode.operandLength
    · exact ⟨_, [], (List.append_nil _).symm, .truncated ho hlen start⟩
    · have hwhole : (later.take operation.mode.operandLength).length =
          operation.mode.operandLength :=
        List.length_take_of_le (Nat.not_lt.mp hlen)
      refine ⟨_, later.drop operation.mode.operandLength, ?_, .decoded ho hwhole start _⟩
      show opcode :: later = opcode :: (_ ++ _)
      rw [List.take_append_drop]

/-! ## The cursor at a line -/

namespace Instruction

variable {opcode : UInt8} {operation : Operation} {operand : List UInt8}

theorem length_of_whole (whole : operand.length = operation.mode.operandLength) :
    (opcode :: operand).length = operation.size := by
  rw [Operation.size, Mode.size, List.length_cons, whole, Nat.add_comm]

theorem length_of_short (short : operand.length < operation.mode.operandLength) :
    (opcode :: operand).length < operation.size := by
  rw [Operation.size, Mode.size, List.length_cons]
  omega

theorem decode_of_whole (legal : operation? opcode = some operation)
    (whole : operand.length = operation.mode.operandLength) (start : UInt16)
    (rest : List UInt8) :
    decode (opcode :: operand ++ rest) start =
      .ok (ofOperation start opcode operation (opcode :: operand)) := by
  have hsize : (opcode :: operand).length = operation.size := length_of_whole whole
  have htake : (opcode :: (operand ++ rest)).take operation.size = opcode :: operand := by
    rw [← hsize]
    exact List.take_left
  simp only [List.cons_append, decode, legal, htake]
  rw [if_neg (Nat.not_lt.mpr (Nat.le_of_eq hsize.symm))]

theorem decode_of_short (legal : operation? opcode = some operation)
    (short : operand.length < operation.mode.operandLength) (start : UInt16) :
    decode (opcode :: operand) start =
      .error (.incomplete start operation.size (opcode :: operand).length) := by
  have hsize : (opcode :: operand).length < operation.size := length_of_short short
  have htake : (opcode :: operand).take operation.size = opcode :: operand :=
    List.take_of_length_le (Nat.le_of_lt hsize)
  simp only [decode, legal, htake]
  rw [if_pos hsize]

theorem decode_of_unknown (unknown : operation? opcode = none) (start : UInt16)
    (rest : List UInt8) : decode (opcode :: rest) start = .error (.illegalOpcode opcode start) := by
  simp only [decode, unknown]

end Instruction

namespace Cursor

variable {line : Line} {start : UInt16} {rest : List UInt8}

/-- Moving past some bytes leads to what comes after them. -/
theorem advance_length (bytes rest : List UInt8) (offset : Nat) (start : UInt16) :
    (⟨bytes ++ rest, offset, start⟩ : Cursor).advance bytes.length =
      ⟨rest, offset + bytes.length, start + UInt16.ofNat bytes.length⟩ := by
  simp only [advance, List.take_left, List.drop_left]

/-- Moving past more than there is leads to the end. -/
theorem advance_of_length_le {bytes : List UInt8} {count : Nat} (h : bytes.length ≤ count)
    (offset : Nat) (start : UInt16) :
    (⟨bytes, offset, start⟩ : Cursor).advance count =
      ⟨[], offset + bytes.length, start + UInt16.ofNat bytes.length⟩ := by
  simp only [advance, List.take_of_length_le h, List.drop_of_length_le h]

/-- A cursor that stands at a line shows the line, and moves past its bytes. -/
theorem step_of_opens (h : line.Opens start rest) (offset : Nat) :
    (⟨line.bytes ++ rest, offset, start⟩ : Cursor).line? = some line ∧
      (⟨line.bytes ++ rest, offset, start⟩ : Cursor).following =
        ⟨rest, offset + line.bytes.length, start + UInt16.ofNat line.bytes.length⟩ := by
  cases h with
  | @decoded opcode operation legal operand whole =>
    change line? ⟨opcode :: operand ++ rest, offset, start⟩ = _ ∧
      following ⟨opcode :: operand ++ rest, offset, start⟩ = _
    rw [line?, following, item, Instruction.decode_of_whole legal whole]
    refine ⟨rfl, ?_⟩
    change advance _ operation.size = _
    rw [← Instruction.length_of_whole whole]
    exact advance_length (opcode :: operand) rest offset start
  | @illegal opcode unknown =>
    change line? ⟨opcode :: rest, offset, start⟩ = _ ∧
      following ⟨opcode :: rest, offset, start⟩ = _
    rw [line?, following, item, Instruction.decode_of_unknown unknown]
    exact ⟨rfl, advance_length [opcode] rest offset start⟩
  | @truncated opcode operation legal operand short =>
    change line? ⟨opcode :: operand ++ [], offset, start⟩ = _ ∧
      following ⟨opcode :: operand ++ [], offset, start⟩ = _
    rw [List.append_nil, line?, following, item, Instruction.decode_of_short legal short]
    refine ⟨rfl, ?_⟩
    exact advance_of_length_le (Nat.le_of_lt (Instruction.length_of_short short)) offset start

/-! ### All places -/

/-- What was gathered before does not matter. -/
theorem placesFrom_eq (cursor : Cursor) (found : List Cursor) :
    cursor.placesFrom found = found.reverse ++ cursor.places := by
  induction hn : cursor.rest.length using Nat.strongRecOn generalizing cursor found with
  | _ n ih =>
    rw [places, placesFrom.eq_def cursor found, placesFrom.eq_def cursor []]
    split
    next hrest => simp only [List.reverse_cons, List.reverse_nil, List.nil_append]
    next hrest =>
      have hlater := fun found =>
        ih _ (hn ▸ length_rest_following_lt hrest) cursor.following found rfl
      rw [hlater, hlater [cursor], List.reverse_cons, List.append_assoc]
      rfl

theorem places_of_rest_eq_nil {cursor : Cursor} (h : cursor.rest = []) :
    cursor.places = [cursor] := by
  rw [places, placesFrom, dif_pos h]
  rfl

theorem places_of_rest_ne_nil {cursor : Cursor} (h : cursor.rest ≠ []) :
    cursor.places = cursor :: cursor.following.places := by
  rw [places, placesFrom, dif_neg h, placesFrom_eq]
  rfl

/-- The lines that stand at the places from a cursor on. -/
def lines (cursor : Cursor) : List Line := cursor.places.filterMap line?

theorem lines_nil (offset : Nat) (start : UInt16) :
    (⟨[], offset, start⟩ : Cursor).lines = [] := by
  rw [lines, places_of_rest_eq_nil rfl]
  rfl

theorem lines_of_opens (h : line.Opens start rest) (offset : Nat) :
    (⟨line.bytes ++ rest, offset, start⟩ : Cursor).lines =
      line :: lines ⟨rest, offset + line.bytes.length, start + UInt16.ofNat line.bytes.length⟩ := by
  obtain ⟨hline, hfollowing⟩ := step_of_opens h offset
  have hrest : line.bytes ++ rest ≠ [] := List.append_ne_nil_of_left_ne_nil h.bytes_ne_nil _
  rw [lines, places_of_rest_ne_nil hrest, List.filterMap_cons_some hline, hfollowing]
  rfl

end Cursor

/-! ## All lines -/

/-- Lines that begin one after the other, from `start` on, until no byte is left. -/
inductive Tiles : (bytes : List UInt8) → (start : UInt16) → List Line → Prop
  /-- Where there are no bytes there is no line. -/
  | nil (start : UInt16) : Tiles [] start []
  /-- The first line, and the lines for what is left after it. -/
  | cons {line : Line} {start : UInt16} {rest : List UInt8} {lines : List Line}
    (opens : line.Opens start rest)
    (later : Tiles rest (start + UInt16.ofNat line.bytes.length) lines) :
    Tiles (line.bytes ++ rest) start (line :: lines)

namespace Tiles

variable {bytes : List UInt8} {start : UInt16} {lines : List Line}

/-- Together the lines have all the bytes. -/
theorem flatMap_bytes (h : Tiles bytes start lines) : lines.flatMap Line.bytes = bytes := by
  induction h with
  | nil => rfl
  | cons _ _ ih => rw [List.flatMap_cons, ih]

/-- Every line begins a listing where it stands. -/
theorem exists_opens_of_mem (h : Tiles bytes start lines) {line : Line} (hl : line ∈ lines) :
    ∃ rest, line.Opens line.address rest := by
  induction h with
  | nil => cases hl
  | cons opens _ ih =>
    rcases List.mem_cons.mp hl with rfl | hl
    · exact ⟨_, opens.address_eq.symm ▸ opens⟩
    · exact ih hl

theorem lines_eq (h : Tiles bytes start lines) (offset : Nat) :
    (⟨bytes, offset, start⟩ : Cursor).lines = lines := by
  induction h generalizing offset with
  | nil => exact Cursor.lines_nil ..
  | cons opens _ ih => rw [Cursor.lines_of_opens opens, ih]

end Tiles

/-- Some lines cover the bytes without a gap. -/
theorem exists_tiles (bytes : List UInt8) (start : UInt16) : ∃ lines, Tiles bytes start lines := by
  induction hn : bytes.length using Nat.strongRecOn generalizing bytes start with
  | _ n ih =>
    by_cases hbytes : bytes = []
    · rw [hbytes]
      exact ⟨[], .nil start⟩
    · obtain ⟨line, rest, rfl, opens⟩ := exists_opens hbytes start
      have hshorter : rest.length < n := by
        have := List.length_pos_iff.mpr opens.bytes_ne_nil
        rw [← hn, List.length_append]
        omega
      obtain ⟨lines, later⟩ := ih _ hshorter rest _ rfl
      exact ⟨line :: lines, .cons opens later⟩

/-- **A listing is what covers the bytes without a gap.** -/
theorem disassemble_eq_iff {bytes : List UInt8} {start : UInt16} {lines : List Line} :
    disassemble bytes start = lines ↔ Tiles bytes start lines := by
  constructor
  · rintro rfl
    obtain ⟨lines, h⟩ := exists_tiles bytes start
    have hlines : disassemble bytes start = lines := h.lines_eq 0
    rw [hlines]
    exact h
  · intro h
    exact h.lines_eq 0

theorem tiles_disassemble (bytes : List UInt8) (start : UInt16) :
    Tiles bytes start (disassemble bytes start) :=
  disassemble_eq_iff.mp rfl

end Nmos6502
