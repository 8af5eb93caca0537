import Nmos6502.Instruction

/-!
# Disassembly

A cursor moves through a list of bytes and decodes as it goes. It always moves on: past a whole
instruction, past one illegal byte, or, where the bytes end inside an instruction, to the end. The
address it counts along wraps like every address.

A listing has one line for each move. The lines cover the bytes without a gap, so the bytes can be
had back from the listing.

## Main definitions

* `Cursor`, `Cursor.next?` — one move and what was decoded
* `Cursor.places` — all places a cursor comes to, the end included
* `Line`, with `Line.address` and `Line.bytes`
* `disassemble` — the lines of a list of bytes
* `disassembleMemory` — the lines of a range of memory
-/

namespace Nmos6502

/-- A place in a list of bytes that is being decoded. -/
structure Cursor where
  /-- The bytes from the place on. -/
  rest : List UInt8
  /-- How many bytes lie before the place. -/
  offset : Nat
  /-- The address of the place. -/
  address : UInt16

/-- How many bytes a decoded item stands for. For an instruction that is cut off this is its whole
length. -/
def decodedSize : Except Fault Instruction → Nat
  | .ok instruction => instruction.size
  | .error (.incomplete _ needed _) => needed
  | .error _ => 1

/-- A line of a listing. -/
inductive Line where
  /-- A whole instruction. -/
  | decoded (instruction : Instruction)
  /-- A byte that begins no instruction. -/
  | illegal (address : UInt16) (opcode : UInt8)
  /-- The bytes of an instruction that is cut off by the end. -/
  | truncated (address : UInt16) (bytes : List UInt8)
  deriving DecidableEq

namespace Line

/-- Where the line begins. -/
def address : Line → UInt16
  | .decoded instruction => instruction.address
  | .illegal address _ => address
  | .truncated address _ => address

/-- The bytes the line covers. -/
def bytes : Line → List UInt8
  | .decoded instruction => instruction.raw
  | .illegal _ opcode => [opcode]
  | .truncated _ bytes => bytes

end Line

namespace Cursor

/-- The start of `bytes`, which begin at `address`. -/
def start (bytes : List UInt8) (address : UInt16) : Cursor := ⟨bytes, 0, address⟩

/-- The place `count` bytes further on, or the end. -/
def advance (cursor : Cursor) (count : Nat) : Cursor :=
  let passed := (cursor.rest.take count).length
  ⟨cursor.rest.drop count, cursor.offset + passed, cursor.address + UInt16.ofNat passed⟩

/-- What stands at the cursor. -/
def item (cursor : Cursor) : Except Fault Instruction :=
  Instruction.decode cursor.rest cursor.address

/-- The place after what stands at the cursor. -/
def following (cursor : Cursor) : Cursor :=
  cursor.advance (decodedSize cursor.item)

/-- Decodes what stands at the cursor and moves past it; `none` at the end. -/
def next? (cursor : Cursor) : Option (Except Fault Instruction × Cursor) :=
  if cursor.rest.isEmpty then none else some (cursor.item, cursor.following)

/-- The line for what stands at the cursor; `none` at the end. -/
def line? (cursor : Cursor) : Option Line :=
  if cursor.rest.isEmpty then none
  else
    match cursor.item with
    | .ok instruction => some (.decoded instruction)
    | .error (.illegalOpcode opcode _) => some (.illegal cursor.address opcode)
    | .error _ => some (.truncated cursor.address cursor.rest)

theorem decodedSize_item_pos {cursor : Cursor} (h : cursor.rest ≠ []) :
    0 < decodedSize cursor.item := by
  unfold item Instruction.decode
  split
  · contradiction
  · split
    · exact Nat.one_pos
    · next operation _ =>
      dsimp only
      split
      · exact operation.mode.size_pos
      · exact operation.mode.size_pos

theorem length_rest_following_lt {cursor : Cursor} (h : cursor.rest ≠ []) :
    cursor.following.rest.length < cursor.rest.length := by
  have := decodedSize_item_pos h
  have := List.length_pos_iff.2 h
  simp only [following, advance, List.length_drop]
  omega

/-- The places from the cursor to the end, after those in `found` (newest first). -/
def placesFrom (cursor : Cursor) (found : List Cursor) : List Cursor :=
  if _ : cursor.rest = [] then (cursor :: found).reverse
  else cursor.following.placesFrom (cursor :: found)
termination_by cursor.rest.length
decreasing_by exact length_rest_following_lt ‹_›

/-- The places the cursor comes to, from where it stands to the end. -/
def places (cursor : Cursor) : List Cursor := cursor.placesFrom []

end Cursor

/-- The listing of `bytes`, which begin at `start`. -/
def disassemble (bytes : List UInt8) (start : UInt16) : List Line :=
  (Cursor.start bytes start).places.filterMap Cursor.line?

/-- The listing of `count` bytes of memory from `start` on. -/
def disassembleMemory {M : Type} [Bus M] (memory : M) (start : UInt16) (count : Nat) :
    Except Fault (List Line) :=
  match Bus.readRange memory start count with
  | .ok bytes => .ok (disassemble bytes start)
  | .error cause => .error (.refused cause)

end Nmos6502
