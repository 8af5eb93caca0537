import Mathlib.Tactic.Common
import Nmos6502.Proofs.Tiling

/-!
# Where the lines of a listing stand

A line of a listing stands some bytes into the input: as many as the lines before it cover. From
there everything about the line can be said without the listing. Its address is that many addresses
after the start, around the end of the address space if need be. If it is a whole instruction, it is
the one that is decoded there; if it is not, it says why none is.

`Tiles` puts the first line in front of the others, so a statement about every line is an induction
over the lines before it. It is made once, in `Tiles.split`, and the rest is about a line that opens
a listing.

## Main definitions

* `Line.Tells` — what a line says about the bytes from its place on
* `Line.isTruncated` — the line stands for an instruction that is cut off

## Main results

* `Tiles.split` — the listing from any of its lines on
* `disassemble_tiles` — everything about the places of lines
-/

namespace Nmos6502

namespace Line

/-- What a line says about the bytes from its place on. A whole instruction is what is decoded
there. An illegal byte stands there and begins no instruction. What is cut off is all that is left;
it begins with a documented opcode and is too short for it, so no line comes `after` it. -/
def Tells (line : Line) (bytes : List UInt8) (after : List Line) : Prop :=
  match line with
  | .decoded instruction => Instruction.decode bytes line.address = .ok instruction
  | .illegal _ opcode => bytes.head? = some opcode ∧ operation? opcode = none
  | .truncated _ found =>
    after = [] ∧ found = bytes ∧ ∃ opcode operation, found.head? = some opcode ∧
      operation? opcode = some operation ∧ found.length < operation.size

/-- Whether a line stands for an instruction that is cut off. -/
def isTruncated : Line → Bool
  | .truncated _ _ => true
  | _ => false

theorem Opens.tells {line : Line} {start : UInt16} {rest : List UInt8} {after : List Line}
    (h : line.Opens start rest) (hafter : rest = [] → after = []) :
    line.Tells (line.bytes ++ rest) after := by
  cases h with
  | decoded legal whole => exact Instruction.decode_of_whole legal whole start rest
  | illegal unknown => exact ⟨rfl, unknown⟩
  | @truncated opcode operation legal operand short =>
    exact ⟨hafter rfl, (List.append_nil _).symm, opcode, operation, rfl, legal,
      Instruction.length_of_short short⟩

end Line

namespace Tiles

variable {bytes : List UInt8} {start : UInt16} {line : Line} {lines before after : List Line}

/-- Where no byte is left there is no line. -/
theorem eq_nil (h : Tiles [] start lines) : lines = [] := by
  cases lines with
  | nil => rfl
  | cons line lines =>
    have hbytes := h.flatMap_bytes
    obtain ⟨rest, hopens⟩ := h.exists_opens_of_mem (List.mem_cons_self ..)
    rw [List.flatMap_cons] at hbytes
    exact absurd (List.append_eq_nil_iff.mp hbytes).1 hopens.bytes_ne_nil

/-- **The listing from a line on** is the listing of the bytes that the lines before it leave over,
and it begins as many addresses after the start as these lines cover. -/
theorem split (h : Tiles bytes start (before ++ after)) :
    Tiles (bytes.drop (before.flatMap Line.bytes).length)
      (start + UInt16.ofNat (before.flatMap Line.bytes).length) after := by
  induction before generalizing bytes start with
  | nil => simpa using h
  | cons line before ih =>
    cases h with
    | cons opens later =>
      rw [List.flatMap_cons, List.length_append, List.drop_length_add_append, UInt16.ofNat_add,
        ← UInt16.add_assoc]
      exact ih later

theorem head (h : Tiles bytes start (line :: lines)) : line.address = start := by
  cases h with
  | cons opens later => exact opens.address_eq

theorem tells (h : Tiles bytes start (line :: after)) : line.Tells bytes after := by
  cases h with
  | cons opens later =>
    refine opens.tells fun hrest => ?_
    rw [hrest] at later
    exact later.eq_nil

/-- Every line begins where the one before it ends. -/
theorem isChain (h : Tiles bytes start lines) :
    lines.IsChain fun line next =>
      next.address = line.address + UInt16.ofNat line.bytes.length := by
  induction h with
  | nil => exact .nil
  | @cons line start rest lines opens later ih =>
    cases lines with
    | nil => exact .singleton line
    | cons next lines => exact .cons_cons (by rw [later.head, opens.address_eq]) ih

/-- Only one line can be cut off, since nothing comes after it. -/
theorem countP_isTruncated_le (h : Tiles bytes start lines) :
    lines.countP Line.isTruncated ≤ 1 := by
  induction h with
  | nil => exact Nat.zero_le _
  | cons opens later ih =>
    cases opens with
    | decoded | illegal => exact ih
    | truncated =>
      rw [later.eq_nil]
      exact Nat.le_refl _

end Tiles

/-- **Lines tile the input.** Together they have all the bytes, one to three each. The first stands
at the start and every other where the one before it ends. What a line says is true of the bytes
from its place on, which is the number of bytes before it; and at most one line is cut off, which
is the last. -/
theorem disassemble_tiles (bytes : List UInt8) (start : UInt16) :
    (disassemble bytes start).flatMap Line.bytes = bytes ∧
    (∀ line ∈ disassemble bytes start, 1 ≤ line.bytes.length ∧ line.bytes.length ≤ 3) ∧
    (∀ line ∈ (disassemble bytes start).head?, line.address = start) ∧
    ((disassemble bytes start).IsChain fun line next =>
      next.address = line.address + UInt16.ofNat line.bytes.length) ∧
    (disassemble bytes start).countP Line.isTruncated ≤ 1 ∧
    ∀ before line after, disassemble bytes start = before ++ line :: after →
      line.address = start + UInt16.ofNat (before.flatMap Line.bytes).length ∧
        line.Tells (bytes.drop (before.flatMap Line.bytes).length) after := by
  have htiles := tiles_disassemble bytes start
  refine ⟨htiles.flatMap_bytes, fun line hl => ?_, fun line hl => ?_, htiles.isChain,
    htiles.countP_isTruncated_le, fun before line after hsplit => ?_⟩
  · obtain ⟨rest, hopens⟩ := htiles.exists_opens_of_mem hl
    exact ⟨List.length_pos_iff.mpr hopens.bytes_ne_nil, hopens.length_bytes_le⟩
  · obtain ⟨lines, hlines⟩ := List.head?_eq_some_iff.mp hl
    rw [hlines] at htiles
    exact htiles.head
  · rw [hsplit] at htiles
    exact ⟨htiles.split.head, htiles.split.tells⟩

/-- A load at the end of the address space, then a byte that begins nothing at its beginning, then
a store that is cut off. -/
theorem disassemble_tiles_wrapping :
    disassemble [0xA9, 0x05, 0x02, 0x8D, 0x00] 0xFFFE =
      [.decoded ⟨0xFFFE, 0xA9, .lda, .immediate, [0xA9, 0x05], 2, 2⟩, .illegal 0x0000 0x02,
        .truncated 0x0001 [0x8D, 0x00]] ∧
    Instruction.decode [0xA9, 0x05, 0x02, 0x8D, 0x00] 0xFFFE =
      .ok ⟨0xFFFE, 0xA9, .lda, .immediate, [0xA9, 0x05], 2, 2⟩ ∧
    (0x0001 : UInt16) = 0xFFFE + 3 ∧ ∃ operation, operation? 0x8D = some operation ∧
      2 < operation.size := by
  have hlines : disassemble [0xA9, 0x05, 0x02, 0x8D, 0x00] 0xFFFE =
      [.decoded ⟨0xFFFE, 0xA9, .lda, .immediate, [0xA9, 0x05], 2, 2⟩, .illegal 0x0000 0x02,
        .truncated 0x0001 [0x8D, 0x00]] := by decide +kernel
  obtain ⟨-, -, -, -, -, hplaces⟩ := disassemble_tiles [0xA9, 0x05, 0x02, 0x8D, 0x00] 0xFFFE
  obtain ⟨-, hload⟩ := hplaces [] _ _ hlines
  obtain ⟨hplace, -, -, opcode, operation, hopcode, ho, hshort⟩ := hplaces [_, _] _ [] hlines
  cases hopcode
  exact ⟨hlines, hload, hplace, operation, ho, hshort⟩

end Nmos6502
